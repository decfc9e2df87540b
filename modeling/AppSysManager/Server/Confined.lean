import AppSysManager.Node.Main
import AppSysManager.Server.Containment

/-!
# Writes inside the Storage

Which events make the node store or read outside the objects it means to.

There are three ways to do it.  `csp_print_func` always does: it hands `param_set_string`
all `STDBUF_SIZE + 1` bytes of `_stdbuf`, and the setter puts its terminator behind them.
A push does it with a string of more than `STDBUF_SIZE` bytes, and with one that claims to
be longer than the packet; nothing checks either length.  And a packet shorter than what
its handler subtracts from the length field makes that field wrap around.

- `ConfinedEvent`: the store is inside the parameter's storage, the fetch inside the payload.
- `Accounts`: what decides whether a piece of execution is confined.
- `run_confined_iff`: a run is confined exactly when each of its stimuli fits the node at
  the time.
-/

namespace AppSysManager.Server

open AppSysManager.Bytes AppSysManager.Mpack AppSysManager.Node

/-! ## §1 Confined events -/

/-- Bytes of a parameter are stored inside its declared storage, and bytes of a packet are
    fetched from inside its payload. -/
def ConfinedEvent : Event → Prop
  | .store p off len => off + len ≤ p.storage
  | .fetch lo hi length => lo < hi → 0 ≤ lo ∧ hi ≤ length
  | _ => True

/-- All events between two nodes are confined. -/
abbrev Confined : State → State → Prop := Grows ConfinedEvent

/-- The trace has only grown. -/
abbrev Later : State → State → Prop := Grows fun _ => True

theorem confined_iff {s s' : State} {evs : List Event} (h : s'.trace = s.trace ++ evs) :
    Confined s s' ↔ ∀ e ∈ evs, ConfinedEvent e := by
  constructor
  · rintro ⟨evs', h', hevs⟩
    rw [h, List.append_cancel_left_eq] at h'
    rwa [h']
  · exact fun hevs => ⟨evs, h, hevs⟩

theorem Later.confined_iff {a b c : State} (h : Later a b) (h' : Later b c) :
    Confined a c ↔ Confined a b ∧ Confined b c := by
  obtain ⟨evs, htrace, -⟩ := h
  obtain ⟨evs', htrace', -⟩ := h'
  have hall : c.trace = a.trace ++ (evs ++ evs') := by rw [htrace', htrace, List.append_assoc]
  rw [Server.confined_iff htrace, Server.confined_iff htrace', Server.confined_iff hall]
  simp only [List.mem_append, or_imp, forall_and]

theorem Grows.later {P : Event → Prop} {s s' : State} (h : Grows P s s') : Later s s' :=
  h.mono fun _ _ => trivial

/-- No print is confined. -/
theorem printEvents_not_confined (text : List UInt8) :
    ∃ e ∈ printEvents text, ¬ ConfinedEvent e :=
  ⟨.store .stdoutBuf (STDBUF_SIZE + 1) 1, by simp [printEvents], Nat.not_le.mpr (by decide)⟩

theorem cspPrintFunc_not_confined (env : Env) (s : State) (text : List UInt8) :
    ¬ Confined s (cspPrintFunc env s text) := by
  rw [confined_iff (cspPrintFunc_extends env s text).trace]
  intro hall
  obtain ⟨e, he, hnot⟩ := printEvents_not_confined (printed text)
  exact hnot (hall e he)

/-! ## §2 Setter calls -/

/-- A callback that runs, with the value it sees. -/
structure Call where
  callback : Callback
  value : Nat

/-- How often the callback calls `popen`. -/
def Call.popens (c : Call) : Nat := (callbackCommands c.value c.callback).length

/-- None of the callbacks prints; `n` is the number of `popen` calls so far. -/
def Quiet (env : Env) : Nat → List Call → Prop
  | _, [] => True
  | n, c :: calls =>
    callbackTexts c.value (env.popen n) c.callback = [] ∧ Quiet env (n + c.popens) calls

/-- The number of `popen` calls of a list of callbacks. -/
def popenCount (calls : List Call) : Nat := (calls.map Call.popens).sum

theorem quiet_append (env : Env) (n : Nat) (as bs : List Call) :
    Quiet env n (as ++ bs) ↔ Quiet env n as ∧ Quiet env (n + popenCount as) bs := by
  induction as generalizing n with
  | nil => simp [Quiet, popenCount]
  | cons c as ih =>
    have hsum : n + c.popens + popenCount as = n + popenCount (c :: as) := by
      simp only [popenCount, List.map_cons, List.sum_cons]
      omega
    rw [List.cons_append, Quiet, Quiet, ih, hsum, and_assoc]

/-- The callbacks one setter call runs. -/
def Elem.calls (p : Param) (e : Elem) : List Call :=
  match p.callback, e.value with
  | some callback, .num x => if e.index ≤ p.arraySize then [⟨callback, converted p x⟩] else []
  | _, _ => []

/-- The bytes of a value, and the terminator behind a string, fit into the parameter. -/
def Value.Short (p : Param) : Value → Prop
  | .str _ len => len < p.name.storage
  | .data _ len => len ≤ p.name.storage
  | .overrun len => len ≤ p.name.storage
  | .num _ => True
  | .emptyStr => True

/-- A piece of execution that is confined when `fits` holds and none of its callbacks
    prints. -/
structure Accounts (env : Env) (s s' : State) (fits : Prop) (calls : List Call) : Prop where
  later : Later s s'
  popens : s'.popens = s.popens + popenCount calls
  confined_iff : Confined s s' ↔ fits ∧ Quiet env s.popens calls

theorem Accounts.refl (env : Env) (s : State) : Accounts env s s True [] :=
  ⟨Grows.refl s, rfl, iff_of_true (Grows.refl s) ⟨trivial, trivial⟩⟩

theorem Accounts.trans {env : Env} {a b c : State} {fits fits' : Prop} {calls calls' : List Call}
    (h : Accounts env a b fits calls) (h' : Accounts env b c fits' calls') :
    Accounts env a c (fits ∧ fits') (calls ++ calls') where
  later := h.later.trans h'.later
  popens := by
    rw [h'.popens, h.popens]
    simp only [popenCount, List.map_append, List.sum_append]
    omega
  confined_iff := by
    rw [Later.confined_iff h.later h'.later, h.confined_iff, h'.confined_iff, h.popens, quiet_append]
    tauto

theorem Accounts.congr {env : Env} {s s' : State} {fits fits' : Prop} {calls : List Call}
    (h : Accounts env s s' fits calls) (hfits : fits ↔ fits') : Accounts env s s' fits' calls :=
  ⟨h.later, h.popens, by rw [h.confined_iff, hfits]⟩

/-- A store of a number is confined unless its callback prints. -/
theorem setEvents_confined_iff {p : Param} (hp : Scalar p) (env : Env) (s : State) (v : Nat) :
    (∀ e ∈ setEvents env s p v, ConfinedEvent e) ↔
      ∀ callback, p.callback = some callback →
        callbackTexts v (env.popen s.popens) callback = [] := by
  constructor
  · intro hall callback hc
    rcases htexts : callbackTexts v (env.popen s.popens) callback with _ | ⟨text, texts⟩
    · rfl
    -- one print is enough: its terminator lands behind `_stdbuf`
    · obtain ⟨e, he, hnot⟩ := printEvents_not_confined text
      refine absurd (hall e ?_) hnot
      rw [setEvents, hc]
      simp only [callbackEvents, htexts, List.flatMap_cons, List.mem_append, List.mem_cons]
      exact .inr (.inr (.inr (.inl he)))
  · intro hquiet e he
    rcases mem_setEvents he with ⟨ok, he⟩ | rfl | ⟨ok, callback, hc, he⟩
    -- the store itself, and the file it is written back to
    · obtain ⟨-, -, hstorage, -⟩ := hp.layout
      rcases mem_writeEvents he with rfl | rfl | rfl
      · show 0 + p.type.size ≤ p.name.storage
        omega
      · trivial
      · trivial
    · trivial
    -- of the events of the callback only its prints could leave their bounds
    · rcases mem_callbackEvents he with he | ⟨cmd, rfl⟩ | ⟨text, htext, -⟩
      · unfold callbackIo at he
        cases callback <;> cases ok <;> simp at he
        all_goals (rcases he with rfl | rfl <;> trivial)
      · trivial
      · rw [hquiet callback hc] at htext
        cases htext

/-- One setter call on a number parameter. -/
theorem storeValue_accounts_scalar {p : Param} (hp : Scalar p) {e : Elem}
    (h : e.value.Fits p.type) (env : Env) (s : State) :
    Accounts env s (storeValue env s p e.index e.value) (e.value.Short p) (e.calls p) := by
  have hsize := hp.layout.1
  obtain ⟨x, hx⟩ := h.num hp
  have hshort : e.value.Short p ↔ True := by
    rw [hx]
    exact Iff.rfl
  rcases storeValue_scalar hp h env s with ⟨hi, hsame⟩ | ⟨hi, y, hy, hset⟩
  · -- dropped by the index guard
    have hcalls : e.calls p = [] := by
      rw [Elem.calls, hx]
      cases p.callback with
      | none => rfl
      | some callback => exact if_neg (by omega)
    rw [hsame, hcalls]
    exact (Accounts.refl env s).congr hshort.symm
  · have hcalls : e.calls p = (p.callback.map fun c => (⟨c, converted p y⟩ : Call)).toList := by
      rw [Elem.calls, hy]
      cases p.callback with
      | none => rfl
      | some callback => exact if_pos (by omega)
    refine ⟨⟨_, hset.events.trace, fun _ _ => trivial⟩, ?_, ?_⟩
    · rw [hset.events.popens, commandsOf_setEvents, hcalls]
      cases p.callback with
      | none => rfl
      | some callback => simp [popenCount, Call.popens]
    · rw [confined_iff hset.events.trace, setEvents_confined_iff hp, hshort, hcalls]
      cases p.callback with
      | none => simp [Quiet]
      | some callback => simp [Quiet]

/-- A write to a parameter in RAM is one store. -/
theorem paramWrite_confined_iff {p : Param} (hp : p.vmem = false) (env : Env) (s : State)
    (off len : Nat) (src : Nat → UInt8) :
    Later s (paramWrite env s p off len src) ∧
      (Confined s (paramWrite env s p off len src) ↔ off + len ≤ p.name.storage) := by
  have htrace := paramWrite_trace env s p off len src
  refine ⟨⟨_, htrace, fun _ _ => trivial⟩, ?_⟩
  rw [confined_iff htrace]
  simp [writeEvents, hp, ConfinedEvent]

/-- `param_set_string` of `len` bytes stores `len + 1`. -/
theorem paramSetString_accounts (env : Env) (s : State) (inbuf : Nat → UInt8) (len : Nat) :
    Accounts env s (paramSetString env s stdoutBuf inbuf len)
      (len < stdoutBuf.name.storage) [] := by
  have hbytes := paramWrite_confined_iff (show stdoutBuf.vmem = false from rfl) env s 0 len inbuf
  have hnul := paramWrite_confined_iff (show stdoutBuf.vmem = false from rfl) env
    (paramWrite env s stdoutBuf 0 len inbuf) len 1 fun _ => 0
  have heq : paramSetString env s stdoutBuf inbuf len =
    paramWrite env (paramWrite env s stdoutBuf 0 len inbuf) stdoutBuf len 1 fun _ => 0 := rfl
  rw [heq]
  refine ⟨hbytes.1.trans hnul.1, ?_, ?_⟩
  · rw [(paramWrite_frame env _ stdoutBuf len 1 _).popens,
      (paramWrite_frame env s stdoutBuf 0 len inbuf).popens]
    rfl
  · rw [Later.confined_iff hbytes.1 hnul.1, hbytes.2, hnul.2]
    simp only [Quiet, and_true]
    omega

/-- One setter call. -/
theorem storeValue_accounts {p : Param} (hp : p ∈ paramTable) {e : Elem}
    (h : e.value.Fits p.type) (env : Env) (s : State) :
    Accounts env s (storeValue env s p e.index e.value) (e.value.Short p) (e.calls p) := by
  by_cases hname : p.name = .stdoutBuf
  · obtain rfl : p = stdoutBuf := by rw [eq_param_of_mem hp, hname]; rfl
    have hcalls : e.calls stdoutBuf = [] := by
      unfold Elem.calls
      rfl
    rw [hcalls]
    cases hv : e.value with
    | num x => rw [hv] at h; exact absurd rfl h.1
    | str inbuf len => exact paramSetString_accounts env s inbuf len
    | emptyStr =>
      exact (paramSetString_accounts env s (fun _ => 0) 1).congr
        (iff_of_true (by decide) trivial)
    | data inbuf len => rw [hv] at h; cases h
    | overrun len =>
      have htrace : (storeValue env s stdoutBuf e.index (.overrun len)).trace =
        s.trace ++ [.store .stdoutBuf 0 len] := rfl
      refine ⟨⟨_, htrace, fun _ _ => trivial⟩, rfl, ?_⟩
      rw [confined_iff htrace]
      simp [ConfinedEvent, Value.Short, Quiet, stdoutBuf, paramDefineStaticRam]
  · exact storeValue_accounts_scalar ⟨hp, hname⟩ h env s

/-! ## §3 Packets -/

instance (p : Param) : DecidablePred (Value.Short p)
  | .str _ len => inferInstanceAs (Decidable (len < p.name.storage))
  | .data _ len => inferInstanceAs (Decidable (len ≤ p.name.storage))
  | .overrun len => inferInstanceAs (Decidable (len ≤ p.name.storage))
  | .num _ => inferInstanceAs (Decidable True)
  | .emptyStr => inferInstanceAs (Decidable True)

instance instDecidableQuiet (env : Env) : ∀ n calls, Decidable (Quiet env n calls)
  | _, [] => inferInstanceAs (Decidable True)
  | n, c :: calls =>
    have := instDecidableQuiet env (n + c.popens) calls
    inferInstanceAs (Decidable (_ ∧ _))

/-- All values of an entry fit into its parameter. -/
def Item.Short : Item → Prop
  | .known p _ _ elems => ∀ e ∈ elems, e.value.Short p
  | .unknown => True

instance : DecidablePred Item.Short
  | .known p _ _ elems => inferInstanceAs (Decidable (∀ e ∈ elems, e.value.Short p))
  | .unknown => inferInstanceAs (Decidable True)

/-- The callbacks of an entry. -/
def Item.calls : Item → List Call
  | .known p _ _ elems => elems.flatMap (Elem.calls p)
  | .unknown => []

theorem execElems_accounts {p : Param} (hp : p ∈ paramTable) {elems : List Elem}
    (h : ∀ e ∈ elems, e.value.Fits p.type) (env : Env) (s : State) :
    Accounts env s (execElems env p s elems) (∀ e ∈ elems, e.value.Short p)
      (elems.flatMap (Elem.calls p)) := by
  induction elems generalizing s with
  | nil => exact (Accounts.refl env s).congr (by simp)
  | cons e elems ih =>
    have hfirst := storeValue_accounts hp (h e (by simp)) env s
    have hrest := ih (fun e' he' => h e' (by simp [he'])) (storeValue env s p e.index e.value)
    exact (hfirst.trans hrest).congr (by simp)

theorem stamp_accounts (env : Env) (s : State) (p : Param) (t : Nat) :
    Accounts env s (stamp s p t) True [] :=
  ⟨⟨[], by simp [stamp], by simp⟩, rfl, iff_of_true ⟨[], by simp [stamp], by simp⟩
    ⟨trivial, trivial⟩⟩

theorem Item.exec_accounts {item : Item} (h : item.WellTyped) (env : Env) (s : State) :
    Accounts env s (item.exec env s) item.Short item.calls := by
  cases item with
  | unknown => exact Accounts.refl env s
  | known p header start elems =>
    have hstamp := stamp_accounts env s p (headerTimestamp header)
    exact (hstamp.trans (execElems_accounts h.1 h.2 env _)).congr ⟨And.right, .intro trivial⟩

/-- The entries of a packet. -/
theorem execItems_accounts {items : List Item} (h : ∀ item ∈ items, item.WellTyped) (env : Env)
    (s : State) :
    Accounts env s (execItems env s items) (∀ item ∈ items, item.Short)
      (items.flatMap Item.calls) := by
  induction items generalizing s with
  | nil => exact (Accounts.refl env s).congr (by simp)
  | cons item items ih =>
    have hfirst := Item.exec_accounts (h item (by simp)) env s
    have hrest := ih (fun i hi => h i (by simp [hi])) (item.exec env s)
    exact (hfirst.trans hrest).congr (by simp)

theorem emit_later (s : State) (e : Event) : Later s (s.emit e) := ⟨[e], rfl, by simp⟩

theorem emit_confined_iff (s : State) (e : Event) : Confined s (s.emit e) ↔ ConfinedEvent e := by
  rw [confined_iff (show (s.emit e).trace = s.trace ++ [e] from rfl)]
  simp

theorem prologue_later (packet : CspPacket) (s : State) : Later s (prologue packet s) := by
  unfold prologue
  split
  · exact emit_later s _
  · exact Grows.refl s

/-- The hwid lies inside the packet if there are four bytes for it. -/
theorem prologue_confined_iff (packet : CspPacket) (s : State) :
    Confined s (prologue packet s) ↔
      (packetType (packet.data 0) = .pushRequestV2Hwid → 4 ≤ packet.length) := by
  unfold prologue
  split
  · case isTrue h =>
    rw [emit_confined_iff]
    simp only [ConfinedEvent, h, true_imp_iff]
    omega
  · case isFalse h => exact iff_of_true (Grows.refl s) fun h' => absurd h' h

theorem PullReply.confined : ∀ e, PullReply e → ConfinedEvent e
  | .reply .., _ => trivial

/-- The pull in place of an acknowledgement reads nothing outside the packet. -/
theorem paramServePullRequest_confined {length : Nat} (hlo : 2 ≤ length)
    (hhi : length ≤ CSP_BUFFER_SIZE) (env : Env) (mem : Mem) (id : CspId) (version : Nat)
    (uninit : Uninit) (s : State) :
    Confined s (paramServePullRequest env mem id length false version uninit s) :=
  paramServePullRequest_grows hlo hhi PullReply.confined (fun _ htop _ => ⟨by omega, htop⟩)
    env mem id version uninit s

theorem pushAnswer_confined {length : Nat} (hlo : 2 ≤ length) (hhi : length ≤ CSP_BUFFER_SIZE)
    (env : Env) (mem : Mem) (id : CspId) (sendAck : Bool) (uninit : Uninit) (items : List Item)
    (s : State) : Confined s (pushAnswer env mem id length sendAck uninit items s) := by
  unfold pushAnswer
  split_ifs
  · exact Grows.refl s
  · exact Grows.refl s
  · exact paramServePullRequest_confined hlo hhi env mem id 2 uninit s
  · exact (emit_confined_iff s _).mpr trivial

/-- The packets `param_serve` hands to `param_serve_push`, accepted or not. -/
def EndsInPush (packet : CspPacket) : Prop :=
  packetType (packet.data 0) ∈ [PacketType.pushRequest, .pushRequestV2, .pushRequestV2Hwid,
    .pullResponse, .pullResponseV2]

instance : DecidablePred EndsInPush := fun packet => by
  unfold EndsInPush
  infer_instance

/-- The condition under which a push keeps to its bounds: the packet is long enough for the
    fields its handler takes from it, every string lies inside the payload and fits with
    its terminator into `_stdbuf`, and none of the callbacks prints. -/
structure PushFits (env : Env) (s : State) (packet : CspPacket) (uninit : Uninit) : Prop where
  hwid : packetType (packet.data 0) = .pushRequestV2Hwid → 4 ≤ packet.length
  queue : ∀ form ∈ pushForm env packet, 2 ≤ form.length
  contained : ∀ form ∈ pushForm env packet,
    ∀ item ∈ packetItems env packet uninit, item.Contained form.length
  short : ∀ item ∈ packetItems env packet uninit, item.Short
  quiet : Quiet env s.popens ((packetItems env packet uninit).flatMap Item.calls)

/-- The pass over the queue stays inside the payload exactly when there is a queue and all
    its values do. -/
theorem decode_confined_iff (env : Env) (form : PushForm) (packet : CspPacket) (uninit : Uninit)
    (hhi : form.length ≤ CSP_BUFFER_SIZE) :
    ConfinedEvent (.fetch 2 (form.decode env.mapped packet uninit).reader.top form.length) ↔
      2 ≤ form.length ∧
        ∀ item ∈ form.items env.mapped packet uninit, item.Contained form.length := by
  by_cases hlo : 2 ≤ form.length
  · obtain ⟨hin, hout⟩ := form.decode_within env packet uninit hlo hhi
    by_cases hall : ∀ item ∈ form.items env.mapped packet uninit, item.Contained form.length
    · exact iff_of_true (fun _ => ⟨by omega, (hin hall).top_le⟩) ⟨hlo, hall⟩
    · have htop : (form.length : Int) < (form.decode env.mapped packet uninit).reader.top := by
        push Not at hall
        exact hout hall
      refine iff_of_false (fun hfetch => ?_) fun h => hall h.2
      have := (hfetch (by omega)).2
      omega
  · -- the length field has wrapped around, and the reader starts behind the packet
    have hsize : CSP_BUFFER_SIZE = 2048 := rfl
    have htop : 3 ≤ (form.decode env.mapped packet uninit).reader.top := by
      apply decodeQueue_top <;> unfold usedOf <;> omega
    refine iff_of_false (fun hfetch => ?_) fun h => hlo h.1
    have := (hfetch (by omega)).2
    omega

/-- Serving a push is confined exactly when the push fits. -/
theorem paramServe_confined_iff {env : Env} {packet : CspPacket} (hpush : EndsInPush packet)
    (uninit : Uninit) {s : State} (hs : s.dead = false) :
    Confined s (paramServe env packet uninit s) ↔ PushFits env s packet uninit := by
  have hpro := prologue_later packet s
  cases hform : pushForm env packet with
  | none =>
    -- a hwid that is not this node's
    have htype : packetType (packet.data 0) = .pushRequestV2Hwid := by
      unfold pushForm at hform
      unfold EndsInPush at hpush
      cases htype : packetType (packet.data 0) <;> simp_all
    have hitems : packetItems env packet uninit = [] := by rw [packetItems, hform]
    rw [paramServe_rejected htype hform, prologue_confined_iff]
    constructor
    · intro hlen
      exact ⟨hlen, by simp [hform], by simp [hform], by simp [hitems], by simp [hitems, Quiet]⟩
    · exact fun hfits => hfits.hwid
  | some form =>
    have hexec := execItems_accounts (packetItems_wellTyped env packet uninit) env
      (prologue packet s)
    have hpopens : (prologue packet s).popens = s.popens := by
      unfold prologue
      split <;> rfl
    rw [paramServe_eq hform uninit hs]
    set s2 := execItems env (prologue packet s) (packetItems env packet uninit) with hs2
    set fetch : Event :=
      .fetch 2 (form.decode env.mapped packet uninit).reader.top form.length with hfetch
    have hanswer := (pushAnswer_answers env packet.data packet.id form.length form.sendAck uninit
      (packetItems env packet uninit) (s2.emit fetch)).grows.later
    rw [Later.confined_iff ((hpro.trans hexec.later).trans (emit_later s2 fetch)) hanswer,
      Later.confined_iff (hpro.trans hexec.later) (emit_later s2 fetch),
      Later.confined_iff hpro hexec.later, prologue_confined_iff, hexec.confined_iff,
      emit_confined_iff, hpopens]
    constructor
    · rintro ⟨⟨⟨hhwid, hshort, hquiet⟩, hinside⟩, -⟩
      obtain ⟨hlo, hall⟩ := (decode_confined_iff env form packet uninit
        (le_trans (pushForm_length hform hhwid) packet.length_le)).mp hinside
      rw [← packetItems_of_pushForm hform uninit] at hall
      exact ⟨hhwid, by simpa [hform] using hlo, by simpa [hform] using hall, hshort, hquiet⟩
    · intro hfits
      have hhi := le_trans (pushForm_length hform hfits.hwid) packet.length_le
      have hlo := hfits.queue form hform
      have hall := hfits.contained form hform
      rw [packetItems_of_pushForm hform uninit] at hall
      exact ⟨⟨⟨hfits.hwid, hfits.short, hfits.quiet⟩,
        (decode_confined_iff env form packet uninit hhi).mpr ⟨hlo, hall⟩⟩,
        pushAnswer_confined hlo hhi env _ _ _ _ _ _⟩

/-! ## §4 Runs -/

/-- What makes the node store something: its own log, or a push. -/
inductive Stimulus where
  | print (text : List UInt8)
  | push (packet : CspPacket) (uninit : Uninit) (h : EndsInPush packet)

/-- The node's reaction; a process that has been killed does not react. -/
def react (env : Env) (s : State) : Stimulus → State
  | .print text => if s.dead then s else cspPrintFunc env s text
  | .push packet uninit _ => deliver env s ⟨packet, uninit⟩

/-- A number of stimuli. -/
def reactAll (env : Env) (s : State) (stimuli : List Stimulus) : State :=
  stimuli.foldl (react env) s

/-- The condition under which a stimulus keeps to its bounds.  A print never does. -/
def Stimulus.Fits (env : Env) (s : State) : Stimulus → Prop
  | .print _ => False
  | .push packet uninit _ => PushFits env s packet uninit

/-- Every stimulus fits the node it meets. -/
def FittingRun (env : Env) : State → List Stimulus → Prop
  | _, [] => True
  | s, stimulus :: stimuli =>
    stimulus.Fits env s ∧ FittingRun env (react env s stimulus) stimuli

/-- A push that fits does not kill the process. -/
theorem PushFits.alive {env : Env} {s : State} {packet : CspPacket} {uninit : Uninit}
    (h : PushFits env s packet uninit) (hs : s.dead = false) :
    (paramServe env packet uninit s).dead = false := by
  obtain ⟨buffers, evs, -, heq⟩ := paramServe_applied env packet uninit hs
  have hdead : (paramServe env packet uninit s).dead =
      (packetItems env packet uninit).any Item.isOverrun := by
    rw [heq]
    show (execItems env (prologue packet s) (packetItems env packet uninit)).dead = _
    rw [execItems_dead, prologue_dead, hs, Bool.false_or]
  rw [hdead]
  cases hform : pushForm env packet with
  | none => rw [packetItems, hform]; rfl
  | some form =>
    refine List.any_eq_false.mpr fun item hitem => ?_
    rw [not_overrun_of_contained (h.contained form hform item hitem)]
    exact Bool.false_ne_true

/-- One stimulus. -/
theorem react_confined_iff {env : Env} {s : State} (hs : s.dead = false) (stimulus : Stimulus) :
    Confined s (react env s stimulus) ↔ stimulus.Fits env s := by
  cases stimulus with
  | print text =>
    have heq : react env s (.print text) = cspPrintFunc env s text := by simp [react, hs]
    rw [heq]
    exact iff_of_false (cspPrintFunc_not_confined env s text) id
  | push packet uninit h =>
    have heq : react env s (.push packet uninit h) = paramServe env packet uninit s := by
      simp [react, deliver, hs]
    rw [heq]
    exact paramServe_confined_iff h uninit hs

theorem react_later (env : Env) (s : State) (stimulus : Stimulus) :
    Later s (react env s stimulus) := by
  cases stimulus with
  | print text =>
    show Later s (if s.dead then s else cspPrintFunc env s text)
    split
    · exact Grows.refl s
    · exact ⟨_, (cspPrintFunc_extends env s text).trace, fun _ _ => trivial⟩
  | push packet uninit h =>
    show Later s (deliver env s ⟨packet, uninit⟩)
    unfold deliver
    split
    · exact Grows.refl s
    · case isFalse hdead =>
      refine paramServe_preserves Grows.refl (fun _ _ _ => Grows.trans) ?_ ?_ ?_ (by simpa using hdead)
      · exact fun s p t => (stamp_accounts env s p t).later
      · exact fun s s' h => h.grows.later
      · exact fun p _ _ _ _ e _ s => (storeValue_nodeEvents env s p e.index e.value).later

theorem reactAll_later (env : Env) (s : State) (stimuli : List Stimulus) :
    Later s (reactAll env s stimuli) :=
  foldl_preserves Grows.refl (fun _ _ _ => Grows.trans) (fun x _ s => react_later env s x) s

/-- In a run of prints and pushes every store lies inside the parameter it is for, and every
    byte taken from a packet inside its payload, exactly when each stimulus fits the node
    it meets. -/
theorem reactAll_confined_iff {env : Env} {s : State} (hs : s.dead = false)
    (stimuli : List Stimulus) :
    Confined s (reactAll env s stimuli) ↔ FittingRun env s stimuli := by
  induction stimuli generalizing s with
  | nil => exact iff_of_true (Grows.refl s) trivial
  | cons stimulus stimuli ih =>
    have hsplit : reactAll env s (stimulus :: stimuli) =
      reactAll env (react env s stimulus) stimuli := rfl
    rw [hsplit, Later.confined_iff (react_later env s stimulus) (reactAll_later env _ stimuli),
      react_confined_iff hs, FittingRun]
    refine and_congr_right fun hfits => ih ?_
    cases stimulus with
    | print text => exact hfits.elim
    | push packet uninit h =>
      show (deliver env s ⟨packet, uninit⟩).dead = false
      rw [deliver, if_neg (by simp [hs])]
      exact PushFits.alive hfits hs

/-- A push of `stdout_buf = "hi"` and `mng_dipp = 5`. -/
def fittingPush : Delivery := deliveryOf [2, 0, 41, 0xa2, 104, 105, 34, 5] (by decide)

theorem reactAll_confined_iff_hi :
    Confined (initialState none none) (reactAll plainEnv (initialState none none)
      [.push fittingPush.packet fittingPush.uninit (by decide)]) :=
  (reactAll_confined_iff rfl _).mpr
    ⟨⟨by decide, by decide, by decide, by decide, by decide⟩, trivial⟩

/-- A booted node that logs anything writes behind the end of `_stdbuf`. -/
theorem print_not_confined :
    ¬ Confined (main plainEnv (initialState none none))
      (cspPrintFunc plainEnv (main plainEnv (initialState none none)) (asciiBytes "hi")) :=
  cspPrintFunc_not_confined _ _ _

end AppSysManager.Server
