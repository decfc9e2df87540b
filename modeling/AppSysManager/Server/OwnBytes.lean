import AppSysManager.Server.Responses

/-!
# A Request Means its own Bytes

The handlers of `param_serve` compute their offsets from `packet->length` without looking
whether the packet is that long, and look parameters up under ids and nodes that
`param_deserialize_id` may not have set.  Which packets are served without a look at the
rest of the buffer or at an indeterminate local is decided by the packet alone.

- `selfContained`: the packet is long enough for its handler, all its headers are settled
  and all its values contained.
- `ownBytes_of_selfContained`: such a packet has one outcome in each state, and nothing
  outside its buffer is read.
- `shortPullAll_mixed`: a pull-all request without its mask is answered by what happens to
  stand in the buffer.
-/

namespace AppSysManager.Server

open AppSysManager.Bytes AppSysManager.Mpack AppSysManager.Node

/-! ## §1 The property -/

/-- Two packets that agree in everything the sender decides. -/
structure SameRequest (packet packet' : CspPacket) : Prop where
  id : packet'.id = packet.id
  length : packet'.length = packet.length
  payload : AgreeOn packet.data packet'.data 0 packet.length

theorem SameRequest.refl (packet : CspPacket) : SameRequest packet packet :=
  ⟨rfl, rfl, fun _ _ _ => rfl⟩

/-- Events other than fetches from a packet. -/
def isEffect : Event → Bool
  | .fetch .. => false
  | _ => true

/-- The same parameters, callbacks, replies and other effects. -/
structure SameOutcome (s s' : State) : Prop where
  ram : s'.ram = s.ram
  vmemConfigBuf : s'.vmemConfigBuf = s.vmemConfigBuf
  timestamp : s'.timestamp = s.timestamp
  effects : s'.trace.filter isEffect = s.trace.filter isEffect

theorem SameOutcome.of_eq {s s' : State} (h : s' = s) : SameOutcome s s' := by
  subst h
  exact ⟨rfl, rfl, rfl, rfl⟩

/-- Nothing outside the packet's buffer is fetched. -/
def BufferEvent : Event → Prop
  | .fetch lo hi _ => lo < hi → 0 ≤ lo ∧ hi ≤ CSP_BUFFER_SIZE
  | _ => True

/-- In every state the packet means its own bytes: the rest of the buffer and the
    indeterminate locals make no difference, and nothing outside the buffer is read. -/
structure OwnBytes (env : Env) (packet : CspPacket) : Prop where
  outcome : ∀ s : State, s.dead = false → ∀ packet' uninit uninit', SameRequest packet packet' →
    SameOutcome (paramServe env packet uninit s) (paramServe env packet' uninit' s)
  buffer : ∀ s : State, s.dead = false → ∀ uninit,
    Grows BufferEvent s (paramServe env packet uninit s)

/-! ## §2 The condition -/

/-- The pass over a pull request uses its own bytes only. -/
def pullOwn (mem : Mem) (id : CspId) (length version : Nat) : Bool :=
  decide (2 ≤ length) &&
    pullSettled mem id.dst (decide (mem 1 = 1)) (usedOf length) (queueStateInit version)
      (mpackReaderInitData 2 (usedOf length))

/-- Will the push be answered by a pull?  That takes an ack, no unknown id, and a 1 in the
    second byte. -/
def answeredByPull (env : Env) (packet : CspPacket) (form : PushForm) : Bool :=
  form.sendAck && decide (packet.data 1 = 1) &&
    !(form.items env.mapped packet ⟨noJunk, noJunk, noJunk⟩).any Item.isUnknown

/-- The passes over a push use its own bytes only. -/
def pushOwn (env : Env) (packet : CspPacket) (form : PushForm) : Bool :=
  decide (2 ≤ form.length) &&
    applySettled env.mapped form.length packet.data (form.applyLocal || decide (packet.id.src ≠ 0))
      (readEntry packet.data form.applyLocal packet.id.src noJunk) (usedOf form.length)
      (queueStateInit form.version) (mpackReaderInitData 2 (usedOf form.length)) &&
    (!answeredByPull env packet form || pullOwn packet.data packet.id form.length 2)

/-- The packet is long enough for the fields its handler takes from it, every header of its
    queue is settled, and every value in it lies inside the payload. -/
def selfContained (env : Env) (packet : CspPacket) : Bool :=
  decide (1 ≤ packet.length) &&
    match packetType (packet.data 0) with
    | .pullRequest => pullOwn packet.data packet.id packet.length 1
    | .pullRequestV2 => pullOwn packet.data packet.id packet.length 2
    | .pullAllRequest => decide (8 ≤ packet.length)
    | .pullAllRequestV2 => decide (12 ≤ packet.length)
    | .pushRequestV2Hwid => decide (4 ≤ packet.length) && (pushForm env packet).all (pushOwn env packet)
    | .other => true
    | _ => (pushForm env packet).all (pushOwn env packet)

/-! ## §3 Pull requests -/

theorem PullReply.inBuffer : ∀ e, PullReply e → BufferEvent e
  | .reply .., _ => trivial

theorem payload_byte {packet packet' : CspPacket} (h : SameRequest packet packet') {i : Nat}
    (hi : i < packet.length) : packet'.data i = packet.data i :=
  (h.payload i (by omega) (by omega)).symm

/-- The pass over a pull request that uses its own bytes. -/
theorem paramServePullRequest_congr {m m' : Mem} {id : CspId} {length version : Nat}
    (hagree : AgreeOn m m' 0 length) (hhi : length ≤ CSP_BUFFER_SIZE)
    (hown : pullOwn m id length version = true) (env : Env) (uninit uninit' : Uninit) (s : State) :
    paramServePullRequest env m' id length false version uninit' s =
        paramServePullRequest env m id length false version uninit s ∧
      Grows BufferEvent s (paramServePullRequest env m id length false version uninit s) := by
  rw [pullOwn, Bool.and_eq_true, decide_eq_true_eq] at hown
  obtain ⟨hlo, hsettled⟩ := hown
  -- the acknowledgement flag is a byte of the payload
  have hone : m' 1 = m 1 := (hagree 1 (by omega) (by omega)).symm
  constructor
  · unfold paramServePullRequest
    dsimp only
    rw [hone]
    rcases heq : allocate env s version with ⟨s1, _ | queue⟩
    · rfl
    -- the response starts empty, and an empty response is readable
    · have hqueue : ReadableResponse queue := by
        obtain ⟨-, hsome⟩ := Prod.mk.inj heq
        split at hsome
        · obtain rfl := Option.some.inj hsome
          exact paramQueueInit_readable version
        · cases hsome
      dsimp only
      rw [if_neg Bool.false_ne_true, if_neg Bool.false_ne_true,
        pullLoop_congr hagree env id (decide (m 1 = 1)) uninit uninit' (usedOf length)
          (mpackReaderInitData_length hlo hhi) hsettled fun _ => hqueue]
  · refine paramServePullRequest_grows hlo hhi PullReply.inBuffer ?_ env m id version uninit s
    exact fun top htop _ => ⟨by omega, by omega⟩

/-- A pull of all parameters that has its masks. -/
theorem paramServePullAll_congr {m m' : Mem} {length version : Nat}
    (hagree : AgreeOn m m' 0 length) (hlength : (if 2 ≤ version then 12 else 8) ≤ length)
    (id : CspId) (env : Env) (uninit uninit' : Uninit) (s : State) :
    paramServePullRequest env m' id length true version uninit' s =
        paramServePullRequest env m id length true version uninit s ∧
      Grows BufferEvent s (paramServePullRequest env m id length true version uninit s) := by
  have hreply : ∀ {s s' : State}, Answers PullReply s s' → Grows BufferEvent s s' := fun h =>
    h.grows.mono PullReply.inBuffer
  -- both masks lie inside the payload
  have hinclude : loadBE m' 4 4 = loadBE m 4 4 :=
    loadBE_congr (hagree.symm.mono (by omega) (by split at hlength <;> omega))
  have hexclude : (if 2 ≤ version then loadBE m' 8 4 else 0) =
      if 2 ≤ version then loadBE m 8 4 else 0 := by
    split
    · case isTrue hv =>
      rw [if_pos hv] at hlength
      exact loadBE_congr (hagree.symm.mono (by omega) (by omega))
    · rfl
  have halloc := hreply (allocate_replies env s version)
  unfold paramServePullRequest
  dsimp only
  rw [hinclude, hexclude]
  rcases heq : allocate env s version with ⟨s1, _ | queue⟩
  · rw [heq] at halloc
    exact ⟨rfl, halloc⟩
  · rw [heq] at halloc
    simp only [if_true, true_and]
    -- the one fetch of such a request is that of the masks
    have hfetch : Grows BufferEvent s1
        (s1.emit (.fetch 4 (if 2 ≤ version then 12 else 8) length)) := by
      refine ⟨[_], rfl, ?_⟩
      have hsize : CSP_BUFFER_SIZE = 2048 := rfl
      simp only [List.mem_singleton, forall_eq, BufferEvent]
      split <;> omega
    have hloop := (halloc.trans hfetch).trans (hreply (pullAllLoop_replies env id (loadBE m 4 4)
      (if 2 ≤ version then loadBE m 8 4 else 0) env.section_ queue _))
    rcases hpull : pullAllLoop env id (loadBE m 4 4) (if 2 ≤ version then loadBE m 8 4 else 0)
      env.section_ queue (s1.emit (.fetch 4 (if 2 ≤ version then 12 else 8) length)) with
      ⟨s2, _ | queue2⟩
    · rw [hpull] at hloop
      exact hloop
    · rw [hpull] at hloop
      exact hloop.trans (hreply (send_replies _ _ _ _))

/-! ## §4 Push requests -/

theorem packetType_congr {packet packet' : CspPacket} (h : SameRequest packet packet')
    (hone : 1 ≤ packet.length) : packetType (packet'.data 0) = packetType (packet.data 0) := by
  have hbyte := payload_byte h (i := 0) (by omega)
  rw [Nat.cast_zero] at hbyte
  rw [hbyte]

/-- A hwid that is inside the packet is the same in both. -/
theorem hwidOf_congr {packet packet' : CspPacket} (h : SameRequest packet packet')
    (hfour : 4 ≤ packet.length) :
    hwidOf packet'.data packet'.length = hwidOf packet.data packet.length := by
  rw [h.length]
  unfold hwidOf
  apply loadLE_congr
  intro k hk
  exact (h.payload _ (by omega) (by omega)).symm

theorem pushForm_congr {packet packet' : CspPacket} (h : SameRequest packet packet')
    (hone : 1 ≤ packet.length)
    (hhwid : packetType (packet.data 0) = .pushRequestV2Hwid → 4 ≤ packet.length) (env : Env) :
    pushForm env packet' = pushForm env packet := by
  unfold pushForm
  rw [packetType_congr h hone]
  cases htype : packetType (packet.data 0) with
  | pushRequestV2Hwid =>
    have hacc : hwidAccepted env packet' = hwidAccepted env packet := by
      rw [hwidAccepted, hwidAccepted, hwidOf_congr h (hhwid htype)]
    simp only [hacc, h.length]
  | _ => simp only [h.length]

theorem prologue_congr {packet packet' : CspPacket} (h : SameRequest packet packet')
    (hone : 1 ≤ packet.length) (s : State) : prologue packet' s = prologue packet s := by
  unfold prologue
  rw [packetType_congr h hone, h.length]

theorem prologue_inBuffer {packet : CspPacket}
    (hhwid : packetType (packet.data 0) = .pushRequestV2Hwid → 4 ≤ packet.length) (s : State) :
    Grows BufferEvent s (prologue packet s) := by
  unfold prologue
  split
  · case isTrue htype =>
    have hfour := hhwid htype
    have hle := packet.length_le
    refine ⟨[_], rfl, ?_⟩
    simp only [List.mem_singleton, forall_eq, BufferEvent]
    omega
  · exact Grows.refl s

/-- The queue of a push that uses its own bytes decodes to the same entries. -/
theorem PushForm.decode_congr {env : Env} {packet packet' : CspPacket}
    (h : SameRequest packet packet')
    {form : PushForm} (hle : form.length ≤ packet.length) (hlo : 2 ≤ form.length)
    (hsettled : applySettled env.mapped form.length packet.data
      (form.applyLocal || decide (packet.id.src ≠ 0))
      (readEntry packet.data form.applyLocal packet.id.src noJunk) (usedOf form.length)
      (queueStateInit form.version) (mpackReaderInitData 2 (usedOf form.length)) = true)
    (uninit uninit' : Uninit) :
    form.decode env.mapped packet' uninit' = form.decode env.mapped packet uninit ∧
      ∀ item ∈ form.items env.mapped packet uninit, item.Contained form.length := by
  have hhi : form.length ≤ CSP_BUFFER_SIZE := le_trans hle packet.length_le
  have hsize : CSP_BUFFER_SIZE = 2048 := rfl
  have hlimit : (form.length : Int) < 2 ^ 32 := by omega
  have hmapped : (form.length : Int) < env.mapped := by
    have := env.mapped_ge
    omega
  obtain ⟨hsame, hall⟩ := decodeLoop_congr (h.payload.mono le_rfl (by omega)) hlimit hmapped
    (mpackReaderInitData_length hlo hhi) hsettled uninit.apply uninit'.apply
  rw [PushForm.items, PushForm.decode, PushForm.decode, decodeQueue, decodeQueue, h.id]
  exact ⟨hsame.symm, hall⟩

theorem NodeEvent.inBuffer : ∀ e, NodeEvent e → BufferEvent e
  | .fetch .., h => absurd trivial h
  | .reply .., _ | .store .., _ | .callback .., _ | .memcpy .., _ | .print .., _ | .popen .., _
  | .system .., _ | .fopen .., _ | .fclose .., _ | .canOpen .., _ | .canConfig .., _ => trivial

theorem execItems_inBuffer (env : Env) (items : List Item) (s : State) :
    Grows BufferEvent s (execItems env s items) := by
  apply execItems_preserves Grows.refl (fun _ _ _ => Grows.trans)
  · exact fun s p t => ⟨[], by simp [stamp], by simp⟩
  · exact fun p _ _ _ _ e _ s => (storeValue_nodeEvents env s p e.index e.value).mono
      NodeEvent.inBuffer

/-- The answer to a push that uses its own bytes. -/
theorem pushAnswer_congr (env : Env) {packet packet' : CspPacket} (h : SameRequest packet packet')
    {form : PushForm} (hle : form.length ≤ packet.length) (hlo : 2 ≤ form.length)
    (hown : answeredByPull env packet form = true → pullOwn packet.data packet.id form.length 2 = true)
    {items : List Item}
    (hunknown : items.any Item.isUnknown =
      (form.items env.mapped packet ⟨noJunk, noJunk, noJunk⟩).any Item.isUnknown)
    (uninit uninit' : Uninit) (s : State) :
    pushAnswer env packet'.data packet'.id form.length form.sendAck uninit' items s =
        pushAnswer env packet.data packet.id form.length form.sendAck uninit items s ∧
      Grows BufferEvent s
        (pushAnswer env packet.data packet.id form.length form.sendAck uninit items s) := by
  have hone : packet'.data 1 = packet.data 1 := payload_byte h (i := 1) (by omega)
  unfold pushAnswer
  rw [hone, h.id]
  split_ifs with hover hskip hpull
  · exact ⟨rfl, Grows.refl s⟩
  · exact ⟨rfl, Grows.refl s⟩
  · have hanswered : answeredByPull env packet form = true := by
      rw [not_or, hunknown] at hskip
      simp [answeredByPull, hpull, hskip]
    exact paramServePullRequest_congr (h.payload.mono le_rfl (by omega))
      (le_trans hle packet.length_le) (hown hanswered) env uninit uninit' s
  · exact ⟨rfl, ⟨[_], rfl, by simp [BufferEvent]⟩⟩

/-- Serving a push that uses its own bytes. -/
theorem paramServe_push_congr {env : Env} {packet packet' : CspPacket}
    (h : SameRequest packet packet') (hone : 1 ≤ packet.length)
    (hhwid : packetType (packet.data 0) = .pushRequestV2Hwid → 4 ≤ packet.length)
    {form : PushForm} (hform : pushForm env packet = some form)
    (hown : pushOwn env packet form = true) (uninit uninit' : Uninit) {s : State}
    (hs : s.dead = false) :
    paramServe env packet' uninit' s = paramServe env packet uninit s ∧
      Grows BufferEvent s (paramServe env packet uninit s) := by
  simp only [pushOwn, Bool.and_eq_true, decide_eq_true_eq, Bool.or_eq_true,
    Bool.not_eq_true'] at hown
  obtain ⟨⟨hlo, hsettled⟩, hpull⟩ := hown
  have hle := pushForm_length hform hhwid
  have hform' : pushForm env packet' = some form := (pushForm_congr h hone hhwid env).trans hform
  have hdecode := PushForm.decode_congr h hle hlo hsettled
  -- whether an id is unknown is decided without looking at any local
  have hzero := (@PushForm.decode_congr env packet packet (SameRequest.refl packet) form hle hlo
    hsettled ⟨noJunk, noJunk, noJunk⟩ uninit).1
  have hitems : packetItems env packet' uninit' = packetItems env packet uninit := by
    rw [packetItems_of_pushForm hform', packetItems_of_pushForm hform, PushForm.items,
      PushForm.items, (hdecode uninit uninit').1]
  have hunknown : (packetItems env packet uninit).any Item.isUnknown =
      (form.items env.mapped packet ⟨noJunk, noJunk, noJunk⟩).any Item.isUnknown := by
    rw [packetItems_of_pushForm hform, PushForm.items, hzero, PushForm.items]
  have hinside := (form.decode_within env packet uninit hlo (le_trans hle packet.length_le)).1
    (hdecode uninit uninit').2
  obtain ⟨hsame, hanswer⟩ := pushAnswer_congr env h hle hlo
    (fun hyes => hpull.resolve_left (by simp [hyes])) hunknown uninit uninit'
    ((execItems env (prologue packet s) (packetItems env packet uninit)).emit
      (.fetch 2 (form.decode env.mapped packet uninit).reader.top form.length))
  rw [paramServe_eq hform' uninit' hs, paramServe_eq hform uninit hs, hitems,
    (hdecode uninit uninit').1, prologue_congr h hone]
  refine ⟨hsame, ?_⟩
  -- the fetches of the queue stay inside it
  have hfetch : Grows BufferEvent
      (execItems env (prologue packet s) (packetItems env packet uninit))
      ((execItems env (prologue packet s) (packetItems env packet uninit)).emit
        (.fetch 2 (form.decode env.mapped packet uninit).reader.top form.length)) := by
    refine ⟨[_], rfl, ?_⟩
    have htop := hinside.top_le
    have hsize := packet.length_le
    simp only [List.mem_singleton, forall_eq, BufferEvent]
    omega
  exact (((prologue_inBuffer hhwid s).trans (execItems_inBuffer env _ _)).trans hfetch).trans
    hanswer

/-! ## §5 All requests -/

/-- Serving a push whose form is settled, or a packet of another hwid. -/
theorem paramServe_pushes_congr {env : Env} {packet packet' : CspPacket}
    (h : SameRequest packet packet') (hone : 1 ≤ packet.length)
    (hhwid : packetType (packet.data 0) = .pushRequestV2Hwid → 4 ≤ packet.length)
    (hpush : pushForm env packet = none → packetType (packet.data 0) = .pushRequestV2Hwid)
    (hown : (pushForm env packet).all (pushOwn env packet) = true) (uninit uninit' : Uninit)
    {s : State} (hs : s.dead = false) :
    paramServe env packet' uninit' s = paramServe env packet uninit s ∧
      Grows BufferEvent s (paramServe env packet uninit s) := by
  cases hform : pushForm env packet with
  | some form =>
    rw [hform] at hown
    exact paramServe_push_congr h hone hhwid hform hown uninit uninit' hs
  | none =>
    -- the hwid is not this node's: nothing happens behind the prologue
    have htype := hpush hform
    have hstop := paramServe_rejected htype hform uninit s
    have htype' : packetType (packet'.data 0) = .pushRequestV2Hwid :=
      (packetType_congr h hone).trans htype
    have hform' : pushForm env packet' = none := (pushForm_congr h hone hhwid env).trans hform
    rw [hstop, paramServe_rejected htype' hform' uninit' s, prologue_congr h hone]
    exact ⟨rfl, prologue_inBuffer hhwid s⟩

/-- Serving a self-contained packet. -/
theorem paramServe_congr {env : Env} {packet packet' : CspPacket}
    (hown : selfContained env packet = true) (h : SameRequest packet packet')
    (uninit uninit' : Uninit) {s : State} (hs : s.dead = false) :
    paramServe env packet' uninit' s = paramServe env packet uninit s ∧
      Grows BufferEvent s (paramServe env packet uninit s) := by
  rw [selfContained, Bool.and_eq_true, decide_eq_true_eq] at hown
  obtain ⟨hone, hown⟩ := hown
  have hsize := packet.length_le
  -- the type byte is the same, so both packets go to the same handler
  have htypes := packetType_congr h hone
  cases htype : packetType (packet.data 0) with
  | pullRequest =>
    simp only [htype] at hown htypes
    simp only [paramServe, htypes, htype, h.id, h.length]
    exact paramServePullRequest_congr h.payload hsize hown env uninit uninit' s
  | pullRequestV2 =>
    simp only [htype] at hown htypes
    simp only [paramServe, htypes, htype, h.id, h.length]
    exact paramServePullRequest_congr h.payload hsize hown env uninit uninit' s
  | pullAllRequest =>
    simp only [htype, decide_eq_true_eq] at hown htypes
    simp only [paramServe, htypes, htype, h.id, h.length]
    have hmask : (if 2 ≤ 1 then 12 else 8) ≤ packet.length := hown
    exact paramServePullAll_congr h.payload hmask packet.id env uninit uninit' s
  | pullAllRequestV2 =>
    simp only [htype, decide_eq_true_eq] at hown htypes
    simp only [paramServe, htypes, htype, h.id, h.length]
    have hmasks : (if 2 ≤ 2 then 12 else 8) ≤ packet.length := hown
    exact paramServePullAll_congr h.payload hmasks packet.id env uninit uninit' s
  | other =>
    simp only [htype] at htypes
    simp only [paramServe, htypes, htype, true_and]
    exact Grows.refl s
  | pushRequestV2Hwid =>
    simp only [htype, Bool.and_eq_true, decide_eq_true_eq] at hown
    exact paramServe_pushes_congr h hone (fun _ => hown.1) (fun _ => htype) hown.2 uninit uninit' hs
  | _ =>
    simp only [htype] at hown
    refine paramServe_pushes_congr h hone ?_ ?_ hown uninit uninit' hs
    · simp [htype]
    · simp [pushForm, htype]

/-- A self-contained packet means its own bytes. -/
theorem ownBytes_of_selfContained {env : Env} {packet : CspPacket}
    (h : selfContained env packet = true) : OwnBytes env packet where
  outcome _ hs _ uninit uninit' hsame := .of_eq (paramServe_congr h hsame uninit uninit' hs).1
  buffer _ hs uninit := (paramServe_congr h (SameRequest.refl packet) uninit uninit hs).2

/-- A version 2 push of `mng_dipp = 5` that asks for a pull as its acknowledgement. -/
def ownPush : Delivery := deliveryOf [7, 1, 0xcd, 0x22, 0x40, 0, 0, 5] (by decide)

theorem ownBytes_of_selfContained_dipp : OwnBytes plainEnv ownPush.packet :=
  ownBytes_of_selfContained (by decide +kernel)

/-- A pull of all parameters that ends in front of its mask. -/
def shortPullAll : Delivery := deliveryOf [4, 0] (by decide)

/-- The same request in a buffer that held something else before. -/
def mixedPullAll : CspPacket :=
  { shortPullAll.packet with data := ofList 0 [4, 0, 0, 0, 0, 0, 0, 0x84] }

/-- A pull-all request without its mask is answered by what stands behind it. -/
theorem shortPullAll_mixed : ¬ OwnBytes plainEnv shortPullAll.packet := by
  intro h
  have hsame : SameRequest shortPullAll.packet mixedPullAll := by
    refine ⟨rfl, rfl, fun i hlo hhi => ?_⟩
    have hi : i = 0 ∨ i = 1 := by
      have hlength : (shortPullAll.packet.length : Int) = 2 := rfl
      omega
    rcases hi with rfl | rfl <;> rfl
  have heffects := (h.outcome (initialState none none) rfl mixedPullAll shortPullAll.uninit
    shortPullAll.uninit hsame).effects
  exact absurd heffects (by decide +kernel)

end AppSysManager.Server
