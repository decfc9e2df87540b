import AppSysManager.Server.Decode

/-!
# Runs of Packets

The node serving one packet after another, and the rules by which a fact about single
setter calls becomes a fact about a packet and about a whole run.

- `Item.WellTyped`: what the decoder guarantees about the entries it finds.
- `paramServe_preserves`: a preorder that contains every setter call of a packet contains
  the serving of the packet.
- `serveAll_preserves`: the same for a run of packets.
-/

namespace AppSysManager.Server

open AppSysManager.Bytes AppSysManager.Mpack AppSysManager.Node

variable {mapped : Nat}

/-! ## §1 What the decoder guarantees -/

/-- The setter a value belongs to. -/
def Value.Fits (type : ParamType) : Value → Prop
  | .num _ => type ≠ .string ∧ type ≠ .data
  | .str .. => type = .string
  | .emptyStr => type = .string
  | .data .. => type = .data
  | .overrun _ => type = .string ∨ type = .data

/-- The parameter comes from the table, and its setter calls suit its type. -/
def Item.WellTyped : Item → Prop
  | .known p _ _ elems => p ∈ paramTable ∧ ∀ e ∈ elems, e.value.Fits p.type
  | .unknown => True

theorem takeBytes_fits {mem : Mem} {r : MpackReader} {len : Nat} {type : ParamType}
    {make : (Nat → UInt8) → Nat → Value} (hmake : ∀ b l, (make b l).Fits type)
    (hover : ∀ l, (Value.overrun l).Fits type) : (takeBytes mapped mem r len make).2.Fits type := by
  unfold takeBytes
  split
  · exact hover _
  · exact hmake _ _

theorem readValue_fits (mapped : Nat) (mem : Mem) (type : ParamType) (r : MpackReader) :
    (readValue mapped mem type r).2.Fits type := by
  cases type with
  | string =>
    simp only [readValue]
    rcases mpackExpectStr mem r with ⟨r', len⟩
    dsimp only
    split
    · exact rfl
    · exact takeBytes_fits (fun _ _ => rfl) (fun _ => .inl rfl)
  | data =>
    simp only [readValue]
    rcases mpackExpectBin mem r with ⟨r', len⟩
    exact takeBytes_fits (fun _ _ => rfl) (fun _ => .inr rfl)
  | _ => exact ⟨by simp, by simp⟩

theorem decodeValues_fits (mapped : Nat) (mem : Mem) (type : ParamType) (count i : Nat)
    (r : MpackReader) :
    ∀ e ∈ (decodeValues mapped mem type count i r).2, e.value.Fits type := by
  induction count generalizing i r with
  | zero => simp [decodeValues]
  | succ count ih =>
    have hvalue := readValue_fits mapped mem type r
    unfold decodeValues
    rcases hread : readValue mapped mem type r with ⟨r', v⟩
    rw [hread] at hvalue
    dsimp only at hvalue ⊢
    split
    · simpa using hvalue
    · intro e he
      rcases List.mem_cons.mp he with rfl | he
      · exact hvalue
      · exact ih _ _ e he

theorem decodeParam_fits (mapped : Nat) (mem : Mem) (p : Param) (offset : Int) (r : MpackReader) :
    ∀ e ∈ (decodeParam mapped mem p offset r).2, e.value.Fits p.type :=
  decodeValues_fits mapped mem p.type _ _ _

theorem locate_mem {applyLocal : Bool} {sender : Nat} {junk : Junk} {header : Option Header}
    {p : Param} (h : locate applyLocal sender junk header = some p) : p ∈ paramTable := by
  unfold locate at h
  dsimp only at h
  split at h
  · case _ hfind =>
    obtain rfl := Option.some.inj h
    exact mem_of_paramListFindId hfind
  · exact mem_of_paramListFindId h

theorem readEntry_found_mem {mem : Mem} {applyLocal : Bool} {sender : Nat} {junk : Junk}
    {q q' : QueueState} {r r' : MpackReader} {p : Param} {header : Option Header}
    (h : readEntry mem applyLocal sender junk q r = (q', .found p header r')) :
    p ∈ paramTable := by
  unfold readEntry at h
  dsimp only at h
  cases hloc : locate applyLocal sender junk (paramDeserializeId mem r q).2.2 with
  | some p' =>
    simp only [hloc, Prod.mk.injEq, Entry.found.injEq] at h
    obtain ⟨-, rfl, -, -⟩ := h
    exact locate_mem hloc
  | none =>
    simp only [hloc] at h
    split at h <;> simp at h

theorem readEntry_found_offset {mem : Mem} {applyLocal : Bool} {sender : Nat} {junk : Junk}
    {q q' : QueueState} {r r' : MpackReader} {p : Param} {header : Option Header}
    (h : readEntry mem applyLocal sender junk q r = (q', .found p header r')) :
    headerOffset header < 256 := by
  have hoffset := headerOffset_lt mem r q
  unfold readEntry at h
  dsimp only at h
  cases hloc : locate applyLocal sender junk (paramDeserializeId mem r q).2.2 with
  | some p' =>
    simp only [hloc, Prod.mk.injEq, Entry.found.injEq] at h
    obtain ⟨-, -, rfl, -⟩ := h
    exact hoffset
  | none =>
    simp only [hloc] at h
    split at h <;> simp at h

/-- A fact about skipped entries and about every entry that is found holds of everything in the
    queue. -/
theorem decodeLoop_items {mem : Mem} {entry : QueueState → MpackReader → QueueState × Entry}
    {P : Item → Prop} (hunknown : P .unknown)
    (hfound : ∀ q r q' p header r', entry q r = (q', .found p header r') →
      P (.known p header r' (decodeParam mapped mem p (headerOffset header) r').2))
    (fuel : Nat) (q : QueueState) (r : MpackReader) :
    ∀ item ∈ (decodeLoop mapped mem entry fuel q r).items, P item := by
  induction fuel generalizing q r with
  | zero => simp [decodeLoop]
  | succ fuel ih =>
    unfold decodeLoop
    split
    · simp
    · rcases hread : entry q r with ⟨q', ⟨p, header, r'⟩ | r' | r'⟩
      · have hitem := hfound q r q' p header r' hread
        dsimp only
        split
        · -- the values run out of the packet: this is the last entry
          simpa using hitem
        · intro item hmem
          rcases List.mem_cons.mp hmem with rfl | hmem
          · exact hitem
          · exact ih _ _ item hmem
      · intro item hmem
        rcases List.mem_cons.mp hmem with rfl | hmem
        · exact hunknown
        · exact ih _ _ item hmem
      · simpa using hunknown

/-- Everything the decoder finds is well typed. -/
theorem decodeLoop_wellTyped (mapped : Nat) (mem : Mem) (applyLocal : Bool) (sender : Nat)
    (junk : Junk)
    (fuel : Nat) (q : QueueState) (r : MpackReader) :
    ∀ item ∈ (decodeLoop mapped mem (readEntry mem applyLocal sender junk) fuel q r).items,
      item.WellTyped := by
  refine decodeLoop_items (P := Item.WellTyped) trivial ?_ fuel q r
  intro q r q' p header r' hread
  exact ⟨readEntry_found_mem hread, decodeParam_fits mapped mem p (headerOffset header) r'⟩

theorem PushForm.items_wellTyped (form : PushForm) (packet : CspPacket) (uninit : Uninit) :
    ∀ item ∈ form.items mapped packet uninit, item.WellTyped := by
  rw [PushForm.items, PushForm.decode, decodeQueue]
  exact decodeLoop_wellTyped _ _ _ _ _ _ _ _

theorem packetItems_wellTyped (env : Env) (packet : CspPacket) (uninit : Uninit) :
    ∀ item ∈ packetItems env packet uninit, item.WellTyped := by
  unfold packetItems
  cases pushForm env packet with
  | none => simp
  | some form => exact form.items_wellTyped packet uninit

/-- A number parameter only ever gets numbers. -/
theorem Value.Fits.num {p : Param} (hp : Scalar p) {v : Value} (h : v.Fits p.type) :
    ∃ x, v = .num x := by
  obtain ⟨-, -, -, htype⟩ := hp.layout
  cases v with
  | num x => exact ⟨x, rfl⟩
  | str inbuf len => rcases htype with ht | ht <;> simp [Value.Fits, ht] at h
  | emptyStr => rcases htype with ht | ht <;> simp [Value.Fits, ht] at h
  | data inbuf len => rcases htype with ht | ht <;> simp [Value.Fits, ht] at h
  | overrun len => rcases htype with ht | ht <;> simp [Value.Fits, ht] at h

/-- One setter call on a number parameter: dropped by the index guard, or a store. -/
theorem storeValue_scalar {p : Param} (hp : Scalar p) {e : Elem} (h : e.value.Fits p.type)
    (env : Env) (s : State) :
    2 ≤ e.index ∧ storeValue env s p e.index e.value = s ∨
      e.index ≤ 1 ∧ ∃ x, e.value = .num x ∧
        NumberSet env s (storeValue env s p e.index e.value) p (converted p x) := by
  obtain ⟨x, hx⟩ := h.num hp
  rw [hx]
  rcases Nat.lt_or_ge e.index 2 with hi | hi
  · exact .inr ⟨by omega, x, rfl, paramSetArray_spec hp (by omega) env s x⟩
  · exact .inl ⟨hi, paramSetArray_beyond hp hi env s x⟩

/-- The setter calls of an entry are the values behind its header. -/
def Item.ReadFrom (mapped : Nat) (mem : Mem) : Item → Prop
  | .known p header start elems => elems = (decodeParam mapped mem p (headerOffset header) start).2
  | .unknown => True

theorem decodeLoop_readFrom (mem : Mem) (entry : QueueState → MpackReader → QueueState × Entry)
    (fuel : Nat) (q : QueueState) (r : MpackReader) :
    ∀ item ∈ (decodeLoop mapped mem entry fuel q r).items, item.ReadFrom mapped mem :=
  decodeLoop_items (P := Item.ReadFrom mapped mem) trivial (fun _ _ _ _ _ _ _ => rfl) fuel q r

theorem packetItems_readFrom (env : Env) (packet : CspPacket) (uninit : Uninit) :
    ∀ item ∈ packetItems env packet uninit, item.ReadFrom env.mapped packet.data := by
  unfold packetItems
  cases pushForm env packet with
  | none => simp
  | some form =>
    dsimp only
    rw [PushForm.items, PushForm.decode, decodeQueue]
    exact decodeLoop_readFrom _ _ _ _ _

/-! ## §2 Events of setter calls -/

/-- The trace of `s'` is that of `s` with more events, all of them `P`. -/
def Grows (P : Event → Prop) (s s' : State) : Prop :=
  ∃ evs, s'.trace = s.trace ++ evs ∧ ∀ e ∈ evs, P e

theorem Grows.refl {P : Event → Prop} (s : State) : Grows P s s := ⟨[], by simp, by simp⟩

theorem Grows.trans {P : Event → Prop} {a b c : State} (h : Grows P a b) (h' : Grows P b c) :
    Grows P a c := by
  obtain ⟨evs, htrace, hevs⟩ := h
  obtain ⟨evs', htrace', hevs'⟩ := h'
  refine ⟨evs ++ evs', by rw [htrace', htrace, List.append_assoc], fun e he => ?_⟩
  rcases List.mem_append.mp he with he | he
  · exact hevs e he
  · exact hevs' e he

theorem Grows.mono {P Q : Event → Prop} (hPQ : ∀ e, P e → Q e) {s s' : State}
    (h : Grows P s s') : Grows Q s s' := by
  obtain ⟨evs, htrace, hevs⟩ := h
  exact ⟨evs, htrace, fun e he => hPQ e (hevs e he)⟩

theorem Answers.grows {P : Event → Prop} {s s' : State} (h : Answers P s s') : Grows P s s' := by
  obtain ⟨buffers, evs, hevs, rfl⟩ := h
  exact ⟨evs, rfl, hevs⟩

/-- What setters and callbacks do: anything but fetching from a packet and replying. -/
def NodeEvent (e : Event) : Prop := ¬ ServerEvent e

theorem nodeEvent_of_write {p : Param} {ok : Bool} {off len : Nat} {e : Event}
    (h : e ∈ writeEvents p ok off len) : NodeEvent e := by
  rcases mem_writeEvents h with rfl | rfl | rfl <;> exact id

theorem nodeEvent_of_callback {value : Nat} {answer : Option (List (List UInt8))} {ok : Bool}
    {callback : Callback} {e : Event} (h : e ∈ callbackEvents value answer ok callback) :
    NodeEvent e := by
  rcases mem_callbackEvents h with h | ⟨cmd, rfl⟩ | ⟨text, -, h⟩
  · unfold callbackIo at h
    cases callback <;> cases ok <;> simp at h
    all_goals (rcases h with rfl | rfl <;> exact id) 
  · exact id
  · simp only [printEvents, List.mem_cons, List.not_mem_nil, or_false] at h
    rcases h with rfl | rfl | rfl | rfl | rfl <;> exact id

theorem paramWrite_nodeEvents (env : Env) (s : State) (p : Param) (off len : Nat)
    (src : Nat → UInt8) : Grows NodeEvent s (paramWrite env s p off len src) :=
  ⟨_, paramWrite_trace env s p off len src, fun _ he => nodeEvent_of_write he⟩

theorem runCallback_nodeEvents (env : Env) (s : State) (p : Param) :
    Grows NodeEvent s (runCallback env s p) := by
  unfold runCallback
  cases p.callback with
  | none => exact Grows.refl s
  | some callback =>
    have hemit : Grows NodeEvent s (s.emit (.callback p.name (paramGet s p))) :=
      ⟨_, rfl, by simp [NodeEvent, ServerEvent]⟩
    have hrun := (Callback.run_spec env (s.emit (.callback p.name (paramGet s p))) callback).1
    exact hemit.trans ⟨_, hrun.trace, fun _ he => nodeEvent_of_callback he⟩

/-- A setter call neither fetches from the packet nor replies. -/
theorem storeValue_nodeEvents (env : Env) (s : State) (p : Param) (i : Nat) (v : Value) :
    Grows NodeEvent s (storeValue env s p i v) := by
  refine storeValue_preserves Grows.refl (fun _ _ _ => Grows.trans) ?_ ?_ ?_ s i v
  · exact fun s off len src => paramWrite_nodeEvents env s p off len src
  · exact fun s => runCallback_nodeEvents env s p
  · exact fun s len => ⟨[.store p.name 0 len], rfl, by simp [NodeEvent, ServerEvent]⟩

/-! ## §3 From setter calls to packets -/

section Preserves

variable {R : State → State → Prop} (hrefl : ∀ s, R s s)
  (htrans : ∀ a b c, R a b → R b c → R a c)

include hrefl htrans in
/-- A preorder that contains every step of a fold contains the fold. -/
theorem foldl_preserves {α : Type} {f : State → α → State} {xs : List α}
    (hstep : ∀ x ∈ xs, ∀ s, R s (f s x)) (s : State) : R s (xs.foldl f s) := by
  refine List.foldlRecOn xs f (hrefl s) ?_
  intro s' hs' x hx
  exact htrans _ _ _ hs' (hstep x hx s')

include hrefl htrans in
/-- A preorder that contains the stamps and setter calls of a list of entries contains the
    execution of the list. -/
theorem execItems_preserves {env : Env} (hstamp : ∀ s p t, R s (stamp s p t))
    {items : List Item}
    (hstore : ∀ p header start elems, Item.known p header start elems ∈ items →
      ∀ e ∈ elems, ∀ s, R s (storeValue env s p e.index e.value)) (s : State) :
    R s (execItems env s items) := by
  refine foldl_preserves hrefl htrans ?_ s
  intro item hitem s'
  cases item with
  | known p header start elems =>
    exact htrans _ _ _ (hstamp s' p _)
      (foldl_preserves hrefl htrans (hstore p header start elems hitem) _)
  | unknown => exact hrefl s'

include hrefl htrans in
/-- A preorder that contains the stamps, setter calls and answers of a packet contains the
    serving of the packet. -/
theorem paramServe_preserves {env : Env} {packet : CspPacket} {uninit : Uninit}
    (hstamp : ∀ s p t, R s (stamp s p t)) (hanswer : ∀ s s', Answers ServerEvent s s' → R s s')
    (hstore : ∀ p header start elems,
      Item.known p header start elems ∈ packetItems env packet uninit →
      ∀ e ∈ elems, ∀ s, R s (storeValue env s p e.index e.value))
    {s : State} (hs : s.dead = false) : R s (paramServe env packet uninit s) := by
  have hpro : R s (prologue packet s) := by
    unfold prologue
    split
    · exact hanswer _ _ (Answers.emit (e := .fetch _ _ _) trivial)
    · exact hrefl s
  have hexec := execItems_preserves hrefl htrans hstamp hstore (prologue packet s)
  exact htrans _ _ _ hpro
    (htrans _ _ _ hexec (hanswer _ _ (paramServe_applied env packet uninit hs)))

end Preserves

/-! ## §4 Runs -/

/-- One packet as it is delivered, with the indeterminate locals of its handlers. -/
structure Delivery where
  packet : CspPacket
  uninit : Uninit

/-- Serve one delivery; a process that has been killed serves nothing. -/
def deliver (env : Env) (s : State) (d : Delivery) : State :=
  if s.dead then s else paramServe env d.packet d.uninit s

/-- Serve a number of deliveries. -/
def serveAll (env : Env) (s : State) (ds : List Delivery) : State := ds.foldl (deliver env) s

section Preserves

variable {R : State → State → Prop} (hrefl : ∀ s, R s s)
  (htrans : ∀ a b c, R a b → R b c → R a c)

include hrefl htrans in
/-- A preorder that contains the stamps, setter calls and answers of every packet of a run
    contains the run. -/
theorem serveAll_preserves {env : Env} {ds : List Delivery}
    (hstamp : ∀ s p t, R s (stamp s p t)) (hanswer : ∀ s s', Answers ServerEvent s s' → R s s')
    (hstore : ∀ d ∈ ds, ∀ p header start elems,
      Item.known p header start elems ∈ packetItems env d.packet d.uninit →
      ∀ e ∈ elems, ∀ s, R s (storeValue env s p e.index e.value))
    (s : State) : R s (serveAll env s ds) := by
  refine foldl_preserves hrefl htrans ?_ s
  intro d hd s'
  unfold deliver
  split
  · exact hrefl s'
  · case isFalse hdead =>
    exact paramServe_preserves hrefl htrans hstamp hanswer (hstore d hd)
      (by simpa using hdead)

end Preserves

/-! ## §5 Concrete packets -/

/-- A delivery of the given bytes from node 5, with zeros behind them and in all
    indeterminate locals. -/
def deliveryOf (bs : List UInt8) (h : bs.length ≤ CSP_BUFFER_SIZE) : Delivery where
  packet :=
    { id := { pri := 2, flags := 0, src := 5, dst := 21, dport := 10, sport := 20 }
      length := bs.length
      data := ofList 0 bs
      length_le := h }
  uninit := ⟨⟨0, 0, 0⟩, ⟨0, 0, 0⟩, ⟨0, 0, 0⟩⟩

end AppSysManager.Server
