import AppSysManager.Server.Encoding

/-!
# Malformed Writes

An entry for a number parameter whose header or value cannot be read should be ignored and
not be acknowledged.  `param_deserialize_from_mpack_to_param` looks at the reader's error
only after it has called the setter, with the zero that a failed expect function returns,
and takes any 32-bit value for an 8- or 16-bit parameter; `param_queue_apply` returns
success for it.

- `Item.Malformed`: the header or the value of an entry is malformed.
- `Item.Ignored`: the setter drops every value of the entry, because of its index, or there
  is none.
- `malformedInert_iff`: malformed entries are inert exactly when all of them are ignored and
  nothing is acknowledged for another reason.
-/

namespace AppSysManager.Server

open AppSysManager.Bytes AppSysManager.Mpack AppSysManager.Node

variable {mapped : Nat}

/-! ## §1 The property -/

/-- An unsigned integer that is not above a bound. -/
def IsUnsigned (bound : Nat) : MpackTag → Prop
  | .uint u => u ≤ bound
  | .int i => 0 ≤ i ∧ i ≤ bound
  | _ => False

instance (bound : Nat) : DecidablePred (IsUnsigned bound)
  | .uint u => inferInstanceAs (Decidable (u ≤ bound))
  | .int i => inferInstanceAs (Decidable (0 ≤ i ∧ i ≤ bound))
  | .nil | .bool _ | .float _ | .double _ | .str _ | .bin _ | .array _ | .map _ =>
    inferInstanceAs (Decidable False)

/-- The entry addresses a writable number parameter, and its header could not be read, or
    what follows the header is not an unsigned integer of the parameter's type.  A value
    that is missing or truncated reads as nil. -/
def Item.Malformed (mem : Mem) : Item → Prop
  | .known p _ start _ => p.name ≠ .stdoutBuf ∧ p.mask &&& PM_READONLY = 0 ∧
      (start.error ≠ .ok ∨ ¬ IsUnsigned (2 ^ (8 * p.type.size) - 1) (mpackReadTag mem start).2)
  | .unknown => False

instance (mem : Mem) : DecidablePred (Item.Malformed mem)
  | .known p _ start _ => inferInstanceAs (Decidable
      (p.name ≠ .stdoutBuf ∧ p.mask &&& PM_READONLY = 0 ∧ (start.error ≠ .ok ∨
        ¬ IsUnsigned (2 ^ (8 * p.type.size) - 1) (mpackReadTag mem start).2)))
  | .unknown => inferInstanceAs (Decidable False)

/-- No parameter has changed and no callback has run. -/
structure Inert (s s' : State) : Prop where
  value : ∀ q, Scalar q → paramGet s' q = paramGet s q
  stdbuf : s'.ram .stdoutBuf = s.ram .stdoutBuf
  callbacks : ∀ evs, s'.trace = s.trace ++ evs → ∀ p v, Event.callback p v ∉ evs

/-- Every malformed entry of the packet is inert where it is applied, and a packet with such
    an entry is not acknowledged. -/
structure MalformedInert (env : Env) (packet : CspPacket) (uninit : Uninit) (s : State) :
    Prop where
  inert : ∀ before item after, packetItems env packet uninit = before ++ item :: after →
    item.Malformed packet.data →
    Inert (execItems env (prologue packet s) before)
      (item.exec env (execItems env (prologue packet s) before))
  unacknowledged : (∃ item ∈ packetItems env packet uninit, item.Malformed packet.data) →
    ∀ evs, (paramServe env packet uninit s).trace = s.trace ++ evs →
      ∀ id, Event.reply id pushResponse ∉ evs

/-- The setter is called for no value of the entry, or drops all of them: an empty array, one
    so long that the bound of the loop wraps, or an index of 2 or more. -/
def Item.Ignored (mem : Mem) : Item → Prop
  | .known _ header start _ => (valueCount mem start).2 ≤ 0 ∨
      2 ^ 31 ≤ (headerOffset header).toNat + (valueCount mem start).2 ∨ 2 ≤ headerOffset header
  | .unknown => True

instance (mem : Mem) : DecidablePred (Item.Ignored mem)
  | .known _ header start _ => inferInstanceAs (Decidable
      ((valueCount mem start).2 ≤ 0 ∨
        2 ^ 31 ≤ (headerOffset header).toNat + (valueCount mem start).2 ∨ 2 ≤ headerOffset header))
  | .unknown => inferInstanceAs (Decidable True)

/-- The packet does not ask for an acknowledgement, names an id the node does not know, or
    kills the process with the length of a string. -/
def Unacknowledged (env : Env) (packet : CspPacket) (uninit : Uninit) : Prop :=
  packet.data 1 = 1 ∨ (packetItems env packet uninit).any Item.isUnknown ∨
    (packetItems env packet uninit).any Item.isOverrun

/-- The three push requests. -/
def IsPush (packet : CspPacket) : Prop :=
  packetType (packet.data 0) = .pushRequest ∨ packetType (packet.data 0) = .pushRequestV2 ∨
    packetType (packet.data 0) = .pushRequestV2Hwid

/-! ## §2 Setter calls of an entry -/

/-- The setter calls of an entry carry increasing indices, from the index in its header on. -/
theorem decodeValues_index (mem : Mem) (type : ParamType) (count i : Nat) (r : MpackReader) :
    ∀ e ∈ (decodeValues mapped mem type count i r).2, i ≤ e.index := by
  induction count generalizing i r with
  | zero => simp [decodeValues]
  | succ count ih =>
    unfold decodeValues
    rcases readValue mapped mem type r with ⟨r', v⟩
    dsimp only
    split
    · simp
    · intro e he
      rcases List.mem_cons.mp he with rfl | he
      · exact le_refl i
      · exact le_trans (Nat.le_succ i) (ih _ _ e he)

/-- The first of them carries exactly that index. -/
theorem decodeValues_head (mapped : Nat) (mem : Mem) (type : ParamType) (count i : Nat)
    (r : MpackReader)
    (hc : 0 < count) : ∃ e elems, (decodeValues mapped mem type count i r).2 = e :: elems ∧
      e.index = i := by
  obtain ⟨count, rfl⟩ : ∃ k, count = k + 1 := ⟨count - 1, by omega⟩
  unfold decodeValues
  rcases readValue mapped mem type r with ⟨r', v⟩
  dsimp only
  split
  · exact ⟨_, _, rfl, rfl⟩
  · exact ⟨_, _, rfl, rfl⟩

theorem decodeParam_eq (mem : Mem) (p : Param) (offset : Int) (r : MpackReader) :
    decodeParam mapped mem p offset r =
      decodeValues mapped mem p.type (loopRounds offset.toNat (valueCount mem r).2) offset.toNat
        (valueCount mem r).1 := rfl

/-- The count of an array is an `int`. -/
theorem valueCount_bounds (mem : Mem) (r : MpackReader) :
    -2 ^ 31 ≤ (valueCount mem r).2 ∧ (valueCount mem r).2 < 2 ^ 31 := by
  unfold valueCount
  rcases mpackPeekTag mem r with ⟨r₀, tag⟩
  cases tag with
  | array n =>
    have hlt := mpackExpectArray_lt mem r₀
    dsimp only
    unfold toSigned
    split
    · omega
    · omega
  | _ =>
    show (-2 ^ 31 : Int) ≤ 1 ∧ (1 : Int) < 2 ^ 31
    omega

/-- The setter drops everything an ignored entry of a number parameter carries. -/
theorem execElems_ignored {mem : Mem} {p : Param} (hp : Scalar p) {header : Option Header}
    {start : MpackReader} {elems : List Elem}
    (htyped : ∀ e ∈ elems, e.value.Fits p.type)
    (hread : (Item.known p header start elems).ReadFrom mapped mem)
    (h : (Item.known p header start elems).Ignored mem) (env : Env) (s : State) :
    execElems env p s elems = s := by
  have hindex : ∀ e ∈ elems, 2 ≤ e.index := by
    intro e he
    have he' := he
    rw [hread, decodeParam_eq] at he'
    rcases Int.lt_or_le (headerOffset header) 2 with hsmall | hoff
    · -- the loop makes no round
      obtain ⟨hlow, hhigh⟩ := valueCount_bounds mem start
      have hrounds : loopRounds (headerOffset header).toNat (valueCount mem start).2 = 0 := by
        rcases h with hcount | hwrap | hoff
        · exact loopRounds_of_nonpos (by omega) hlow hcount
        · exact loopRounds_of_wrap (by omega) hhigh hwrap
        · omega
      rw [hrounds, decodeValues] at he'
      exact absurd he' List.not_mem_nil
    · have := decodeValues_index _ _ _ _ _ e he'
      omega
  refine foldl_preserves (R := fun s s' => s' = s) (fun _ => rfl) (fun a b c h h' => h'.trans h) ?_ s
  intro e he s'
  rcases storeValue_scalar hp (htyped e he) env s' with ⟨-, heq⟩ | ⟨hle, -⟩
  · exact heq
  · exact absurd hle (by have := hindex e he; omega)

/-- An entry of a writable number parameter that is not ignored runs the callback. -/
theorem execElems_callback {mem : Mem} {p : Param} (hp : Writable p) {header : Option Header}
    {start : MpackReader} {elems : List Elem}
    (htyped : ∀ e ∈ elems, e.value.Fits p.type)
    (hread : (Item.known p header start elems).ReadFrom mapped mem)
    (h : ¬ (Item.known p header start elems).Ignored mem) (env : Env) (s : State) :
    ∃ evs v, (execElems env p s elems).trace = s.trace ++ evs ∧ Event.callback p.name v ∈ evs := by
  simp only [Item.Ignored, not_or, not_le] at h
  have hrounds : loopRounds (headerOffset header).toNat (valueCount mem start).2 =
      (valueCount mem start).2.toNat := loopRounds_of_lt h.1.le h.2.1
  have hread' := hread
  rw [Item.ReadFrom, decodeParam_eq, hrounds] at hread'
  obtain ⟨e, rest, helems, hindex⟩ := decodeValues_head mapped mem p.type
    (valueCount mem start).2.toNat (headerOffset header).toNat (valueCount mem start).1 (by omega)
  rw [← hread'] at helems
  subst helems
  rcases storeValue_scalar hp.toScalar (htyped e (by simp)) env s with ⟨hge, -⟩ | ⟨-, x, -, hset⟩
  · omega
  · -- the first value is stored; whatever the later ones do comes behind its events
    obtain ⟨evs, hrest, -⟩ : Grows NodeEvent (storeValue env s p e.index e.value)
        (execElems env p (storeValue env s p e.index e.value) rest) :=
      foldl_preserves Grows.refl (fun _ _ _ => Grows.trans)
        (fun e' _ s' => storeValue_nodeEvents env s' p e'.index e'.value) _
    obtain ⟨c, hc⟩ := hp.callback
    refine ⟨setEvents env s p (converted p x) ++ evs, converted p x, ?_, ?_⟩
    · rw [← List.append_assoc, ← hset.events.trace]
      exact hrest
    · simp [setEvents, hc]

theorem Item.exec_nodeEvents (env : Env) (s : State) (item : Item) :
    Grows NodeEvent s (item.exec env s) := by
  cases item with
  | known p header start elems =>
    have hstamp : Grows NodeEvent s (stamp s p (headerTimestamp header)) :=
      ⟨[], by simp [stamp], by simp⟩
    exact hstamp.trans (foldl_preserves Grows.refl (fun _ _ _ => Grows.trans)
      (fun e _ s' => storeValue_nodeEvents env s' p e.index e.value) _)
  | unknown => exact Grows.refl s

/-- A malformed entry is inert exactly when it is ignored. -/
theorem Item.inert_iff {mem : Mem} {item : Item} (htyped : item.WellTyped)
    (hread : item.ReadFrom mapped mem) (hmal : item.Malformed mem) (env : Env) (s : State) :
    Inert s (item.exec env s) ↔ item.Ignored mem := by
  cases item with
  | unknown => exact hmal.elim
  | known p header start elems =>
    obtain ⟨hmem, hfits⟩ := htyped
    have hp : Writable p := ⟨⟨hmem, hmal.1⟩, hmal.2.1⟩
    constructor
    · intro hinert
      by_contra hnot
      obtain ⟨evs, v, htrace, hcall⟩ := execElems_callback hp hfits hread hnot env
        (stamp s p (headerTimestamp header))
      exact hinert.callbacks evs htrace _ _ hcall
    · intro hignored
      have hexec : (Item.known p header start elems).exec env s =
          stamp s p (headerTimestamp header) :=
        execElems_ignored hp.toScalar hfits hread hignored env _
      rw [hexec]
      refine ⟨fun _ _ => rfl, rfl, fun evs htrace _ _ => ?_⟩
      have hnil : evs = [] := by simpa [stamp] using htrace
      simp [hnil]

/-! ## §3 Acknowledgements -/

/-- Up to the answer to a push there is no reply at all. -/
theorem execItems_noReply (env : Env) (packet : CspPacket) (items : List Item) (s : State)
    (lo hi : Int) (length : Nat) :
    Grows (fun e => ∀ id data, e ≠ .reply id data) s
      ((execItems env (prologue packet s) items).emit (.fetch lo hi length)) := by
  have hpro : Grows (fun e => ∀ id data, e ≠ .reply id data) s (prologue packet s) := by
    unfold prologue
    split
    · exact ⟨_, rfl, by simp⟩
    · exact Grows.refl s
  have hexec : Grows NodeEvent (prologue packet s) (execItems env (prologue packet s) items) :=
    foldl_preserves Grows.refl (fun _ _ _ => Grows.trans)
      (fun item _ s' => item.exec_nodeEvents env s') _
  refine (hpro.trans (hexec.mono fun e he id data heq => ?_)).trans ⟨_, rfl, by simp⟩
  exact he (heq ▸ trivial)

/-- A push may be applied locally and asks for an acknowledgement; its length field is a 16-bit
    number, also without the hwid. -/
theorem IsPush.form {env : Env} {packet : CspPacket} (h : IsPush packet) {form : PushForm}
    (hform : pushForm env packet = some form) :
    form.applyLocal = true ∧ form.sendAck = true ∧ form.length < 65536 := by
  have hlength : packet.length < 65536 := lt_of_le_of_lt packet.length_le (by decide)
  unfold pushForm at hform
  rcases h with ht | ht | ht
  · rw [ht] at hform
    rw [← Option.some.inj hform]
    exact ⟨rfl, rfl, hlength⟩
  · rw [ht] at hform
    rw [← Option.some.inj hform]
    exact ⟨rfl, rfl, hlength⟩
  · rw [ht] at hform
    dsimp only at hform
    split at hform
    · rw [← Option.some.inj hform]
      exact ⟨rfl, rfl, Nat.mod_lt _ (by norm_num)⟩
    · cases hform

/-- A push that is applied is acknowledged unless something else prevents it. -/
theorem paramServe_acknowledged_iff {env : Env} {packet : CspPacket} (hpush : IsPush packet)
    {form : PushForm} (hform : pushForm env packet = some form) (uninit : Uninit) {s : State}
    (hs : s.dead = false) :
    (∀ evs, (paramServe env packet uninit s).trace = s.trace ++ evs →
      ∀ id, Event.reply id pushResponse ∉ evs) ↔ Unacknowledged env packet uninit := by
  obtain ⟨-, hack, -⟩ := hpush.form hform
  set items := packetItems env packet uninit with hitems
  set s₁ := (execItems env (prologue packet s) items).emit
    (.fetch 2 (form.decode env.mapped packet uninit).reader.top form.length) with hs₁
  have hbefore : Grows (fun e => ∀ id data, e ≠ .reply id data) s s₁ :=
    execItems_noReply env packet items s _ _ _
  obtain ⟨pre, hpre, hnone⟩ := hbefore
  rw [paramServe_eq hform uninit hs, pushAnswer, hack]
  unfold Unacknowledged
  rw [← hitems]
  split
  · case isTrue hover =>
    refine iff_of_true (fun evs htrace id hmem => ?_) (.inr (.inr hover))
    obtain rfl : evs = pre := List.append_cancel_left (htrace.symm.trans hpre)
    exact hnone _ hmem id pushResponse rfl
  · case isFalse hover =>
    split
    · case isTrue hunknown =>
      have hunknown : items.any Item.isUnknown = true := by simpa using hunknown
      refine iff_of_true (fun evs htrace id hmem => ?_) (.inr (.inl hunknown))
      obtain rfl : evs = pre := List.append_cancel_left (htrace.symm.trans hpre)
      exact hnone _ hmem id pushResponse rfl
    · case isFalse hunknown =>
      have hunknown : ¬ items.any Item.isUnknown = true := by simpa using hunknown
      split
      · case isTrue hflag =>
        -- the answer is a pull response
        refine iff_of_true (fun evs htrace id hmem => ?_) (.inl hflag)
        obtain ⟨_, pulls, hpulls, heq⟩ := paramServePullRequest_pulls env packet.data packet.id
          form.length false 2 uninit s₁
        rw [heq] at htrace
        obtain rfl : evs = pre ++ pulls :=
          List.append_cancel_left (htrace.symm.trans (by rw [← List.append_assoc, ← hpre]))
        rcases List.mem_append.mp hmem with hmem | hmem
        · exact hnone _ hmem id pushResponse rfl
        · have := hpulls _ hmem
          simp [PullEvent, PullReply, pushResponse] at this
      · case isFalse hflag =>
        refine iff_of_false (fun hno => ?_) (by simp [hflag, hunknown, hover])
        refine hno (pre ++ [_]) (by rw [← List.append_assoc, ← hpre]; rfl) _
          (List.mem_append_right _ (List.mem_singleton.mpr rfl))

/-! ## §4 The exact condition -/

/-- Malformed writes are inert exactly when every one of them is ignored, and no push with
    one of them is acknowledged for lack of another obstacle. -/
theorem malformedInert_iff (env : Env) {packet : CspPacket} (hpush : IsPush packet)
    (uninit : Uninit) {s : State} (hs : s.dead = false) :
    MalformedInert env packet uninit s ↔
      (∀ item ∈ packetItems env packet uninit, item.Malformed packet.data →
        item.Ignored packet.data) ∧
      ((∃ item ∈ packetItems env packet uninit, item.Malformed packet.data) →
        Unacknowledged env packet uninit) := by
  have htyped := packetItems_wellTyped env packet uninit
  have hread := packetItems_readFrom env packet uninit
  -- a packet that is dropped has no entries, malformed or not
  have hasForm : (∃ item ∈ packetItems env packet uninit, item.Malformed packet.data) →
      ∃ form, pushForm env packet = some form := by
    rintro ⟨item, hitem, -⟩
    cases hform : pushForm env packet with
    | none =>
      rw [packetItems, hform] at hitem
      exact absurd hitem (by simp)
    | some form => exact ⟨form, rfl⟩
  constructor
  · rintro ⟨hinert, hack⟩
    refine ⟨fun item hitem hmal => ?_, fun hex => ?_⟩
    · obtain ⟨before, after, hsplit⟩ := List.append_of_mem hitem
      exact (Item.inert_iff (htyped item hitem) (hread item hitem) hmal env _).mp
        (hinert before item after hsplit hmal)
    · obtain ⟨form, hform⟩ := hasForm hex
      exact (paramServe_acknowledged_iff hpush hform uninit hs).mp (hack hex)
  · rintro ⟨hignored, hack⟩
    refine ⟨fun before item after hsplit hmal => ?_, fun hex => ?_⟩
    · have hitem : item ∈ packetItems env packet uninit := by simp [hsplit]
      exact (Item.inert_iff (htyped item hitem) (hread item hitem) hmal env _).mpr
        (hignored item hitem hmal)
    · obtain ⟨form, hform⟩ := hasForm hex
      exact (paramServe_acknowledged_iff hpush hform uninit hs).mpr (hack hex)

/-- A V1 push of an unknown id, and of nil at index 2 of `mng_camera_control`. -/
def lateIndexPush : Delivery := deliveryOf [2, 0, 60, 1, 0xcd, 0x04, 33, 2, 0xc0] (by decide)

theorem malformedInert_iff_lateIndex :
    (∃ item ∈ packetItems plainEnv lateIndexPush.packet lateIndexPush.uninit,
      item.Malformed lateIndexPush.packet.data) ∧
    MalformedInert plainEnv lateIndexPush.packet lateIndexPush.uninit (initialState none none) :=
  ⟨by decide +kernel,
    (malformedInert_iff plainEnv (.inl (by decide)) _ rfl).mpr
      ⟨by decide +kernel, fun _ => .inr (.inl (by decide +kernel))⟩⟩

/-- A V1 push that ends behind the id of `mng_camera_control`. -/
def truncatedPush : Delivery := deliveryOf [2, 0, 33] (by decide)

/-- The camera control is stopped by a push without a value, and the push is acknowledged. -/
theorem truncatedPush_acknowledged :
    ¬ MalformedInert plainEnv truncatedPush.packet truncatedPush.uninit
      (initialState none none) := by
  intro h
  refine h.unacknowledged (by decide +kernel) _ (List.nil_append _).symm
    { pri := 2, flags := 0, src := 21, dst := 5, dport := 20, sport := 10 } ?_
  decide +kernel

end AppSysManager.Server
