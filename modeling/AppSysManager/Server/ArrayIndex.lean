import AppSysManager.Server.Containment

/-!
# Elements beyond a Scalar

An entry may carry an index and an array of values, and `param_deserialize_from_mpack_to_param`
calls the setter once for every value, with increasing indices.  The setter drops an element
behind the end of the parameter, but its guard is `i > array_size`: of a scalar it lets element
1 through.  As the step of a scalar is 0, that element replaces the value and the callback runs
once more.

- `storeLoop_numbers`: the loop consumes the whole array and makes one setter call per element.
- `outOfRangeIgnored_iff`: the elements behind the first are ignored if and only if none of them
  has the index 1.
-/

namespace AppSysManager.Server

open AppSysManager.Bytes AppSysManager.Mpack AppSysManager.Node

variable {mapped : Nat}

/-! ## §1 Arrays of numbers -/

/-- The numbers `vs` stand between the two readers, each of them one that
    `mpack_expect_uint` accepts. -/
inductive NumbersAt (mem : Mem) : MpackReader → List Int → MpackReader → Prop where
  | nil (r : MpackReader) : NumbersAt mem r [] r
  | cons {r r₁ r' : MpackReader} {v : Int} {vs : List Int} :
      mpackExpectUint mem r = (r₁, v) → r₁.error = .ok → NumbersAt mem r₁ vs r' →
      NumbersAt mem r (v :: vs) r'

/-- An array of the numbers `vs`, from its tag to its last element. -/
def ArrayAt (mem : Mem) (r : MpackReader) (vs : List Int) (r' : MpackReader) : Prop :=
  ∃ r₀ r₁, mpackPeekTag mem r = (r₀, .array vs.length) ∧
    mpackExpectArray mem r₀ = (r₁, vs.length) ∧ NumbersAt mem r₁ vs r'

/-- The index that an entry starts at; 0 if it carries none. -/
def entryIndex (header : Option Header) : Nat :=
  (headerOffset header).toNat

/-- The setter calls for the elements of an array. -/
def setFrom (env : Env) (p : Param) : Nat → List Int → State → State
  | _, [], s => s
  | i, v :: vs, s => setFrom env p (i + 1) vs (paramSetArray env s p i v)

/-- What is left of them for a scalar: the element with index 0 is stored, with the callback
    behind it, and nothing happens for any other element. -/
def setInRange (env : Env) (p : Param) : Nat → List Int → State → State
  | _, [], s => s
  | i, v :: vs, s => setInRange env p (i + 1) vs (if i = 0 then paramSet env s p v else s)

/-- The array of an entry is consumed as a whole, and only what lies in the range of a scalar
    is stored. -/
structure OutOfRangeIgnored (env : Env) (mem : Mem) (p : Param) (header : Option Header)
    (start : MpackReader) (vs : List Int) (r' : MpackReader) (s : State) : Prop where
  consumed :
    (paramDeserializeFromMpackToParam env mem p (headerOffset header) start s).1 = r'
  stored :
    (paramDeserializeFromMpackToParam env mem p (headerOffset header) start s).2 =
      setInRange env p (entryIndex header) vs s

/-! ## §2 The loop over the elements -/

theorem readValue_scalar {p : Param} (hp : Scalar p) (mem : Mem) (r : MpackReader) :
    readValue mapped mem p.type r =
      ((mpackExpectUint mem r).1, .num (mpackExpectUint mem r).2) := by
  rcases hp.layout.2.2.2 with htype | htype
  · rw [htype]
    rfl
  · rw [htype]
    rfl

theorem storeLoop_numbers {mem : Mem} {p : Param} (hp : Scalar p) (env : Env)
    {r r' : MpackReader} {vs : List Int} (h : NumbersAt mem r vs r') (i : Nat) (s : State) :
    storeLoop env mem p vs.length i r s = (r', setFrom env p i vs s) := by
  induction h generalizing i s with
  | nil r => rfl
  | cons hread hok _ ih =>
    rw [List.length_cons, storeLoop, readValue_scalar hp, hread]
    simp only [hok, Value.isOverrun, ne_eq, not_true_eq_false, Bool.false_eq_true, or_self,
      if_false]
    exact ih (i + 1) _

/-- Every element takes a byte of the buffer. -/
theorem NumbersAt.length_le {mem : Mem} {r r' : MpackReader} {vs : List Int}
    (h : NumbersAt mem r vs r') (hr : r.Inside) : (vs.length : Int) ≤ r.end_ - r.data := by
  induction h with
  | nil r =>
    have := hr.le
    simp only [List.length_nil]
    omega
  | @cons r r₁ r' v vs hread hok _ ih =>
    have hchecked : Checked r (mpackExpectUint mem r).1 := mpackExpectRange_checked _ _ mem r
    have hlt : (mpackExpectUint mem r).1.error = .ok → r.data < (mpackExpectUint mem r).1.data :=
      mpackExpectRange_lt
    rw [hread] at hchecked hlt
    dsimp only at hchecked hlt
    have hrest := ih (hchecked.inside hr)
    have hend := hchecked.end_eq hok
    have hstep := hlt hok
    simp only [List.length_cons, Nat.cast_add, Nat.cast_one]
    omega

/-- A reader with its bytes in `[0, limit)`. -/
structure Enclosed (limit : Int) (r : MpackReader) : Prop where
  inside : r.Inside
  data_nonneg : 0 ≤ r.data
  end_le : r.end_ ≤ limit

theorem Enclosed.checked {limit : Int} {r r' : MpackReader} (h : Enclosed limit r)
    (hc : Checked r r') : Enclosed limit r' where
  inside := hc.inside h.inside
  data_nonneg := le_trans h.data_nonneg hc.data_le
  end_le := le_trans (hc.end_le h.inside) h.end_le

/-- The element count of an array inside a packet is small enough for an `int`. -/
theorem ArrayAt.length_lt {mem : Mem} {r r' : MpackReader} {vs : List Int}
    (h : ArrayAt mem r vs r') {limit : Int} (hr : Enclosed limit r) (hlimit : limit < 2 ^ 30) :
    vs.length < 2 ^ 30 := by
  obtain ⟨r₀, r₁, hpeek, hexpect, hnumbers⟩ := h
  have hpeeked := hr.checked (mpackPeekTag_checked mem r)
  rw [hpeek] at hpeeked
  have hexpected := hpeeked.checked (mpackExpectArray_checked mem r₀)
  rw [hexpect] at hexpected
  dsimp only at hexpected
  have hle := hnumbers.length_le hexpected.inside
  have hnonneg := hexpected.data_nonneg
  have hend := hexpected.end_le
  omega

theorem ArrayAt.valueCount {mem : Mem} {r r' : MpackReader} {vs : List Int}
    (h : ArrayAt mem r vs r') (hlt : vs.length < 2 ^ 30) :
    ∃ r₁, valueCount mem r = (r₁, (vs.length : Int)) ∧ NumbersAt mem r₁ vs r' := by
  obtain ⟨r₀, r₁, hpeek, hexpect, hnumbers⟩ := h
  refine ⟨r₁, ?_, hnumbers⟩
  have hsigned : toSigned 32 vs.length = vs.length := by
    unfold toSigned
    omega
  rw [Server.valueCount, hpeek]
  simp only [hexpect, hsigned]

/-! ## §3 Entries of a packet -/

/-- The value of an entry starts inside the queue, and its index is a byte. -/
def Item.StartsWithin (limit : Int) : Item → Prop
  | .known _ header start _ => Enclosed limit start ∧ headerOffset header < 256
  | .unknown => True

/-- What the loop over the entries keeps: a string may take the reader behind the end of the
    queue, but then the loop ends. -/
structure Bounded (limit : Int) (r : MpackReader) : Prop where
  sane : r.Sane
  data_nonneg : 0 ≤ r.data
  end_eq : r.error = .ok → r.end_ = limit

theorem Bounded.advances {limit : Int} {r r' : MpackReader} (h : Bounded limit r)
    (hadv : Advances r r') : Bounded limit r' where
  sane := hadv.sane h.sane
  data_nonneg := le_trans h.data_nonneg hadv.data_le
  end_eq hok := (hadv.end_eq hok).trans (h.end_eq (hadv.ok_of_ok hok))

/-- A reader that has bytes left has had no error. -/
theorem Bounded.enclosed {limit : Int} (hlimit : limit < 2 ^ 30) {r : MpackReader}
    (h : Bounded limit r) (hlt : r.data < r.end_) : Enclosed limit r := by
  have hok : r.error = .ok := by
    by_contra herror
    have := h.sane herror
    omega
  have hend := h.end_eq hok
  have hnonneg := h.data_nonneg
  exact ⟨⟨hlt.le, by omega⟩, hnonneg, hend.le⟩

theorem decodeLoop_startsWithin {limit : Int} (hlimit : limit < 2 ^ 30) (mem : Mem)
    (applyLocal : Bool) (sender : Nat) (junk : Junk) (fuel : Nat) (q : QueueState)
    {r : MpackReader} (h : Bounded limit r) :
    ∀ item ∈ (decodeLoop mapped mem (readEntry mem applyLocal sender junk) fuel q r).items,
      item.StartsWithin limit := by
  induction fuel generalizing q r with
  | zero => simp [decodeLoop]
  | succ fuel ih =>
    have hentry := (readEntry_spec mem applyLocal sender junk q h.sane).1
    unfold decodeLoop
    split
    · simp
    · case isFalse hlt =>
      rcases hread : readEntry mem applyLocal sender junk q r with ⟨q', ⟨p, header, r'⟩ | r' | r'⟩
      · rw [hread] at hentry
        -- the values start where the header was read to, inside the packet
        have hstart : (Item.known p header r'
            (decodeParam mapped mem p (headerOffset header) r').2).StartsWithin limit :=
          ⟨(h.enclosed hlimit (not_le.mp hlt)).checked hentry, readEntry_found_offset hread⟩
        have hnext := (h.advances hentry.toAdvances).advances
          (decodeParam_advances mapped mem p (headerOffset header) r')
        rcases hdec : decodeParam mapped mem p (headerOffset header) r' with ⟨r1, elems⟩
        rw [hdec] at hstart hnext
        simp only [hdec]
        -- values that kill the process end the queue
        split
        · simpa using hstart
        · intro item hitem
          rcases List.mem_cons.mp hitem with rfl | hitem
          · exact hstart
          · exact ih q' hnext item hitem
      · rw [hread] at hentry
        intro item hitem
        rcases List.mem_cons.mp hitem with rfl | hitem
        · trivial
        · exact ih q' (h.advances hentry.toAdvances) item hitem
      · simp [Item.StartsWithin]

theorem packetItems_startsWithin (env : Env) (packet : CspPacket) (uninit : Uninit) :
    ∃ limit < 2 ^ 30, ∀ item ∈ packetItems env packet uninit, item.StartsWithin limit := by
  cases hform : pushForm env packet with
  | none => exact ⟨0, by omega, by simp [packetItems, hform]⟩
  | some form =>
    have hused : usedOf form.length < 2 ^ 16 := by
      unfold usedOf
      omega
    have hlimit : (2 + usedOf form.length : Int) < 2 ^ 30 := by omega
    have hinit := mpackReaderInitData_within hused
    refine ⟨_, hlimit, ?_⟩
    rw [packetItems_of_pushForm hform, PushForm.items, PushForm.decode, decodeQueue]
    exact decodeLoop_startsWithin hlimit _ _ _ _ _ _ ⟨hinit.sane, hinit.data_nonneg, hinit.end_eq⟩

/-! ## §4 Elements beyond the first -/

section Elements

variable {p : Param} (env : Env)

theorem setInRange_beyond (vs : List Int) {i : Nat} (hi : 1 ≤ i) (s : State) :
    setInRange env p i vs s = s := by
  induction vs generalizing i with
  | nil => rfl
  | cons v vs ih =>
    rw [setInRange, if_neg (by omega)]
    exact ih (by omega)

variable (hp : Scalar p)

include hp

theorem setFrom_beyond (vs : List Int) {i : Nat} (hi : 2 ≤ i) (s : State) :
    setFrom env p i vs s = s := by
  induction vs generalizing i with
  | nil => rfl
  | cons v vs ih =>
    rw [setFrom, paramSetArray_beyond hp hi]
    exact ih (by omega)

/-- A setter call that passes the guard leaves a trace. -/
theorem paramSetArray_ne {i : Nat} (hi : i ≤ 1) (s : State) (v : Int) :
    paramSetArray env s p i v ≠ s := by
  intro heq
  have htrace := (paramSetArray_spec hp hi env s v).events.trace
  rw [heq] at htrace
  have hnil : setEvents env s p (converted p v) = [] := by simpa using htrace
  simp [setEvents, writeEvents] at hnil

/-- The setter calls are those in the range of a scalar if and only if none of them has the
    index 1. -/
theorem setFrom_eq_iff (i : Nat) (vs : List Int) (s : State) :
    setFrom env p i vs s = setInRange env p i vs s ↔ 2 ≤ i ∨ i + vs.length ≤ 1 := by
  by_cases hbeyond : 2 ≤ i
  · have hone : 1 ≤ i := by omega
    simp [setFrom_beyond env hp vs hbeyond, setInRange_beyond env vs hone, hbeyond]
  · cases vs with
    | nil =>
      simp only [setFrom, setInRange, List.length_nil, true_iff]
      omega
    | cons v vs =>
      obtain rfl | rfl : i = 0 ∨ i = 1 := by omega
      · -- the first element is stored by both, and the second one by the code
        cases vs with
        | nil => simp [setFrom, setInRange, paramSet]
        | cons w vs =>
          rw [setFrom, setFrom, setFrom_beyond env hp vs (by omega), setInRange, setInRange,
            setInRange_beyond env vs (by omega)]
          simp only [List.length_cons, Nat.zero_add, if_true, paramSet, Nat.one_ne_zero, if_false]
          constructor
          · intro heq
            exact absurd heq (paramSetArray_ne env hp le_rfl _ w)
          · omega
      · rw [setFrom, setFrom_beyond env hp vs (by omega), setInRange_beyond env _ le_rfl]
        simp only [List.length_cons]
        constructor
        · intro heq
          exact absurd heq (paramSetArray_ne env hp le_rfl _ v)
        · omega

end Elements

/-- An array for a scalar, in an entry of any packet: the elements out of range are consumed and
    ignored if and only if none of them has the index 1. -/
theorem outOfRangeIgnored_iff (env : Env) {packet : CspPacket} {uninit : Uninit} {p : Param}
    {header : Option Header} {start r' : MpackReader} {elems : List Elem} {vs : List Int}
    (hitem : .known p header start elems ∈ packetItems env packet uninit) (hp : Scalar p)
    (harray : ArrayAt packet.data start vs r') (s : State) :
    OutOfRangeIgnored env packet.data p header start vs r' s ↔
      2 ≤ entryIndex header ∨ entryIndex header + vs.length ≤ 1 := by
  obtain ⟨limit, hlimit, hwithin⟩ := packetItems_startsWithin env packet uninit
  obtain ⟨henclosed, hindex⟩ := hwithin _ hitem
  have hlt := harray.length_lt henclosed hlimit
  obtain ⟨r₁, hcount, hnumbers⟩ := harray.valueCount hlt
  have hrun : paramDeserializeFromMpackToParam env packet.data p (headerOffset header) start s =
      (r', setFrom env p (entryIndex header) vs s) := by
    -- the bound of the loop does not wrap
    have hrounds : loopRounds (headerOffset header).toNat vs.length = vs.length :=
      loopRounds_of_lt (by omega) (by omega)
    rw [paramDeserializeFromMpackToParam, hcount]
    simp only [hrounds]
    exact storeLoop_numbers hp env hnumbers _ s
  rw [← setFrom_eq_iff env hp]
  constructor
  · intro h
    have hstored := h.stored
    rw [hrun] at hstored
    exact hstored
  · intro heq
    exact ⟨by rw [hrun], by rw [hrun, heq]⟩

theorem cameraArray_fits : [2, 0, 33, 0x92, 5, 6].length ≤ CSP_BUFFER_SIZE := by
  decide

/-- A V1 push of the array `[5, 6]` to `mng_camera_control`. -/
def cameraArray : Delivery :=
  deliveryOf [2, 0, 33, 0x92, 5, 6] cameraArray_fits

/-- The reader at the array. -/
def cameraArrayStart : MpackReader :=
  { data := 3, end_ := 6, error := .ok, top := 3 }

/-- The header in front of it. -/
def cameraHeader : Header :=
  { id := 33, node := some 0, timestamp := 0, offset := -1 }

theorem scalar_mngCameraControl : Scalar mngCameraControl := ⟨by decide, by decide⟩

/-- The decoder comes to the array. -/
theorem cameraArray_item : ∃ elems,
    .known mngCameraControl (some cameraHeader) cameraArrayStart elems ∈
      packetItems plainEnv cameraArray.packet cameraArray.uninit := by
  have hany : (packetItems plainEnv cameraArray.packet cameraArray.uninit).any (fun
      | .known p header start _ => decide (p = mngCameraControl ∧ header = some cameraHeader ∧
          start = cameraArrayStart)
      | .unknown => false) = true := by
    decide +kernel
  obtain ⟨item, hitem, hparts⟩ := List.any_eq_true.mp hany
  cases item with
  | unknown => exact absurd hparts (by decide)
  | known p header start elems =>
    obtain ⟨rfl, rfl, rfl⟩ := of_decide_eq_true hparts
    exact ⟨elems, hitem⟩

theorem cameraArray_at :
    ArrayAt cameraArray.packet.data cameraArrayStart [5, 6]
      { data := 6, end_ := 6, error := .ok, top := 6 } := by
  refine ⟨{ data := 3, end_ := 6, error := .ok, top := 4 },
    { data := 4, end_ := 6, error := .ok, top := 4 }, by decide +kernel, by decide +kernel, ?_⟩
  have hfive : mpackExpectUint cameraArray.packet.data
      { data := 4, end_ := 6, error := .ok, top := 4 } =
        ({ data := 5, end_ := 6, error := .ok, top := 5 }, 5) := by
    decide +kernel
  have hsix : mpackExpectUint cameraArray.packet.data
      { data := 5, end_ := 6, error := .ok, top := 5 } =
        ({ data := 6, end_ := 6, error := .ok, top := 6 }, 6) := by
    decide +kernel
  exact .cons hfive rfl (.cons hsix rfl (.nil _))

theorem outOfRangeIgnored_iff_camera :
    (∃ elems, .known mngCameraControl (some cameraHeader) cameraArrayStart elems ∈
      packetItems plainEnv cameraArray.packet cameraArray.uninit) ∧
    (OutOfRangeIgnored plainEnv cameraArray.packet.data mngCameraControl (some cameraHeader)
      cameraArrayStart [5, 6] { data := 6, end_ := 6, error := .ok, top := 6 }
        (initialState none none) ↔ 2 ≤ 0 ∨ 0 + 2 ≤ 1) := by
  refine ⟨cameraArray_item, ?_⟩
  obtain ⟨elems, hitem⟩ := cameraArray_item
  exact outOfRangeIgnored_iff plainEnv hitem scalar_mngCameraControl cameraArray_at _

/-- The second element of an array starts the camera control once more. -/
theorem secondElement_stored :
    ¬ OutOfRangeIgnored plainEnv cameraArray.packet.data mngCameraControl (some cameraHeader)
      cameraArrayStart [5, 6] { data := 6, end_ := 6, error := .ok, top := 6 }
      (initialState none none) := by
  intro h
  have hcode : (paramDeserializeFromMpackToParam plainEnv cameraArray.packet.data mngCameraControl
      (headerOffset (some cameraHeader)) cameraArrayStart (initialState none none)).2.trace =
        [.store .mngCameraControl 0 1, .callback .mngCameraControl 5,
          .popen (.startCameraControl 5) true, .store .mngCameraControl 0 1,
          .callback .mngCameraControl 6, .popen (.startCameraControl 6) true] := by
    decide +kernel
  have hrange : (setInRange plainEnv mngCameraControl (entryIndex (some cameraHeader)) [5, 6]
      (initialState none none)).trace =
        [.store .mngCameraControl 0 1, .callback .mngCameraControl 5,
          .popen (.startCameraControl 5) true] := by
    decide +kernel
  rw [h.stored, hrange] at hcode
  exact absurd hcode (by decide)

end AppSysManager.Server
