import AppSysManager.Server.Containment

/-!
# What the Decoder Depends on

A reader that stays within its limit sees nothing but the bytes in front of it.

- `paramDeserializeId_congr`, `decodeParam_congr`: headers and contained values depend on the
  payload only.
- `settled`: a header whose lookup does not touch an indeterminate local.
- `applySettled`, `pullSettled`: every header of a push, or of a pull request, is settled;
  for a push, every value is contained too.
- `decodeLoop_congr`: a settled push decodes to the same entries whatever stands behind
  the payload and in the locals.
-/

namespace AppSysManager.Server

open AppSysManager.Bytes AppSysManager.Mpack AppSysManager.Node

variable {mapped : Nat}

/-! ## §1 Headers and values -/

/-- What a reader within the limit can still see. -/
theorem Within.agree {limit : Int} {r : MpackReader} (h : Within limit r) {m m' : Mem}
    (hagree : AgreeOn m m' 0 limit) : AgreeOn m m' r.data r.end_ :=
  hagree.mono h.data_nonneg h.end_le

section Congruence

variable {limit : Int} {m m' : Mem} (hagree : AgreeOn m m' 0 limit)

include hagree

theorem paramDeserializeId_congr {r : MpackReader} (h : Within limit r) (q : QueueState) :
    paramDeserializeId m r q = paramDeserializeId m' r q := by
  have hu16 : mpackExpectU16 m r = mpackExpectU16 m' r :=
    mpackExpectRange_congr h.inside (h.agree hagree)
  have hfield : ∀ {r : MpackReader}, Within limit r → ∀ flag count default,
      readField m r flag count default = readField m' r flag count default :=
    fun hr flag count default => readField_congr flag count default hr.inside (hr.agree hagree)
  have hr0 : Within limit (mpackExpectU16 m' r).1 :=
    h.checked (mpackExpectRange_checked _ _ m' r)
  unfold paramDeserializeId
  rw [hu16]
  rcases hread : mpackExpectU16 m' r with ⟨r0, v⟩
  rw [hread] at hr0
  dsimp only at hr0 ⊢
  split
  · rfl
  · split
    · rw [hfield hr0]
    · -- the four fields of a version 2 header, each read behind the one before
      have hr1 := hr0.checked (readField_checked m' (decide (bswap16 v.toNat / 2 ^ 15 % 2 = 1))
        1 (-1) (by decide) hr0.sane)
      have hr2 := hr1.checked (readField_checked m' (decide (bswap16 v.toNat / 2 ^ 14 % 2 = 1))
        2 0 (by decide) hr1.sane)
      have hr3 := hr2.checked (readField_checked m' (decide (bswap16 v.toNat / 2 ^ 13 % 2 = 1))
        4 0 (by decide) hr2.sane)
      simp only [hfield hr0, hfield hr1, hfield hr2, hfield hr3]

theorem valueCount_congr {r : MpackReader} (h : Within limit r) :
    valueCount m r = valueCount m' r := by
  have hpeek := h.checked (mpackPeekTag_checked m' r)
  unfold valueCount
  rw [mpackPeekTag_congr h.inside (h.agree hagree)]
  rcases hread : mpackPeekTag m' r with ⟨r', tag⟩
  rw [hread] at hpeek
  cases tag with
  | array n =>
    dsimp only
    rw [mpackExpectArray_congr hpeek.inside (hpeek.agree hagree)]
  | _ => rfl

/-- The copy of a contained string depends on the payload only. -/
theorem takeBytes_congr {r : MpackReader} (h : Within limit r) {len : Nat} (i : Nat)
    (hc : (⟨i, (takeBytes mapped m r len .str).2,
      (takeBytes mapped m r len .str).1⟩ : Elem).Contained limit) :
    takeBytes mapped m r len .str = takeBytes mapped m' r len .str := by
  have hnonneg := h.data_nonneg
  unfold takeBytes at hc ⊢
  split at hc
  · exact hc.elim
  · case isFalse hsmall =>
    change r.data + len ≤ limit at hc
    have hbytes : bytesAt m r.data len = bytesAt m' r.data len := by
      funext j
      unfold bytesAt
      split
      · exact hagree _ (by omega) (by omega)
      · rfl
    rw [if_neg hsmall, if_neg hsmall, hbytes]

theorem readValue_congr (mapped : Nat) {type : ParamType} (htype : type ≠ .data) {r : MpackReader}
    (h : Within limit r) (i : Nat)
    (hc : (⟨i, (readValue mapped m type r).2,
      (readValue mapped m type r).1⟩ : Elem).Contained limit) :
    readValue mapped m type r = readValue mapped m' type r := by
  have hrange : ∀ lo hi, mpackExpectRange lo hi m r = mpackExpectRange lo hi m' r := fun lo hi =>
    mpackExpectRange_congr h.inside (h.agree hagree)
  cases type with
  | data => exact absurd rfl htype
  | string =>
    -- the length is inside the payload, and so are the bytes of the string by `hc`
    have hstr := h.checked (mpackExpectStr_checked m' r)
    simp only [readValue, mpackExpectStr_congr h.inside (h.agree hagree)] at hc ⊢
    rcases hread : mpackExpectStr m' r with ⟨r', len⟩
    rw [hread] at hstr hc
    dsimp only at hc ⊢
    split
    · rfl
    · case isFalse hne =>
      simp only [hne, if_false] at hc
      exact takeBytes_congr hagree hstr i hc
  | uint64 => simp only [readValue, mpackExpectU64, hrange]
  | xint64 => simp only [readValue, mpackExpectU64, hrange]
  | int64 => simp only [readValue, mpackExpectI64, hrange]
  | int8 => simp only [readValue, mpackExpectInt, hrange]
  | int16 => simp only [readValue, mpackExpectInt, hrange]
  | int32 => simp only [readValue, mpackExpectInt, hrange]
  | _ => simp only [readValue, mpackExpectUint, hrange]

theorem decodeValues_congr (hlimit : limit < 2 ^ 32) (hmapped : limit < mapped) {type : ParamType}
    (htype : type ≠ .data) (count i : Nat) {r : MpackReader} (h : Within limit r)
    (hc : ∀ e ∈ (decodeValues mapped m type count i r).2, e.Contained limit) :
    decodeValues mapped m type count i r = decodeValues mapped m' type count i r := by
  induction count generalizing i r with
  | zero => rfl
  | succ count ih =>
    have hwithin := (readValue_within hlimit hmapped m htype h i).1
    have hvalue := readValue_congr hagree mapped htype h i
    unfold decodeValues at hc ⊢
    rcases hread : readValue mapped m type r with ⟨r', v⟩
    rw [hread] at hc hwithin hvalue
    dsimp only at hc hwithin hvalue
    have hfirst : (⟨i, v, r'⟩ : Elem).Contained limit := by
      apply hc
      split <;> simp
    rw [← hvalue hfirst]
    dsimp only
    split
    · rfl
    · case isFalse hgo =>
      rw [if_neg hgo] at hc
      rw [ih (i + 1) (hwithin hfirst) fun e he => hc e (List.mem_cons_of_mem _ he)]

/-- The values of an entry, all of them contained, depend on the payload only. -/
theorem decodeParam_congr (hlimit : limit < 2 ^ 32) (hmapped : limit < mapped) {p : Param}
    (hp : p ∈ paramTable) (offset : Int) {r : MpackReader} (h : Within limit r)
    (hc : ∀ e ∈ (decodeParam mapped m p offset r).2, e.Contained limit) :
    decodeParam mapped m p offset r = decodeParam mapped m' p offset r := by
  have hcount := h.checked (valueCount_checked m r)
  unfold decodeParam at hc ⊢
  rw [← valueCount_congr hagree h]
  rcases hread : valueCount m r with ⟨r', count⟩
  rw [hread] at hc hcount
  exact decodeValues_congr hagree hlimit hmapped (paramTable_type_ne_data hp) _ _ hcount hc

theorem skipTags_congr (count : Nat) {r : MpackReader} (h : Within limit r) :
    skipTags m count r = skipTags m' count r := by
  induction count generalizing r with
  | zero => rfl
  | succ count ih =>
    have htag := h.checked (mpackReadTag_checked m' r)
    unfold skipTags
    rw [mpackReadTag_congr h.inside (h.agree hagree)]
    rcases hread : mpackReadTag m' r with ⟨r', tag⟩
    rw [hread] at htag
    dsimp only
    split
    · rfl
    · exact ih htag

theorem skipUnknown_congr (tag : MpackTag) {r : MpackReader} (h : Within limit r) :
    skipUnknown m tag r = skipUnknown m' tag r := by
  cases tag with
  | array n => exact skipTags_congr hagree n h
  | _ => rfl

theorem discard_congr {r : MpackReader} (h : Within limit r) : discard m r = discard m' r :=
  mpackDiscard_congr _ h.inside (h.agree hagree)

end Congruence

/-! ## §2 Lookups -/

/-- The header could be read, and its node is known or does not decide the lookup: it is
    overridden (`free`), or the id is nobody's. -/
def settled (free : Bool) : Option Header → Bool
  | none => false
  | some h => free || h.node.isSome || (paramListFindId 0 h.id).isNone

/-- All parameters of the program are parameters of node 0. -/
theorem paramListFindId_eq {node : Int} (hnode : 0 ≤ node) (id : Int) :
    paramListFindId node id = if node = 0 then paramListFindId 0 id else none := by
  split
  · case isTrue hzero => rw [hzero]
  · exact paramListFindId_remote id (by omega)

/-- The lookup of a settled header of a pull request does not depend on the locals. -/
theorem locateLocal_settled {header : Option Header} (h : settled false header = true)
    (serverAddr : Nat) (junk junk' : Junk) :
    locateLocal serverAddr junk header = locateLocal serverAddr junk' header := by
  cases header with
  | none => cases h
  | some header =>
    obtain ⟨id, node, timestamp, offset⟩ := header
    cases node with
    | some node => rfl
    | none =>
      have hnobody : paramListFindId 0 id = none := by simpa [settled] using h
      have hnone : ∀ last : Nat,
          paramListFindId (if (serverAddr : Int) = last then 0 else last) id = none := by
        intro last
        rw [paramListFindId_eq (by split <;> omega), hnobody, ite_self]
      exact (hnone junk.lastNode).trans (hnone junk'.lastNode).symm

/-- An entry of a push without a node: only node 0 has parameters, so it is found if the
    packet may be applied locally, or if node and sender both happen to be 0. -/
theorem locate_without_node (applyLocal : Bool) (sender : Nat) (junk : Junk) (id timestamp : Nat)
    (offset : Int) :
    locate applyLocal sender junk (some ⟨id, none, timestamp, offset⟩) =
      if applyLocal = true ∨ (junk.lastNode = 0 ∧ sender = 0) then paramListFindId 0 id
      else none := by
  obtain ⟨-, -, last⟩ := junk
  simp only [locate, Option.getD_none, Nat.cast_eq_zero]
  have hnode : (0 : Int) ≤ if last = 0 then (sender : Int) else last := by split <;> omega
  rw [paramListFindId_eq hnode]
  -- a lookup under any node but 0 finds nothing, so the first one is decided by `hzero`
  by_cases hzero : (if last = 0 then (sender : Int) else last) = 0
  · have hboth : last = 0 ∧ sender = 0 := by
      by_cases hlast : last = 0
      · simp only [hlast, if_true] at hzero
        exact ⟨hlast, by omega⟩
      · simp only [hlast, if_false] at hzero
        omega
    simp only [hboth, and_self, or_true, if_true, Nat.cast_zero]
    cases hfind : paramListFindId 0 (id : Int) with
    | some p => rfl
    | none => simp [hfind]
  · have hboth : ¬ (last = 0 ∧ sender = 0) := by
      rintro ⟨rfl, rfl⟩
      exact hzero rfl
    simp only [hzero, hboth, or_false, if_false]
    -- the second lookup, under node 0, is made only for a local packet
    cases applyLocal with
    | true => rfl
    | false =>
      simp only [Bool.false_eq_true, if_false]
      rw [paramListFindId_eq hnode, if_neg hzero]

/-- The lookup of a settled header of a push does not depend on the locals. -/
theorem locate_settled {applyLocal : Bool} {sender : Nat} {header : Option Header}
    (h : settled (applyLocal || decide (sender ≠ 0)) header = true) (junk junk' : Junk) :
    locate applyLocal sender junk header = locate applyLocal sender junk' header := by
  cases header with
  | none => cases h
  | some header =>
    obtain ⟨id, node, timestamp, offset⟩ := header
    cases node with
    | some node => rfl
    | none =>
      rw [locate_without_node, locate_without_node]
      simp only [settled, Option.isSome_none, Bool.or_false, Bool.or_eq_true, decide_eq_true_eq,
        Option.isNone_iff_eq_none] at h
      rcases h with (hlocal | hsender) | hnobody
      · simp [hlocal]
      · simp [hsender]
      · simp [hnobody]

/-! ## §3 Queues -/

/-- Locals that happen to hold zeros. -/
def noJunk : Junk := ⟨0, 0, 0⟩

/-- Every header of a push is settled, and every value lies in front of the limit. -/
def applySettled (mapped : Nat) (limit : Int) (mem : Mem) (free : Bool)
    (entry : QueueState → MpackReader → QueueState × Entry) :
    Nat → QueueState → MpackReader → Bool
  | 0, _, _ => true
  | fuel + 1, q, r =>
    if r.end_ ≤ r.data then true
    else
      settled free (paramDeserializeId mem r q).2.2 &&
        match entry q r with
        | (q, .found p header r) =>
          let values := decodeParam mapped mem p (headerOffset header) r
          values.2.all (fun e => decide (e.Contained limit)) &&
            applySettled mapped limit mem free entry fuel q values.1
        | (_, .broken _) => true
        | (q, .skipped r) => applySettled mapped limit mem free entry fuel q r

/-- Every header of a pull request is settled.  With an ack the values behind the ids of
    known parameters are skipped. -/
def pullSettled (mem : Mem) (serverAddr : Nat) (ackWithPull : Bool) :
    Nat → QueueState → MpackReader → Bool
  | 0, _, _ => true
  | fuel + 1, q, r =>
    if r.end_ ≤ r.data then true
    else
      let header := paramDeserializeId mem r q
      settled false header.2.2 &&
        pullSettled mem serverAddr ackWithPull fuel header.2.1
          (if ackWithPull && (locateLocal serverAddr noJunk header.2.2).isSome then
            discard mem header.1 else header.1)

section Congruence

variable {limit : Int} {m m' : Mem} (hagree : AgreeOn m m' 0 limit)

include hagree

/-- An entry with a settled header. -/
theorem readEntry_congr {applyLocal : Bool} {sender : Nat} {q : QueueState} {r : MpackReader}
    (h : Within limit r)
    (hsettled : settled (applyLocal || decide (sender ≠ 0)) (paramDeserializeId m r q).2.2 = true)
    (junk junk' : Junk) :
    readEntry m applyLocal sender junk q r = readEntry m' applyLocal sender junk' q r := by
  have hid := h.checked (paramDeserializeId_checked' m q h.sane)
  unfold readEntry
  rw [← paramDeserializeId_congr hagree h]
  rcases hread : paramDeserializeId m r q with ⟨r', q', header⟩
  rw [hread] at hsettled hid
  dsimp only at hsettled hid ⊢
  rw [locate_settled hsettled junk junk']
  cases locate applyLocal sender junk' header with
  | some p => rfl
  | none =>
    have htag := hid.checked (mpackReadTag_checked m r')
    dsimp only
    rw [← mpackReadTag_congr hid.inside (hid.agree hagree)]
    rcases htread : mpackReadTag m r' with ⟨r1, tag⟩
    rw [htread] at htag
    dsimp only
    rw [skipUnknown_congr hagree tag htag]

/-- A settled push decodes to the same entries, whatever stands behind its payload and in the
    indeterminate locals. -/
theorem decodeLoop_congr (hlimit : limit < 2 ^ 32) (hmapped : limit < mapped) {applyLocal : Bool}
    {sender : Nat} {fuel : Nat} {q : QueueState} {r : MpackReader} (h : Within limit r)
    (hsettled : applySettled mapped limit m (applyLocal || decide (sender ≠ 0))
      (readEntry m applyLocal sender noJunk) fuel q r = true) (junk junk' : Junk) :
    decodeLoop mapped m (readEntry m applyLocal sender junk) fuel q r =
        decodeLoop mapped m' (readEntry m' applyLocal sender junk') fuel q r ∧
      ∀ item ∈ (decodeLoop mapped m (readEntry m applyLocal sender junk) fuel q r).items,
        item.Contained limit := by
  induction fuel generalizing q r with
  | zero => exact ⟨rfl, by simp [decodeLoop]⟩
  | succ fuel ih =>
    unfold applySettled at hsettled
    unfold decodeLoop
    split
    · exact ⟨rfl, by simp⟩
    · case isFalse hgo =>
      rw [if_neg hgo, Bool.and_eq_true] at hsettled
      obtain ⟨hheader, hrest⟩ := hsettled
      have hentry := h.checked (readEntry_spec m applyLocal sender noJunk q h.sane).1
      -- both decoders read what the one with zeros in its locals reads
      have hown : readEntry m applyLocal sender junk q r =
        readEntry m applyLocal sender noJunk q r :=
        @readEntry_congr limit m m (fun _ _ _ => rfl) _ _ _ _ h hheader junk noJunk
      have hother := readEntry_congr hagree h hheader noJunk junk'
      rw [hown, ← hother]
      rcases hread : readEntry m applyLocal sender noJunk q r with
        ⟨q', ⟨p, header, r'⟩ | r' | r'⟩
      · rw [hread] at hentry hrest
        have hp := readEntry_found_mem hread
        have hwithin := (decodeParam_within hlimit hmapped m hp (headerOffset header) hentry).1
        have hvalues := decodeParam_congr hagree hlimit hmapped hp (headerOffset header) hentry
        rcases hdec : decodeParam mapped m p (headerOffset header) r' with ⟨r1, elems⟩
        rw [show (q', Entry.found p header r').2.reader = r' from rfl, hdec] at hwithin hvalues
        simp only [hdec, Bool.and_eq_true, List.all_eq_true, decide_eq_true_eq] at hrest
        obtain ⟨hcontained, hrest⟩ := hrest
        have hitem : (Item.known p header r' elems).Contained limit := hcontained
        have hover : overruns elems = false := not_overrun_of_contained hitem
        obtain ⟨hsame, hall⟩ := ih (hwithin hcontained) hrest
        simp only [← hvalues hcontained, hdec, hover, Bool.false_eq_true, if_false, hsame,
          List.mem_cons, forall_eq_or_imp, true_and]
        exact ⟨hitem, hsame ▸ hall⟩
      · rw [hread] at hentry hrest
        obtain ⟨hsame, hall⟩ := ih hentry hrest
        refine ⟨congrArg (fun d : Decoded => (⟨d.reader, .unknown :: d.items⟩ : Decoded)) hsame, ?_⟩
        intro item hitem
        rcases List.mem_cons.mp hitem with rfl | hitem
        · trivial
        · exact hall item hitem
      · exact ⟨rfl, by simp [Item.Contained]⟩

end Congruence

end AppSysManager.Server
