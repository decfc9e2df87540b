import AppSysManager.Server.Progress
import AppSysManager.Server.Runs

/-!
# Reading inside the Payload

Every read of the decoder but one is checked against the end of the queue.  The exception
is the copy of a string: `param_deserialize_from_mpack_to_param` hands the length it finds
in the packet to the setter without asking whether so many bytes are there.

- `Within limit r`: a reader of a queue that ends at `limit`, with nothing fetched from
  behind it.
- `Elem.Contained`: the bytes of a value lie in front of the limit.
- `decodeLoop_within`: the decoder stays in front of the limit exactly when all its values
  do.
-/

namespace AppSysManager.Server

open AppSysManager.Bytes AppSysManager.Mpack AppSysManager.Node

variable {mapped : Nat}

/-! ## §1 Readers -/

/-- A reader of a queue that ends at `limit`. -/
structure Within (limit : Int) (r : MpackReader) : Prop where
  sane : r.Sane
  inside : r.Inside
  data_nonneg : 0 ≤ r.data
  end_le : r.end_ ≤ limit
  top_le : r.top ≤ limit
  end_eq : r.error = .ok → r.end_ = limit

/-- Checked reads keep the reader within the limit. -/
theorem Within.checked {limit : Int} {r r' : MpackReader} (h : Within limit r)
    (hc : Checked r r') : Within limit r' where
  sane := hc.sane h.sane
  inside := hc.inside h.inside
  data_nonneg := le_trans h.data_nonneg hc.data_le
  end_le := le_trans (hc.end_le h.inside) h.end_le
  top_le := le_trans (hc.top_le_end h.inside) (max_le h.top_le h.end_le)
  end_eq hok := (hc.end_eq hok).trans (h.end_eq (hc.ok_of_ok hok))

/-- The reader at the start of a queue. -/
theorem mpackReaderInitData_within {used : Nat} (h : used < 2 ^ 16) :
    Within (2 + used) (mpackReaderInitData 2 used) where
  sane he := absurd rfl he
  inside := ⟨by simp [mpackReaderInitData], by simp [mpackReaderInitData]; omega⟩
  data_nonneg := by simp [mpackReaderInitData]
  end_le := le_refl _
  top_le := by simp [mpackReaderInitData]
  end_eq _ := rfl

/-! ## §2 Values -/

/-- The bytes of a value lie in front of the limit. -/
def Elem.Contained (limit : Int) (e : Elem) : Prop :=
  match e.value with
  | .str .. => e.reader.data ≤ limit
  | .data .. => e.reader.data ≤ limit
  | .overrun _ => False
  | .num _ => True
  | .emptyStr => True

instance (limit : Int) : DecidablePred (Elem.Contained limit)
  | ⟨_, .str .., r⟩ => inferInstanceAs (Decidable (r.data ≤ limit))
  | ⟨_, .data .., r⟩ => inferInstanceAs (Decidable (r.data ≤ limit))
  | ⟨_, .overrun _, _⟩ => inferInstanceAs (Decidable False)
  | ⟨_, .num _, _⟩ => inferInstanceAs (Decidable True)
  | ⟨_, .emptyStr, _⟩ => inferInstanceAs (Decidable True)

theorem mpackExpectNative_lt (mem : Mem) (r : MpackReader) (count : Nat) :
    (mpackExpectNative mem r count).2 < 256 ^ count := by
  unfold mpackExpectNative
  split_ifs
  · positivity
  · exact loadBE_lt mem _ count
  · positivity

/-- The length of a string is a 32-bit number. -/
theorem mpackExpectStr_lt (mem : Mem) (r : MpackReader) : (mpackExpectStr mem r).2 < 2 ^ 32 := by
  unfold mpackExpectStr
  rcases mpackExpectNative mem r 1 with ⟨r', type⟩
  dsimp only
  split_ifs
  · omega
  · exact lt_trans (mpackExpectNative_lt mem r' 1) (by norm_num)
  · exact lt_trans (mpackExpectNative_lt mem r' 2) (by norm_num)
  · exact mpackExpectNative_lt mem r' 4
  · norm_num

/-- The copy of a string is the one read that nothing checks. -/
theorem takeBytes_within {limit : Int} (hlimit : limit < 2 ^ 32)
    (hmapped : limit < mapped) (mem : Mem) {r : MpackReader}
    (h : Within limit r) (hok : r.error = .ok) {len : Nat} (hlen : len < 2 ^ 32) (i : Nat) :
    let e : Elem := ⟨i, (takeBytes mapped mem r len .str).2, (takeBytes mapped mem r len .str).1⟩
    (e.Contained limit → Within limit e.reader) ∧ (¬ e.Contained limit → limit < e.reader.top) := by
  have hnonneg := h.data_nonneg
  unfold takeBytes
  split
  · case isTrue hbig =>
    -- as a `size_t` the length is almost `2^64`, or itself
    have hsize : sizeT (toSigned 32 len) =
        if len < 2 ^ 31 then len else 2 ^ 64 - (2 ^ 32 - len) := by
      unfold sizeT toSigned
      split
      · omega
      · omega
    refine ⟨fun hc => hc.elim, fun _ => ?_⟩
    simp only [fetch_top, hsize]
    split
    · omega
    · omega
  · refine ⟨fun hc => ?_, fun hc => ?_⟩
    · change r.data + len ≤ limit at hc
      have hend := h.end_eq hok
      have hlt := h.inside.lt
      refine ⟨fun he => absurd hok he, ⟨?_, ?_⟩, ?_, h.end_le, ?_, fun _ => hend⟩
      · simp only [fetch_end]
        omega
      · simp only [fetch_end]
        omega
      · show 0 ≤ r.data + len
        omega
      · simp only [fetch_top]
        have := h.top_le
        omega
    · change ¬ r.data + len ≤ limit at hc
      simp only [fetch_top]
      omega

/-- One value. -/
theorem readValue_within {limit : Int} (hlimit : limit < 2 ^ 32)
    (hmapped : limit < mapped) (mem : Mem) {type : ParamType}
    (htype : type ≠ .data) {r : MpackReader} (h : Within limit r) (i : Nat) :
    let e : Elem := ⟨i, (readValue mapped mem type r).2, (readValue mapped mem type r).1⟩
    (e.Contained limit → Within limit e.reader) ∧ (¬ e.Contained limit → limit < e.reader.top) := by
  have hrange : ∀ lo hi, Within limit (mpackExpectRange lo hi mem r).1 := fun lo hi =>
    h.checked (mpackExpectRange_checked lo hi mem r)
  cases type with
  | data => exact absurd rfl htype
  | string =>
    have hstr := h.checked (mpackExpectStr_checked mem r)
    have hzero := @mpackExpectStr_zero_of_error mem r
    have hlt := mpackExpectStr_lt mem r
    simp only [readValue]
    rcases hread : mpackExpectStr mem r with ⟨r', len⟩
    rw [hread] at hstr hzero hlt
    dsimp only at hstr hzero hlt ⊢
    split
    · exact ⟨fun _ => hstr, fun hc => absurd trivial hc⟩
    · case isFalse hne =>
      -- a length that is not zero has been read without an error
      have hok : r'.error = .ok := by
        by_contra herr
        exact hne (hzero herr)
      exact takeBytes_within hlimit hmapped mem hstr hok hlt i
  | _ => exact ⟨fun _ => hrange _ _, fun hc => absurd trivial hc⟩

/-- The values of an entry. -/
theorem decodeValues_within {limit : Int} (hlimit : limit < 2 ^ 32)
    (hmapped : limit < mapped) (mem : Mem) {type : ParamType}
    (htype : type ≠ .data) (count i : Nat) {r : MpackReader} (h : Within limit r) :
    ((∀ e ∈ (decodeValues mapped mem type count i r).2, e.Contained limit) →
      Within limit (decodeValues mapped mem type count i r).1) ∧
    ((∃ e ∈ (decodeValues mapped mem type count i r).2, ¬ e.Contained limit) →
      limit < (decodeValues mapped mem type count i r).1.top) := by
  induction count generalizing i r with
  | zero => exact ⟨fun _ => h, by simp [decodeValues]⟩
  | succ count ih =>
    obtain ⟨hin, hout⟩ := readValue_within hlimit hmapped mem htype h i
    unfold decodeValues
    rcases hread : readValue mapped mem type r with ⟨r', v⟩
    rw [hread] at hin hout
    dsimp only at hin hout ⊢
    split
    -- the loop ends here: the reader has an error, or the process is dead
    · refine ⟨fun hall => hin (hall _ (by simp)), ?_⟩
      rintro ⟨e, he, hnot⟩
      obtain rfl := List.mem_singleton.mp he
      exact hout hnot
    · constructor
      · intro hall
        exact (ih (i + 1) (hin (hall _ (by simp)))).1 fun e he => hall e (by simp [he])
      · rintro ⟨e, he, hnot⟩
        -- a later value may be the first one that leaves the packet
        by_cases hc : (⟨i, v, r'⟩ : Elem).Contained limit
        · rcases List.mem_cons.mp he with rfl | he
          · exact absurd hc hnot
          · exact (ih (i + 1) (hin hc)).2 ⟨e, he, hnot⟩
        -- this one has left it already, and the reader never goes back
        · exact lt_of_lt_of_le (hout hc)
            (decodeValues_advances mapped mem type count (i + 1) r').top_le

/-- The program has no binary parameter. -/
theorem paramTable_type_ne_data {p : Param} (hp : p ∈ paramTable) : p.type ≠ .data := by
  rw [eq_param_of_mem hp]
  cases p.name <;> decide

theorem decodeParam_within {limit : Int} (hlimit : limit < 2 ^ 32)
    (hmapped : limit < mapped) (mem : Mem) {p : Param}
    (hp : p ∈ paramTable) (offset : Int) {r : MpackReader} (h : Within limit r) :
    ((∀ e ∈ (decodeParam mapped mem p offset r).2, e.Contained limit) →
      Within limit (decodeParam mapped mem p offset r).1) ∧
    ((∃ e ∈ (decodeParam mapped mem p offset r).2, ¬ e.Contained limit) →
      limit < (decodeParam mapped mem p offset r).1.top) :=
  decodeValues_within hlimit hmapped mem (paramTable_type_ne_data hp) _ _
    (h.checked (valueCount_checked mem r))

/-! ## §3 Queues -/

/-- All values of an entry lie in front of the limit. -/
def Item.Contained (limit : Int) : Item → Prop
  | .known _ _ _ elems => ∀ e ∈ elems, e.Contained limit
  | .unknown => True

instance (limit : Int) : DecidablePred (Item.Contained limit)
  | .known _ _ _ elems => inferInstanceAs (Decidable (∀ e ∈ elems, e.Contained limit))
  | .unknown => inferInstanceAs (Decidable True)

theorem not_overrun_of_contained {limit : Int} {item : Item} (h : item.Contained limit) :
    item.isOverrun = false := by
  cases item with
  | unknown => rfl
  | known p header start elems =>
    refine List.any_eq_false.mpr fun e he => ?_
    have hc := h e he
    cases hv : e.value with
    | overrun len => rw [Elem.Contained, hv] at hc; exact hc.elim
    | _ => exact Bool.false_ne_true

theorem decodeLoop_advances (mapped : Nat) (mem : Mem) (applyLocal : Bool) (sender : Nat)
    (junk : Junk)
    (fuel : Nat) (q : QueueState) {r : MpackReader} (hs : r.Sane) :
    Advances r (decodeLoop mapped mem (readEntry mem applyLocal sender junk) fuel q r).reader := by
  induction fuel generalizing q r with
  | zero => exact Advances.refl r
  | succ fuel ih =>
    have hentry := (readEntry_spec mem applyLocal sender junk q hs).1.toAdvances
    unfold decodeLoop
    split
    · exact Advances.refl r
    · rcases hread : readEntry mem applyLocal sender junk q r with ⟨q', ⟨p, header, r'⟩ | r' | r'⟩
      · rw [hread] at hentry
        have hvalues := decodeParam_advances mapped mem p (headerOffset header) r'
        have hboth := hentry.trans hvalues
        dsimp only
        split
        · exact hboth
        · exact hboth.trans (ih q' (hboth.sane hs))
      · rw [hread] at hentry
        exact hentry.trans (ih q' (hentry.sane hs))
      · rw [hread] at hentry
        exact hentry

/-- The decoder stays in front of the limit exactly when all its values do. -/
theorem decodeLoop_within {limit : Int} (hlimit : limit < 2 ^ 32)
    (hmapped : limit < mapped) (mem : Mem) (applyLocal : Bool)
    (sender : Nat) (junk : Junk) (fuel : Nat) (q : QueueState) {r : MpackReader}
    (h : Within limit r) :
    let d := decodeLoop mapped mem (readEntry mem applyLocal sender junk) fuel q r
    ((∀ item ∈ d.items, item.Contained limit) → Within limit d.reader) ∧
      ((∃ item ∈ d.items, ¬ item.Contained limit) → limit < d.reader.top) := by
  induction fuel generalizing q r with
  | zero => exact ⟨fun _ => h, by simp [decodeLoop]⟩
  | succ fuel ih =>
    have hentry := (readEntry_spec mem applyLocal sender junk q h.sane).1
    unfold decodeLoop
    split
    · exact ⟨fun _ => h, by simp⟩
    · rcases hread : readEntry mem applyLocal sender junk q r with ⟨q', ⟨p, header, r'⟩ | r' | r'⟩
      · rw [hread] at hentry
        have hr' : Within limit r' := h.checked hentry
        obtain ⟨hin, hout⟩ := decodeParam_within hlimit hmapped mem (readEntry_found_mem hread)
          (headerOffset header) hr'
        have hadv := decodeParam_advances mapped mem p (headerOffset header) r'
        rcases hdec : decodeParam mapped mem p (headerOffset header) r' with ⟨r1, elems⟩
        rw [hdec] at hin hout hadv
        dsimp only at hin hout hadv ⊢
        simp only [hdec]
        -- an entry that is not contained has a value that is not
        have hnot : ¬ (Item.known p header r' elems).Contained limit → limit < r1.top := by
          intro hc
          simp only [Item.Contained, not_forall] at hc
          obtain ⟨e, he, hne⟩ := hc
          exact hout ⟨e, he, hne⟩
        split
        · refine ⟨fun hall => hin (hall (.known p header r' elems) (by simp)), ?_⟩
          rintro ⟨item, hitem, hc⟩
          obtain rfl := List.mem_singleton.mp hitem
          exact hnot hc
        · have hrest :=
            decodeLoop_advances mapped mem applyLocal sender junk fuel q' (hadv.sane hr'.sane)
          refine ⟨fun hall => ?_, ?_⟩
          · exact (ih q' (hin (hall (.known p header r' elems) (by simp)))).1 fun item hitem =>
              hall item (by simp [hitem])
          rintro ⟨item, hitem, hc⟩
          -- the first entry that leaves the packet is this one or a later one
          by_cases hfirst : (Item.known p header r' elems).Contained limit
          · rcases List.mem_cons.mp hitem with rfl | hitem
            · exact absurd hfirst hc
            · exact (ih q' (hin hfirst)).2 ⟨item, hitem, hc⟩
          · exact lt_of_lt_of_le (hnot hfirst) hrest.top_le
      -- an unknown entry is skipped by checked reads only
      · rw [hread] at hentry
        obtain ⟨hin, hout⟩ := ih q' (h.checked hentry)
        refine ⟨fun hall => hin fun item hitem => hall item (List.mem_cons_of_mem _ hitem), ?_⟩
        rintro ⟨item, hitem, hc⟩
        rcases List.mem_cons.mp hitem with rfl | hitem
        · exact absurd trivial hc
        · exact hout ⟨item, hitem, hc⟩
      · rw [hread] at hentry
        refine ⟨fun _ => h.checked hentry, ?_⟩
        rintro ⟨item, hitem, hc⟩
        obtain rfl := List.mem_singleton.mp hitem
        exact absurd trivial hc

theorem mpackReaderFlagError_top (r : MpackReader) (e : MpackError) :
    (mpackReaderFlagError r e).top = r.top := by
  unfold mpackReaderFlagError
  split <;> rfl

/-- Reading a tag fetches its type byte, if there is one. -/
theorem mpackReadTag_top {mem : Mem} {r : MpackReader} (hok : r.error = .ok)
    (hhas : r.has 1 = true) : r.data + 1 ≤ (mpackReadTag mem r).1.top := by
  unfold mpackReadTag mpackParseTag
  rw [if_neg (not_not.mpr hok), if_pos hhas]
  rcases mpackTagCase (mem r.data).toNat with e | ⟨k, make⟩
  · simp only [mpackReaderFlagError_top, fetch_top]
    omega
  · by_cases hall : r.has (1 + k) = true
    · simp only [hall, if_true, fetch_top]
      omega
    · simp only [hall, Bool.false_eq_true, if_false, mpackReaderFlagError_top, fetch_top]
      omega

theorem mpackExpectRange_top {lo hi : Int} {mem : Mem} {r : MpackReader} (hok : r.error = .ok)
    (hhas : r.has 1 = true) : r.data + 1 ≤ (mpackExpectRange lo hi mem r).1.top := by
  have htag := @mpackReadTag_top mem r hok hhas
  unfold mpackExpectRange
  rcases hread : mpackReadTag mem r with ⟨r', tag⟩
  rw [hread] at htag
  cases tag with
  | uint u => dsimp only; split <;> simpa only [mpackReaderFlagError_top] using htag
  | int i => dsimp only; split <;> simpa only [mpackReaderFlagError_top] using htag
  | _ => simpa only [mpackReaderFlagError_top] using htag

/-- The first byte of an entry is fetched, whatever follows. -/
theorem readEntry_top {mem : Mem} (applyLocal : Bool) (sender : Nat) (junk : Junk)
    (q : QueueState) {r : MpackReader} (hok : r.error = .ok) (hhas : r.has 1 = true) :
    r.data + 1 ≤ (readEntry mem applyLocal sender junk q r).2.reader.top := by
  have hsane : r.Sane := fun h => absurd hok h
  have hfirst := @mpackExpectRange_top 0 0xffff mem r hok hhas
  have hid := le_trans hfirst (paramDeserializeId_checked mem q hsane).top_le
  unfold readEntry
  rcases hread : paramDeserializeId mem r q with ⟨r', q', header⟩
  rw [hread] at hid
  dsimp only at hid ⊢
  cases locate applyLocal sender junk header with
  | some p => exact hid
  | none =>
    have htag := mpackReadTag_checked mem r'
    dsimp only
    rcases htread : mpackReadTag mem r' with ⟨r1, tag⟩
    rw [htread] at htag
    dsimp only at htag ⊢
    split
    · exact le_trans hid htag.top_le
    · exact le_trans hid (le_trans htag.top_le (skipUnknown_checked mem tag r1).top_le)

/-- A queue with a byte in it is read. -/
theorem decodeQueue_top {mem : Mem} {used : Nat} (hpos : 0 < used) (hlt : used < 2 ^ 16)
    (version : Nat) (applyLocal : Bool) (sender : Nat) (junk : Junk) :
    3 ≤ (decodeQueue mapped mem used version applyLocal sender junk).reader.top := by
  have hr := mpackReaderInitData_within hlt
  obtain ⟨fuel, rfl⟩ : ∃ k, used = k + 1 := ⟨used - 1, by omega⟩
  set r := mpackReaderInitData 2 (fuel + 1) with hdef
  have hhas : r.has 1 = true := by
    rw [hr.inside.has_iff, hdef]
    simp only [mpackReaderInitData]
    omega
  -- the first header takes at least one byte, and nothing gives it back
  have htop : 3 ≤ (readEntry mem applyLocal sender junk (queueStateInit version) r).2.reader.top :=
    readEntry_top applyLocal sender junk _ rfl hhas
  have hchecked := (readEntry_spec mem applyLocal sender junk (queueStateInit version) hr.sane).1
  have hend : ¬ r.end_ ≤ r.data := by
    rw [hdef]
    simp only [mpackReaderInitData]
    omega
  unfold decodeQueue decodeLoop
  rw [← hdef, if_neg hend]
  rcases hread : readEntry mem applyLocal sender junk (queueStateInit version) r with
    ⟨q', ⟨p, header, r'⟩ | r' | r'⟩
  · rw [hread] at htop hchecked
    have hvalues :=
      hchecked.toAdvances.trans (decodeParam_advances mapped mem p (headerOffset header) r')
    have htop' := le_trans htop (decodeParam_advances mapped mem p (headerOffset header) r').top_le
    dsimp only
    split
    · exact htop'
    · exact le_trans htop' (decodeLoop_advances mapped mem applyLocal sender junk fuel q'
        (hvalues.sane hr.sane)).top_le
  · rw [hread] at htop hchecked
    exact le_trans htop (decodeLoop_advances mapped mem applyLocal sender junk fuel q'
      (hchecked.sane hr.sane)).top_le
  · rw [hread] at htop
    exact htop

/-- The length field in force is that of the packet, less the hwid if there is one. -/
theorem pushForm_length {env : Env} {packet : CspPacket} {form : PushForm}
    (h : pushForm env packet = some form)
    (hhwid : packetType (packet.data 0) = .pushRequestV2Hwid → 4 ≤ packet.length) :
    form.length ≤ packet.length := by
  have hle := packet.length_le
  unfold pushForm at h
  cases htype : packetType (packet.data 0) with
  | pushRequestV2Hwid =>
    have hfour := hhwid htype
    have hsize : CSP_BUFFER_SIZE = 2048 := rfl
    simp only [htype] at h
    split at h
    · obtain rfl := Option.some.inj h
      show stripHwid packet.length ≤ packet.length
      unfold stripHwid
      omega
    · cases h
  | pullResponse => obtain rfl := Option.some.inj (by simpa only [htype] using h); exact le_rfl
  | pullResponseV2 => obtain rfl := Option.some.inj (by simpa only [htype] using h); exact le_rfl
  | pushRequest => obtain rfl := Option.some.inj (by simpa only [htype] using h); exact le_rfl
  | pushRequestV2 => obtain rfl := Option.some.inj (by simpa only [htype] using h); exact le_rfl
  | _ => simp [htype] at h

/-- The reader at the start of a packet that is long enough to have a queue. -/
theorem mpackReaderInitData_length {length : Nat} (hlo : 2 ≤ length)
    (hhi : length ≤ CSP_BUFFER_SIZE) : Within length (mpackReaderInitData 2 (usedOf length)) := by
  have hsize : CSP_BUFFER_SIZE = 2048 := rfl
  have hlt : usedOf length < 2 ^ 16 := by
    unfold usedOf
    omega
  have hused : (2 + usedOf length : Int) = length := by
    unfold usedOf
    omega
  have hr := mpackReaderInitData_within hlt
  rwa [hused] at hr

/-- The queue of a packet that is long enough to have one. -/
theorem PushForm.decode_within (env : Env) (form : PushForm) (packet : CspPacket) (uninit : Uninit)
    (hlo : 2 ≤ form.length) (hhi : form.length ≤ CSP_BUFFER_SIZE) :
    ((∀ item ∈ form.items env.mapped packet uninit, item.Contained form.length) →
      Within form.length (form.decode env.mapped packet uninit).reader) ∧
    ((∃ item ∈ form.items env.mapped packet uninit, ¬ item.Contained form.length) →
      form.length < (form.decode env.mapped packet uninit).reader.top) := by
  have hr := mpackReaderInitData_length hlo hhi
  have hsize : CSP_BUFFER_SIZE = 2048 := rfl
  have hlimit : (form.length : Int) < 2 ^ 32 := by omega
  have hmapped : (form.length : Int) < env.mapped := by
    have := env.mapped_ge
    omega
  rw [PushForm.items, PushForm.decode, decodeQueue]
  exact decodeLoop_within hlimit hmapped packet.data form.applyLocal packet.id.src uninit.apply _ _
    hr

/-! ## §4 Pull requests -/

/-- A pull request copies nothing, so all its reads are checked. -/
theorem pullLoop_within {limit : Int} (env : Env) (mem : Mem) (request : CspId)
    (ackWithPull : Bool) (uninit : Uninit) (fuel : Nat) (q : QueueState) {r : MpackReader}
    (queue : ParamQueue) (s : State) (h : Within limit r) :
    Within limit (pullLoop env mem request ackWithPull uninit fuel q r queue s).reader := by
  induction fuel generalizing q r queue s with
  | zero => exact h
  | succ fuel ih =>
    have hid := h.checked (paramDeserializeId_checked' mem q h.sane)
    unfold pullLoop
    split
    · exact h
    · rcases hread : paramDeserializeId mem r q with ⟨r', q', header⟩
      rw [hread] at hid
      have hdiscard := hid.checked (mpackDiscard_checked mem ((r'.end_ - r'.data).toNat + 1) r')
      dsimp only
      cases locateLocal request.dst uninit.pull header with
      | none => exact ih _ _ _ hid
      | some p =>
        dsimp only
        -- with an acknowledgement the value is skipped, by checked reads as well
        split
        · rcases scanResponse request.dst uninit.scan p queue with ⟨queue', _ | _⟩
          · dsimp only
            rcases add env s request queue' p (-1) with ⟨s', _ | queue''⟩
            · exact hdiscard
            · exact ih _ _ _ hdiscard
          · exact ih _ _ _ hdiscard
        · rcases add env s request queue p (headerOffset header) with ⟨s', _ | queue''⟩
          · exact hid
          · exact ih _ _ _ hid

/-- The events of a pull request that is long enough to have a queue: responses, and one fetch
    from inside the payload. -/
theorem paramServePullRequest_grows {length : Nat} (hlo : 2 ≤ length)
    (hhi : length ≤ CSP_BUFFER_SIZE) {P : Event → Prop} (hP : ∀ e, PullReply e → P e)
    (hfetch : ∀ top : Int, top ≤ length → P (.fetch 2 top length)) (env : Env) (mem : Mem)
    (id : CspId) (version : Nat) (uninit : Uninit) (s : State) :
    Grows P s (paramServePullRequest env mem id length false version uninit s) := by
  have hreply : ∀ {s s' : State}, Answers PullReply s s' → Grows P s s' := fun h =>
    h.grows.mono hP
  have halloc := hreply (allocate_replies env s version)
  have hr := mpackReaderInitData_length hlo hhi
  unfold paramServePullRequest
  dsimp only
  rcases heq : allocate env s version with ⟨s1, _ | queue⟩
  · rw [heq] at halloc
    exact halloc
  · rw [heq] at halloc
    -- the loop reads nothing behind the payload
    have htop := (pullLoop_within env mem id (decide (mem 1 = 1)) uninit (usedOf length)
      (queueStateInit version) queue s1 hr).top_le
    have hloop := halloc.trans (hreply (pullLoop_replies env mem id (decide (mem 1 = 1)) uninit
      (usedOf length) (queueStateInit version) (mpackReaderInitData 2 (usedOf length)) queue s1))
    dsimp only
    rw [if_neg Bool.false_ne_true]
    rcases hpull : pullLoop env mem id (decide (mem 1 = 1)) uninit (usedOf length)
      (queueStateInit version) (mpackReaderInitData 2 (usedOf length)) queue s1 with ⟨r, _ | q, s2⟩
    all_goals
      rw [hpull] at htop hloop
      have hall : Grows P s (s2.emit (.fetch 2 r.top length)) :=
        hloop.trans ⟨[_], rfl, by simpa using hfetch r.top htop⟩
    · exact hall
    · exact hall.trans (hreply (send_replies _ _ _ _))

end AppSysManager.Server
