import AppSysManager.Server.Decode

/-!
# Progress of the Decoder

Every round of the decoder moves the reader on or empties it, so the number of bytes in a
queue is enough fuel for all of its loops.

- `readEntry_spec`: what the reading of one entry does to the reader.
- `decodeParam_advances`: the values of an entry only move the reader forward.
- `decodeLoop_fuel`, `paramQueueApply_fuel`: more fuel changes nothing.
-/

namespace AppSysManager.Server

open AppSysManager.Bytes AppSysManager.Mpack AppSysManager.Node

variable {mapped : Nat}

/-! ## §1 Values -/

theorem mpackExpectNative_zero_of_error {mem : Mem} {r : MpackReader} {count : Nat}
    (h : (mpackExpectNative mem r count).1.error ≠ .ok) : (mpackExpectNative mem r count).2 = 0 := by
  unfold mpackExpectNative at h ⊢
  split
  · rfl
  · case isFalse hok =>
    split
    · case isTrue hhas =>
      simp only [hok, hhas, if_false, if_true] at h
      exact absurd (not_not.mp hok) h
    · rfl

/-- A string that could not be read has length zero. -/
theorem mpackExpectStr_zero_of_error {mem : Mem} {r : MpackReader}
    (h : (mpackExpectStr mem r).1.error ≠ .ok) : (mpackExpectStr mem r).2 = 0 := by
  have htype := @mpackExpectNative_zero_of_error mem r 1
  unfold mpackExpectStr at h ⊢
  rcases hread : mpackExpectNative mem r 1 with ⟨r', type⟩
  rw [hread] at h htype
  dsimp only at h htype ⊢
  split_ifs with h1 h2 h3 h4
  · -- a fixstr header cannot come with an error: the type byte would be zero
    rw [if_pos h1] at h
    have := htype h
    omega
  · rw [if_neg h1, if_pos h2] at h
    exact mpackExpectNative_zero_of_error h
  · rw [if_neg h1, if_neg h2, if_pos h3] at h
    exact mpackExpectNative_zero_of_error h
  · rw [if_neg h1, if_neg h2, if_neg h3, if_pos h4] at h
    exact mpackExpectNative_zero_of_error h
  · rfl

theorem mpackExpectBin_zero_of_error {mem : Mem} {r : MpackReader}
    (h : (mpackExpectBin mem r).1.error ≠ .ok) : (mpackExpectBin mem r).2 = 0 := by
  have hnil := @mpackReadTag_nil_of_error mem r
  unfold mpackExpectBin at h ⊢
  rcases hread : mpackReadTag mem r with ⟨r', tag⟩
  rw [hread] at h hnil
  cases tag with
  | bin l => exact absurd (hnil h) (by simp)
  | _ => rfl

/-- The raw copy of a string moves the reader on, past its end if need be. -/
theorem takeBytes_advances (mem : Mem) {r : MpackReader} {len : Nat}
    (make : (Nat → UInt8) → Nat → Value) (h : r.error ≠ .ok → len = 0) :
    Advances r (takeBytes mapped mem r len make).1 := by
  unfold takeBytes
  split
  · exact ⟨le_refl _, le_max_left _ _, id, fun _ => rfl, id⟩
  · refine ⟨by simp, le_max_left _ _, id, fun _ => rfl, ?_⟩
    intro hs he
    have hend := hs he
    have hlen := h he
    simp only [fetch_end, hlen, hend]
    simp

theorem readValue_advances (mapped : Nat) (mem : Mem) (type : ParamType) (r : MpackReader) :
    Advances r (readValue mapped mem type r).1 := by
  have hrange : ∀ lo hi, Advances r (mpackExpectRange lo hi mem r).1 := fun lo hi =>
    (mpackExpectRange_checked lo hi mem r).toAdvances
  cases type with
  | string =>
    have hstr := (mpackExpectStr_checked mem r).toAdvances
    have hzero := @mpackExpectStr_zero_of_error mem r
    simp only [readValue]
    rcases hread : mpackExpectStr mem r with ⟨r', len⟩
    rw [hread] at hstr hzero
    dsimp only
    split
    · exact hstr
    · exact hstr.trans (takeBytes_advances mem _ hzero)
  | data =>
    have hbin := (mpackExpectBin_checked mem r).toAdvances
    have hzero := @mpackExpectBin_zero_of_error mem r
    simp only [readValue]
    rcases hread : mpackExpectBin mem r with ⟨r', len⟩
    rw [hread] at hbin hzero
    exact hbin.trans (takeBytes_advances mem _ hzero)
  | _ => exact hrange _ _

theorem decodeValues_advances (mapped : Nat) (mem : Mem) (type : ParamType) (count i : Nat)
    (r : MpackReader) :
    Advances r (decodeValues mapped mem type count i r).1 := by
  induction count generalizing i r with
  | zero => exact Advances.refl r
  | succ count ih =>
    have hvalue := readValue_advances mapped mem type r
    unfold decodeValues
    rcases hread : readValue mapped mem type r with ⟨r', v⟩
    rw [hread] at hvalue
    dsimp only
    split
    · exact hvalue
    · exact hvalue.trans (ih _ _)

theorem valueCount_checked (mem : Mem) (r : MpackReader) : Checked r (valueCount mem r).1 := by
  have hpeek := mpackPeekTag_checked mem r
  unfold valueCount
  rcases hread : mpackPeekTag mem r with ⟨r', tag⟩
  rw [hread] at hpeek
  cases tag with
  | array n => exact hpeek.trans (mpackExpectArray_checked mem r')
  | _ => exact hpeek

/-- The values of an entry only move the reader forward. -/
theorem decodeParam_advances (mapped : Nat) (mem : Mem) (p : Param) (offset : Int)
    (r : MpackReader) :
    Advances r (decodeParam mapped mem p offset r).1 :=
  (valueCount_checked mem r).toAdvances.trans (decodeValues_advances mapped mem p.type _ _ _)

/-! ## §2 Entries -/

theorem skipTags_checked (mem : Mem) (count : Nat) (r : MpackReader) :
    Checked r (skipTags mem count r) := by
  induction count generalizing r with
  | zero => exact Checked.refl r
  | succ count ih =>
    have htag := mpackReadTag_checked mem r
    unfold skipTags
    rcases hread : mpackReadTag mem r with ⟨r', tag⟩
    rw [hread] at htag
    dsimp only
    split
    · exact htag
    · exact htag.trans (ih r')

theorem skipUnknown_checked (mem : Mem) (tag : MpackTag) (r : MpackReader) :
    Checked r (skipUnknown mem tag r) := by
  cases tag with
  | str l =>
    simp only [skipUnknown]
    split
    · exact mpackSkipBytes_checked r l
    · exact Checked.refl r
  | bin l =>
    simp only [skipUnknown]
    split
    · exact mpackSkipBytes_checked r l
    · exact Checked.refl r
  | array n => exact skipTags_checked mem n r
  | _ => exact Checked.refl r

/-- The reader an entry ends with. -/
def Entry.reader : Entry → MpackReader
  | .found _ _ r => r
  | .skipped r => r
  | .broken r => r

/-- What the reading of one entry does to the reader. -/
theorem readEntry_spec (mem : Mem) (applyLocal : Bool) (sender : Nat) (junk : Junk)
    (q : QueueState) {r : MpackReader} (hs : r.Sane) :
    let e := (readEntry mem applyLocal sender junk q r).2
    Checked r e.reader ∧ (e.reader.error = .ok → r.data < e.reader.data) := by
  have hid := paramDeserializeId_checked' mem q hs
  have hlt := @paramDeserializeId_lt mem r q hs
  unfold readEntry
  rcases hread : paramDeserializeId mem r q with ⟨r', q', header⟩
  rw [hread] at hid hlt
  dsimp only at hid hlt ⊢
  cases locate applyLocal sender junk header with
  | some p => exact ⟨hid, hlt⟩
  | none =>
    have htag := mpackReadTag_checked mem r'
    have htlt := @mpackReadTag_lt mem r'
    dsimp only
    rcases hread : mpackReadTag mem r' with ⟨r1, tag⟩
    rw [hread] at htag htlt
    dsimp only
    split
    -- a reader with an error makes no promise
    · case isTrue herr => exact ⟨hid.trans htag, fun h => absurd h herr⟩
    · have hskip := skipUnknown_checked mem tag r1
      refine ⟨(hid.trans htag).trans hskip, ?_⟩
      -- the tag has taken at least one byte
      intro hok
      have h1 := htlt (hskip.ok_of_ok hok)
      have h2 := hid.data_le
      have h3 := hskip.data_le
      exact lt_of_le_of_lt h2 (lt_of_lt_of_le h1 h3)

/-! ## §3 Fuel -/

/-- The bytes a reader has left. -/
def MpackReader.left (r : MpackReader) : Nat := (r.end_ - r.data).toNat

/-- A round that goes on has fewer bytes left than the one before. -/
theorem left_lt {r r' : MpackReader} (hadv : Advances r r') (hs : r.Sane)
    (hlt : r'.error = .ok → r.data < r'.data) (hr : r.data < r.end_) :
    MpackReader.left r' < MpackReader.left r := by
  unfold MpackReader.left
  by_cases hok : r'.error = .ok
  · have hend := hadv.end_eq hok
    have hdata := hlt hok
    omega
  · have hend := hadv.sane hs hok
    omega

/-- The number of bytes left is enough fuel for the decoder. -/
theorem decodeLoop_fuel (mem : Mem) (applyLocal : Bool) (sender : Nat) (junk : Junk)
    {fuel fuel' : Nat} (q : QueueState) {r : MpackReader} (hs : r.Sane)
    (hfuel : MpackReader.left r ≤ fuel) (hle : fuel ≤ fuel') :
    decodeLoop mapped mem (readEntry mem applyLocal sender junk) fuel q r =
      decodeLoop mapped mem (readEntry mem applyLocal sender junk) fuel' q r := by
  induction fuel generalizing fuel' q r with
  -- no bytes are left, so both loops stop at once
  | zero =>
    have hend : r.end_ ≤ r.data := by unfold MpackReader.left at hfuel; omega
    cases fuel' with
    | zero => rfl
    | succ fuel' => rw [decodeLoop, decodeLoop, if_pos hend]
  | succ fuel ih =>
    obtain ⟨fuel', rfl⟩ : ∃ k, fuel' = k + 1 := ⟨fuel' - 1, by omega⟩
    unfold decodeLoop
    split
    · rfl
    · case isFalse hlt =>
      obtain ⟨hentry, hprog⟩ := readEntry_spec mem applyLocal sender junk q hs
      rcases hread : readEntry mem applyLocal sender junk q r with ⟨q', ⟨p, header, r'⟩ | r' | r'⟩
      · rw [hread] at hentry hprog
        dsimp only [Entry.reader] at hentry hprog
        obtain ⟨r1, elems, hdec⟩ : ∃ r1 elems,
          decodeParam mapped mem p (headerOffset header) r' = (r1, elems) := ⟨_, _, rfl⟩
        have hvalues := decodeParam_advances mapped mem p (headerOffset header) r'
        rw [hdec] at hvalues
        dsimp only at hvalues
        -- the header has taken at least one byte, and the values give none back
        have hadv := hentry.toAdvances.trans hvalues
        have hless := left_lt hadv hs (fun hok =>
          lt_of_lt_of_le (hprog (hvalues.ok_of_ok hok)) hvalues.data_le) (not_le.mp hlt)
        have hrest := @ih fuel' q' r1 (hadv.sane hs) (by omega) (by omega)
        simp only [hdec, hrest]
      · rw [hread] at hentry hprog
        have hless := left_lt hentry.toAdvances hs hprog (not_le.mp hlt)
        have hrest := @ih fuel' q' r' (hentry.sane hs)
          (by simp only [Entry.reader] at hless; omega) (by omega)
        simp only [hrest]
      · rfl

/-- `param_queue_apply` ends: no amount of fuel beyond the bytes of the queue changes what it
    does. -/
theorem paramQueueApply_fuel (env : Env) (mem : Mem) (used version fuel : Nat)
    (applyLocal : Bool) (sender : Nat) (junk : Junk) {s : State} (hs : s.dead = false)
    (hfuel : used ≤ fuel) :
    paramQueueApplyLoop env mem (readEntry mem applyLocal sender junk) fuel
        (queueStateInit version) 0 (mpackReaderInitData 2 used) s =
      paramQueueApply env mem used version applyLocal sender junk s := by
  have hleft : MpackReader.left (mpackReaderInitData 2 used) ≤ used := by
    simp [MpackReader.left, mpackReaderInitData]
  have hsane : (mpackReaderInitData 2 used).Sane := fun h => absurd rfl h
  rw [paramQueueApplyLoop_eq _ _ _ _ _ _ _ hs, paramQueueApply_eq _ _ _ _ _ _ _ hs, decodeQueue,
    decodeLoop_fuel mem applyLocal sender junk _ hsane hleft hfuel]

end AppSysManager.Server
