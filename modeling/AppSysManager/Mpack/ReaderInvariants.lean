import AppSysManager.Mpack.Reader

/-!
# Reader Invariants

What every reading function of `Mpack.Reader` has in common.

- `Advances r r'`: the reader only moves forward, an error sticks and empties the buffer.
- `Checked r r'`: in addition, a reader that starts inside its buffer stays there and has
  fetched nothing behind its end.
- `*_congr`: a reader inside its buffer depends on nothing but the bytes of that buffer.
- `*_lt`: a tag that was read without an error has moved the reader on.
-/

namespace AppSysManager.Mpack

open AppSysManager.Bytes

/-! ## §1 The relations -/

/-- An error has emptied the buffer. -/
def MpackReader.Sane (r : MpackReader) : Prop := r.error ≠ .ok → r.end_ = r.data

/-- The read position is in front of the end of the buffer, which is no longer than memory. -/
structure MpackReader.Inside (r : MpackReader) : Prop where
  le : r.data ≤ r.end_
  lt : r.end_ - r.data < 2 ^ 64

/-- What every read does. -/
structure Advances (r r' : MpackReader) : Prop where
  data_le : r.data ≤ r'.data
  top_le : r.top ≤ r'.top
  ok_of_ok : r'.error = .ok → r.error = .ok
  end_eq : r'.error = .ok → r'.end_ = r.end_
  sane : r.Sane → r'.Sane

/-- What every read that goes through `mpack_reader_ensure` does. -/
structure Checked (r r' : MpackReader) : Prop extends Advances r r' where
  inside : r.Inside → r'.Inside
  end_le : r.Inside → r'.end_ ≤ r.end_
  top_le_end : r.Inside → r'.top ≤ max r.top r.end_

theorem Advances.refl (r : MpackReader) : Advances r r :=
  ⟨le_refl _, le_refl _, id, fun _ => rfl, id⟩

theorem Advances.trans {a b c : MpackReader} (h : Advances a b) (h' : Advances b c) :
    Advances a c where
  data_le := le_trans h.data_le h'.data_le
  top_le := le_trans h.top_le h'.top_le
  ok_of_ok hok := h.ok_of_ok (h'.ok_of_ok hok)
  end_eq hok := (h'.end_eq hok).trans (h.end_eq (h'.ok_of_ok hok))
  sane hs := h'.sane (h.sane hs)

theorem Checked.refl (r : MpackReader) : Checked r r :=
  ⟨Advances.refl r, id, fun _ => le_refl _, fun _ => le_max_left _ _⟩

theorem Checked.trans {a b c : MpackReader} (h : Checked a b) (h' : Checked b c) :
    Checked a c where
  toAdvances := h.toAdvances.trans h'.toAdvances
  inside hi := h'.inside (h.inside hi)
  end_le hi := le_trans (h'.end_le (h.inside hi)) (h.end_le hi)
  top_le_end hi := by
    have h1 := h.top_le_end hi
    have h2 := h'.top_le_end (h.inside hi)
    have h3 := h.end_le hi
    omega

/-! ## §2 Primitive steps -/

theorem MpackReader.Inside.sizeT {r : MpackReader} (h : r.Inside) :
    (sizeT (r.end_ - r.data) : Int) = r.end_ - r.data := by
  have h1 := h.le
  have h2 := h.lt
  unfold Mpack.sizeT
  rw [Int.emod_eq_of_lt (by omega) h2]
  omega

theorem MpackReader.Inside.has_iff {r : MpackReader} (h : r.Inside) (n : Nat) :
    r.has n = true ↔ r.data + n ≤ r.end_ := by
  have hsize := h.sizeT
  simp only [MpackReader.has, decide_eq_true_eq]
  omega

/-- A reader with an error has nothing left. -/
theorem MpackReader.Sane.has_eq_false {r : MpackReader} (h : r.Sane) (he : r.error ≠ .ok)
    {n : Nat} (hn : 0 < n) : r.has n = false := by
  have hend := h he
  simp only [MpackReader.has, hend, sub_self, decide_eq_false_iff_not, not_le]
  exact hn

theorem mpackReaderFlagError_checked (r : MpackReader) {e : MpackError} (he : e ≠ .ok) :
    Checked r (mpackReaderFlagError r e) := by
  unfold mpackReaderFlagError
  split
  · case isTrue hok =>
    refine ⟨⟨le_refl _, le_refl _, fun h => absurd h he, fun h => absurd h he, ?_⟩, ?_, ?_, ?_⟩
    · exact fun _ _ => rfl
    · exact fun _ => ⟨le_refl _, by simp⟩
    · exact fun hi => hi.le
    · exact fun _ => le_max_left _ _
  · exact Checked.refl r

theorem mpackReaderFlagError_error {r : MpackReader} {e : MpackError} (he : e ≠ .ok) :
    (mpackReaderFlagError r e).error ≠ .ok := by
  unfold mpackReaderFlagError
  split
  · exact he
  · assumption

@[simp] theorem fetch_data (r : MpackReader) (n : Nat) : (r.fetch n).data = r.data := rfl

@[simp] theorem fetch_end (r : MpackReader) (n : Nat) : (r.fetch n).end_ = r.end_ := rfl

@[simp] theorem fetch_error (r : MpackReader) (n : Nat) : (r.fetch n).error = r.error := rfl

@[simp] theorem fetch_top (r : MpackReader) (n : Nat) :
    (r.fetch n).top = max r.top (r.data + n) := rfl

theorem fetch_checked {r : MpackReader} {n : Nat} (h : r.has n = true) :
    Checked r (r.fetch n) where
  data_le := le_refl _
  top_le := le_max_left _ _
  ok_of_ok := id
  end_eq _ := rfl
  sane hs := hs
  inside hi := ⟨hi.le, hi.lt⟩
  end_le _ := le_refl _
  top_le_end hi := by
    have := (hi.has_iff n).mp h
    simp only [fetch_top]
    omega

/-- Moving the read position over bytes that are there. -/
theorem skip_checked {r : MpackReader} {n : Nat} (h : r.has n = true)
    (hn : r.error ≠ .ok → n = 0) : Checked r { r with data := r.data + n } where
  data_le := by simp
  top_le := le_refl _
  ok_of_ok := id
  end_eq _ := rfl
  sane hs he := by
    have := hs he
    simp [this, hn he]
  inside hi := by
    have := (hi.has_iff n).mp h
    have := hi.lt
    exact ⟨by simpa using by omega, by simpa using by omega⟩
  end_le _ := le_refl _
  top_le_end _ := le_max_left _ _

/-! ## §3 Tags -/

private theorem ite_ne_error_ok {c : Prop} [Decidable c]
    {a b : Except MpackError (Nat × (Nat → MpackTag))} (ha : a ≠ .error .ok)
    (hb : b ≠ .error .ok) : (if c then a else b) ≠ .error .ok := by
  split
  · exact ha
  · exact hb

theorem mpackTagCase_ne_error_ok (type : Nat) : mpackTagCase type ≠ .error .ok := by
  unfold mpackTagCase
  repeat' apply ite_ne_error_ok
  all_goals simp

/-- What the switch makes of the bytes behind a type byte, for every type. -/
def TagsBelow (P : MpackTag → Prop) : Except MpackError (Nat × (Nat → MpackTag)) → Prop
  | .ok (k, make) => ∀ v < 256 ^ k, P (make v)
  | .error _ => True

private theorem ite_tagsBelow {P : MpackTag → Prop} {c : Prop} [Decidable c]
    {a b : Except MpackError (Nat × (Nat → MpackTag))} (ha : TagsBelow P a) (hb : TagsBelow P b) :
    TagsBelow P (if c then a else b) := by
  split
  · exact ha
  · exact hb

/-- The element count of an array is a 32-bit number. -/
def ArrayBelow (tag : MpackTag) : Prop := ∀ n, tag = .array n → n < 2 ^ 32

theorem mpackTagCase_arrayBelow {type : Nat} (htype : type < 256) :
    TagsBelow ArrayBelow (mpackTagCase type) := by
  unfold mpackTagCase
  repeat' apply ite_tagsBelow
  all_goals first
    | exact trivial
    | (rintro v hv n hn; simp only [MpackTag.array.injEq, reduceCtorEq] at hn)
  -- fixarray, array16, array32
  all_goals (subst hn; omega)

/-- The parser leaves the read position alone, and gives a tag only if all its bytes are
    there. -/
theorem mpackParseTag_cases (mem : Mem) (r : MpackReader) :
    (∃ k make, r.has (1 + k) = true ∧ mpackTagCase (mem r.data).toNat = .ok (k, make) ∧
      mpackParseTag mem r =
        (r.fetch (1 + k), some (make (loadBE mem (r.data + 1) k), 1 + k))) ∨
    ∃ r' e, Checked r r' ∧ e ≠ .ok ∧ mpackParseTag mem r = (mpackReaderFlagError r' e, none) := by
  unfold mpackParseTag
  split
  · case isTrue hone =>
    split
    · case _ e he =>
      refine .inr ⟨_, e, fetch_checked hone, ?_, rfl⟩
      rintro rfl
      exact mpackTagCase_ne_error_ok _ he
    · case _ k make hcase =>
      split
      · case isTrue hall => exact .inl ⟨k, make, hall, hcase, rfl⟩
      · exact .inr ⟨_, .invalid, fetch_checked hone, by decide, rfl⟩
  · exact .inr ⟨r, .invalid, Checked.refl r, by decide, rfl⟩

theorem mpackReadTag_checked (mem : Mem) (r : MpackReader) :
    Checked r (mpackReadTag mem r).1 := by
  unfold mpackReadTag
  split
  · exact Checked.refl r
  · case isFalse hok =>
    rcases mpackParseTag_cases mem r with ⟨k, make, hhas, -, heq⟩ | ⟨r', e, hr', he, heq⟩
    · rw [heq]
      refine (fetch_checked hhas).trans (skip_checked hhas ?_)
      exact fun h => absurd h hok
    · rw [heq]
      exact hr'.trans (mpackReaderFlagError_checked r' he)

theorem mpackPeekTag_checked (mem : Mem) (r : MpackReader) :
    Checked r (mpackPeekTag mem r).1 := by
  unfold mpackPeekTag
  split
  · exact Checked.refl r
  · rcases mpackParseTag_cases mem r with ⟨k, make, hhas, -, heq⟩ | ⟨r', e, hr', he, heq⟩
    · rw [heq]
      exact fetch_checked hhas
    · rw [heq]
      exact hr'.trans (mpackReaderFlagError_checked r' he)

theorem mpackReadTag_arrayBelow (mem : Mem) (r : MpackReader) :
    ArrayBelow (mpackReadTag mem r).2 := by
  have hnil : ArrayBelow .nil := fun n hn => by cases hn
  unfold mpackReadTag
  split
  · exact hnil
  · rcases mpackParseTag_cases mem r with ⟨k, make, -, hcase, heq⟩ | ⟨r', e, -, -, heq⟩
    · rw [heq]
      have htags := mpackTagCase_arrayBelow (mem r.data).toNat_lt
      rw [hcase] at htags
      exact htags _ (loadBE_lt mem _ k)
    · rw [heq]
      exact hnil

/-- A tag takes at least one byte. -/
theorem mpackReadTag_lt {mem : Mem} {r : MpackReader} (h : (mpackReadTag mem r).1.error = .ok) :
    r.data < (mpackReadTag mem r).1.data := by
  unfold mpackReadTag at h ⊢
  split at h
  · contradiction
  · case isFalse hok =>
    rw [if_neg hok]
    rcases mpackParseTag_cases mem r with ⟨k, make, -, -, heq⟩ | ⟨r', e, -, he, heq⟩
    · simp only [heq, fetch_data]
      omega
    · simp only [heq] at h
      exact absurd h (mpackReaderFlagError_error he)

/-- A tag that could not be read is nil. -/
theorem mpackReadTag_nil_of_error {mem : Mem} {r : MpackReader}
    (h : (mpackReadTag mem r).1.error ≠ .ok) : (mpackReadTag mem r).2 = .nil := by
  unfold mpackReadTag at h ⊢
  split
  · rfl
  · case isFalse hok =>
    rw [if_neg hok] at h
    rcases mpackParseTag_cases mem r with ⟨k, make, -, -, heq⟩ | ⟨r', e, -, -, heq⟩
    · simp only [heq] at h
      exact absurd (not_not.mp hok) h
    · simp only [heq]

theorem mpackParseTag_congr {m m' : Mem} {r : MpackReader} (hr : r.Inside)
    (h : AgreeOn m m' r.data r.end_) : mpackParseTag m r = mpackParseTag m' r := by
  unfold mpackParseTag
  split
  · case isTrue hone =>
    have hle := (hr.has_iff 1).mp hone
    rw [h r.data (le_refl _) (by push_cast at hle; omega)]
    split
    · rfl
    · split
      · case _ k make hcase hall =>
        have hle := (hr.has_iff (1 + k)).mp hall
        rw [loadBE_congr (h.mono (by omega) (by push_cast at hle; omega))]
      · rfl
  · rfl

theorem mpackReadTag_congr {m m' : Mem} {r : MpackReader} (hr : r.Inside)
    (h : AgreeOn m m' r.data r.end_) : mpackReadTag m r = mpackReadTag m' r := by
  rw [mpackReadTag, mpackReadTag, mpackParseTag_congr hr h]

theorem mpackPeekTag_congr {m m' : Mem} {r : MpackReader} (hr : r.Inside)
    (h : AgreeOn m m' r.data r.end_) : mpackPeekTag m r = mpackPeekTag m' r := by
  rw [mpackPeekTag, mpackPeekTag, mpackParseTag_congr hr h]

/-! ## §4 Bytes -/

theorem mpackSkipBytes_checked (r : MpackReader) (count : Nat) :
    Checked r (mpackSkipBytes r count) := by
  unfold mpackSkipBytes
  split
  · exact Checked.refl r
  · case isFalse hok =>
    split
    · case isTrue hhas => exact skip_checked hhas fun h => absurd h hok
    · exact mpackReaderFlagError_checked r (by decide)

/-- `mpack_read_bytes` does not look at the error first: an empty buffer stops it. -/
theorem mpackReadBytes_advances (mem : Mem) {r : MpackReader} {count : Nat} (hc : 0 < count)
    (hs : r.Sane) : Checked r (mpackReadBytes mem r count).1 := by
  unfold mpackReadBytes
  split
  · case isTrue hhas =>
    refine (fetch_checked hhas).trans (skip_checked hhas ?_)
    intro he
    rw [hs.has_eq_false he hc] at hhas
    contradiction
  · exact mpackReaderFlagError_checked r (by decide)

theorem mpackReadBytes_congr {m m' : Mem} {r : MpackReader} {count : Nat} (hr : r.Inside)
    (h : AgreeOn m m' r.data r.end_) : mpackReadBytes m r count = mpackReadBytes m' r count := by
  unfold mpackReadBytes
  split
  · case isTrue hhas =>
    have hle := (hr.has_iff count).mp hhas
    rw [loadBE_congr (h.mono (le_refl _) hle)]
  · rfl

theorem mpackExpectNative_checked (mem : Mem) (r : MpackReader) (count : Nat) :
    Checked r (mpackExpectNative mem r count).1 := by
  unfold mpackExpectNative
  split
  · exact Checked.refl r
  · case isFalse hok =>
    split
    · case isTrue hhas =>
      exact (fetch_checked hhas).trans (skip_checked hhas fun h => absurd h hok)
    · exact mpackReaderFlagError_checked r (by decide)

theorem mpackExpectNative_congr {m m' : Mem} {r : MpackReader} (count : Nat) (hr : r.Inside)
    (h : AgreeOn m m' r.data r.end_) :
    mpackExpectNative m r count = mpackExpectNative m' r count := by
  unfold mpackExpectNative
  split
  · rfl
  · split
    · case isTrue hhas =>
      have hle := (hr.has_iff count).mp hhas
      rw [loadBE_congr (h.mono (le_refl _) hle)]
    · rfl

/-! ## §5 Expect functions -/

theorem mpackExpectRange_checked (lo hi : Int) (mem : Mem) (r : MpackReader) :
    Checked r (mpackExpectRange lo hi mem r).1 := by
  have htag := mpackReadTag_checked mem r
  have htype : ∀ r' : MpackReader, Checked r r' → Checked r (mpackReaderFlagError r' .type) :=
    fun r' h => h.trans (mpackReaderFlagError_checked r' (by decide))
  unfold mpackExpectRange
  rcases hread : mpackReadTag mem r with ⟨r', tag⟩
  rw [hread] at htag
  cases tag with
  | uint u =>
    dsimp only
    split
    · exact htag
    · exact htype r' htag
  | int i =>
    dsimp only
    split
    · exact htag
    · exact htype r' htag
  | _ => exact htype r' htag

/-- A number that was expected without an error was there, and takes at least one byte. -/
theorem mpackExpectRange_lt {lo hi : Int} {mem : Mem} {r : MpackReader}
    (h : (mpackExpectRange lo hi mem r).1.error = .ok) :
    r.data < (mpackExpectRange lo hi mem r).1.data := by
  have hlt := @mpackReadTag_lt mem r
  unfold mpackExpectRange at h ⊢
  rcases hread : mpackReadTag mem r with ⟨r', tag⟩
  rw [hread] at hlt h
  have hbad : ∀ r'' : MpackReader, (mpackReaderFlagError r'' .type).error ≠ .ok :=
    fun r'' => mpackReaderFlagError_error (by decide)
  cases tag with
  | uint u =>
    dsimp only at h ⊢
    split at h
    · case isTrue hin => rw [if_pos hin]; exact hlt h
    · exact absurd h (hbad _)
  | int i =>
    dsimp only at h ⊢
    split at h
    · case isTrue hin => rw [if_pos hin]; exact hlt h
    · exact absurd h (hbad _)
  | _ => exact absurd h (hbad _)

theorem mpackExpectRange_congr {lo hi : Int} {m m' : Mem} {r : MpackReader} (hr : r.Inside)
    (h : AgreeOn m m' r.data r.end_) :
    mpackExpectRange lo hi m r = mpackExpectRange lo hi m' r := by
  rw [mpackExpectRange, mpackExpectRange, mpackReadTag_congr hr h]

theorem mpackExpectArray_checked (mem : Mem) (r : MpackReader) :
    Checked r (mpackExpectArray mem r).1 := by
  have htag := mpackReadTag_checked mem r
  unfold mpackExpectArray
  rcases hread : mpackReadTag mem r with ⟨r', tag⟩
  rw [hread] at htag
  cases tag with
  | array n => exact htag
  | _ => exact htag.trans (mpackReaderFlagError_checked r' (by decide))

theorem mpackExpectBin_checked (mem : Mem) (r : MpackReader) :
    Checked r (mpackExpectBin mem r).1 := by
  have htag := mpackReadTag_checked mem r
  unfold mpackExpectBin
  rcases hread : mpackReadTag mem r with ⟨r', tag⟩
  rw [hread] at htag
  cases tag with
  | bin l => exact htag
  | _ => exact htag.trans (mpackReaderFlagError_checked r' (by decide))

theorem mpackExpectStr_checked (mem : Mem) (r : MpackReader) :
    Checked r (mpackExpectStr mem r).1 := by
  have htype := mpackExpectNative_checked mem r 1
  unfold mpackExpectStr
  rcases hread : mpackExpectNative mem r 1 with ⟨r', type⟩
  rw [hread] at htype
  dsimp only
  split_ifs
  · exact htype
  · exact htype.trans (mpackExpectNative_checked mem r' 1)
  · exact htype.trans (mpackExpectNative_checked mem r' 2)
  · exact htype.trans (mpackExpectNative_checked mem r' 4)
  · exact htype.trans (mpackReaderFlagError_checked r' (by decide))

/-- Agreement survives a checked read. -/
theorem Checked.agreeOn {m m' : Mem} {r r' : MpackReader} (h : Checked r r') (hr : r.Inside)
    (hagree : AgreeOn m m' r.data r.end_) : AgreeOn m m' r'.data r'.end_ :=
  hagree.mono h.data_le (h.end_le hr)

theorem mpackExpectStr_congr {m m' : Mem} {r : MpackReader} (hr : r.Inside)
    (h : AgreeOn m m' r.data r.end_) : mpackExpectStr m r = mpackExpectStr m' r := by
  have htype := mpackExpectNative_checked m' r 1
  unfold mpackExpectStr
  rw [mpackExpectNative_congr 1 hr h]
  rcases hread : mpackExpectNative m' r 1 with ⟨r', type⟩
  rw [hread] at htype
  have hin := htype.inside hr
  have hagree := htype.agreeOn hr h
  dsimp only
  rw [mpackExpectNative_congr 1 hin hagree, mpackExpectNative_congr 2 hin hagree,
    mpackExpectNative_congr 4 hin hagree]

theorem mpackExpectArray_lt (mem : Mem) (r : MpackReader) :
    (mpackExpectArray mem r).2 < 2 ^ 32 := by
  have hbelow := mpackReadTag_arrayBelow mem r
  unfold mpackExpectArray
  rcases hread : mpackReadTag mem r with ⟨r', tag⟩
  rw [hread] at hbelow
  cases tag with
  | array n => exact hbelow n rfl
  | _ =>
    show 0 < 2 ^ 32
    omega

theorem mpackExpectArray_congr {m m' : Mem} {r : MpackReader} (hr : r.Inside)
    (h : AgreeOn m m' r.data r.end_) : mpackExpectArray m r = mpackExpectArray m' r := by
  rw [mpackExpectArray, mpackExpectArray, mpackReadTag_congr hr h]

/-! ## §6 Discarding -/

theorem discardRounds_checked {round : MpackReader → MpackReader}
    (hround : ∀ r, Checked r (round r)) (count : Nat) (r : MpackReader) :
    Checked r (discardRounds round count r) := by
  induction count generalizing r with
  | zero => exact Checked.refl r
  | succ count ih =>
    unfold discardRounds
    dsimp only
    split
    · exact hround r
    · exact (hround r).trans (ih _)

theorem mpackDiscard_checked (mem : Mem) (fuel : Nat) (r : MpackReader) :
    Checked r (mpackDiscard mem fuel r) := by
  induction fuel generalizing r with
  | zero => exact Checked.refl r
  | succ fuel ih =>
    have htag := mpackReadTag_checked mem r
    unfold mpackDiscard
    rcases hread : mpackReadTag mem r with ⟨r', tag⟩
    rw [hread] at htag
    dsimp only
    split
    · exact htag
    · cases tag with
      | str l => exact htag.trans (mpackSkipBytes_checked r' l)
      | bin l => exact htag.trans (mpackSkipBytes_checked r' l)
      | array n => exact htag.trans (discardRounds_checked ih n r')
      | map n =>
        exact htag.trans (discardRounds_checked (fun r => (ih r).trans (ih _)) n r')
      | _ => exact htag

theorem discardRounds_congr {m m' : Mem} {round round' : MpackReader → MpackReader}
    (hround : ∀ r, Checked r (round r))
    (heq : ∀ r : MpackReader, r.Inside → AgreeOn m m' r.data r.end_ → round r = round' r)
    (count : Nat) {r : MpackReader} (hr : r.Inside) (h : AgreeOn m m' r.data r.end_) :
    discardRounds round count r = discardRounds round' count r := by
  induction count generalizing r with
  | zero => rfl
  | succ count ih =>
    have hstep := hround r
    unfold discardRounds
    rw [← heq r hr h]
    dsimp only
    split
    · rfl
    · exact ih (hstep.inside hr) (hstep.agreeOn hr h)

theorem mpackDiscard_congr {m m' : Mem} (fuel : Nat) {r : MpackReader} (hr : r.Inside)
    (h : AgreeOn m m' r.data r.end_) : mpackDiscard m fuel r = mpackDiscard m' fuel r := by
  induction fuel generalizing r with
  | zero => rfl
  | succ fuel ih =>
    have htag := mpackReadTag_checked m r
    unfold mpackDiscard
    rw [← mpackReadTag_congr hr h]
    rcases hread : mpackReadTag m r with ⟨r', tag⟩
    rw [hread] at htag
    have hin := htag.inside hr
    have hagree := htag.agreeOn hr h
    dsimp only
    split
    · rfl
    · cases tag with
      | array n => exact discardRounds_congr (mpackDiscard_checked m fuel) (fun r => ih) n hin hagree
      | map n =>
        refine discardRounds_congr
          (fun r => (mpackDiscard_checked m fuel r).trans (mpackDiscard_checked m fuel _))
          ?_ n hin hagree
        intro r hr h
        -- a map is discarded pair by pair
        have hfirst := mpackDiscard_checked m fuel r
        rw [ih (hfirst.inside hr) (hfirst.agreeOn hr h), ih hr h]
      | _ => rfl

end AppSysManager.Mpack
