import AppSysManager.Mpack.ReaderInvariants
import AppSysManager.Mpack.Writer
import Mathlib.Tactic.NormNum
import Mathlib.Tactic.Positivity

/-!
# Reading Back what was Written

The tag reader on the encodings of `Mpack.Writer`.

- `Sees mem r bs`: the reader `r` has no error, and the bytes `bs` are next.
- `Moved r r' n`: the reader has consumed `n` bytes without an error.
- `readTag_uint`, `readTag_num`, `readTag_str`, `readTag_bin`, `readTag_array`: each encoding is
  read back as the tag it was made from.
-/

namespace AppSysManager.Mpack

open AppSysManager.Bytes

/-! ## §1 Reader positions -/

/-- The bytes `bs` are next, and all of them are there. -/
structure Sees (mem : Mem) (r : MpackReader) (bs : List UInt8) : Prop where
  error : r.error = .ok
  fits : r.data + bs.length ≤ r.end_
  small : r.end_ - r.data < 2 ^ 64
  holds : Holds mem r.data bs

/-- `n` bytes have been consumed without an error. -/
structure Moved (r r' : MpackReader) (n : Nat) : Prop where
  data : r'.data = r.data + n
  end_eq : r'.end_ = r.end_
  error : r'.error = .ok

theorem Moved.trans {a b c : MpackReader} {n k : Nat} (h : Moved a b n) (h' : Moved b c k) :
    Moved a c (n + k) where
  data := by rw [h'.data, h.data]; push_cast; omega
  end_eq := h'.end_eq.trans h.end_eq
  error := h'.error

theorem Sees.inside {mem : Mem} {r : MpackReader} {bs : List UInt8} (h : Sees mem r bs) :
    r.Inside := by
  have := h.fits
  exact ⟨by omega, h.small⟩

theorem Sees.has {mem : Mem} {r : MpackReader} {bs : List UInt8} (h : Sees mem r bs) {n : Nat}
    (hn : n ≤ bs.length) : r.has n = true := by
  have := h.fits
  exact (h.inside.has_iff n).mpr (by omega)

theorem Sees.take {mem : Mem} {r : MpackReader} {as bs : List UInt8}
    (h : Sees mem r (as ++ bs)) : Sees mem r as where
  error := h.error
  fits := by
    have := h.fits
    rw [List.length_append] at this
    push_cast at this
    omega
  small := h.small
  holds := ((holds_append mem r.data as bs).mp h.holds).1

/-- What is seen after the first part has been consumed. -/
theorem Sees.drop {mem : Mem} {r r' : MpackReader} {as bs : List UInt8}
    (h : Sees mem r (as ++ bs)) (hm : Moved r r' as.length) : Sees mem r' bs where
  error := hm.error
  fits := by
    have hfits := h.fits
    rw [List.length_append] at hfits
    rw [hm.data, hm.end_eq]
    push_cast at hfits
    omega
  small := by
    have := h.small
    rw [hm.data, hm.end_eq]
    omega
  holds := by
    rw [hm.data]
    exact ((holds_append mem r.data as bs).mp h.holds).2

/-- A reader set up over a buffer sees all of it. -/
theorem sees_init {mem : Mem} {off : Int} {bs : List UInt8} (hholds : Holds mem off bs)
    (hlength : bs.length < 2 ^ 64) : Sees mem (mpackReaderInitData off bs.length) bs where
  error := rfl
  fits := le_refl _
  small := by
    simp only [mpackReaderInitData]
    omega
  holds := hholds

/-- What is left of a buffer after the first part has been consumed. -/
theorem Moved.left {r r' : MpackReader} {as bs : List UInt8} (hm : Moved r r' as.length)
    (hend : r.end_ = r.data + (as ++ bs).length) : r'.end_ = r'.data + bs.length := by
  rw [hm.end_eq, hm.data, hend, List.length_append]
  push_cast
  omega

/-- A buffer with something left is not at its end. -/
theorem not_done_of_left {r : MpackReader} {as bs : List UInt8}
    (hend : r.end_ = r.data + (as ++ bs).length) (has : as ≠ []) : ¬ r.end_ ≤ r.data := by
  have hpos := List.length_pos_iff.mpr has
  rw [hend, List.length_append]
  omega

/-! ## §2 Tags -/

/-- A type byte and the big-endian field behind it. -/
theorem readTag_of_case {mem : Mem} {r : MpackReader} {b : UInt8} {k v : Nat}
    {make : Nat → MpackTag} (h : Sees mem r (b :: bytesBE k v))
    (hcase : mpackTagCase b.toNat = .ok (k, make)) (hv : v < 256 ^ k) :
    ∃ r', mpackReadTag mem r = (r', make v) ∧ Moved r r' (1 + k) := by
  have hlen : (b :: bytesBE k v).length = 1 + k := by simp [Nat.add_comm]
  have hbyte : mem r.data = b := h.holds.1
  have hload : loadBE mem (r.data + 1) k = v := by
    rw [loadBE_of_holds h.holds.2, Nat.mod_eq_of_lt hv]
  have hone : r.has 1 = true := h.has (by omega)
  have hall : r.has (1 + k) = true := h.has (by omega)
  refine ⟨{ r.fetch (1 + k) with data := r.data + (1 + k : Nat) }, ?_, ⟨rfl, rfl, h.error⟩⟩
  simp [mpackReadTag, h.error, mpackParseTag, hone, hbyte, hcase, hall, hload]

private theorem toNat_ofNat_of_lt {v : Nat} (h : v < 256) : (UInt8.ofNat v).toNat = v := by
  rw [UInt8.toNat_ofNat']
  exact Nat.mod_eq_of_lt h

private theorem bytesBE_one (v : Nat) : bytesBE 1 v = [UInt8.ofNat v] := by
  simp [bytesBE]

/-- A type byte that carries its value itself. -/
theorem readTag_fix {mem : Mem} {r : MpackReader} {v : Nat} (tag : MpackTag)
    (h : Sees mem r (bytesBE 1 v)) (hv : v < 256)
    (hcase : mpackTagCase v = .ok (0, fun _ => tag)) :
    ∃ r', mpackReadTag mem r = (r', tag) ∧ Moved r r' 1 := by
  rw [bytesBE_one] at h
  exact readTag_of_case (k := 0) (v := 0) h (by rw [toNat_ofNat_of_lt hv]; exact hcase) (by simp)

/-- Unsigned integers. -/
theorem readTag_uint {mem : Mem} {r : MpackReader} {v : Nat} (h : Sees mem r (uintBytes v))
    (hv : v < 2 ^ 64) :
    ∃ r', mpackReadTag mem r = (r', .uint v) ∧ Moved r r' (uintBytes v).length := by
  -- one case for each width the writer chooses from
  unfold uintBytes at h ⊢
  split at h
  · case isTrue h127 =>
    simp only [h127, if_true, bytesBE_length]
    exact readTag_fix (.uint v) h (by omega) (by simp [mpackTagCase, h127])
  · case isFalse h127 =>
    simp only [h127, if_false]
    split at h
    · case isTrue h8 =>
      simp only [h8, if_true, List.length_cons, bytesBE_length]
      exact readTag_of_case h rfl (by omega)
    · case isFalse h8 =>
      simp only [h8, if_false]
      split at h
      · case isTrue h16 =>
        simp only [h16, if_true, List.length_cons, bytesBE_length]
        exact readTag_of_case h rfl (by omega)
      · case isFalse h16 =>
        simp only [h16, if_false]
        split at h
        · case isTrue h32 =>
          simp only [h32, if_true, List.length_cons, bytesBE_length]
          exact readTag_of_case h rfl (by omega)
        · case isFalse h32 =>
          simp only [h32, if_false, List.length_cons, bytesBE_length]
          exact readTag_of_case h rfl (by omega)

/-- Two's complement is undone by `toSigned`. -/
private theorem toSigned_emod {n : Nat} {v : Int} (hn : 0 < n) (hlo : -2 ^ (8 * n - 1) ≤ v)
    (hhi : v < 2 ^ (8 * n - 1)) : toSigned (8 * n) (v % 256 ^ n).toNat = v := by
  have hpow : (2 : Int) ^ (8 * n) = 2 * 2 ^ (8 * n - 1) := by
    rw [← pow_succ', show 8 * n - 1 + 1 = 8 * n by omega]
  have h256 : (256 : Int) ^ n = 2 ^ (8 * n) := by rw [pow_mul]; norm_num
  have hcast : ((2 ^ (8 * n - 1) : Nat) : Int) = 2 ^ (8 * n - 1) := by push_cast; rfl
  unfold toSigned
  rw [h256, hpow]
  rcases Int.lt_or_le v 0 with hneg | hpos
  · have hmod : v % (2 * 2 ^ (8 * n - 1)) = v + 2 * 2 ^ (8 * n - 1) := by
      rw [← Int.add_emod_right, Int.emod_eq_of_lt (by omega) (by omega)]
    rw [hmod, if_neg (by omega)]
    omega
  · have hmod : v % (2 * 2 ^ (8 * n - 1)) = v := Int.emod_eq_of_lt hpos (by omega)
    rw [hmod, if_pos (by omega)]
    omega

/-- A signed field of `n` bytes behind its type byte. -/
private theorem readTag_signed {mem : Mem} {r : MpackReader} {b : UInt8} {n : Nat} {v : Int}
    (hn : 0 < n) (h : Sees mem r (b :: intBE n v))
    (hcase : mpackTagCase b.toNat = .ok (n, fun u => .int (toSigned (8 * n) u)))
    (hlo : -2 ^ (8 * n - 1) ≤ v) (hhi : v < 2 ^ (8 * n - 1)) :
    ∃ r', mpackReadTag mem r = (r', .int v) ∧ Moved r r' (1 + n) := by
  have hpos : (0 : Int) < 256 ^ n := by positivity
  have hlt : (v % 256 ^ n).toNat < 256 ^ n := by
    have h1 := Int.emod_lt_of_pos v hpos
    have h2 := Int.emod_nonneg v hpos.ne'
    have h3 : ((256 ^ n : Nat) : Int) = 256 ^ n := by push_cast; rfl
    omega
  obtain ⟨r', hread, hmoved⟩ := readTag_of_case h hcase hlt
  exact ⟨r', by rw [hread, toSigned_emod hn hlo hhi], hmoved⟩

/-- The tags of numbers. -/
def MpackTag.IsNumber : MpackTag → Prop
  | .int _ | .uint _ | .float _ | .double _ => True
  | _ => False

private theorem mpackTagCase_negative {u : Nat} (h : 0xe0 ≤ u) :
    mpackTagCase u = .ok (0, fun _ => .int (toSigned 8 u)) := by
  rw [mpackTagCase, if_neg (by omega), if_neg (by omega), if_neg (by omega), if_neg (by omega),
    if_pos h]

/-- Signed integers, which are read back as unsigned ones when they are not negative. -/
theorem readTag_int {mem : Mem} {r : MpackReader} {v : Int} (h : Sees mem r (intBytes v))
    (hlo : -2 ^ 63 ≤ v) (hhi : v < 2 ^ 63) :
    ∃ r' tag, mpackReadTag mem r = (r', tag) ∧ tag.IsNumber ∧
      Moved r r' (intBytes v).length := by
  unfold intBytes at h ⊢
  by_cases h32 : -32 ≤ v
  · simp only [h32, if_true] at h ⊢
    by_cases h127 : v ≤ 127
    · simp only [h127, if_true, intBE, bytesBE_length] at h ⊢
      rcases Int.lt_or_le v 0 with hneg | hpos
      · -- negative fixnum
        have hbyte : (v % 256 ^ 1).toNat = (v + 256).toNat := by omega
        rw [hbyte] at h
        obtain ⟨r', hread, hmoved⟩ := readTag_fix _ h (by omega)
          (mpackTagCase_negative (u := (v + 256).toNat) (by omega))
        exact ⟨r', _, hread, trivial, hmoved⟩
      · have hbyte : (v % 256 ^ 1).toNat = v.toNat := by omega
        rw [hbyte] at h
        obtain ⟨r', hread, hmoved⟩ := readTag_fix (.uint v.toNat) h (by omega)
          (by simp [mpackTagCase, h127])
        exact ⟨r', _, hread, trivial, hmoved⟩
    · simp only [h127, if_false] at h ⊢
      obtain ⟨r', hread, hmoved⟩ := readTag_uint h (by omega)
      exact ⟨r', _, hread, trivial, hmoved⟩
  · simp only [h32, if_false] at h ⊢
    by_cases h8 : -0x80 ≤ v
    · simp only [h8, if_true, List.length_cons, intBE, bytesBE_length] at h ⊢
      obtain ⟨r', hread, hmoved⟩ := readTag_signed (n := 1) (by decide) h rfl h8 (by omega)
      exact ⟨r', _, hread, trivial, hmoved⟩
    · simp only [h8, if_false] at h ⊢
      by_cases h16 : -0x8000 ≤ v
      · simp only [h16, if_true, List.length_cons, intBE, bytesBE_length] at h ⊢
        obtain ⟨r', hread, hmoved⟩ := readTag_signed (n := 2) (by decide) h rfl h16 (by omega)
        exact ⟨r', _, hread, trivial, hmoved⟩
      · simp only [h16, if_false] at h ⊢
        by_cases h32' : -0x80000000 ≤ v
        · simp only [h32', if_true, List.length_cons, intBE, bytesBE_length] at h ⊢
          obtain ⟨r', hread, hmoved⟩ := readTag_signed (n := 4) (by decide) h rfl h32' (by omega)
          exact ⟨r', _, hread, trivial, hmoved⟩
        · simp only [h32', if_false, List.length_cons, intBE, bytesBE_length] at h ⊢
          obtain ⟨r', hread, hmoved⟩ := readTag_signed (n := 8) (by decide) h rfl hlo hhi
          exact ⟨r', _, hread, trivial, hmoved⟩

/-- Every number is read back as a number, and consumed whole. -/
theorem readTag_num {mem : Mem} {r : MpackReader} {x : WireNum} (h : Sees mem r x.bytes)
    (hx : x.InRange) :
    ∃ r' tag, mpackReadTag mem r = (r', tag) ∧ tag.IsNumber ∧ Moved r r' x.bytes.length := by
  cases x with
  | uint v =>
    obtain ⟨r', hread, hmoved⟩ := readTag_uint h hx
    exact ⟨r', _, hread, trivial, hmoved⟩
  | int v => exact readTag_int h hx.1 hx.2
  | float bits =>
    obtain ⟨r', hread, hmoved⟩ := readTag_of_case h rfl (by simpa [WireNum.InRange] using hx)
    exact ⟨r', _, hread, trivial, hmoved⟩
  | double bits =>
    obtain ⟨r', hread, hmoved⟩ := readTag_of_case h rfl (by simpa [WireNum.InRange] using hx)
    exact ⟨r', _, hread, trivial, hmoved⟩

/-! ## §3 Headers of strings, binary data and arrays -/

theorem readTag_str {mem : Mem} {r : MpackReader} {count : Nat} (h : Sees mem r (strHeader count))
    (hc : count < 2 ^ 32) :
    ∃ r', mpackReadTag mem r = (r', .str count) ∧ Moved r r' (strHeader count).length := by
  unfold strHeader at h ⊢
  by_cases h5 : count ≤ 31
  · simp only [h5, if_true, bytesBE_length] at h ⊢
    refine readTag_fix (.str count) h (by omega) ?_
    rw [mpackTagCase, if_neg (by omega), if_neg (by omega), if_neg (by omega), if_pos (by omega),
      Nat.add_sub_cancel_left]
  · simp only [h5, if_false] at h ⊢
    by_cases h8 : count ≤ 0xff
    · simp only [h8, if_true, List.length_cons, bytesBE_length] at h ⊢
      exact readTag_of_case h rfl (by omega)
    · simp only [h8, if_false] at h ⊢
      by_cases h16 : count ≤ 0xffff
      · simp only [h16, if_true, List.length_cons, bytesBE_length] at h ⊢
        exact readTag_of_case h rfl (by omega)
      · simp only [h16, if_false, List.length_cons, bytesBE_length] at h ⊢
        exact readTag_of_case h rfl (by omega)

theorem readTag_bin {mem : Mem} {r : MpackReader} {count : Nat} (h : Sees mem r (binHeader count))
    (hc : count < 2 ^ 32) :
    ∃ r', mpackReadTag mem r = (r', .bin count) ∧ Moved r r' (binHeader count).length := by
  unfold binHeader at h ⊢
  by_cases h8 : count ≤ 0xff
  · simp only [h8, if_true, List.length_cons, bytesBE_length] at h ⊢
    exact readTag_of_case h rfl (by omega)
  · simp only [h8, if_false] at h ⊢
    by_cases h16 : count ≤ 0xffff
    · simp only [h16, if_true, List.length_cons, bytesBE_length] at h ⊢
      exact readTag_of_case h rfl (by omega)
    · simp only [h16, if_false, List.length_cons, bytesBE_length] at h ⊢
      exact readTag_of_case h rfl (by omega)

theorem readTag_array {mem : Mem} {r : MpackReader} {count : Nat}
    (h : Sees mem r (arrayHeader count)) (hc : count < 2 ^ 32) :
    ∃ r', mpackReadTag mem r = (r', .array count) ∧ Moved r r' (arrayHeader count).length := by
  unfold arrayHeader at h ⊢
  by_cases h4 : count ≤ 15
  · simp only [h4, if_true, bytesBE_length] at h ⊢
    refine readTag_fix (.array count) h (by omega) ?_
    rw [mpackTagCase, if_neg (by omega), if_neg (by omega), if_pos (by omega),
      Nat.add_sub_cancel_left]
  · simp only [h4, if_false] at h ⊢
    by_cases h16 : count ≤ 0xffff
    · simp only [h16, if_true, List.length_cons, bytesBE_length] at h ⊢
      exact readTag_of_case h rfl (by omega)
    · simp only [h16, if_false, List.length_cons, bytesBE_length] at h ⊢
      exact readTag_of_case h rfl (by omega)

/-! ## §4 Expect functions and raw fields -/

/-- An unsigned integer in the expected range is what the expect function returns. -/
theorem expectRange_uint (lo hi : Int) {mem : Mem} {r : MpackReader} {v : Nat}
    (h : Sees mem r (uintBytes v)) (hv : v < 2 ^ 64) (hlo : lo ≤ v) (hhi : (v : Int) ≤ hi) :
    ∃ r', mpackExpectRange lo hi mem r = (r', (v : Int)) ∧ Moved r r' (uintBytes v).length := by
  obtain ⟨r', hread, hmoved⟩ := readTag_uint h hv
  refine ⟨r', ?_, hmoved⟩
  simp [mpackExpectRange, hread, hlo, hhi]

/-- A big-endian field. -/
theorem readBytes_field {mem : Mem} {r : MpackReader} {n v : Nat} (h : Sees mem r (bytesBE n v)) :
    ∃ r', mpackReadBytes mem r n = (r', v % 256 ^ n) ∧ Moved r r' n := by
  have hload : loadBE mem r.data n = v % 256 ^ n := loadBE_of_holds h.holds
  have hhas : r.has n = true := h.has (by simp)
  refine ⟨{ r.fetch n with data := r.data + n }, ?_, ⟨rfl, rfl, h.error⟩⟩
  simp [mpackReadBytes, hhas, hload]

theorem skipBytes_moved {mem : Mem} {r : MpackReader} {bs : List UInt8} (h : Sees mem r bs) :
    Moved r (mpackSkipBytes r bs.length) bs.length := by
  have hhas : r.has bs.length = true := h.has (le_refl _)
  rw [mpackSkipBytes, if_neg (not_not.mpr h.error), if_pos hhas]
  exact ⟨rfl, rfl, h.error⟩

/-- A raw field is read back, up to its width. -/
theorem expectNative_field {mem : Mem} {r : MpackReader} {n v : Nat}
    (h : Sees mem r (bytesBE n v)) :
    ∃ r', mpackExpectNative mem r n = (r', v % 256 ^ n) ∧ Moved r r' n := by
  have hload : loadBE mem r.data n = v % 256 ^ n := loadBE_of_holds h.holds
  have hhas : r.has n = true := h.has (by simp)
  refine ⟨{ r.fetch n with data := r.data + n }, ?_, ⟨rfl, rfl, h.error⟩⟩
  simp [mpackExpectNative, h.error, hhas, hload]

/-- A length behind its type byte. -/
private theorem expectStr_field {mem : Mem} {r : MpackReader} {b : UInt8} {n count : Nat}
    (h : Sees mem r (b :: bytesBE n count)) (hcount : count < 256 ^ n)
    (hcase : ∀ r', mpackExpectNative mem r 1 = (r', b.toNat) →
      mpackExpectStr mem r = mpackExpectNative mem r' n) :
    ∃ r', mpackExpectStr mem r = (r', count) ∧ Moved r r' (1 + n) := by
  have hsplit : Sees mem r (bytesBE 1 b.toNat ++ bytesBE n count) := by
    simpa [bytesBE] using h
  obtain ⟨r₁, hread, hmoved⟩ := expectNative_field hsplit.take
  rw [Nat.mod_eq_of_lt (by simpa using b.toNat_lt)] at hread
  obtain ⟨r₂, hread₂, hmoved₂⟩ := expectNative_field (hsplit.drop (by simpa using hmoved))
  rw [Nat.mod_eq_of_lt hcount] at hread₂
  exact ⟨r₂, (hcase r₁ hread).trans hread₂, hmoved.trans hmoved₂⟩

/-- The header of a string. -/
theorem expectStr_str {mem : Mem} {r : MpackReader} {count : Nat}
    (h : Sees mem r (strHeader count)) (hc : count < 2 ^ 32) :
    ∃ r', mpackExpectStr mem r = (r', count) ∧ Moved r r' (strHeader count).length := by
  unfold strHeader at h ⊢
  by_cases h5 : count ≤ 31
  · simp only [h5, if_true, bytesBE_length] at h ⊢
    obtain ⟨r', hread, hmoved⟩ := expectNative_field h
    refine ⟨r', ?_, hmoved⟩
    -- a short string has its length in the tag itself
    have hfix : (0xa0 + count) / 32 = 5 := by omega
    have hlow : (0xa0 + count) % 32 = count := by omega
    rw [Nat.mod_eq_of_lt (by omega)] at hread
    simp [mpackExpectStr, hread, hfix, hlow]
  · simp only [h5, if_false] at h ⊢
    by_cases h8 : count ≤ 0xff
    · simp only [h8, if_true, List.length_cons, bytesBE_length] at h ⊢
      have := expectStr_field h (by omega) (fun r' hr => by simp [mpackExpectStr, hr])
      simpa [Nat.add_comm] using this
    · simp only [h8, if_false] at h ⊢
      by_cases h16 : count ≤ 0xffff
      · simp only [h16, if_true, List.length_cons, bytesBE_length] at h ⊢
        have := expectStr_field h (by omega) (fun r' hr => by simp [mpackExpectStr, hr])
        simpa [Nat.add_comm] using this
      · simp only [h16, if_false, List.length_cons, bytesBE_length] at h ⊢
        have := expectStr_field h (by omega) (fun r' hr => by simp [mpackExpectStr, hr])
        simpa [Nat.add_comm] using this

/-- A peek at a tag that can be read changes nothing a later read depends on. -/
theorem peekTag_of_readTag {mem : Mem} {r r' : MpackReader} {tag : MpackTag} {n : Nat}
    (hr : r.error = .ok) (h : mpackReadTag mem r = (r', tag)) (hmoved : Moved r r' n) :
    ∃ r₀, mpackPeekTag mem r = (r₀, tag) ∧ Moved r r₀ 0 := by
  unfold mpackReadTag at h
  unfold mpackPeekTag
  rw [if_neg (not_not.mpr hr)] at h ⊢
  rcases mpackParseTag_cases mem r with ⟨k, make, -, -, heq⟩ | ⟨r'', e, -, he, heq⟩
  · rw [heq] at h ⊢
    simp only [Prod.mk.injEq] at h
    refine ⟨r.fetch (1 + k), by simp [h.2], ⟨by simp, rfl, hr⟩⟩
  · rw [heq] at h
    have hok := hmoved.error
    rw [← (Prod.mk.inj h).1] at hok
    exact absurd hok (mpackReaderFlagError_error he)

/-- A peek at an unsigned integer. -/
theorem peekTag_uint {mem : Mem} {r : MpackReader} {v : Nat} (h : Sees mem r (uintBytes v))
    (hv : v < 2 ^ 64) :
    ∃ r', mpackPeekTag mem r = (r', .uint v) ∧ Moved r r' 0 := by
  obtain ⟨r', hread, hmoved⟩ := readTag_uint h hv
  exact peekTag_of_readTag h.error hread hmoved

end AppSysManager.Mpack
