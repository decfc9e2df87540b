import Mathlib.Data.Nat.Bitwise

/-!
# Bit Fields

Bit fields of natural numbers, independent of any particular layout.  A field is a width and
an offset; `put` masks a value and moves it to its place, `get` moves a word down and masks it.

- `get_or`: fields are read through a bitwise or.
- `get_put_self` / `get_put_disjoint`: what is read of a word that holds one field.
- `get_of_mod`: what is read of a word that has lost its upper bits.
- `and_bits`: a word under the mask of a field.
-/

namespace AppSysManager.Bytes

/-- `width` bits from bit `offset` on. -/
structure BitField where
  width : Nat
  offset : Nat
  deriving DecidableEq, Repr

namespace BitField

/-- The mask of a field, before it is moved to its place. -/
def mask (f : BitField) : Nat := 2 ^ f.width - 1

/-- `(v & mask) << offset` -/
def put (f : BitField) (v : Nat) : Nat := (v &&& f.mask) <<< f.offset

/-- `(word >> offset) & mask` -/
def get (f : BitField) (word : Nat) : Nat := (word >>> f.offset) &&& f.mask

/-- `mask << offset` -/
def bits (f : BitField) : Nat := f.mask <<< f.offset

/-- Two fields have no bit in common. -/
def Disjoint (f g : BitField) : Prop :=
  f.offset + f.width ≤ g.offset ∨ g.offset + g.width ≤ f.offset

instance (f g : BitField) : Decidable (f.Disjoint g) :=
  inferInstanceAs (Decidable (_ ∨ _))

theorem Disjoint.symm {f g : BitField} (h : f.Disjoint g) : g.Disjoint f := Or.symm h

/-! ## §1 Bits -/

theorem testBit_mask (f : BitField) (i : Nat) : f.mask.testBit i = decide (i < f.width) :=
  Nat.testBit_two_pow_sub_one f.width i

theorem testBit_put (f : BitField) (v i : Nat) :
    (f.put v).testBit i =
      (decide (f.offset ≤ i ∧ i < f.offset + f.width) && v.testBit (i - f.offset)) := by
  rw [put, Nat.testBit_shiftLeft, Nat.testBit_and, testBit_mask]
  by_cases hlo : f.offset ≤ i
  · have hiff : i - f.offset < f.width ↔ i < f.offset + f.width := by omega
    simp [hlo, hiff, Bool.and_comm]
  · simp [hlo]

theorem testBit_get (f : BitField) (word i : Nat) :
    (f.get word).testBit i = (decide (i < f.width) && word.testBit (f.offset + i)) := by
  rw [get, Nat.testBit_and, Nat.testBit_shiftRight, testBit_mask, Bool.and_comm]

theorem testBit_bits (f : BitField) (i : Nat) :
    f.bits.testBit i = decide (f.offset ≤ i ∧ i < f.offset + f.width) := by
  rw [bits, Nat.testBit_shiftLeft, testBit_mask, ← Bool.decide_and]
  congr 1
  apply propext
  omega

/-! ## §2 Reading -/

theorem get_eq_mod (f : BitField) (word : Nat) :
    f.get word = word / 2 ^ f.offset % 2 ^ f.width := by
  rw [get, mask, Nat.and_two_pow_sub_one_eq_mod, Nat.shiftRight_eq_div_pow]

theorem get_lt (f : BitField) (word : Nat) : f.get word < 2 ^ f.width := by
  rw [get_eq_mod]
  exact Nat.mod_lt _ (Nat.two_pow_pos _)

@[simp] theorem get_or (f : BitField) (a b : Nat) : f.get (a ||| b) = f.get a ||| f.get b := by
  apply Nat.eq_of_testBit_eq
  intro i
  simp only [testBit_get, Nat.testBit_or, Bool.and_or_distrib_left]

theorem get_put_self (f : BitField) (v : Nat) : f.get (f.put v) = v % 2 ^ f.width := by
  apply Nat.eq_of_testBit_eq
  intro i
  rw [testBit_get, testBit_put, Nat.testBit_mod_two_pow, Nat.add_sub_cancel_left]
  by_cases hi : i < f.width <;> simp [hi]

theorem get_put_disjoint {f g : BitField} (h : f.Disjoint g) (v : Nat) : f.get (g.put v) = 0 := by
  apply Nat.eq_of_testBit_eq
  intro i
  rw [testBit_get, testBit_put, Nat.zero_testBit]
  unfold Disjoint at h
  simp only [Bool.and_eq_false_imp, decide_eq_true_eq]
  omega

theorem put_eq (f : BitField) (v : Nat) : f.put v = v % 2 ^ f.width * 2 ^ f.offset := by
  rw [put, mask, Nat.and_two_pow_sub_one_eq_mod, Nat.shiftLeft_eq]

/-- A field above all bits of the rest of the word. -/
theorem put_or_of_lt {f : BitField} {rest : Nat} (h : rest < 2 ^ f.offset) (v : Nat) :
    f.put v ||| rest = v % 2 ^ f.width * 2 ^ f.offset + rest := by
  rw [put, ← Nat.shiftLeft_add_eq_or_of_lt h, mask, Nat.and_two_pow_sub_one_eq_mod,
    Nat.shiftLeft_eq]

theorem put_mod (f : BitField) (v : Nat) : f.put (v % 2 ^ f.width) = f.put v := by
  apply Nat.eq_of_testBit_eq
  intro i
  rw [testBit_put, testBit_put, Nat.testBit_mod_two_pow]
  by_cases h : f.offset ≤ i ∧ i < f.offset + f.width
  · have hi : i - f.offset < f.width := by omega
    simp [h, hi]
  · simp [h]

/-- A field of a word that has lost its upper bits. -/
theorem get_of_mod {f : BitField} {k : Nat} (hk : f.offset + f.width ≤ k) (word : Nat) :
    f.get (word % 2 ^ k) = f.get word := by
  apply Nat.eq_of_testBit_eq
  intro i
  rw [testBit_get, testBit_get, Nat.testBit_mod_two_pow]
  by_cases h : i < f.width
  · have hlt : f.offset + i < k := by omega
    simp [hlt]
  · simp [h]

/-! ## §3 Masks -/

/-- A word under the mask of one field. -/
theorem and_bits (f : BitField) (word : Nat) : word &&& f.bits = f.put (f.get word) := by
  apply Nat.eq_of_testBit_eq
  intro i
  rw [Nat.testBit_and, testBit_bits, testBit_put, testBit_get]
  by_cases h : f.offset ≤ i ∧ i < f.offset + f.width
  · have hw : i - f.offset < f.width := by omega
    have hidx : f.offset + (i - f.offset) = i := by omega
    simp [h, hw, hidx]
  · simp [h]

end BitField

end AppSysManager.Bytes
