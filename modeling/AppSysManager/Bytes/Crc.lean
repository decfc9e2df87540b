import Mathlib.Data.BitVec
import Mathlib.Data.List.GetD
import Mathlib.Logic.Function.Iterate

/-!
# Cyclic Redundancy Checks

A reflected CRC register of any width and with any polynomial: bits enter at the low end, the
register moves down, and the polynomial is added when a one falls out.  Nothing here depends on
the start value, or on what is done with the result.

- `shift_xor` / `shift_injective`: a move is linear, and loses nothing if the polynomial has its
  top bit.
- `feed_eq`: up to as many bits as the register is wide may be added to it at once.
- `feed_burst`: two messages that differ in no more bits in a row than the register is wide leave
  it in different states.
-/

namespace AppSysManager.Bytes

variable {w : Nat}

/-- The register moves down by one bit. -/
def shift (poly s : BitVec w) : BitVec w :=
  if s.getLsbD 0 then (s >>> 1) ^^^ poly else s >>> 1

/-- A bit at the low end. -/
def lowBit (w : Nat) (b : Bool) : BitVec w := BitVec.setWidth w (BitVec.ofBool b)

/-- Feed bits into the register, one by one. -/
def feed (poly : BitVec w) (s : BitVec w) (bits : List Bool) : BitVec w :=
  bits.foldl (fun s b => shift poly (s ^^^ lowBit w b)) s

/-! ## §1 Moving the register -/

theorem getLsbD_lowBit (b : Bool) (i : Nat) (hi : i < w) :
    (lowBit w b).getLsbD i = (decide (i = 0) && b) := by
  rw [lowBit, BitVec.getLsbD_setWidth, BitVec.getLsbD_ofBool]
  simp [hi]

theorem shift_xor (poly a b : BitVec w) : shift poly (a ^^^ b) = shift poly a ^^^ shift poly b := by
  apply BitVec.eq_of_getLsbD_eq
  intro i hi
  rw [shift, shift, shift]
  -- the polynomial is added once, twice or not at all
  cases ha : a.getLsbD 0 <;> cases hb : b.getLsbD 0 <;>
    simp only [BitVec.getLsbD_xor, ha, hb, BitVec.getLsbD_ushiftRight, Bool.xor_false,
      Bool.xor_true, Bool.not_true, Bool.not_false, Bool.false_eq_true, if_true, if_false] <;>
    cases a.getLsbD (1 + i) <;> cases b.getLsbD (1 + i) <;> cases poly.getLsbD i <;> rfl

@[simp] theorem shift_zero (poly : BitVec w) : shift poly 0 = 0 := by simp [shift]

/-- Only the empty register moves to the empty one: a one that falls out leaves the top bit of the
    polynomial behind. -/
theorem eq_zero_of_shift {poly s : BitVec w} (hpoly : poly.getLsbD (w - 1) = true)
    (h : shift poly s = 0) : s = 0 := by
  apply BitVec.eq_of_getLsbD_eq
  intro i hi
  rw [shift] at h
  have hbit : ∀ j, (if s.getLsbD 0 then (s >>> 1) ^^^ poly else s >>> 1).getLsbD j = false := by
    intro j
    rw [h]
    simp
  cases hlow : s.getLsbD 0 with
  | true =>
    have htop := hbit (w - 1)
    rw [hlow] at htop
    have hout : s.getLsbD (1 + (w - 1)) = false := BitVec.getLsbD_of_ge s _ (by omega)
    simp [hpoly, hout] at htop
  | false =>
    cases i with
    | zero => simp [hlow]
    | succ i =>
      have hi' := hbit i
      rw [hlow] at hi'
      simpa [Nat.add_comm] using hi'

theorem shift_injective {poly : BitVec w} (hpoly : poly.getLsbD (w - 1) = true) :
    Function.Injective (shift poly) := by
  intro a b h
  have hxor : shift poly (a ^^^ b) = 0 := by rw [shift_xor, h, BitVec.xor_self]; rfl
  exact BitVec.xor_eq_zero_iff.mp (eq_zero_of_shift hpoly hxor)

/-- A register with an empty top bit comes back from the place above. -/
theorem shift_shiftLeft (poly : BitVec w) {s : BitVec w} (h : s.getLsbD (w - 1) = false) :
    shift poly (s <<< 1) = s := by
  apply BitVec.eq_of_getLsbD_eq
  intro i hi
  have hlow : (s <<< 1).getLsbD 0 = false := by simp
  rw [shift, hlow]
  simp only [Bool.false_eq_true, if_false, BitVec.getLsbD_ushiftRight, BitVec.getLsbD_shiftLeft]
  by_cases htop : i = w - 1
  · rw [htop, h]
    simp
    omega
  · have hin : 1 + i < w := by omega
    simp [hin]

theorem iterate_shift_xor (poly : BitVec w) (n : Nat) (a b : BitVec w) :
    (shift poly)^[n] (a ^^^ b) = (shift poly)^[n] a ^^^ (shift poly)^[n] b := by
  induction n generalizing a b with
  | zero => rfl
  | succ n ih => rw [Function.iterate_succ_apply, shift_xor, ih, Function.iterate_succ_apply,
      Function.iterate_succ_apply]

/-! ## §2 Bits -/

@[simp] theorem feed_nil (poly s : BitVec w) : feed poly s [] = s := rfl

theorem feed_append (poly s : BitVec w) (as bs : List Bool) :
    feed poly s (as ++ bs) = feed poly (feed poly s as) bs := List.foldl_append

/-- Bits side by side, the first one lowest. -/
def pack (w : Nat) : List Bool → BitVec w
  | [] => 0
  | b :: bs => lowBit w b ^^^ (pack w bs <<< 1)

theorem getLsbD_pack (bits : List Bool) (i : Nat) (hi : i < w) :
    (pack w bits).getLsbD i = bits.getD i false := by
  induction bits generalizing i with
  | nil => simp [pack]
  | cons b bs ih =>
    rw [pack, BitVec.getLsbD_xor, getLsbD_lowBit b i hi, BitVec.getLsbD_shiftLeft]
    cases i with
    | zero => simp
    | succ i =>
      rw [List.getD_cons_succ, ← ih i (by omega)]
      simp [hi]

theorem pack_injective {as bs : List Bool} (hlen : as.length = bs.length) (hw : as.length ≤ w)
    (h : pack w as = pack w bs) : as = bs := by
  apply List.ext_getElem hlen
  intro i hi hi'
  have hbit := congrArg (BitVec.getLsbD · i) h
  simp only [getLsbD_pack _ i (Nat.lt_of_lt_of_le hi hw)] at hbit
  rwa [List.getD_eq_getElem _ _ hi, List.getD_eq_getElem _ _ hi'] at hbit

/-- Up to `w` bits may be added to the register at once. -/
theorem feed_eq (poly s : BitVec w) {bits : List Bool} (hw : bits.length ≤ w) :
    feed poly s bits = (shift poly)^[bits.length] (s ^^^ pack w bits) := by
  induction bits generalizing s with
  | nil => simp [pack]
  | cons b bs ih =>
    rw [List.length_cons] at hw
    have htop : (pack w bs).getLsbD (w - 1) = false := by
      rw [getLsbD_pack _ _ (by omega), List.getD_eq_default _ _ (by omega)]
    show feed poly (shift poly (s ^^^ lowBit w b)) bs = _
    rw [ih _ (by omega), List.length_cons, Function.iterate_succ_apply, pack, ← BitVec.xor_assoc,
      shift_xor poly (s ^^^ lowBit w b), shift_shiftLeft poly htop]

/-- Different registers stay different, whatever is fed to both. -/
theorem feed_injective {poly : BitVec w} (hpoly : poly.getLsbD (w - 1) = true) (bits : List Bool)
    {s t : BitVec w} (h : feed poly s bits = feed poly t bits) : s = t := by
  induction bits generalizing s t with
  | nil => exact h
  | cons b bs ih => exact (BitVec.xor_left_inj _).mp (shift_injective hpoly (ih h))

/-- A burst of errors no longer than the register is wide does not go unnoticed. -/
theorem feed_burst {poly : BitVec w} (hpoly : poly.getLsbD (w - 1) = true) (s : BitVec w)
    (before after : List Bool) {as bs : List Bool} (hlen : as.length = bs.length)
    (hw : as.length ≤ w) (hne : as ≠ bs) :
    feed poly s (before ++ as ++ after) ≠ feed poly s (before ++ bs ++ after) := by
  intro h
  rw [feed_append, feed_append, feed_append, feed_append] at h
  have hstate := feed_injective hpoly after h
  generalize feed poly s before = t at hstate
  rw [feed_eq poly t hw, feed_eq poly t (hlen ▸ hw), ← hlen] at hstate
  have hpack := (shift_injective hpoly).iterate as.length hstate
  exact hne (pack_injective hlen hw ((BitVec.xor_right_inj _).mp hpack))

/-! ## §3 Bytes -/

/-- The bits of a byte, the lowest first. -/
def byteBits (b : UInt8) : List Bool := (List.range 8).map b.toBitVec.getLsbD

@[simp] theorem byteBits_length (b : UInt8) : (byteBits b).length = 8 := by simp [byteBits]

theorem pack_byteBits (b : UInt8) : pack w (byteBits b) = b.toBitVec.setWidth w := by
  apply BitVec.eq_of_getLsbD_eq
  intro i hi
  rw [getLsbD_pack _ i hi, BitVec.getLsbD_setWidth]
  by_cases h8 : i < 8
  · rw [List.getD_eq_getElem _ _ (by simpa using h8)]
    simp [byteBits, hi]
  · rw [List.getD_eq_default _ _ (by simpa using h8), BitVec.getLsbD_of_ge _ _ (by omega)]
    simp

theorem byteBits_injective {a b : UInt8} (h : byteBits a = byteBits b) : a = b := by
  have hpack := congrArg (pack 8) h
  rw [pack_byteBits, pack_byteBits, BitVec.setWidth_eq, BitVec.setWidth_eq] at hpack
  exact UInt8.toBitVec_inj.mp hpack

/-- A byte is fed as a whole. -/
theorem feed_byteBits (hw : 8 ≤ w) (poly s : BitVec w) (b : UInt8) :
    feed poly s (byteBits b) = (shift poly)^[8] (s ^^^ b.toBitVec.setWidth w) := by
  rw [feed_eq poly s (by simpa using hw), byteBits_length, pack_byteBits]

/-- A register whose low `n` bits are empty only moves. -/
theorem iterate_shift_high (poly : BitVec w) (n : Nat) {s : BitVec w}
    (h : ∀ i < n, s.getLsbD i = false) : (shift poly)^[n] s = s >>> n := by
  induction n with
  | zero => simp
  | succ n ih =>
    have hlow : (s >>> n).getLsbD 0 = false := by simpa using h n (Nat.lt_succ_self n)
    rw [Function.iterate_succ_apply', ih fun i hi => h i (Nat.lt_succ_of_lt hi), shift, hlow]
    simp [BitVec.shiftRight_add]

/-- `n` moves of the register are those of its low `n` bits; the others just come down. -/
theorem iterate_shift_split (poly : BitVec w) (n : Nat) (s : BitVec w) :
    (shift poly)^[n] s = (shift poly)^[n] ((s.setWidth n).setWidth w) ^^^ (s >>> n) := by
  have hsplit : s = (s.setWidth n).setWidth w ^^^ ((s >>> n) <<< n) := by
    apply BitVec.eq_of_getLsbD_eq
    intro i hi
    by_cases hn : i < n
    · simp [hi, hn]
    · have hback : n + (i - n) = i := by omega
      simp [hi, hn, hback]
  have hlow : ∀ i < n, ((s >>> n) <<< n).getLsbD i = false := by
    intro i hi
    simp [hi]
  have hback : ((s >>> n) <<< n) >>> n = s >>> n := by
    apply BitVec.eq_of_getLsbD_eq
    intro i hi
    by_cases hin : n + i < w
    · simp [hin]
    · simp [hin, BitVec.getLsbD_of_ge s (n + i) (by omega)]
  conv_lhs => rw [hsplit, iterate_shift_xor, iterate_shift_high poly n hlow, hback]

end AppSysManager.Bytes
