import Mathlib.Data.BitVec

/-!
# Serial Numbers

Numbers that count up and wrap around, as protocols use them to number what they send.  `nth base n`
is the number that comes `n` steps after `base`.

- `nth_inj`: two numbers are told apart if they are less than a full turn apart.
- `before_nth`: half a turn decides what comes first.
-/

namespace AppSysManager.Channels.Serial

variable {w : Nat}

/-- The number `n` steps after `base`. -/
def nth (base : BitVec w) (n : Nat) : BitVec w := base + BitVec.ofNat w n

/-- `x` lies between `start` and `stop`, both inclusive. -/
def between (x start stop : BitVec w) : Bool := decide ((x - start).toNat ≤ (stop - start).toNat)

/-- `x` comes before `y`: their difference is negative. -/
def before (x y : BitVec w) : Bool := (x - y).msb

@[simp] theorem nth_zero (base : BitVec w) : nth base 0 = base := by simp [nth]

theorem nth_add (base : BitVec w) (n d : Nat) :
    nth base (n + d) = nth base n + BitVec.ofNat w d := by
  rw [nth, nth, BitVec.ofNat_add, BitVec.add_assoc]

theorem nth_succ (base : BitVec w) (n : Nat) : nth base (n + 1) = nth base n + 1 := nth_add base n 1

/-- Going forward from `n`, the difference counts the steps. -/
theorem nth_sub_forward (base : BitVec w) (n d : Nat) :
    (nth base (n + d) - nth base n).toNat = d % 2 ^ w := by
  rw [nth_add, add_sub_cancel_left]
  exact BitVec.toNat_ofNat d w

/-- Going backward, it counts what is left of a turn. -/
theorem nth_sub_backward (base : BitVec w) (n d : Nat) (hpos : 0 < d) (hturn : d < 2 ^ w) :
    (nth base n - nth base (n + d)).toNat = 2 ^ w - d := by
  have hneg : nth base n - nth base (n + d) = - BitVec.ofNat w d := by
    rw [nth_add, sub_add_cancel_left]
  rw [hneg, BitVec.toNat_neg, BitVec.toNat_ofNat, Nat.mod_eq_of_lt hturn, Nat.mod_eq_of_lt (by omega)]

/-- Numbers that are less than a full turn apart are told apart. -/
theorem nth_inj {base : BitVec w} {m n : Nat} (hm : m < n + 2 ^ w) (hn : n < m + 2 ^ w) :
    nth base m = nth base n ↔ m = n := by
  constructor
  · intro h
    -- the difference of two equal numbers is 0, which is less than a turn
    rcases Nat.le_total m n with hle | hle
    · obtain ⟨d, rfl⟩ := Nat.exists_eq_add_of_le hle
      have hd := nth_sub_forward base m d
      rw [← h, BitVec.sub_self, BitVec.toNat_zero, Nat.mod_eq_of_lt (by omega)] at hd
      omega
    · obtain ⟨d, rfl⟩ := Nat.exists_eq_add_of_le hle
      have hd := nth_sub_forward base n d
      rw [h, BitVec.sub_self, BitVec.toNat_zero, Nat.mod_eq_of_lt (by omega)] at hd
      omega
  · rintro rfl
    rfl

/-- What is less than half a turn behind comes before. -/
theorem before_nth {base : BitVec w} {m n : Nat} (hm : m < n + 2 ^ (w - 1))
    (hn : n ≤ m + 2 ^ (w - 1)) (hw : 0 < w) : before (nth base m) (nth base n) = true ↔ m < n := by
  have hhalf : 2 ^ w = 2 * 2 ^ (w - 1) := by
    obtain ⟨v, rfl⟩ := Nat.exists_eq_add_of_le' hw
    rw [Nat.pow_succ', Nat.add_sub_cancel]
  have hturn : 0 < 2 ^ (w - 1) := Nat.two_pow_pos _
  rw [before, BitVec.msb_eq_decide, decide_eq_true_iff]
  rcases Nat.le_total n m with hle | hle
  · obtain ⟨d, rfl⟩ := Nat.exists_eq_add_of_le hle
    rw [nth_sub_forward, Nat.mod_eq_of_lt (by omega)]
    omega
  · obtain ⟨d, rfl⟩ := Nat.exists_eq_add_of_le hle
    rcases Nat.eq_zero_or_pos d with rfl | hd
    · rw [Nat.add_zero, BitVec.sub_self, BitVec.toNat_zero]
      omega
    · rw [nth_sub_backward base m d hd (by omega)]
      omega

end AppSysManager.Channels.Serial
