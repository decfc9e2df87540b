import Mathlib.Data.List.Basic
import Mathlib.Data.Int.Basic
import Mathlib.Tactic.Ring

/-!
# Byte Memory

A small theory of byte-addressed memory, independent of any particular program.

- `Mem` is memory as seen from a base pointer: offsets are integers, so that reads
  before the base and far behind it have a meaning too.
- `Holds mem off bs` says that the bytes `bs` lie in memory at `off`.
- `AgreeOn m m' lo hi` says that two memories agree on the window `[lo, hi)`.
- `loadBE` / `bytesBE` are big-endian loads and their encodings.
- `loadLE` / `byteLE` are the little-endian counterparts, over a single object.
- `overwrite` is `memcpy` into an object of a given size: bytes that fall outside
  the object are not part of the result.
-/

namespace AppSysManager.Bytes

/-- Memory as seen from a base pointer. -/
abbrev Mem := Int → UInt8

/-- The bytes `bs` lie in memory at offset `off`. -/
def Holds (mem : Mem) (off : Int) : List UInt8 → Prop
  | [] => True
  | b :: bs => mem off = b ∧ Holds mem (off + 1) bs

/-- Two memories agree on the window `[lo, hi)`. -/
def AgreeOn (m m' : Mem) (lo hi : Int) : Prop :=
  ∀ i, lo ≤ i → i < hi → m i = m' i

/-- Memory that holds a list of bytes from offset `off` on, and zeros elsewhere. -/
def ofList (off : Int) (bs : List UInt8) : Mem :=
  fun i => if off ≤ i then bs.getD (i - off).toNat 0 else 0

/-! ## §1 Windows of memory -/

@[simp] theorem holds_nil (mem : Mem) (off : Int) : Holds mem off [] := trivial

@[simp] theorem holds_cons (mem : Mem) (off : Int) (b : UInt8) (bs : List UInt8) :
    Holds mem off (b :: bs) ↔ mem off = b ∧ Holds mem (off + 1) bs := Iff.rfl

theorem holds_append (mem : Mem) (off : Int) (as bs : List UInt8) :
    Holds mem off (as ++ bs) ↔ Holds mem off as ∧ Holds mem (off + as.length) bs := by
  induction as generalizing off with
  | nil => simp
  | cons a as ih =>
    have hoff : off + 1 + (as.length : Int) = off + ((a :: as).length : Int) := by
      simp only [List.length_cons]; omega
    rw [List.cons_append, holds_cons, ih, hoff, holds_cons, and_assoc]

/-- Pointwise reading of `Holds`. -/
theorem holds_iff_getD (mem : Mem) (off : Int) (bs : List UInt8) :
    Holds mem off bs ↔ ∀ i < bs.length, mem (off + i) = bs.getD i 0 := by
  induction bs generalizing off with
  | nil => simp
  | cons b bs ih =>
    rw [holds_cons, ih]
    constructor
    · rintro ⟨hb, hbs⟩ i hi
      cases i with
      | zero => simpa using hb
      | succ i =>
        have hoff : off + ((i + 1 : Nat) : Int) = off + 1 + i := by omega
        rw [hoff, List.getD_cons_succ]
        exact hbs i (by simpa using hi)
    · intro h
      refine ⟨by simpa using h 0 (by simp), ?_⟩
      intro i hi
      have hoff : off + 1 + (i : Int) = off + ((i + 1 : Nat) : Int) := by omega
      rw [hoff, h (i + 1) (by simpa using hi), List.getD_cons_succ]

theorem holds_ofList (off : Int) (bs : List UInt8) : Holds (ofList off bs) off bs := by
  rw [holds_iff_getD]
  intro i hi
  have hle : off ≤ off + (i : Int) := by omega
  have hsub : (off + (i : Int) - off).toNat = i := by omega
  simp only [ofList, hle, if_true, hsub]

theorem AgreeOn.mono {m m' : Mem} {lo hi lo' hi' : Int} (h : AgreeOn m m' lo hi)
    (hlo : lo ≤ lo') (hhi : hi' ≤ hi) : AgreeOn m m' lo' hi' :=
  fun i h1 h2 => h i (le_trans hlo h1) (lt_of_lt_of_le h2 hhi)

theorem AgreeOn.symm {m m' : Mem} {lo hi : Int} (h : AgreeOn m m' lo hi) :
    AgreeOn m' m lo hi :=
  fun i h1 h2 => (h i h1 h2).symm

/-! ## §2 Big-endian loads -/

/-- The value of the `n` bytes at `off`, most significant byte first. -/
def loadBE (mem : Mem) (off : Int) : Nat → Nat
  | 0 => 0
  | n + 1 => loadBE mem off n * 256 + (mem (off + n)).toNat

/-- The `n` low-order bytes of `v`, most significant byte first. -/
def bytesBE : Nat → Nat → List UInt8
  | 0, _ => []
  | n + 1, v => bytesBE n (v / 256) ++ [UInt8.ofNat v]

@[simp] theorem bytesBE_length (n v : Nat) : (bytesBE n v).length = n := by
  induction n generalizing v with
  | zero => rfl
  | succ n ih => simp [bytesBE, ih]

/-- A load gives back what `bytesBE` stored, modulo the width. -/
theorem loadBE_of_holds {mem : Mem} {off : Int} {n v : Nat}
    (h : Holds mem off (bytesBE n v)) : loadBE mem off n = v % 256 ^ n := by
  induction n generalizing v with
  | zero => simp [loadBE, Nat.mod_one]
  | succ n ih =>
    rw [bytesBE, holds_append, bytesBE_length] at h
    obtain ⟨hhi, hlo⟩ := h
    have hbyte : (mem (off + n)).toNat = v % 256 := by
      rw [hlo.1, UInt8.toNat_ofNat']
    rw [loadBE, ih hhi, hbyte, Nat.pow_succ, Nat.mul_comm (256 ^ n) 256, Nat.mod_mul]
    omega

theorem loadBE_lt (mem : Mem) (off : Int) (n : Nat) : loadBE mem off n < 256 ^ n := by
  induction n with
  | zero => simp [loadBE]
  | succ n ih =>
    have hb := (mem (off + n)).toNat_lt
    rw [loadBE, Nat.pow_succ]
    omega

/-- A load depends on nothing but the bytes it loads. -/
theorem loadBE_congr {m m' : Mem} {off : Int} {n : Nat}
    (h : AgreeOn m m' off (off + n)) : loadBE m off n = loadBE m' off n := by
  induction n with
  | zero => rfl
  | succ n ih =>
    have hlast : m (off + n) = m' (off + n) := h _ (by omega) (by omega)
    rw [loadBE, loadBE, ih (h.mono (le_refl _) (by omega)), hlast]

/-! ## §3 Little-endian objects -/

/-- Byte `k` of `v`, least significant byte first. -/
def byteLE (v k : Nat) : UInt8 := UInt8.ofNat (v / 256 ^ k)

/-- The value of the `n` bytes at `off` of an object, least significant byte first. -/
def loadLE (obj : Nat → UInt8) (off : Nat) : Nat → Nat
  | 0 => 0
  | n + 1 => loadLE obj off n + (obj (off + n)).toNat * 256 ^ n

theorem loadLE_lt (obj : Nat → UInt8) (off n : Nat) : loadLE obj off n < 256 ^ n := by
  induction n with
  | zero => simp [loadLE]
  | succ n ih =>
    have hbyte := (obj (off + n)).toNat_lt
    have hmul : (obj (off + n)).toNat * 256 ^ n ≤ 255 * 256 ^ n :=
      Nat.mul_le_mul_right _ (by omega)
    rw [loadLE, Nat.pow_succ]
    omega

/-- `memcpy` of `len` bytes to `off` in an object of `size` bytes.  Bytes that would
    land behind the object are dropped: they belong to somebody else's memory. -/
def overwrite (size : Nat) (obj : Nat → UInt8) (off len : Nat) (src : Nat → UInt8) :
    Nat → UInt8 :=
  fun j => if off ≤ j ∧ j < off + len ∧ j < size then src (j - off) else obj j

theorem overwrite_inside {size : Nat} {obj src : Nat → UInt8} {off len j : Nat}
    (hlo : off ≤ j) (hhi : j < off + len) (hsize : j < size) :
    overwrite size obj off len src j = src (j - off) := by
  simp [overwrite, hlo, hhi, hsize]

theorem overwrite_outside {size : Nat} {obj src : Nat → UInt8} {off len j : Nat}
    (h : j < off ∨ off + len ≤ j) : overwrite size obj off len src j = obj j := by
  unfold overwrite
  rw [if_neg]
  omega

theorem loadLE_congr {a b : Nat → UInt8} {off n : Nat}
    (h : ∀ k < n, a (off + k) = b (off + k)) : loadLE a off n = loadLE b off n := by
  induction n with
  | zero => rfl
  | succ n ih =>
    rw [loadLE, loadLE, ih (fun k hk => h k (by omega)), h n (by omega)]

/-- Loading the bytes of `v` gives `v` back, modulo the width. -/
theorem loadLE_byteLE {obj : Nat → UInt8} {off n v : Nat}
    (h : ∀ k < n, obj (off + k) = byteLE v k) : loadLE obj off n = v % 256 ^ n := by
  induction n with
  | zero => simp [loadLE, Nat.mod_one]
  | succ n ih =>
    have hbyte : (obj (off + n)).toNat = v / 256 ^ n % 256 := by
      rw [h n (by omega), byteLE, UInt8.toNat_ofNat']
    rw [loadLE, ih (fun k hk => h k (by omega)), hbyte, Nat.pow_succ, Nat.mod_mul,
      Nat.mul_comm (256 ^ n)]

/-- Reading back an object right after `v` was stored into it. -/
theorem loadLE_overwrite {size : Nat} {obj : Nat → UInt8} {off n v : Nat}
    (hsize : off + n ≤ size) :
    loadLE (overwrite size obj off n (byteLE v)) off n = v % 256 ^ n := by
  apply loadLE_byteLE
  intro k hk
  rw [overwrite_inside (by omega) (by omega) (by omega), Nat.add_sub_cancel_left]

/-- A store elsewhere in the object does not change what is read here. -/
theorem loadLE_overwrite_disjoint {size : Nat} {obj src : Nat → UInt8} {off n off' len : Nat}
    (h : off + n ≤ off' ∨ off' + len ≤ off) :
    loadLE (overwrite size obj off' len src) off n = loadLE obj off n := by
  apply loadLE_congr
  intro k hk
  exact overwrite_outside (by omega)

end AppSysManager.Bytes
