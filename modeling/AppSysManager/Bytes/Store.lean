import AppSysManager.Bytes.Memory

/-!
# Windows and Stores

`memcpy` into byte memory, and the bytes of a window of it, independent of any particular
program.

- `window_store_behind`: a store right behind a window makes it longer.
- `window_store_apart`: a store elsewhere leaves it alone.
- `loadBE_window`: a big-endian load sees the bytes of its window and nothing else.
-/

namespace AppSysManager.Bytes

/-- `memcpy` of a list of bytes to `off`. -/
def store (mem : Mem) (off : Int) (bs : List UInt8) : Mem :=
  fun i => if off ≤ i ∧ i < off + bs.length then bs.getD (i - off).toNat 0 else mem i

/-- The `n` bytes from `off` on. -/
def window (mem : Mem) (off : Int) (n : Nat) : List UInt8 :=
  (List.range n).map fun i => mem (off + (i : Nat))

/-! ## §1 Windows -/

@[simp] theorem window_length (mem : Mem) (off : Int) (n : Nat) : (window mem off n).length = n := by
  simp [window]

theorem window_getD {mem : Mem} {off : Int} {n i : Nat} (h : i < n) :
    (window mem off n).getD i 0 = mem (off + i) := by
  simp [window, List.getD_eq_getElem?_getD, h]

/-- A window that is cut in two. -/
theorem window_add (mem : Mem) (off : Int) (n m : Nat) :
    window mem off (n + m) = window mem off n ++ window mem (off + n) m := by
  rw [window, window, window, List.range_add, List.map_append, List.map_map]
  congr 1
  apply List.map_congr_left
  intro i _
  simp only [Function.comp_apply]
  congr 1
  omega

theorem window_congr {m m' : Mem} {off : Int} {n : Nat}
    (h : ∀ i < n, m (off + (i : Nat)) = m' (off + (i : Nat))) : window m off n = window m' off n :=
  List.map_congr_left fun i hi => h i (List.mem_range.mp hi)

/-- Memory holds the bytes of its windows. -/
theorem holds_window (mem : Mem) (off : Int) (n : Nat) : Holds mem off (window mem off n) := by
  rw [holds_iff_getD]
  intro i hi
  rw [window_length] at hi
  exact (window_getD hi).symm

theorem window_of_holds {mem : Mem} {off : Int} {bs : List UInt8} (h : Holds mem off bs) :
    window mem off bs.length = bs := by
  rw [holds_iff_getD] at h
  apply List.ext_getElem (by simp)
  intro i h1 h2
  have hbyte := h i h2
  rw [List.getD_eq_getElem?_getD, List.getElem?_eq_getElem h2, Option.getD_some] at hbyte
  simpa [window] using hbyte

/-- A load sees the bytes of its window. -/
theorem loadBE_window (mem : Mem) (off : Int) (n : Nat) :
    loadBE (ofList 0 (window mem off n)) 0 n = loadBE mem off n := by
  have hbyte : ∀ i < n, ofList 0 (window mem off n) (0 + (i : Nat)) = mem (off + i) := by
    intro i hi
    rw [ofList, if_pos (by omega)]
    have hidx : (0 + (i : Int) - 0).toNat = i := by omega
    rw [hidx, window_getD hi]
  have hload : ∀ k ≤ n, loadBE (ofList 0 (window mem off n)) 0 k = loadBE mem off k := by
    intro k
    induction k with
    | zero => intro _; rfl
    | succ k ih => intro hk; rw [loadBE, loadBE, ih (by omega), hbyte k (by omega)]
  exact hload n (le_refl n)

/-- Big-endian bytes in two pieces. -/
theorem bytesBE_add (n m v : Nat) : bytesBE (n + m) v = bytesBE n (v / 256 ^ m) ++ bytesBE m v := by
  induction m generalizing v with
  | zero => simp [bytesBE]
  | succ m ih =>
    rw [← Nat.add_assoc, bytesBE, ih, bytesBE, List.append_assoc, Nat.div_div_eq_div_mul,
      Nat.pow_succ, Nat.mul_comm 256]

/-- The bytes of a number depend on its low-order bits alone. -/
theorem bytesBE_mod (n v : Nat) : bytesBE n (v % 256 ^ n) = bytesBE n v := by
  induction n generalizing v with
  | zero => rfl
  | succ n ih =>
    have hlow : UInt8.ofNat (v % 256 ^ (n + 1)) = UInt8.ofNat v := by
      apply UInt8.toNat_inj.mp
      rw [UInt8.toNat_ofNat', UInt8.toNat_ofNat', Nat.pow_succ]
      exact Nat.mod_mul_left_mod v (256 ^ n) 256
    have hhigh : v % 256 ^ (n + 1) / 256 = v / 256 % 256 ^ n := by
      rw [Nat.pow_succ, Nat.mul_comm, Nat.mod_mul_right_div_self]
    rw [bytesBE, bytesBE, hlow, hhigh, ih]

/-! ## §2 Stores -/

theorem store_inside {mem : Mem} {off : Int} {bs : List UInt8} {i : Nat} (h : i < bs.length) :
    store mem off bs (off + i) = bs.getD i 0 := by
  have hidx : (off + (i : Int) - off).toNat = i := by omega
  rw [store, if_pos (by omega), hidx]

theorem store_outside {mem : Mem} {off i : Int} {bs : List UInt8}
    (h : i < off ∨ off + bs.length ≤ i) : store mem off bs i = mem i := by
  rw [store, if_neg (by omega)]

/-- The window of a store. -/
theorem window_store_self (mem : Mem) (off : Int) (bs : List UInt8) :
    window (store mem off bs) off bs.length = bs := by
  apply window_of_holds
  rw [holds_iff_getD]
  intro i hi
  exact store_inside hi

/-- A store elsewhere. -/
theorem window_store_apart {mem : Mem} {off off' : Int} {n : Nat} {bs : List UInt8}
    (h : off + n ≤ off' ∨ off' + bs.length ≤ off) :
    window (store mem off' bs) off n = window mem off n :=
  window_congr fun i hi => store_outside (by omega)

/-- A store right behind a window. -/
theorem window_store_behind (mem : Mem) (off : Int) (n : Nat) (bs : List UInt8) :
    window (store mem (off + n) bs) off (n + bs.length) = window mem off n ++ bs := by
  rw [window_add, window_store_self, window_store_apart (Or.inl (le_refl _))]

end AppSysManager.Bytes
