import Mathlib.Data.List.Basic
import Mathlib.Logic.Function.Basic

/-!
# Ring Buffers that Overwrite

A ring of `n` cells that is never read from, only written to: every `put` replaces the
oldest cell.  `toList` linearises the ring, oldest cell first.

The main result, `RingBuffer.toList_putAll`, says what any run of writes leaves behind:
the linearisation is the last `n` cells of the old linearisation followed by everything
that was written.
-/

namespace AppSysManager.Bytes

/-- The cells of a ring, and the cell that is written next. -/
@[ext]
structure RingBuffer (α : Type) where
  cells : Nat → α
  pos : Nat

namespace RingBuffer

variable {α : Type} (n : Nat)

/-- Write one value over the oldest cell. -/
def put (r : RingBuffer α) (x : α) : RingBuffer α :=
  { cells := Function.update r.cells r.pos x, pos := (r.pos + 1) % n }

/-- Write a list of values. -/
def putAll (r : RingBuffer α) (xs : List α) : RingBuffer α := xs.foldl (put n) r

/-- The cells from the oldest to the newest. -/
def toList (r : RingBuffer α) : List α := (List.range n).map fun i => r.cells ((r.pos + i) % n)

@[simp] theorem toList_length (r : RingBuffer α) : (r.toList n).length = n := by
  simp [toList]

theorem putAll_cons (r : RingBuffer α) (x : α) (xs : List α) :
    r.putAll n (x :: xs) = (r.put n x).putAll n xs := rfl

theorem putAll_append (r : RingBuffer α) (xs ys : List α) :
    r.putAll n (xs ++ ys) = (r.putAll n xs).putAll n ys := by
  simp [putAll, List.foldl_append]

variable {n}

theorem put_pos_lt (hn : 0 < n) (r : RingBuffer α) (x : α) : (r.put n x).pos < n :=
  Nat.mod_lt _ hn

/-- A write moves the linearisation on by one cell. -/
theorem toList_put {r : RingBuffer α} (h : r.pos < n) (x : α) :
    (r.put n x).toList n = (r.toList n ++ [x]).drop 1 := by
  apply List.ext_getElem
  · simp
  · intro i hi hi'
    have hin : i < n := by simpa using hi
    rw [List.getElem_drop]
    simp only [toList, List.getElem_map, List.getElem_range, put]
    have hidx : ((r.pos + 1) % n + i) % n = (r.pos + (1 + i)) % n := by
      rw [Nat.mod_add_mod, Nat.add_assoc]
    rw [hidx]
    by_cases hlast : i + 1 < n
    · -- an old cell: the write went somewhere else
      have hne : (r.pos + (1 + i)) % n ≠ r.pos := by
        rcases Nat.lt_or_ge (r.pos + (1 + i)) n with hlt | hge
        · rw [Nat.mod_eq_of_lt hlt]; omega
        · rw [Nat.mod_eq_sub_mod hge, Nat.mod_eq_of_lt (by omega)]; omega
      rw [Function.update_of_ne hne, List.getElem_append_left (by simpa using by omega)]
      simp
    · -- the newest cell is the one that was just written
      have hn1 : 1 + i = n := by omega
      have hself : (r.pos + (1 + i)) % n = r.pos := by
        rw [hn1, Nat.add_mod_right, Nat.mod_eq_of_lt h]
      rw [hself, Function.update_self, List.getElem_append_right (by simpa using by omega)]
      simp

/-- Where a run of writes ends. -/
theorem putAll_pos {r : RingBuffer α} (h : r.pos < n) (xs : List α) :
    (r.putAll n xs).pos = (r.pos + xs.length) % n := by
  induction xs generalizing r with
  | nil => exact (Nat.mod_eq_of_lt h).symm
  | cons x xs ih =>
    rw [putAll_cons, ih (put_pos_lt (Nat.zero_lt_of_lt h) r x), List.length_cons]
    show ((r.pos + 1) % n + xs.length) % n = _
    rw [Nat.mod_add_mod, Nat.add_assoc, Nat.add_comm 1]

/-- What a run of writes leaves in the ring. -/
theorem toList_putAll (hn : 0 < n) {r : RingBuffer α} (h : r.pos < n) (xs : List α) :
    (r.putAll n xs).toList n = (r.toList n ++ xs).drop xs.length := by
  induction xs generalizing r with
  | nil => simp [putAll]
  | cons x xs ih =>
    have hlen : 1 ≤ (r.toList n ++ [x]).length := by simp
    rw [putAll_cons, ih (put_pos_lt hn r x), toList_put h,
      ← List.drop_append_of_le_length hlen, List.drop_drop, List.append_assoc,
      List.singleton_append, List.length_cons, Nat.add_comm]

end RingBuffer

end AppSysManager.Bytes
