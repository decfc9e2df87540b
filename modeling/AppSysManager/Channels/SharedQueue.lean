import Mathlib.Data.List.Perm.Basic
import Mathlib.Data.List.Perm.Subperm

/-!
# Shared Queues

A bounded FIFO whose items belong to several owners.  An owner takes its first item by moving what
it finds in front of it to the back.

- `get_spec`: an owner gets its own items in the order in which they were added, and the queue loses
  nothing else.
- `Beside`: the items of the other owners stay, in some order.
-/

namespace AppSysManager.Channels.SharedQueue

variable {α : Type} {cap c : Nat} {q q' : List (Nat × α)} {x : α}

/-- The items of an owner. -/
def mine (c : Nat) (q : List (Nat × α)) : List α := (q.filter (·.1 = c)).map Prod.snd

/-- An item that does not fit is dropped. -/
def add (cap : Nat) (q : List (Nat × α)) (x : Nat × α) : List (Nat × α) :=
  if q.length < cap then q ++ [x] else q

/-- Look at `size` items from the front of the queue. -/
def getLoop (cap c : Nat) : Nat → List (Nat × α) → Option α × List (Nat × α)
  | 0, q => (none, q)
  | _ + 1, [] => (none, [])
  | size + 1, x :: q => if x.1 = c then (some x.2, q) else getLoop cap c size (add cap q x)

/-- The first item of an owner. -/
def get (cap c : Nat) (q : List (Nat × α)) : Option α × List (Nat × α) := getLoop cap c q.length q

/-! ## §1 The items of an owner -/

@[simp] theorem mine_nil : mine c ([] : List (Nat × α)) = [] := rfl

@[simp] theorem mine_append (a b : List (Nat × α)) : mine c (a ++ b) = mine c a ++ mine c b := by
  simp [mine]

@[simp] theorem mine_cons_self : mine c ((c, x) :: q) = x :: mine c q := by
  simp [mine]

theorem mine_cons_of_ne {y : Nat × α} (h : y.1 ≠ c) : mine c (y :: q) = mine c q := by
  simp [mine, h]

theorem mine_eq_nil (h : ∀ y ∈ q, y.1 ≠ c) : mine c q = [] := by
  rw [mine, List.filter_eq_nil_iff.mpr (by simpa using h)]
  rfl

theorem mine_perm (h : q.Perm q') : (mine c q).Perm (mine c q') := (h.filter _).map _

theorem mine_length_le : (mine c q).length ≤ q.length := by
  rw [mine, List.length_map]
  exact List.length_filter_le ..

theorem add_of_lt (h : q.length < cap) (y : Nat × α) : add cap q y = q ++ [y] := if_pos h

theorem add_length_le (h : q.length ≤ cap) (y : Nat × α) : (add cap q y).length ≤ cap := by
  rw [add]
  split
  · rw [List.length_append]
    simpa using ‹_›
  · exact h

/-! ## §2 Taking items -/

/-- Nothing is found: the queue has gone around once. -/
theorem getLoop_none {front back : List (Nat × α)} (hcap : (front ++ back).length ≤ cap)
    (hother : ∀ y ∈ front, y.1 ≠ c) :
    getLoop cap c front.length (front ++ back) = (none, back ++ front) := by
  induction front generalizing back with
  | nil => rw [List.nil_append, List.append_nil, List.length_nil, getLoop]
  | cons y front ih =>
    have hroom : (front ++ back).length < cap := by simpa [Nat.succ_le_iff] using hcap
    rw [List.length_cons, List.cons_append, getLoop, if_neg (hother y List.mem_cons_self),
      add_of_lt hroom, List.append_assoc, ih]
    · rw [List.append_assoc]
      rfl
    · simp only [List.length_append, List.length_cons, List.length_nil] at hroom ⊢
      omega
    · exact fun z hz => hother z (List.mem_cons_of_mem y hz)

/-- The first item of the owner is found, with the items of others in front of it. -/
theorem getLoop_some {front rest back : List (Nat × α)}
    (hcap : (front ++ (c, x) :: rest ++ back).length ≤ cap) (hother : ∀ y ∈ front, y.1 ≠ c) :
    getLoop cap c (front ++ (c, x) :: rest).length (front ++ (c, x) :: rest ++ back) =
      (some x, rest ++ back ++ front) := by
  induction front generalizing back with
  | nil => rw [List.nil_append, List.length_cons, List.cons_append, getLoop, if_pos rfl, List.append_nil]
  | cons y front ih =>
    have hroom : (front ++ (c, x) :: rest ++ back).length < cap := by
      simpa [Nat.succ_le_iff] using hcap
    rw [List.cons_append, List.cons_append, List.length_cons, getLoop,
      if_neg (hother y List.mem_cons_self), add_of_lt hroom, List.append_assoc, ih]
    · simp
    · simp only [List.length_append, List.length_cons, List.length_nil] at hroom ⊢
      omega
    · exact fun z hz => hother z (List.mem_cons_of_mem y hz)

/-- An owner without items finds nothing; any other gets the first of its items. -/
theorem get_spec (hcap : q.length ≤ cap) :
    (mine c q = [] ∧ get cap c q = (none, q)) ∨
      ∃ x rest, get cap c q = (some x, rest) ∧ mine c q = x :: mine c rest ∧
        ((c, x) :: rest).Perm q := by
  by_cases hany : ∀ y ∈ q, y.1 ≠ c
  · refine Or.inl ⟨mine_eq_nil hany, ?_⟩
    have hloop : getLoop cap c q.length (q ++ []) = (none, [] ++ q) :=
      getLoop_none (by simpa using hcap) hany
    rwa [List.append_nil, List.nil_append] at hloop
  · refine Or.inr ?_
    simp only [not_forall, not_not] at hany
    obtain ⟨y, hy, hown⟩ := hany
    -- cut the queue at the first item of the owner
    obtain ⟨⟨c', x⟩, front, rest, hfront, hfirst, rfl, -⟩ :=
      List.exists_of_eraseP (p := fun y => decide (y.1 = c)) hy (decide_eq_true hown)
    obtain rfl : c' = c := of_decide_eq_true hfirst
    have hother : ∀ y ∈ front, y.1 ≠ c' := fun y hy => by simpa using hfront y hy
    refine ⟨x, rest ++ front, ?_, ?_, ?_⟩
    · have hloop : getLoop cap c' (front ++ (c', x) :: rest).length (front ++ (c', x) :: rest ++ []) =
          (some x, rest ++ [] ++ front) := getLoop_some (by simpa using hcap) hother
      rwa [List.append_nil, List.append_nil] at hloop
    · rw [mine_append, mine_append, mine_cons_self, mine_eq_nil hother, List.nil_append,
        List.append_nil]
    · exact (List.perm_append_comm.cons _).trans List.perm_middle.symm

/-! ## §3 Putting items back -/

section Taken

variable {rest : List (Nat × α)}

theorem taken_length (hperm : ((c, x) :: rest).Perm q) (hcap : q.length ≤ cap) :
    rest.length < cap := by
  have hlen := hperm.length_eq
  rw [List.length_cons] at hlen
  omega

theorem taken_sub (hmine : mine c q = x :: mine c rest) : ∀ y ∈ mine c rest, y ∈ mine c q := by
  intro y h
  rw [hmine]
  exact List.mem_cons_of_mem _ h

/-- An item that has been added is the last one of its owner. -/
theorem mine_add (h : q.length < cap) (x : α) : mine c (add cap q (c, x)) = mine c q ++ [x] := by
  rw [add_of_lt h, mine_append, mine_cons_self, mine_nil]

/-- An item that is taken from the queue and put back is still there. -/
theorem putBack_sub (hcap : q.length ≤ cap) (hmine : mine c q = x :: mine c rest)
    (hperm : ((c, x) :: rest).Perm q) : ∀ y ∈ mine c (add cap rest (c, x)), y ∈ mine c q := by
  intro y hy
  rw [mine_add (taken_length hperm hcap), List.mem_append, List.mem_singleton] at hy
  rcases hy with hy | rfl
  · exact taken_sub hmine y hy
  · rw [hmine]
    exact List.mem_cons_self

end Taken

/-! ## §4 The other owners -/

/-- The items of the other owners are the same, in some order. -/
def Beside (c : Nat) (q q' : List (Nat × α)) : Prop := ∀ c', c' ≠ c → (mine c' q').Perm (mine c' q)

theorem Beside.refl (q : List (Nat × α)) : Beside c q q := fun _ _ => List.Perm.refl _

theorem Beside.trans {q₁ q₂ q₃ : List (Nat × α)} (h : Beside c q₁ q₂) (h' : Beside c q₂ q₃) :
    Beside c q₁ q₃ := fun c' hc => (h' c' hc).trans (h c' hc)

theorem beside_taken {rest : List (Nat × α)} (h : ((c, x) :: rest).Perm q) : Beside c q rest := by
  intro c' hc
  have hmine : (mine c' ((c, x) :: rest)).Perm (mine c' q) := mine_perm h
  rwa [mine_cons_of_ne (Ne.symm hc)] at hmine

theorem beside_add (x : α) : Beside c q (add cap q (c, x)) := by
  intro c' hc
  rw [add]
  split
  · rw [mine_append, mine_cons_of_ne (Ne.symm hc), mine_nil, List.append_nil]
  · exact List.Perm.refl _

theorem beside_filter : Beside c q (q.filter (·.1 ≠ c)) := by
  intro c' hc
  have hsame : (q.filter (·.1 ≠ c)).filter (·.1 = c') = q.filter (·.1 = c') := by
    rw [List.filter_filter]
    apply List.filter_congr
    intro y _
    by_cases hy : y.1 = c'
    · simp [hy, hc]
    · simp [hy]
  rw [mine, hsame, ← mine]

theorem mine_filter_self : mine c (q.filter (·.1 ≠ c)) = [] :=
  mine_eq_nil fun y hy => by simpa using (List.mem_filter.mp hy).2

end AppSysManager.Channels.SharedQueue
