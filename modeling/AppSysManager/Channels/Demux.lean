import Mathlib.Data.List.Basic
import Mathlib.Logic.Function.Basic

/-!
# Demultiplexing

Machines that read inputs one by one and sometimes produce an output, and outputs that are marked
with the key of the machine they come from; nothing here depends on what the machines do.

- `run_append`: a run over a stream that is cut in two.
- `Degraded.sublist`: a machine that falls back to its first state at times, and loses outputs,
  produces nothing that it would not have produced otherwise.
- `exists_origins`: where the outputs of each key come from, in one list.
-/

namespace AppSysManager.Channels

variable {σ ι ο : Type}

/-- A machine: the next state, and an output or none. -/
abbrev Machine (σ ι ο : Type) := σ → ι → σ × Option ο

namespace Machine

/-- Run a machine over a list of inputs; the outputs are collected in order. -/
def run (m : Machine σ ι ο) : σ → List ι → σ × List ο
  | s, [] => (s, [])
  | s, i :: is => ((run m (m s i).1 is).1, (m s i).2.toList ++ (run m (m s i).1 is).2)

@[simp] theorem run_nil (m : Machine σ ι ο) (s : σ) : m.run s [] = (s, []) := rfl

theorem run_cons (m : Machine σ ι ο) (s : σ) (i : ι) (is : List ι) :
    m.run s (i :: is) =
      ((m.run (m s i).1 is).1, (m s i).2.toList ++ (m.run (m s i).1 is).2) := rfl

/-- A stream that is cut in two. -/
theorem run_append (m : Machine σ ι ο) (s : σ) (as bs : List ι) :
    m.run s (as ++ bs) =
      ((m.run (m.run s as).1 bs).1, (m.run s as).2 ++ (m.run (m.run s as).1 bs).2) := by
  induction as generalizing s with
  | nil => simp
  | cons a as ih =>
    rw [List.cons_append, run_cons, ih, run_cons]
    simp

/-- A stream of pieces, each of which takes the machine from `s` back to `s`. -/
theorem run_flatMap {α : Type} (m : Machine σ ι ο) (s : σ) (piece : α → List ι) (out : α → List ο)
    (as : List α) (h : ∀ a ∈ as, m.run s (piece a) = (s, out a)) :
    m.run s (as.flatMap piece) = (s, as.flatMap out) := by
  induction as with
  | nil => rfl
  | cons a as ih =>
    have hrest := ih fun b hb => h b (List.mem_cons_of_mem a hb)
    rw [List.flatMap_cons, run_append, h a (by simp), hrest, List.flatMap_cons]

/-- What a machine may produce that falls back to the state `reset` now and then, and some of
    whose outputs are lost. -/
inductive Degraded (m : Machine σ ι ο) (reset : σ) : σ → List ι → List ο → Prop where
  | nil (s : σ) : Degraded m reset s [] []
  | step {s : σ} {i : ι} {is : List ι} {out : List ο} (h : Degraded m reset (m s i).1 is out) :
      Degraded m reset s (i :: is) ((m s i).2.toList ++ out)
  | mute {s : σ} {i : ι} {is : List ι} {out : List ο} (h : Degraded m reset (m s i).1 is out) :
      Degraded m reset s (i :: is) out
  | fallBack {s : σ} {is : List ι} {out : List ο} (h : Degraded m reset reset is out) :
      Degraded m reset s is out

section Absorbing

variable {m : Machine σ ι ο} {reset : σ}
variable (hreset : ∀ s i, m reset i = (reset, none) ∨ m s i = m reset i)

include hreset in
/-- If an input either does nothing in the state `reset` or does the same in every state, then
    nothing is gained from falling back. -/
theorem run_reset_sublist (s : σ) (is : List ι) : (m.run reset is).2.Sublist (m.run s is).2 := by
  induction is generalizing s with
  | nil => exact List.Sublist.refl _
  | cons i is ih =>
    rw [run_cons, run_cons]
    rcases hreset s i with h | h
    · rw [h]
      exact (ih (m s i).1).trans (List.sublist_append_right ..)
    · rw [h]

include hreset in
theorem Degraded.sublist {s : σ} {is : List ι} {out : List ο} (h : m.Degraded reset s is out) :
    out.Sublist (m.run s is).2 := by
  induction h with
  | nil s => exact List.Sublist.refl _
  | step h ih => exact (List.Sublist.refl _).append ih
  | mute h ih => exact ih.trans (List.sublist_append_right ..)
  | fallBack h ih => exact ih.trans (run_reset_sublist hreset ..)

end Absorbing

end Machine

/-- If the outputs of every key are what `g` makes of a list of origins, then the origins of all
    outputs can be lined up in one list. -/
theorem exists_origins {α β κ : Type} [DecidableEq κ] (g : α → β) (outs : List (κ × β))
    (origins : κ → List α)
    (h : ∀ k, (outs.filter (·.1 = k)).map Prod.snd = (origins k).map g) :
    ∃ all : List (κ × α), all.map (fun x => (x.1, g x.2)) = outs ∧
      ∀ k, (all.filter (·.1 = k)).map Prod.snd = origins k := by
  induction outs generalizing origins with
  | nil =>
    refine ⟨[], rfl, fun k => ?_⟩
    exact (List.map_eq_nil_iff.mp (h k).symm).symm
  | cons x outs ih =>
    obtain ⟨key, b⟩ := x
    have hkey := h key
    rw [List.filter_cons_of_pos (by simp), List.map_cons] at hkey
    obtain ⟨a, as, horigins, hga, hrest⟩ := List.map_eq_cons_iff.mp hkey.symm
    -- the origin of the first output comes off its own channel
    obtain ⟨all, hall, hfilter⟩ := ih (Function.update origins key as) fun k => by
      by_cases hk : k = key
      · rw [hk, Function.update_self, hrest]
      · rw [Function.update_of_ne hk, ← h k,
          List.filter_cons_of_neg (by simpa using Ne.symm hk)]
    refine ⟨(key, a) :: all, ?_, fun k => ?_⟩
    · rw [List.map_cons, hall, hga]
    · have hk' := hfilter k
      by_cases hk : k = key
      · rw [hk, Function.update_self] at hk'
        rw [hk, List.filter_cons_of_pos (by simp), List.map_cons, hk', horigins]
      · rw [Function.update_of_ne hk] at hk'
        rw [List.filter_cons_of_neg (by simpa using Ne.symm hk), hk']

/-- What is related to a list item by item has an item for each of its members. -/
theorem exists_of_mem_forall₂ {α β : Type} {R : α → β → Prop} {as : List α} {bs : List β}
    (h : List.Forall₂ R as bs) {a : α} (ha : a ∈ as) : ∃ b ∈ bs, R a b := by
  induction h with
  | nil => exact absurd ha List.not_mem_nil
  | cons hab _ ih =>
    rcases List.mem_cons.mp ha with rfl | ha
    · exact ⟨_, List.mem_cons_self, hab⟩
    · obtain ⟨b, hb, hR⟩ := ih ha
      exact ⟨b, List.mem_cons_of_mem _ hb, hR⟩

end AppSysManager.Channels
