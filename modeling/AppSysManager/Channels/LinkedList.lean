import Mathlib.Data.List.Chain
import Mathlib.Logic.Function.Basic

/-!
# Singly Linked Lists

Lists of nodes that are linked through a `next` pointer, independent of what the nodes are.

`sweep` is the loop that walks such a list with a trailing pointer and takes nodes out as it
goes.  The trailing pointer is moved to the node just visited even when that node has been
taken out, so that of two neighbours which both should go, the second stays in the list.

- `Chain`: the nodes from a pointer on, as a list.
- `sweep_spec`: what is left in the list is `unlink`, what was taken out is every node that
  should go.
- `unlink_clean_iff`: nothing that should go is left exactly when no two neighbours should go.
-/

namespace AppSysManager.Channels

variable {α : Type}

/-- A list head and the `next` pointer of every node. -/
structure Links (α : Type) where
  head : Option α
  next : α → Option α

/-- `l` are the nodes from the pointer on, up to a null pointer. -/
def Chain (next : α → Option α) : Option α → List α → Prop
  | cur, [] => cur = none
  | cur, a :: l => cur = some a ∧ Chain next (next a) l

instance decidableChain [DecidableEq α] (next : α → Option α) :
    ∀ cur l, Decidable (Chain next cur l)
  | cur, [] => inferInstanceAs (Decidable (cur = none))
  | cur, a :: l =>
    have := decidableChain next (next a) l
    inferInstanceAs (Decidable (cur = some a ∧ Chain next (next a) l))

/-! ## §1 Chains -/

@[simp] theorem chain_nil {next : α → Option α} {cur : Option α} :
    Chain next cur [] ↔ cur = none := Iff.rfl

@[simp] theorem chain_cons {next : α → Option α} {cur : Option α} {a : α} {l : List α} :
    Chain next cur (a :: l) ↔ cur = some a ∧ Chain next (next a) l := Iff.rfl

/-- A pointer is the head of one list only. -/
theorem Chain.unique {next : α → Option α} {cur : Option α} {l l' : List α}
    (h : Chain next cur l) (h' : Chain next cur l') : l = l' := by
  induction l generalizing cur l' with
  | nil =>
    cases l' with
    | nil => rfl
    | cons b l' =>
      rw [chain_nil] at h
      rw [h] at h'
      exact absurd h'.1 (by simp)
  | cons a l ih =>
    cases l' with
    | nil =>
      rw [chain_nil] at h'
      rw [h'] at h
      exact absurd h.1 (by simp)
    | cons b l' =>
      have hab : a = b := Option.some.inj (h.1.symm.trans h'.1)
      subst hab
      rw [ih h.2 h'.2]

/-- Every node of a list heads a list of its own. -/
theorem Chain.suffix {next : α → Option α} {cur : Option α} {l : List α} (h : Chain next cur l)
    {a : α} (ha : a ∈ l) : ∃ t, Chain next (some a) (a :: t) ∧ t.length < l.length := by
  induction l generalizing cur with
  | nil => exact absurd ha (by simp)
  | cons b l ih =>
    rcases List.mem_cons.mp ha with rfl | hmem
    · exact ⟨l, ⟨rfl, h.2⟩, by simp⟩
    · obtain ⟨t, hchain, hlen⟩ := ih h.2 hmem
      exact ⟨t, hchain, by simp; omega⟩

/-- A list that ends has no node twice. -/
theorem Chain.nodup {next : α → Option α} {cur : Option α} {l : List α} (h : Chain next cur l) :
    l.Nodup := by
  induction l generalizing cur with
  | nil => exact List.nodup_nil
  | cons a l ih =>
    refine List.nodup_cons.mpr ⟨fun ha => ?_, ih h.2⟩
    -- behind the second visit to `a` the list would have to go on as behind the first
    obtain ⟨t, hchain, hlen⟩ := h.2.suffix ha
    have heq := hchain.2.unique h.2
    rw [heq] at hlen
    exact absurd hlen (lt_irrefl _)

theorem Chain.congr {next next' : α → Option α} {cur : Option α} {l : List α}
    (h : Chain next cur l) (hagree : ∀ a ∈ l, next' a = next a) : Chain next' cur l := by
  induction l generalizing cur with
  | nil => exact h
  | cons a l ih =>
    refine ⟨h.1, ?_⟩
    rw [hagree a (by simp)]
    exact ih h.2 fun b hb => hagree b (by simp [hb])

/-- "Insert at beginning". -/
theorem Chain.push [DecidableEq α] {next : α → Option α} {cur : Option α} {l : List α}
    (h : Chain next cur l) {a : α} (ha : a ∉ l) :
    Chain (Function.update next a cur) (some a) (a :: l) := by
  refine ⟨rfl, ?_⟩
  rw [Function.update_self]
  apply h.congr
  rintro b hb
  exact Function.update_of_ne (by rintro rfl; exact ha hb) _ _

/-! ## §2 Searching -/

namespace Links

/-- Walk the list until a node satisfies `p`.  The result is `none` if the walk has not come
    to an end after `fuel` nodes. -/
def find (p : α → Bool) (s : Links α) : Nat → Option α → Option (Option α)
  | _, none => some none
  | 0, some _ => none
  | fuel + 1, some a => if p a then some (some a) else find p s fuel (s.next a)

theorem find_eq {p : α → Bool} {s : Links α} {cur : Option α} {l : List α}
    (h : Chain s.next cur l) {fuel : Nat} (hfuel : l.length ≤ fuel) :
    s.find p fuel cur = some (l.find? p) := by
  induction l generalizing cur fuel with
  | nil =>
    rw [chain_nil] at h
    rw [h]
    cases fuel <;> rfl
  | cons a l ih =>
    obtain ⟨rfl, htail⟩ := h
    obtain ⟨m, rfl⟩ : ∃ m, fuel = m + 1 := ⟨fuel - 1, by simp at hfuel; omega⟩
    rw [find, List.find?_cons]
    cases hp : p a with
    | true => rfl
    | false => simpa using ih htail (by simp at hfuel; omega)

/-- The nodes from a pointer on, as far as `fuel` goes. -/
def nodes (s : Links α) : Nat → Option α → List α
  | _, none => []
  | 0, some _ => []
  | fuel + 1, some a => a :: nodes s fuel (s.next a)

/-! ## §3 Sweeping -/

/-- The pointer that leads to the node behind `prev`. -/
def link (s : Links α) : Option α → Option α
  | some q => s.next q
  | none => s.head

variable [DecidableEq α]

/-- `if (prev) prev->next = node->next; else head = node->next;` -/
def cut (s : Links α) (prev : Option α) (a : α) : Links α :=
  match prev with
  | some q => { s with next := Function.update s.next q (s.next a) }
  | none => { s with head := s.next a }

/-- Walk the list and take out the nodes that satisfy `del`; also the nodes that were taken
    out, in order.  The result is `none` if the walk has not come to an end after `fuel`
    nodes. -/
def sweep (del : α → Bool) : Nat → Links α → Option α → Option α → Option (Links α × List α)
  | _, s, _, none => some (s, [])
  | 0, _, _, some _ => none
  | fuel + 1, s, prev, some a =>
    if del a then
      -- `prev = node` all the same
      match sweep del fuel (s.cut prev a) (some a) ((s.cut prev a).next a) with
      | some (s', removed) => some (s', a :: removed)
      | none => none
    else sweep del fuel s (some a) (s.next a)

end Links

/-- What a sweep leaves of a list: the node behind one that was taken out stays, whatever it
    is. -/
def unlink (del : α → Bool) : List α → List α
  | [] => []
  | [a] => if del a then [] else [a]
  | a :: b :: l => if del a then b :: unlink del l else a :: unlink del (b :: l)

/-- The list behind a node that was taken out. -/
def landing (del : α → Bool) : List α → List α
  | [] => []
  | b :: l => b :: unlink del l

theorem unlink_cons (del : α → Bool) (a : α) (l : List α) :
    unlink del (a :: l) = if del a then landing del l else a :: unlink del l := by
  cases l with
  | nil => rfl
  | cons b l => rfl

namespace Links

/-- What a sweep from `prev` on does to the list `l` behind `prev`. -/
structure Swept (del : α → Bool) (s : Links α) (prev : Option α) (l : List α) (s' : Links α) :
    Prop where
  chain : Chain s'.next (s'.link prev) (unlink del l)
  behind : ∀ b t, l = b :: t → Chain s'.next (s'.next b) (unlink del t)
  next : ∀ x, x ∉ l → prev ≠ some x → s'.next x = s.next x
  head : prev ≠ none → s'.head = s.head

/-- A pointer in front of the swept part is as it was. -/
theorem Swept.link_eq {del : α → Bool} {s s' : Links α} {a : α} {prev : Option α} {l : List α}
    (h : Swept del s (some a) l s') (hprev : ∀ q, prev = some q → q ∉ a :: l) :
    s'.link prev = s.link prev := by
  cases prev with
  | none => exact h.head (by simp)
  | some q =>
    have hq := hprev q rfl
    rw [List.mem_cons, not_or] at hq
    exact h.next q hq.2 (by simpa using Ne.symm hq.1)

variable [DecidableEq α]

theorem cut_link (s : Links α) (prev : Option α) (a : α) : (s.cut prev a).link prev = s.next a := by
  cases prev with
  | none => rfl
  | some q => exact Function.update_self q _ _

theorem cut_next_of_ne {s : Links α} {prev : Option α} {a x : α} (h : prev ≠ some x) :
    (s.cut prev a).next x = s.next x := by
  cases prev with
  | none => rfl
  | some q => exact Function.update_of_ne (by rintro rfl; exact h rfl) _ _

theorem cut_head {s : Links α} {prev : Option α} {a : α} (h : prev ≠ none) :
    (s.cut prev a).head = s.head := by
  cases prev with
  | none => exact absurd rfl h
  | some q => rfl

theorem sweep_from (del : α → Bool) {l : List α} {s : Links α} {prev cur : Option α}
    (h : Chain s.next cur l) (hlink : s.link prev = cur) (hprev : ∀ q, prev = some q → q ∉ l)
    {fuel : Nat} (hfuel : l.length ≤ fuel) :
    ∃ s', sweep del fuel s prev cur = some (s', l.filter del) ∧ Swept del s prev l s' := by
  induction l generalizing s prev cur fuel with
  | nil =>
    rw [chain_nil] at h
    subst h
    refine ⟨s, by cases fuel <;> rfl, ?_, by simp, by simp, by simp⟩
    rw [hlink]
    rfl
  | cons a t ih =>
    have hnodup := h.nodup
    rw [List.nodup_cons] at hnodup
    obtain ⟨rfl, htail⟩ := h
    obtain ⟨m, rfl⟩ : ∃ m, fuel = m + 1 := ⟨fuel - 1, by simp at hfuel; omega⟩
    have hm : t.length ≤ m := by simp at hfuel; omega
    have ha : ∀ q, some a = some q → q ∉ t := by
      rintro q hq
      exact Option.some.inj hq ▸ hnodup.1
    have hpa : prev ≠ some a := by
      intro heq
      exact hprev a heq (by simp)
    have hpt : ∀ x ∈ t, prev ≠ some x := by
      intro x hx heq
      exact hprev x heq (by simp [hx])
    cases hdel : del a with
    | false =>
      obtain ⟨s', hs', hswept⟩ := ih htail (show s.link (some a) = s.next a from rfl) ha hm
      refine ⟨s', by simp [sweep, hdel, hs'], ?_, ?_, ?_, fun _ => hswept.head (by simp)⟩
      · rw [unlink_cons, if_neg (by simp [hdel]), hswept.link_eq hprev, hlink]
        exact ⟨rfl, hswept.chain⟩
      · rintro b t' heq
        obtain ⟨rfl, rfl⟩ := List.cons.inj heq
        exact hswept.chain
      · intro x hx hpx
        rw [List.mem_cons, not_or] at hx
        exact hswept.next x hx.2 (by simpa using Ne.symm hx.1)
    | true =>
      -- the pointer in front of `a` now leads behind it, and the walk goes on from `a`
      have hnext : (s.cut prev a).next a = s.next a := cut_next_of_ne hpa
      have htail' : Chain (s.cut prev a).next (s.next a) t :=
        htail.congr fun x hx => cut_next_of_ne (hpt x hx)
      obtain ⟨s', hs', hswept⟩ := ih htail' (show (s.cut prev a).link (some a) = s.next a from hnext) ha hm
      refine ⟨s', by simp [sweep, hdel, hnext, hs'], ?_, ?_, ?_, ?_⟩
      · rw [unlink_cons, if_pos hdel, hswept.link_eq hprev, cut_link]
        cases t with
        | nil => exact htail
        | cons b t' => exact ⟨htail.1, hswept.behind b t' rfl⟩
      · rintro b t' heq
        obtain ⟨rfl, rfl⟩ := List.cons.inj heq
        exact hswept.chain
      · intro x hx hpx
        rw [List.mem_cons, not_or] at hx
        rw [hswept.next x hx.2 (by simpa using Ne.symm hx.1), cut_next_of_ne hpx]
      · intro hp
        rw [hswept.head (by simp), cut_head hp]

/-- **A sweep over a whole list** takes out every node that satisfies `del`, but leaves the
    list `unlink del l` behind. -/
theorem sweep_spec (del : α → Bool) {l : List α} {s : Links α} (h : Chain s.next s.head l)
    {fuel : Nat} (hfuel : l.length ≤ fuel) :
    ∃ s', sweep del fuel s none s.head = some (s', l.filter del) ∧
      Chain s'.next s'.head (unlink del l) ∧ ∀ x, x ∉ l → s'.next x = s.next x := by
  obtain ⟨s', hs', hswept⟩ := sweep_from del h (show s.link none = s.head from rfl) (by simp) hfuel
  exact ⟨s', hs', hswept.chain, fun x hx => hswept.next x hx (by simp)⟩

end Links

/-! ## §4 What is left behind -/

/-- No two neighbours satisfy `del`. -/
def Sparse (del : α → Bool) (l : List α) : Prop := l.IsChain fun a b => ¬ (del a ∧ del b)

instance (del : α → Bool) (l : List α) : Decidable (Sparse del l) :=
  inferInstanceAs (Decidable (l.IsChain _))

theorem unlink_subset (del : α → Bool) (l : List α) : ∀ a ∈ unlink del l, a ∈ l := by
  induction l using unlink.induct del with
  | case1 => simp [unlink]
  | case2 a hdel => simp [unlink, hdel]
  | case3 a hdel => simp [unlink, hdel]
  | case4 a b l hdel ih =>
    intro x hx
    rw [unlink, if_pos hdel, List.mem_cons] at hx
    rcases hx with rfl | hx
    · simp
    · simp [ih x hx]
  | case5 a b l hdel ih =>
    intro x hx
    rw [unlink, if_neg hdel, List.mem_cons] at hx
    rcases hx with rfl | hx
    · simp
    · exact List.mem_cons_of_mem a (ih x hx)

/-- A sparse list is left without the nodes that should go. -/
theorem unlink_of_sparse {del : α → Bool} {l : List α} (h : Sparse del l) :
    unlink del l = l.filter fun a => !del a := by
  induction l using unlink.induct del with
  | case1 => rfl
  | case2 a hdel => simp [unlink, hdel]
  | case3 a hdel => simp [unlink, hdel]
  | case4 a b l hdel ih =>
    obtain ⟨hab, hl⟩ := List.isChain_cons_cons.mp h
    have hb : del b = false := by simpa [hdel] using hab
    rw [unlink, if_pos hdel, ih hl.tail]
    simp [hdel, hb]
  | case5 a b l hdel ih =>
    rw [unlink, if_neg hdel, ih h.tail]
    simp [hdel]

/-- Nothing that should go is left in the list exactly when no two neighbours should go. -/
theorem unlink_clean_iff {del : α → Bool} {l : List α} :
    (∀ a ∈ unlink del l, del a = false) ↔ Sparse del l := by
  constructor
  · induction l using unlink.induct del with
    | case1 => intro _; exact List.isChain_nil
    | case2 a hdel => intro _; exact List.isChain_singleton a
    | case3 a hdel => intro _; exact List.isChain_singleton a
    | case4 a b l hdel ih =>
      intro h
      rw [unlink, if_pos hdel] at h
      have hb : del b = false := h b (by simp)
      have hl := ih fun x hx => h x (by simp [hx])
      refine List.isChain_cons_cons.mpr ⟨by simp [hb], ?_⟩
      cases l with
      | nil => exact List.isChain_singleton b
      | cons c l => exact List.isChain_cons_cons.mpr ⟨by simp [hb], hl⟩
    | case5 a b l hdel ih =>
      intro h
      rw [unlink, if_neg hdel] at h
      exact List.isChain_cons_cons.mpr ⟨by simp [hdel], ih fun x hx => h x (by simp [hx])⟩
  · intro h a ha
    rw [unlink_of_sparse h, List.mem_filter] at ha
    simpa using ha.2

/-- Behind a node that stays, the sweep goes on as from the head of the list. -/
theorem unlink_append {del : α → Bool} {l : List α} (t : List α)
    (h : ∀ a ∈ l.getLast?, del a = false) : unlink del (l ++ t) = unlink del l ++ unlink del t := by
  induction l using unlink.induct del with
  | case1 => rfl
  | case2 a hdel => exact absurd (h a rfl) (by simp [hdel])
  | case3 a hdel =>
    rw [List.singleton_append, unlink_cons, if_neg hdel, unlink, if_neg hdel]
    rfl
  | case4 a b l hdel ih =>
    have hrest : unlink del (l ++ t) = unlink del l ++ unlink del t := by
      apply ih
      intro x hx
      exact h x (by simp [List.getLast?_cons, Option.mem_def.mp hx])
    rw [List.cons_append, List.cons_append, unlink, if_pos hdel, unlink, if_pos hdel, hrest]
    rfl
  | case5 a b l hdel ih =>
    have hrest : unlink del (b :: l ++ t) = unlink del (b :: l) ++ unlink del t := by
      apply ih
      intro x hx
      exact h x (by rw [List.getLast?_cons_cons]; exact hx)
    rw [List.cons_append, List.cons_append, unlink, if_neg hdel, ← List.cons_append, hrest, unlink,
      if_neg hdel]
    rfl

/-- The second of two nodes that should go stays, if the sweep takes out the first. -/
theorem mem_unlink_second {del : α → Bool} {l t : List α} {a b : α}
    (h : ∀ x ∈ l.getLast?, del x = false) (ha : del a = true) :
    b ∈ unlink del (l ++ a :: b :: t) := by
  rw [unlink_append _ h, unlink, if_pos ha]
  exact List.mem_append_right _ List.mem_cons_self

/-- Only one node can be meant: it is simply erased. -/
theorem unlink_single [DecidableEq α] {a : α} {l : List α} (h : l.Nodup) :
    unlink (· == a) l = l.erase a := by
  have hsparse : Sparse (· == a) l := by
    induction l with
    | nil => exact List.isChain_nil
    | cons b l ih =>
      cases l with
      | nil => exact List.isChain_singleton b
      | cons c l =>
        refine List.isChain_cons_cons.mpr ⟨?_, ih (List.nodup_cons.mp h).2⟩
        rintro ⟨hb, hc⟩
        have hbc : b = c := (beq_iff_eq.mp hb).trans (beq_iff_eq.mp hc).symm
        exact (List.nodup_cons.mp h).1 (by simp [hbc])
  rw [unlink_of_sparse hsparse, h.erase_eq_filter]
  rfl

end AppSysManager.Channels
