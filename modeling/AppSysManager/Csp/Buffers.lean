import AppSysManager.Csp.Can
import Mathlib.Data.List.Nodup

/-!
# Ownership of the Packet Buffers

Every buffer of the pool is in exactly one place: in the list of half received packets, in the
queue of the router, in the hands of somebody who has taken it, or in the queue of free
buffers.  `Pool` says so; the operations on buffers move a buffer from one place to another.

The one operation that does not keep this is `csp_can_pbuf_cleanup`: of two neighbouring
packets that both have timed out, the second is freed and stays in the list all the same.

- `cleanup_pool_iff`: it keeps the pool in order exactly when no two neighbours have timed out.
-/

namespace AppSysManager.Csp

open AppSysManager.Bytes AppSysManager.Node AppSysManager.Channels
open scoped List

/-! ## §1 The invariant -/

/-- Freeing a buffer does not look at the list of half received packets. -/
theorem cspBufferFree_pbufs (net : Net) (links : Links Nat) (p : Nat) :
    cspBufferFree { net with pbufs := links } p = { cspBufferFree net p with pbufs := links } := by
  simp only [cspBufferFree]
  split_ifs <;> rfl

theorem foldl_cspBufferFree_pbufs (ps : List Nat) (net : Net) (links : Links Nat) :
    ps.foldl cspBufferFree { net with pbufs := links } =
      { ps.foldl cspBufferFree net with pbufs := links } := by
  induction ps generalizing net with
  | nil => rfl
  | cons p ps ih => rw [List.foldl_cons, cspBufferFree_pbufs, ih, List.foldl_cons]

/-- Every buffer is in one place: `l` is the list of half received packets, `held` are the
    buffers in the hands of a caller. -/
structure Pool (net : Net) (l held : List Nat) : Prop where
  chain : Chain net.pbufs.next net.pbufs.head l
  perm : (l ++ (net.qfifo.map Prod.fst ++ (held ++ net.free))).Perm (List.range CSP_BUFFER_COUNT)
  live : ∀ p ∈ l ++ (net.qfifo.map Prod.fst ++ held), net.refcount p = 1

namespace Pool

variable {net : Net} {l held : List Nat}

theorem nodup (h : Pool net l held) :
    (l ++ (net.qfifo.map Prod.fst ++ (held ++ net.free))).Nodup :=
  h.perm.nodup_iff.mpr List.nodup_range

theorem length_eq (h : Pool net l held) :
    l.length + (net.qfifo.length + (held.length + net.free.length)) = CSP_BUFFER_COUNT := by
  simpa using h.perm.length_eq

theorem chain_length (h : Pool net l held) : l.length ≤ CSP_BUFFER_COUNT := by
  have := h.length_eq
  omega

theorem not_mem_free (h : Pool net l held) {p : Nat} (hp : p ∈ l) : p ∉ net.free := by
  intro hfree
  exact (List.nodup_append.mp h.nodup).2.2 p hp p (by simp [hfree]) rfl

theorem held_not_mem (h : Pool net l held) {p : Nat} (hp : p ∈ held) : p ∉ l := by
  intro hl
  exact (List.nodup_append.mp h.nodup).2.2 p hl p (by simp [hp]) rfl

theorem free_not_held (h : Pool net l held) {p : Nat} (hp : p ∈ net.free) : p ∉ held := by
  intro hheld
  have := (List.nodup_append.mp (List.nodup_append.mp (List.nodup_append.mp h.nodup).2.1).2.1).2.2
  exact this p hheld p hp rfl

theorem held_not_queued (h : Pool net l held) {p : Nat} (hp : p ∈ held) :
    p ∉ net.qfifo.map Prod.fst := by
  intro hq
  have := (List.nodup_append.mp (List.nodup_append.mp h.nodup).2.1).2.2
  exact this p hq p (by simp [hp]) rfl

theorem free_not_queued (h : Pool net l held) {p : Nat} (hp : p ∈ net.free) :
    p ∉ net.qfifo.map Prod.fst := by
  intro hq
  have := (List.nodup_append.mp (List.nodup_append.mp h.nodup).2.1).2.2
  exact this p hq p (by simp [hp]) rfl

/-- Buffers are only moved: the places before and behind a step hold the same buffers. -/
theorem move {net' : Net} {l' held' : List Nat} (h : Pool net l held)
    (hchain : Chain net'.pbufs.next net'.pbufs.head l')
    (hperm : (l' ++ (net'.qfifo.map Prod.fst ++ (held' ++ net'.free))).Perm
      (l ++ (net.qfifo.map Prod.fst ++ (held ++ net.free))))
    (hlive : ∀ p ∈ l' ++ (net'.qfifo.map Prod.fst ++ held'), net'.refcount p = 1) :
    Pool net' l' held' :=
  ⟨hchain, hperm.trans h.perm, hlive⟩

/-- At first every buffer is free. -/
theorem init (refcount : Nat → Nat) (packet : Nat → Packet) (next : Nat → Option Nat)
    (addr netmask : Nat) : Pool (cspInit refcount packet next addr netmask) [] [] where
  chain := chain_nil.mpr rfl
  perm := by simp only [cspInit, List.map_nil, List.nil_append, List.Perm.refl]
  live := by simp only [cspInit, List.map_nil, List.nil_append, List.not_mem_nil, false_imp_iff,
    implies_true]

/-- The invariant does not depend on the contents of the packets, nor on the counters. -/
theorem congr {net' : Net} (h : Pool net l held) (hrefcount : net'.refcount = net.refcount)
    (hfree : net'.free = net.free) (hpbufs : net'.pbufs = net.pbufs)
    (hqfifo : net'.qfifo = net.qfifo) : Pool net' l held := by
  obtain ⟨hchain, hperm, hlive⟩ := h
  exact ⟨by rwa [hpbufs], by rwa [hqfifo, hfree], by rwa [hqfifo, hrefcount]⟩

/-! ## §2 Taking and freeing buffers -/

/-- `csp_buffer_get` hands out the first free buffer. -/
theorem get (h : Pool net l held) {p : Nat} {rest : List Nat} (hfree : net.free = p :: rest) :
    Pool (cspBufferGet net).1 l (p :: held) := by
  have hp : p ∈ net.free := by simp [hfree]
  rw [cspBufferGet, hfree]
  refine h.move h.chain ?_ ?_
  · show (l ++ (net.qfifo.map Prod.fst ++ (p :: held ++ rest))).Perm _
    rw [hfree]
    have hmiddle : (p :: held ++ rest).Perm (held ++ p :: rest) := List.perm_middle.symm
    exact (hmiddle.append_left _).append_left l
  · intro q hq
    show Function.update net.refcount p 1 q = 1
    by_cases hqp : q = p
    · rw [hqp, Function.update_self]
    · rw [Function.update_of_ne hqp]
      apply h.live
      simpa [hqp] using hq

/-- What freeing a buffer does when it is in somebody's hands. -/
theorem free_eq (h : Pool net l held) {p : Nat} (hp : p ∈ held) :
    cspBufferFree net p =
      { net with refcount := Function.update net.refcount p 0, free := net.free ++ [p] } := by
  have hlive : net.refcount p = 1 := h.live p (by simp [hp])
  have hlen : net.free.length < CSP_BUFFER_COUNT := by
    have := h.length_eq
    have : 0 < held.length := List.length_pos_of_mem hp
    omega
  simp [cspBufferFree, hlive, hlen]

/-- `csp_buffer_free` of a buffer in somebody's hands. -/
theorem free (h : Pool net l held) {p : Nat} {held' : List Nat} (hheld : held = p :: held') :
    Pool (cspBufferFree net p) l held' := by
  subst hheld
  have hnodup := h.nodup
  rw [h.free_eq (by simp)]
  refine h.move h.chain ?_ ?_
  · refine (List.Perm.append_left _ ?_).append_left l
    calc held' ++ (net.free ++ [p])
        = (held' ++ net.free) ++ [p] := (List.append_assoc ..).symm
      _ ~ [p] ++ (held' ++ net.free) := List.perm_append_comm
      _ = p :: held' ++ net.free := by simp
  · intro q hq
    have hqp : q ≠ p := by
      rintro rfl
      simp only [List.nodup_append, List.nodup_cons, List.mem_append, List.mem_cons] at hnodup hq
      obtain ⟨-, ⟨-, ⟨⟨hnot, -⟩, -⟩, hqueue⟩, hlist⟩ := hnodup
      rcases hq with hq | hq | hq
      · exact hlist q hq q (by simp) rfl
      · exact hqueue q hq q (by simp) rfl
      · exact hnot hq
    show Function.update net.refcount p 0 q = 1
    rw [Function.update_of_ne hqp]
    apply h.live
    simp only [List.mem_append, List.mem_cons] at hq ⊢
    tauto

/-- A number of buffers are freed one after the other. -/
theorem freeAll {ps held' : List Nat} (h : Pool net l (ps ++ held')) :
    Pool (ps.foldl cspBufferFree net) l held' := by
  induction ps generalizing net with
  | nil => exact h
  | cons p ps ih => exact ih (h.free rfl)

/-- What is in the pool is left alone by freeing. -/
theorem freeAll_eq {ps held' : List Nat} (h : Pool net l (ps ++ held')) :
    ∃ refcount, ps.foldl cspBufferFree net = { net with refcount, free := net.free ++ ps } := by
  induction ps generalizing net with
  | nil => exact ⟨net.refcount, by simp⟩
  | cons p ps ih =>
    have hfree := h.free_eq (p := p) (by simp)
    obtain ⟨refcount, heq⟩ := ih (h.free rfl)
    refine ⟨refcount, ?_⟩
    rw [List.foldl_cons, heq, hfree]
    simp

/-! ## §3 The queue of the router -/

/-- `csp_qfifo_write` with a place in the queue. -/
theorem enqueue_eq {p : Nat} (hroom : net.qfifo.length < CSP_QFIFO_LEN) :
    cspQfifoWrite net p = { net with qfifo := net.qfifo ++ [(p, .can)] } := by
  rw [cspQfifoWrite, if_pos hroom]

/-- `csp_qfifo_write`: the packet is queued, or freed. -/
theorem qfifoWrite (h : Pool net l held) {p : Nat} {held' : List Nat} (hheld : held = p :: held') :
    Pool (cspQfifoWrite net p) l held' := by
  subst hheld
  by_cases hroom : net.qfifo.length < CSP_QFIFO_LEN
  · rw [enqueue_eq hroom]
    refine h.move h.chain ?_ ?_
    · show (l ++ ((net.qfifo ++ [(p, IfaceName.can)]).map Prod.fst ++ (held' ++ net.free))).Perm _
      simp
    · intro q hq
      apply h.live
      simp only [List.map_append, List.mem_append, List.map_cons, List.map_nil, List.mem_cons] at hq ⊢
      tauto
  · rw [cspQfifoWrite, if_neg hroom]
    have hcounted : Pool { net with
        dbgConnOvf := net.dbgConnOvf + 1
        can := { net.can with drop := net.can.drop + 1 } } l (p :: held') :=
      h.congr rfl rfl rfl rfl
    exact hcounted.free rfl

/-- `csp_qfifo_read`: the packet is in the hands of the router. -/
theorem qfifoRead (h : Pool net l held) {p : Nat} {iface : IfaceName}
    {rest : List (Nat × IfaceName)} (hqfifo : net.qfifo = (p, iface) :: rest) :
    Pool { net with qfifo := rest } l (p :: held) := by
  refine h.move h.chain ?_ ?_
  · rw [hqfifo]
    show (l ++ (rest.map Prod.fst ++ (p :: (held ++ net.free)))).Perm
      (l ++ (p :: (rest.map Prod.fst ++ (held ++ net.free))))
    exact List.perm_middle.append_left l
  · intro q hq
    apply h.live
    rw [hqfifo]
    simp only [List.map_cons, List.mem_append, List.mem_cons] at hq ⊢
    tauto

/-- It does not matter in which order buffers are held. -/
theorem held_perm {held' : List Nat} (h : Pool net l held) (hperm : held'.Perm held) :
    Pool net l held' := by
  refine h.move h.chain ?_ ?_
  · exact ((hperm.append_right _).append_left _).append_left l
  · intro q hq
    apply h.live
    simpa only [List.mem_append, hperm.mem_iff] using hq

/-! ## §4 The list of half received packets -/

/-- Taking a packet out of the list. -/
theorem unlink (h : Pool net l held) {p : Nat} (hp : p ∈ l) :
    ∃ pbufs, Links.sweep (· == p) CSP_BUFFER_COUNT net.pbufs none net.pbufs.head =
        some (pbufs, [p]) ∧
      Pool { net with pbufs } (l.erase p) (p :: held) := by
  obtain ⟨pbufs, hsweep, hchain, -⟩ := Links.sweep_spec (· == p) h.chain h.chain_length
  have hone : l.filter (· == p) = [p] := by
    rw [List.filter_beq, List.count_eq_one_of_mem h.chain.nodup hp, List.replicate_one]
  rw [hone] at hsweep
  rw [unlink_single h.chain.nodup] at hchain
  refine ⟨pbufs, hsweep, h.move hchain ?_ ?_⟩
  · calc l.erase p ++ (net.qfifo.map Prod.fst ++ (p :: held ++ net.free))
        ~ l.erase p ++ (p :: (net.qfifo.map Prod.fst ++ (held ++ net.free))) :=
          List.Perm.append_left _ List.perm_middle
      _ ~ p :: l.erase p ++ (net.qfifo.map Prod.fst ++ (held ++ net.free)) := List.perm_middle
      _ ~ l ++ (net.qfifo.map Prod.fst ++ (held ++ net.free)) :=
          (List.perm_cons_erase hp).symm.append_right _
  · intro q hq
    apply h.live
    simp only [List.mem_append, List.mem_cons] at hq ⊢
    rcases hq with hq | hq | rfl | hq
    · exact Or.inl (List.mem_of_mem_erase hq)
    · exact Or.inr (Or.inl hq)
    · exact Or.inl hp
    · exact Or.inr (Or.inr hq)

/-- "Insert at beginning". -/
theorem insert (h : Pool net l held) {p : Nat} {held' : List Nat} (hheld : held = p :: held') :
    Pool { net with pbufs := ⟨some p, Function.update net.pbufs.next p net.pbufs.head⟩ }
      (p :: l) held' := by
  subst hheld
  refine h.move (h.chain.push (h.held_not_mem (by simp))) ?_ ?_
  · calc p :: l ++ (net.qfifo.map Prod.fst ++ (held' ++ net.free))
        ~ l ++ (p :: (net.qfifo.map Prod.fst ++ (held' ++ net.free))) := List.perm_middle.symm
      _ ~ l ++ (net.qfifo.map Prod.fst ++ (p :: held' ++ net.free)) :=
          List.Perm.append_left _ List.perm_middle.symm
  · intro q hq
    apply h.live
    simp only [List.mem_append, List.mem_cons] at hq ⊢
    tauto

/-- What comes of the list and of the buffers when every packet that satisfies `del` is swept
    out of the list and freed. -/
theorem sweepFree (h : Pool net l held) (del : Nat → Bool) :
    ∃ pbufs refcount, Links.sweep del CSP_BUFFER_COUNT net.pbufs none net.pbufs.head =
        some (pbufs, l.filter del) ∧
      (l.filter del).foldl cspBufferFree { net with pbufs } =
        { net with pbufs, refcount, free := net.free ++ l.filter del } ∧
      Chain pbufs.next pbufs.head (Channels.unlink del l) ∧
      ∀ p ∈ (l.filter fun p => !del p) ++ (net.qfifo.map Prod.fst ++ held), refcount p = 1 := by
  obtain ⟨pbufs, hsweep, hchain, -⟩ := Links.sweep_spec del h.chain h.chain_length
  have hsplit := List.filter_append_perm del l
  -- the list is forgotten: all of its packets are in the hands of the loop
  have hheld : Pool { net with pbufs := ⟨none, net.pbufs.next⟩ } []
      (l.filter del ++ (l.filter (fun p => !del p) ++ held)) := by
    refine h.move rfl ?_ ?_
    · calc [] ++ (net.qfifo.map Prod.fst ++ (l.filter del ++
            (l.filter (fun p => !del p) ++ held) ++ net.free))
          = net.qfifo.map Prod.fst ++ ((l.filter del ++ l.filter (fun p => !del p)) ++
            (held ++ net.free)) := by simp
        _ ~ net.qfifo.map Prod.fst ++ (l ++ (held ++ net.free)) :=
            (hsplit.append_right _).append_left _
        _ = (net.qfifo.map Prod.fst ++ l) ++ (held ++ net.free) := (List.append_assoc ..).symm
        _ ~ (l ++ net.qfifo.map Prod.fst) ++ (held ++ net.free) :=
            List.perm_append_comm.append_right _
        _ = l ++ (net.qfifo.map Prod.fst ++ (held ++ net.free)) := List.append_assoc ..
    · intro q hq
      apply h.live
      simp only [List.nil_append, List.mem_append, List.mem_filter] at hq ⊢
      tauto
  obtain ⟨refcount, hfold⟩ := freeAll_eq hheld
  have hpool := freeAll hheld
  have hsame := foldl_cspBufferFree_pbufs (l.filter del)
    { net with pbufs := ⟨none, net.pbufs.next⟩ } pbufs
  rw [hfold] at hsame hpool
  refine ⟨pbufs, refcount, hsweep, hsame, hchain, fun p hp => hpool.live p ?_⟩
  simp only [List.nil_append, List.mem_append] at hp ⊢
  tauto

/-- The pool after a sweep that has met no two neighbours to take out. -/
theorem swept (h : Pool net l held) {del : Nat → Bool} (hsparse : Sparse del l)
    {pbufs : Links Nat} {refcount : Nat → Nat}
    (hchain : Chain pbufs.next pbufs.head (Channels.unlink del l))
    (hlive : ∀ p ∈ (l.filter fun p => !del p) ++ (net.qfifo.map Prod.fst ++ held),
      refcount p = 1) :
    Pool { net with pbufs, refcount, free := net.free ++ l.filter del }
      (l.filter fun p => !del p) held := by
  have hsplit := List.filter_append_perm del l
  rw [unlink_of_sparse hsparse] at hchain
  refine h.move hchain ?_ hlive
  calc l.filter (fun p => !del p) ++
        (net.qfifo.map Prod.fst ++ (held ++ (net.free ++ l.filter del)))
      = l.filter (fun p => !del p) ++
        ((net.qfifo.map Prod.fst ++ (held ++ net.free)) ++ l.filter del) := by simp
    _ ~ l.filter (fun p => !del p) ++
        (l.filter del ++ (net.qfifo.map Prod.fst ++ (held ++ net.free))) :=
        List.perm_append_comm.append_left _
    _ = (l.filter (fun p => !del p) ++ l.filter del) ++
        (net.qfifo.map Prod.fst ++ (held ++ net.free)) := by simp
    _ ~ l ++ (net.qfifo.map Prod.fst ++ (held ++ net.free)) :=
        (List.perm_append_comm.trans hsplit).append_right _

/-- What a cleanup comes to, whatever has timed out. -/
theorem cleanup_eq (h : Pool net l held) (now : Nat) :
    ∃ pbufs refcount, cspCanPbufCleanup net now =
        some { net with pbufs, refcount, free := net.free ++ l.filter (expired net now) } ∧
      Chain pbufs.next pbufs.head (Channels.unlink (expired net now) l) ∧
      ∀ p ∈ (l.filter fun p => !expired net now p) ++ (net.qfifo.map Prod.fst ++ held),
        refcount p = 1 := by
  obtain ⟨pbufs, refcount, hsweep, hfold, hchain, hlive⟩ := h.sweepFree (expired net now)
  refine ⟨pbufs, refcount, ?_, hchain, hlive⟩
  rw [cspCanPbufCleanup, hsweep]
  exact congrArg some hfold

/-- A cleanup that meets no two neighbours that have timed out. -/
theorem cleanup (h : Pool net l held) {now : Nat} (hsparse : Sparse (expired net now) l) :
    ∃ pbufs refcount, cspCanPbufCleanup net now =
        some { net with pbufs, refcount, free := net.free ++ l.filter (expired net now) } ∧
      Pool { net with pbufs, refcount, free := net.free ++ l.filter (expired net now) }
        (l.filter fun p => !expired net now p) held := by
  obtain ⟨pbufs, refcount, heq, hchain, hlive⟩ := h.cleanup_eq now
  exact ⟨pbufs, refcount, heq, h.swept hsparse hchain hlive⟩

end Pool

/-- A cleanup leaves every buffer in one place exactly when no two neighbours of the list have
    timed out. -/
theorem cleanup_keeps_iff {net : Net} {l held : List Nat} (h : Pool net l held) (now : Nat) :
    (∃ net' l', cspCanPbufCleanup net now = some net' ∧ Pool net' l' held) ↔
      Sparse (expired net now) l := by
  constructor
  · rintro ⟨net', l', heq, hpool⟩
    obtain ⟨pbufs, refcount, heq', hchain, -⟩ := h.cleanup_eq now
    rw [heq, Option.some.injEq] at heq'
    subst heq'
    have hl' := hpool.chain.unique hchain
    refine unlink_clean_iff.mp fun p hp => ?_
    have hmem : p ∈ l := unlink_subset _ _ p hp
    by_contra hexpired
    have hfree : p ∈ net.free ++ l.filter (expired net now) :=
      List.mem_append_right _ (List.mem_filter.mpr ⟨hmem, by simpa using hexpired⟩)
    exact hpool.not_mem_free (hl' ▸ hp) hfree
  · intro hsparse
    obtain ⟨pbufs, refcount, heq, hpool⟩ := h.cleanup hsparse
    exact ⟨_, _, heq, hpool⟩

/-- A cleanup leaves every buffer in one place exactly when no two neighbours of the list have
    timed out.  Of two that have, the second is among the free buffers behind it, and in the list
    all the same. -/
theorem cleanup_pool_iff {net : Net} {l held : List Nat} (h : Pool net l held) (now : Nat) :
    ((∃ net' l', cspCanPbufCleanup net now = some net' ∧ Pool net' l' held) ↔
      Sparse (expired net now) l) ∧
    ∀ front a b back, l = front ++ a :: b :: back →
      (∀ p ∈ front.getLast?, expired net now p = false) →
      expired net now a = true → expired net now b = true →
        ∃ net' l', cspCanPbufCleanup net now = some net' ∧
          Chain net'.pbufs.next net'.pbufs.head l' ∧ b ∈ l' ∧ b ∈ net'.free := by
  refine ⟨cleanup_keeps_iff h now, fun front a b back hl hfront ha hb => ?_⟩
  obtain ⟨pbufs, refcount, heq, hchain, -⟩ := h.cleanup_eq now
  refine ⟨_, _, heq, hchain, ?_, ?_⟩
  · rw [hl]
    exact mem_unlink_second hfront ha
  · apply List.mem_append_right
    rw [List.mem_filter]
    exact ⟨by simp [hl], hb⟩

/-- The state in front of the first packet. -/
def emptyNet : Net :=
  cspInit (fun _ => 0) (fun _ => ⟨0, 0, 0, 0, 0, 0, 0, idClear, fun _ => 0⟩) (fun _ => none) 3 8

theorem emptyNet_pool : Pool emptyNet [] [] := by
  rw [emptyNet]
  exact Pool.init ..

/-- Three half received packets; the one in the middle has had no frame for long. -/
def agedNet : Net :=
  { emptyNet with
    refcount := fun p => if p < 3 then 1 else 0
    packet := fun p => { emptyNet.packet p with lastUsed := if p = 1 then 100 else 1400 }
    free := List.range' 3 997
    pbufs := ⟨some 2, fun p => if p = 2 then some 1 else if p = 1 then some 0 else none⟩ }

theorem agedNet_pool : Pool agedNet [2, 1, 0] [] where
  chain := by simp [agedNet]
  perm := by
    have hall : List.range CSP_BUFFER_COUNT = [0, 1, 2] ++ List.range' 3 997 := by
      rw [CSP_BUFFER_COUNT, List.range_eq_range']
      exact (List.range'_append_1 (s := 0) (m := 3) (n := 997)).symm
    rw [hall]
    exact List.Perm.append_right _ (by decide)
  live := by
    intro p hp
    have hlt : p = 2 ∨ p = 1 ∨ p = 0 := by simpa [agedNet, emptyNet, cspInit] using hp
    rcases hlt with rfl | rfl | rfl <;> rfl

/-- At 1500 ms the packet in the middle goes; at 3000 ms it is freed and stays. -/
theorem cleanup_pool_iff_aged :
    (∃ net' l', cspCanPbufCleanup agedNet 1500 = some net' ∧ Pool net' l' []) ∧
      ∃ net' l', cspCanPbufCleanup agedNet 3000 = some net' ∧
        Chain net'.pbufs.next net'.pbufs.head l' ∧ 1 ∈ l' ∧ 1 ∈ net'.free := by
  constructor
  · apply (cleanup_pool_iff agedNet_pool 1500).1.mpr
    simp [Sparse, expired, agedNet, PBUF_TIMEOUT_MS]
  · exact (cleanup_pool_iff agedNet_pool 3000).2 [] 2 1 [0] rfl (by simp) (by decide) (by decide)

end AppSysManager.Csp
