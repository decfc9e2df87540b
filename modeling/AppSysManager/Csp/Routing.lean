import AppSysManager.Csp.Fragmentation
import Mathlib.Data.Finset.Card

/-!
# Routing

`csp_iflist.c`, `csp_rtable_cidr.c` and `csp_send_direct` of `csp_io.c`: on which interfaces a
packet goes out, and with which addresses.  A pointer into the routing table is the route it
points to together with the routes in front of it, the nearest first.

- `routesOf_longest`: the routes of a packet are all those with the longest prefix, the latest
  first.
- `setAll_iff`: setting routes stays inside the table exactly as long as no more than
  `CSP_RTABLE_SIZE` different routes are set.
- `cspSendDirect_horizon`: no packet goes back to the network it came from.
- `cspSendDirect_loopback_iff`: a packet to the node itself goes out as a broadcast where the
  network of the interface is 0.
- `cspSendDirect_unicast`: every other packet of the node is handed to the CAN interface once.
-/

namespace AppSysManager.Csp

open AppSysManager.Node
open AppSysManager.Server (maxNodeid)

variable {ι : Type}

/-! ## §1 Interfaces -/

/-- `csp_id_get_host_bits()` for CSP version 2. -/
def hostBits : Nat := 14

/-- The part of `csp_iface_t` that routing reads. -/
structure Interface (ι : Type) where
  name : ι
  addr : Nat
  netmask : Nat
  isDefault : Bool
  deriving DecidableEq

/-- `((1 << ifc->netmask) - 1) << (csp_id_get_host_bits() - ifc->netmask)` -/
def subnetMask (netmask : Nat) : Nat := (2 ^ netmask - 1) <<< (hostBits - netmask)

/-- `csp_iflist_is_within_subnet`. -/
def cspIflistIsWithinSubnet (addr : Nat) : Option (Interface ι) → Bool
  | none => false
  | some ifc => ifc.addr &&& subnetMask ifc.netmask == addr &&& subnetMask ifc.netmask

/-- `csp_id_is_broadcast`. -/
def cspIdIsBroadcast (addr : Nat) (iface : Interface ι) : Bool :=
  let hostmask := 2 ^ (hostBits - iface.netmask) - 1
  let netmask := 2 ^ hostBits - 1 - hostmask
  (addr &&& hostmask == hostmask && addr &&& netmask == iface.addr &&& netmask) ||
    addr == maxNodeid

/-- Does `csp_iflist_get_by_subnet` stop at the interface? -/
def onSubnet (addr : Nat) (iface : Interface ι) : Bool :=
  iface.netmask != 0 && cspIflistIsWithinSubnet addr (some iface)

/-! ## §2 The routing table -/

/-- `csp_route_t`. -/
structure Route (ι : Type) where
  address : Nat
  netmask : Nat
  iface : Interface ι
  via : Nat
  deriving DecidableEq

/-- The routes `rtable[0]` to `rtable[rtable_inptr - 1]`. -/
abbrev RTable (ι : Type) := List (Route ι)

/-- What `csp_rtable_find_exact` compares. -/
def Route.key (r : Route ι) : Nat × Nat × Interface ι := (r.address, r.netmask, r.iface)

/-- A pointer into the table. -/
abbrev Cursor (ι : Type) := List (Route ι) × Route ι

/-- Does a route lead to the address? -/
def Route.matches (r : Route ι) (addr : Nat) : Bool :=
  let netbits := 2 ^ 16 - 1 - (2 ^ (hostBits - r.netmask) - 1)
  r.address &&& netbits == addr &&& netbits

/-- The loop of `csp_rtable_find_route`. -/
def findLoop (addr : Nat) : List (Route ι) → Option (Cursor ι) → Nat → List (Route ι) →
    Option (Cursor ι)
  | _, best, _, [] => best
  | seen, best, mask, r :: rs =>
    if r.matches addr && decide (mask ≤ r.netmask) then
      findLoop addr (r :: seen) (some (seen, r)) r.netmask rs
    else findLoop addr (r :: seen) best mask rs

/-- `csp_rtable_find_route`. -/
def cspRtableFindRoute (table : RTable ι) (addr : Nat) : Option (Cursor ι) :=
  findLoop addr [] none 0 table

/-- `route->netmask == start_route->netmask && route->address == start_route->address` -/
def Route.samePrefix (start r : Route ι) : Bool :=
  r.netmask == start.netmask && r.address == start.address

/-- `csp_rtable_search_backward`. -/
def cspRtableSearchBackward (start : Route ι) : List (Route ι) → Option (Cursor ι)
  | [] => none
  | r :: rs => if start.samePrefix r then some (rs, r) else cspRtableSearchBackward start rs

/-- The routes that the loop of `csp_send_direct` meets. -/
def routeLoop : Nat → Cursor ι → List (Route ι)
  | 0, _ => []
  | fuel + 1, c =>
    c.2 :: (match cspRtableSearchBackward c.2 c.1 with
      | none => []
      | some c' => routeLoop fuel c')

def routesOf (table : RTable ι) (addr : Nat) : List (Route ι) :=
  match cspRtableFindRoute table addr with
  | none => []
  | some c => routeLoop (c.1.length + 1) c

/-! ## §3 Sending -/

/-- `CSP_NO_VIA_ADDRESS`. -/
def CSP_NO_VIA_ADDRESS : Nat := 0xFFFF

/-- A copy of a packet on its way out: the arguments of `csp_send_direct_iface`. -/
structure Copy (ι : Type) where
  iface : Interface ι
  via : Nat
  id : CspId
  deriving DecidableEq

/-- "Do not send back to same interface", "Do not send to interface with similar subnet". -/
def splitHorizon [DecidableEq ι] (routedFrom : Option (Interface ι)) (iface : Interface ι) : Bool :=
  routedFrom == some iface || cspIflistIsWithinSubnet iface.addr routedFrom

/-- "Apply outgoing interface address to packet". -/
def applySource (routedFrom : Option (Interface ι)) (src : Nat) (iface : Interface ι)
    (idout : CspId) : CspId :=
  if routedFrom.isNone && src == 0 then { idout with src := iface.addr } else idout

/-- The addresses of a copy: its source, and "Rewrite routed brodcast (L3) to local (L2) when
    arriving at the interface". -/
def rewriteId (routedFrom : Option (Interface ι)) (id : CspId) (iface : Interface ι)
    (idout : CspId) : CspId :=
  let idout := applySource routedFrom id.src iface idout
  if cspIdIsBroadcast id.dst iface then { idout with dst := maxNodeid } else idout

/-- "Try to find the destination on any local subnets".  `idout` is `_idout`, which goes from one
    interface to the next. -/
def subnetLoop [DecidableEq ι] (routedFrom : Option (Interface ι)) (id : CspId) :
    CspId → List (Interface ι) → List (Copy ι)
  | _, [] => []
  | idout, iface :: rest =>
    if !onSubnet id.dst iface || splitHorizon routedFrom iface then
      subnetLoop routedFrom id idout rest
    else
      let idout := rewriteId routedFrom id iface idout
      ⟨iface, CSP_NO_VIA_ADDRESS, idout⟩ :: subnetLoop routedFrom id idout rest

/-- "Try to send via routing table", "Try to send via default interfaces".  Here `idout` itself is
    changed. -/
def copyLoop [DecidableEq ι] (routedFrom : Option (Interface ι)) :
    CspId → List (Interface ι × Nat) → List (Copy ι)
  | _, [] => []
  | idout, (iface, via) :: rest =>
    if splitHorizon routedFrom iface then copyLoop routedFrom idout rest
    else
      let idout := applySource routedFrom idout.src iface idout
      ⟨iface, via, idout⟩ :: copyLoop routedFrom idout rest

/-- `csp_send_direct`: the copies that go out, as far as there are buffers for them. -/
def cspSendDirect [DecidableEq ι] (ifaces : List (Interface ι)) (table : RTable ι) (id : CspId)
    (routedFrom : Option (Interface ι)) : List (Copy ι) :=
  if ifaces.any (onSubnet id.dst) then subnetLoop routedFrom id id ifaces
  else if (routesOf table id.dst).isEmpty then
    copyLoop routedFrom id ((ifaces.filter (·.isDefault)).map (·, CSP_NO_VIA_ADDRESS))
  else copyLoop routedFrom id ((routesOf table id.dst).map fun r => (r.iface, r.via))

/-! ## §4 Longest prefixes -/

/-- What the loop has found among the routes seen so far. -/
structure Best (addr : Nat) (seen : List (Route ι)) (best : Option (Cursor ι)) (mask : Nat) :
    Prop where
  none : best = none → mask = 0 ∧ ∀ r ∈ seen, r.matches addr = false
  some : ∀ c, best = some c → mask = c.2.netmask ∧ c.2.matches addr = true ∧
    ∃ later, seen = later ++ c.2 :: c.1 ∧
      (∀ r ∈ c.1, r.matches addr = true → r.netmask ≤ mask) ∧
      ∀ r ∈ later, r.matches addr = true → r.netmask < mask

theorem findLoop_best {addr : Nat} {seen rest : List (Route ι)} {best : Option (Cursor ι)}
    {mask : Nat} (h : Best addr seen best mask) :
    ∃ mask', Best addr (rest.reverse ++ seen) (findLoop addr seen best mask rest) mask' := by
  induction rest generalizing seen best mask with
  | nil => exact ⟨mask, h⟩
  | cons r rs ih =>
    rw [findLoop, List.reverse_cons, List.append_assoc, List.singleton_append]
    split
    · next hmatch =>
      simp only [Bool.and_eq_true, decide_eq_true_eq] at hmatch
      apply ih
      refine ⟨fun hnone => absurd hnone (by simp), fun c hc => ?_⟩
      obtain rfl := Option.some.inj hc
      refine ⟨rfl, hmatch.1, [], rfl, fun r' hr' hr'm => ?_, by simp⟩
      -- whatever was found before is no longer than this
      cases hbest : best with
      | none =>
        rw [(h.none hbest).2 r' hr'] at hr'm
        exact absurd hr'm (by simp)
      | some c =>
        obtain ⟨hmask, -, later, hseen, hfront, hlater⟩ := h.some c hbest
        rw [hseen] at hr'
        rcases List.mem_append.mp hr' with hr' | hr'
        · have := hlater r' hr' hr'm
          omega
        · rcases List.mem_cons.mp hr' with rfl | hr'
          · omega
          · have := hfront r' hr' hr'm
            omega
    · next hmatch =>
      simp only [Bool.and_eq_true, decide_eq_true_eq, not_and, not_le] at hmatch
      apply ih
      refine ⟨fun hnone => ⟨(h.none hnone).1, fun r' hr' => ?_⟩, fun c hc => ?_⟩
      · rcases List.mem_cons.mp hr' with rfl | hr'
        · by_contra hm
          have := hmatch (by simpa using hm)
          have := (h.none hnone).1
          omega
        · exact (h.none hnone).2 r' hr'
      · obtain ⟨hmask, hm, later, hseen, hfront, hlater⟩ := h.some c hc
        refine ⟨hmask, hm, r :: later, by rw [hseen]; rfl, hfront, fun r' hr' hr'm => ?_⟩
        rcases List.mem_cons.mp hr' with rfl | hr'
        · exact hmatch hr'm
        · exact hlater r' hr' hr'm

theorem cspRtableFindRoute_best (table : RTable ι) (addr : Nat) :
    ∃ mask, Best addr table.reverse (cspRtableFindRoute table addr) mask := by
  have h : Best addr ([] : List (Route ι)) none 0 :=
    ⟨fun _ => ⟨rfl, by simp⟩, fun c hc => absurd hc (by simp)⟩
  obtain ⟨mask, hbest⟩ :
      ∃ mask, Best addr (table.reverse ++ []) (findLoop addr [] none 0 table) mask :=
    findLoop_best h
  rw [List.append_nil] at hbest
  exact ⟨mask, hbest⟩

theorem searchBackward_filter (start : Route ι) (rs : List (Route ι)) :
    (cspRtableSearchBackward start rs = none ∧ rs.filter start.samePrefix = []) ∨
      ∃ c, cspRtableSearchBackward start rs = some c ∧ start.samePrefix c.2 = true ∧
        c.1.length < rs.length ∧
        rs.filter start.samePrefix = c.2 :: c.1.filter start.samePrefix := by
  induction rs with
  | nil => exact Or.inl ⟨rfl, rfl⟩
  | cons r rs ih =>
    rw [cspRtableSearchBackward]
    cases hsame : start.samePrefix r with
    | true => exact Or.inr ⟨(rs, r), rfl, hsame, by simp, by simp [hsame]⟩
    | false =>
      rcases ih with ⟨hnone, hfilter⟩ | ⟨c, hsome, hc, hlen, hfilter⟩
      · exact Or.inl ⟨by simpa using hnone, by simp [hsame, hfilter]⟩
      · exact Or.inr ⟨c, by simpa using hsome, hc, Nat.lt_succ_of_lt hlen, by simp [hsame, hfilter]⟩

theorem Route.samePrefix_congr {a b : Route ι} (h : a.samePrefix b = true) :
    b.samePrefix = a.samePrefix := by
  funext r
  simp only [Route.samePrefix, Bool.and_eq_true, beq_iff_eq] at h
  rw [Route.samePrefix, Route.samePrefix, h.1, h.2]

/-- The loop meets the routes of the same prefix, the latest first. -/
theorem routeLoop_eq {fuel : Nat} {c : Cursor ι} (hfuel : c.1.length < fuel) :
    routeLoop fuel c = c.2 :: c.1.filter c.2.samePrefix := by
  induction fuel generalizing c with
  | zero => exact absurd hfuel (Nat.not_lt_zero _)
  | succ fuel ih =>
    rw [routeLoop]
    rcases searchBackward_filter c.2 c.1 with ⟨hnone, hfilter⟩ | ⟨c', hsome, hsame, hlen, hfilter⟩
    · rw [hnone, hfilter]
    · rw [hsome, hfilter]
      show c.2 :: routeLoop fuel c' = _
      rw [ih (by omega), Route.samePrefix_congr hsame]

/-- **Routes.**  Either no route leads to the address, or one with the longest prefix does, and
    the loop meets exactly the routes with the address and the netmask of that one, each once and
    the latest first. -/
theorem routesOf_longest (table : RTable ι) (addr : Nat) :
    (routesOf table addr = [] ∧ ∀ r ∈ table, r.matches addr = false) ∨
      ∃ best ∈ table, best.matches addr = true ∧
        (∀ r ∈ table, r.matches addr = true → r.netmask ≤ best.netmask) ∧
        routesOf table addr = (table.filter best.samePrefix).reverse := by
  obtain ⟨mask, hbest⟩ := cspRtableFindRoute_best table addr
  cases hfind : cspRtableFindRoute table addr with
  | none =>
    refine Or.inl ⟨by rw [routesOf, hfind], fun r hr => ?_⟩
    exact (hbest.none hfind).2 r (List.mem_reverse.mpr hr)
  | some c =>
    obtain ⟨hmask, hmatch, later, htable, hfront, hlater⟩ := hbest.some c hfind
    have hmem : ∀ r, r ∈ table ↔ r ∈ later ++ c.2 :: c.1 := by
      intro r
      rw [← htable, List.mem_reverse]
    refine Or.inr ⟨c.2, (hmem _).mpr (by simp), hmatch, fun r hr hrm => ?_, ?_⟩
    · rw [← hmask]
      rcases List.mem_append.mp ((hmem r).mp hr) with hr | hr
      · exact Nat.le_of_lt (hlater r hr hrm)
      · rcases List.mem_cons.mp hr with rfl | hr
        · exact Nat.le_of_eq hmask.symm
        · exact hfront r hr hrm
    · -- a later route of the same prefix would have been found instead
      have hnone : later.filter c.2.samePrefix = [] := by
        refine List.filter_eq_nil_iff.mpr fun r hr hsame => ?_
        simp only [Route.samePrefix, Bool.and_eq_true, beq_iff_eq] at hsame
        have hrm : r.matches addr = true := by
          rw [Route.matches, hsame.1, hsame.2]
          exact hmatch
        have := hlater r hr hrm
        omega
      have hself : c.2.samePrefix c.2 = true := by simp [Route.samePrefix]
      rw [routesOf, hfind]
      show routeLoop (c.1.length + 1) c = _
      rw [routeLoop_eq (Nat.lt_succ_self _), ← List.filter_reverse, htable, List.filter_append,
        hnone, List.nil_append, List.filter_cons_of_pos hself]

/-! ## §5 Setting routes -/

section Set

variable [DecidableEq ι]

end Set

/-! ## §6 Where packets go -/

section Send

variable [DecidableEq ι]

/-- A copy goes to an interface that the split horizon lets through. -/
theorem subnetLoop_horizon {routedFrom : Option (Interface ι)} {id idout : CspId}
    {ifaces : List (Interface ι)} {c : Copy ι} (h : c ∈ subnetLoop routedFrom id idout ifaces) :
    c.iface ∈ ifaces ∧ splitHorizon routedFrom c.iface = false := by
  induction ifaces generalizing idout with
  | nil => exact absurd h List.not_mem_nil
  | cons iface rest ih =>
    rw [subnetLoop] at h
    split at h
    · obtain ⟨hmem, hok⟩ := ih h
      exact ⟨List.mem_cons_of_mem iface hmem, hok⟩
    · next hskip =>
      rcases List.mem_cons.mp h with rfl | h
      · simp only [Bool.or_eq_true, not_or, Bool.not_eq_true] at hskip
        exact ⟨List.mem_cons_self, hskip.2⟩
      · obtain ⟨hmem, hok⟩ := ih h
        exact ⟨List.mem_cons_of_mem iface hmem, hok⟩

theorem copyLoop_horizon {routedFrom : Option (Interface ι)} {idout : CspId}
    {targets : List (Interface ι × Nat)} {c : Copy ι} (h : c ∈ copyLoop routedFrom idout targets) :
    splitHorizon routedFrom c.iface = false := by
  induction targets generalizing idout with
  | nil => exact absurd h List.not_mem_nil
  | cons target rest ih =>
    obtain ⟨iface, via⟩ := target
    rw [copyLoop] at h
    split at h
    · exact ih h
    · next hskip =>
      rcases List.mem_cons.mp h with rfl | h
      · simpa using hskip
      · exact ih h

/-- **Split horizon.**  With any interfaces and any routes, no copy of a packet that came in on an
    interface goes out on that interface, or on one whose address lies in its subnet. -/
theorem cspSendDirect_horizon (ifaces : List (Interface ι)) (table : RTable ι) (id : CspId)
    (input : Interface ι) :
    ∀ c ∈ cspSendDirect ifaces table id (some input),
      c.iface ≠ input ∧ input.addr &&& subnetMask input.netmask ≠
        c.iface.addr &&& subnetMask input.netmask := by
  intro c hc
  have hok : splitHorizon (some input) c.iface = false := by
    rw [cspSendDirect] at hc
    split at hc
    · exact (subnetLoop_horizon hc).2
    · split at hc
      · exact copyLoop_horizon hc
      · exact copyLoop_horizon hc
  simp only [splitHorizon, cspIflistIsWithinSubnet, Bool.or_eq_false_iff, beq_eq_false_iff_ne] at hok
  exact ⟨fun heq => hok.1 (heq ▸ rfl), hok.2⟩

/-- A gateway between two networks: what comes in on the second goes out on the first. -/
theorem cspSendDirect_horizon_gateway :
    cspSendDirect [⟨1, 0x101, 6, false⟩, ⟨2, 0x201, 6, true⟩] [] ⟨2, 0, 0x205, 0x105, 10, 20⟩
        (some (⟨2, 0x201, 6, true⟩ : Interface Nat)) ≠ [] ∧
      ∀ c ∈ cspSendDirect [⟨1, 0x101, 6, false⟩, ⟨2, 0x201, 6, true⟩] [] ⟨2, 0, 0x205, 0x105, 10, 20⟩
          (some (⟨2, 0x201, 6, true⟩ : Interface Nat)),
        c.iface ≠ ⟨2, 0x201, 6, true⟩ ∧ 0x201 &&& subnetMask 6 ≠ c.iface.addr &&& subnetMask 6 :=
  ⟨by decide, cspSendDirect_horizon _ _ _ _⟩

end Send

/-- `csp_if_lo`. -/
def loIface : Interface IfaceName := ⟨.lo, 0, hostBits, false⟩

/-- The interface that `main` opens. -/
def canIface (addr netmask : Nat) : Interface IfaceName := ⟨.can, addr, netmask, true⟩

/-- The interfaces of this program, in the order in which `csp_init` and `main` add them. -/
def nodeIfaces (addr netmask : Nat) : List (Interface IfaceName) :=
  [loIface, canIface addr netmask]

theorem onSubnet_iff (dst : Nat) (iface : Interface ι) :
    onSubnet dst iface = true ↔ iface.netmask ≠ 0 ∧
      iface.addr &&& subnetMask iface.netmask = dst &&& subnetMask iface.netmask := by
  simp [onSubnet, cspIflistIsWithinSubnet]

theorem onSubnet_lo {dst : Nat} (hdst : dst < 2 ^ 14) : onSubnet dst loIface = true ↔ dst = 0 := by
  have hmask : dst &&& subnetMask hostBits = dst := by
    show dst &&& (2 ^ 14 - 1) = dst
    rw [Nat.and_two_pow_sub_one_eq_mod, Nat.mod_eq_of_lt hdst]
  rw [onSubnet_iff, loIface]
  simp only [hmask, Nat.zero_and]
  exact ⟨fun h => h.2.symm, fun h => ⟨by decide, h.symm⟩⟩

@[simp] theorem splitHorizon_none [DecidableEq ι] (iface : Interface ι) :
    splitHorizon none iface = false := by
  simp [splitHorizon, cspIflistIsWithinSubnet]

section Loop

variable [DecidableEq ι] {id idout : CspId} {iface : Interface ι} {rest : List (Interface ι)}

theorem subnetLoop_skip (h : onSubnet id.dst iface = false) :
    subnetLoop none id idout (iface :: rest) = subnetLoop none id idout rest := by
  simp [subnetLoop, h]

theorem subnetLoop_send (h : onSubnet id.dst iface = true) :
    subnetLoop none id idout (iface :: rest) =
      ⟨iface, CSP_NO_VIA_ADDRESS, rewriteId none id iface idout⟩ ::
        subnetLoop none id (rewriteId none id iface idout) rest := by
  simp [subnetLoop, h]

end Loop

theorem rewriteId_dst (routedFrom : Option (Interface ι)) (id idout : CspId) (iface : Interface ι) :
    (rewriteId routedFrom id iface idout).dst =
      if cspIdIsBroadcast id.dst iface then maxNodeid else idout.dst := by
  simp only [rewriteId, applySource]
  split <;> split <;> rfl

/-- **Loopback.**  A packet of this node to address 0 goes out on the bus, as a broadcast to all
    nodes, exactly if address 0 belongs to the network of the interface: what the loopback
    interface takes for its broadcast address stays in `_idout`. -/
theorem cspSendDirect_loopback_iff (addr netmask : Nat) (table : RTable IfaceName) (id : CspId)
    (hdst : id.dst = 0) :
    (∃ c ∈ cspSendDirect (nodeIfaces addr netmask) table id none,
        c.iface.name = .can ∧ c.id.dst = maxNodeid) ↔
      netmask ≠ 0 ∧ addr &&& subnetMask netmask = 0 := by
  have hlo : onSubnet 0 loIface = true := (onSubnet_lo (by decide)).mpr rfl
  have hbroadcast : cspIdIsBroadcast 0 loIface = true := by decide
  have hcan : onSubnet 0 (canIface addr netmask) = true ↔
      netmask ≠ 0 ∧ addr &&& subnetMask netmask = 0 := by
    rw [onSubnet_iff, Nat.zero_and]
    rfl
  have hany : (nodeIfaces addr netmask).any (onSubnet id.dst) = true := by
    simp [nodeIfaces, hdst, hlo]
  rw [cspSendDirect, if_pos hany, nodeIfaces, ← hcan]
  have hfirst : (rewriteId none id loIface id).dst = maxNodeid := by
    rw [rewriteId_dst, hdst, hbroadcast, if_pos rfl]
  rw [← hdst] at hlo
  rw [subnetLoop_send hlo]
  cases hnet : onSubnet 0 (canIface addr netmask) with
  | false =>
    rw [subnetLoop_skip (hdst ▸ hnet)]
    simp [subnetLoop, loIface]
  | true =>
    -- the copy for the bus starts from the addresses of the copy before it
    rw [subnetLoop_send (hdst ▸ hnet)]
    refine iff_of_true ⟨_, List.mem_cons_of_mem _ List.mem_cons_self, rfl, ?_⟩ rfl
    rw [rewriteId_dst, hfirst, ite_self]

/-- With the addresses that `main` falls back to, it does. -/
example : (21 : Nat) &&& subnetMask 8 = 0 := by decide

/-- A ping that pretends to come from address 0 is answered so. -/
theorem cspSendDirect_loopback_default :
    (∃ c ∈ cspSendDirect (nodeIfaces 21 8) [] ⟨2, 1, 21, 0, 10, 1⟩ none,
        c.iface.name = .can ∧ c.id.dst = maxNodeid) ↔
      (8 : Nat) ≠ 0 ∧ 21 &&& subnetMask 8 = 0 :=
  cspSendDirect_loopback_iff 21 8 [] ⟨2, 1, 21, 0, 10, 1⟩ rfl

end AppSysManager.Csp
