import AppSysManager.Bytes.Store
import AppSysManager.Csp.RdpMoves

/-!
# Two Ends and a Network

Two nodes and a connection between them.  The network may lose what one of them sends, hold it back,
hand it over in another order, or several times; other connections of both nodes do what they like.

- `opening_linked`: both ends know each other once the client has heard the answer.
- `reads_in_order`: what a task reads is what the other task has sent, in that order and no more.
- `nothing_lost`: what has been sent has arrived, or will be sent again.
- `within_window`: no end runs ahead of the other one by more than the window.
- `empty_stalls`: nothing gets past data without bytes.
-/

namespace AppSysManager.Csp

open AppSysManager.Bytes AppSysManager.Channels SharedQueue Serial

/-! ## §1 Segments on their way -/

/-- A number of `n` bytes comes back from memory. -/
theorem ofNat_loadBE {mem : Mem} {off : Int} {n w : Nat} (hw : 256 ^ n = 2 ^ w) (x : BitVec w)
    (h : Holds mem off (bytesBE n x.toNat)) : BitVec.ofNat w (loadBE mem off n) = x := by
  rw [loadBE_of_holds h, hw, Nat.mod_eq_of_lt x.isLt, BitVec.ofNat_toNat, BitVec.setWidth_eq]

/-- A segment comes back from its bytes. -/
theorem Segment.ofBytes_bytes (seg : Segment) : Segment.ofBytes seg.bytes = some seg := by
  have hlen : seg.bytes.length = seg.data.length + 5 := by
    simp only [bytes, List.length_append, bytesBE_length]
  have hholds := holds_ofList 0 seg.bytes
  rw [bytes, holds_append, holds_append, holds_append, bytesBE_length, bytesBE_length,
    ← bytes] at hholds
  obtain ⟨-, hflags, hseq, hack⟩ := hholds
  rw [Nat.cast_one] at hseq hack
  have hheader : (seg.bytes.length : Int) - 5 = 0 + seg.data.length := by omega
  rw [ofBytes, if_neg (by omega)]
  simp only [hheader]
  have hdata : seg.bytes.take (seg.bytes.length - 5) = seg.data := by
    rw [hlen, Nat.add_sub_cancel, bytes, List.take_left]
  have hoff : (0 : Int) + seg.data.length + 3 = 0 + seg.data.length + 1 + (2 : Nat) := by omega
  rw [ofNat_loadBE (by decide) _ hflags, ofNat_loadBE (by decide) _ hseq, hdata, hoff,
    ofNat_loadBE (by decide) _ hack]

/-- The options come back from the data of a SYN segment, whatever the buffer held before. -/
theorem Options.load_bytes (o : Options) (mem : Mem) (rest : List UInt8)
    (h : Holds mem 0 (o.bytes ++ rest)) : Options.load mem = o := by
  rw [bytes] at h
  simp only [List.append_assoc, holds_append, bytesBE_length] at h
  obtain ⟨h₀, h₄, h₈, h₁₂, h₁₆, h₂₀, -⟩ := h
  norm_num only [Nat.cast_ofNat] at h₄ h₈ h₁₂ h₁₆ h₂₀
  rw [load, ofNat_loadBE (by decide) _ h₀, ofNat_loadBE (by decide) _ h₄,
    ofNat_loadBE (by decide) _ h₈, ofNat_loadBE (by decide) _ h₁₂, ofNat_loadBE (by decide) _ h₁₆,
    ofNat_loadBE (by decide) _ h₂₀]

/-! ## §2 The link -/

/-- The end that asks for the connection, and the one that is asked. -/
inductive Side where
  | client
  | server
  deriving DecidableEq

def Side.other : Side → Side
  | .client => .server
  | .server => .client

@[simp] theorem Side.other_other (side : Side) : side.other.other = side := by cases side <;> rfl

theorem Side.other_ne (side : Side) : side.other ≠ side := by cases side <;> decide

/-- The two nodes. -/
abbrev Nodes := Side → Stack

/-- What happens to a connection that has the number `conn side` at each of its ends. -/
inductive LinkEvent where
  /-- Something happens at a node, to this or to another connection. -/
  | node (side : Side) (a : Ambient) (ev : RdpEvent)
  /-- The network hands over one of the segments that the other end has sent. -/
  | deliver (side : Side) (a : Ambient) (junk : Mem) (i : Nat)

section Link

variable (conn : Side → Nat)

/-- What an end has sent. -/
def sentBy (nodes : Nodes) (side : Side) : List Segment := mine (conn side) (nodes side).wire

/-- One event. -/
def linkStep (nodes : Nodes) : LinkEvent → Nodes
  | .node side a ev => Function.update nodes side ((nodes side).step a ev)
  | .deliver side a junk i =>
    match ((sentBy conn nodes side.other)[i]?).bind fun seg => Segment.ofBytes seg.bytes with
    | none => nodes
    | some seg => Function.update nodes side ((nodes side).step a (.arrive (conn side) junk seg))

/-- Segments of this connection come from the network only. -/
def LinkEvent.Fair (nodes : Nodes) : LinkEvent → Prop
  | .node side a ev => ev.conn = conn side → ev.Local a (nodes side)
  | .deliver .. => True

/-- A run. -/
inductive Reaches (nodes : Nodes) : Nodes → Prop
  | refl : Reaches nodes nodes
  | step {nodes' : Nodes} {ev : LinkEvent} :
      Reaches nodes nodes' → ev.Fair conn nodes' → Reaches nodes (linkStep conn nodes' ev)

/-- An end of the connection. -/
def endConn (nodes : Nodes) (side : Side) : Conn := (nodes side).conns (conn side)

/-- The end as the other one sees it. -/
def peerOf (nodes : Nodes) (side : Side) : Peer where
  iss := (endConn conn nodes side).sndIss
  given := (endConn conn nodes side).given
  received := (endConn conn nodes side).handed.length

/-- The invariant of the link: that of both ends. -/
structure Linked (nodes : Nodes) : Prop where
  fits : ∀ side, Fits (nodes side)
  ends : ∀ side, End (peerOf conn nodes side.other) (conn side) (nodes side)

end Link

variable {conn : Side → Nat} {nodes nodes' : Nodes}

/-! ## §3 Every run -/

theorem linkStep_deliver {side : Side} {i : Nat} {seg : Segment}
    (hseg : (sentBy conn nodes side.other)[i]? = some seg) (a : Ambient) (junk : Mem) :
    linkStep conn nodes (.deliver side a junk i) =
      Function.update nodes side ((nodes side).step a (.arrive (conn side) junk seg)) := by
  rw [linkStep, hseg, Option.bind_some, Segment.ofBytes_bytes]

/-- A segment that one end has sent arrives at the other one. -/
theorem Linked.arrives (h : Linked conn nodes) {side : Side} {seg : Segment}
    (hseg : seg ∈ sentBy conn nodes side.other) :
    Arrives (peerOf conn nodes side.other) (endConn conn nodes side).sndIss seg := by
  have hother := h.ends side.other
  rw [Side.other_other] at hother
  obtain ⟨⟨n, hseq, hle, hdata⟩, hack⟩ := hother.wire seg hseg
  refine ⟨fun hsyn hne => ?_, fun hflag => ?_⟩
  · obtain ⟨m, rfl, hm⟩ := hdata hsyn hne
    exact ⟨hne, m, hm, hseq⟩
  · obtain ⟨k, hk, hnr⟩ := hack hflag
    exact ⟨k, hk, hnr.trans (congrArg (nth · k) hother.irs)⟩

/-- Both ends go on. -/
def NodesGrow (conn : Side → Nat) (nodes nodes' : Nodes) : Prop :=
  ∀ side, Grows (endConn conn nodes side).view (endConn conn nodes' side).view

theorem nodesGrow_update {side : Side} {s : Stack}
    (hgrows : Grows (endConn conn nodes side).view (s.conns (conn side)).view) :
    NodesGrow conn nodes (Function.update nodes side s) := by
  intro side'
  by_cases hside : side' = side
  · rw [hside, endConn, endConn, Function.update_self]
    exact hgrows
  · rw [endConn, endConn, Function.update_of_ne hside]
    exact Grows.refl _

/-- One node makes a step, and the other end still fits to it. -/
theorem Linked.update (h : Linked conn nodes) {side : Side} {s : Stack} (hfits : Fits s)
    (hend : End (peerOf conn nodes side.other) (conn side) s)
    (hgrows : Grows (endConn conn nodes side).view (s.conns (conn side)).view) :
    Linked conn (Function.update nodes side s) ∧
      NodesGrow conn nodes (Function.update nodes side s) := by
  refine ⟨?_, nodesGrow_update hgrows⟩
  have hne := side.other_ne
  have hsame : peerOf conn (Function.update nodes side s) side.other = peerOf conn nodes side.other := by
    rw [peerOf, endConn, Function.update_of_ne hne, ← endConn, ← peerOf]
  refine ⟨fun side' => ?_, fun side' => ?_⟩
  · by_cases hside : side' = side
    · rw [hside, Function.update_self]
      exact hfits
    · rw [Function.update_of_ne hside]
      exact h.fits side'
  · by_cases hside : side' = side
    · rw [hside, hsame, Function.update_self]
      exact hend
    · obtain rfl : side' = side.other := by
        revert hside
        cases side <;> cases side' <;> decide
      have hother := h.ends side.other
      rw [Side.other_other] at hother ⊢
      have hpeer : peerOf conn (Function.update nodes side s) side =
          ⟨(s.conns (conn side)).sndIss, (s.conns (conn side)).given,
            (s.conns (conn side)).handed.length⟩ := by
        rw [peerOf, endConn, Function.update_self]
      rw [hpeer, Function.update_of_ne hne]
      apply hother.peer
      · exact hgrows.iss
      · exact hgrows.given
      · exact hgrows.handed.length_le
      · exact hend.handed.length_le
      · exact hend.short

theorem Linked.moves (h : Linked conn nodes) {side : Side} {s : Stack}
    (hmoves : Moves (peerOf conn nodes side.other) (conn side) (nodes side) s) :
    Linked conn (Function.update nodes side s) ∧
      NodesGrow conn nodes (Function.update nodes side s) := by
  obtain ⟨hend, hgrows⟩ := hmoves.keeps (h.ends side)
  exact h.update hmoves.fits hend hgrows

theorem Linked.step (h : Linked conn nodes) {ev : LinkEvent} (hfair : ev.Fair conn nodes) :
    Linked conn (linkStep conn nodes ev) ∧ NodesGrow conn nodes (linkStep conn nodes ev) := by
  cases ev with
  | node side a ev =>
    by_cases hconn : ev.conn = conn side
    · apply h.moves
      rw [← hconn]
      exact Stack.step_moves (h.fits side) a (hfair hconn)
    · -- another connection
      obtain ⟨hfits, hapart⟩ := Stack.step_apart (h.fits side) a ev
      have hne : conn side ≠ ev.conn := Ne.symm hconn
      apply h.update hfits ((h.ends side).apart hapart hne)
      rw [endConn, hapart.conns _ hne]
      exact Grows.refl _
  | deliver side a junk i =>
    cases hseg : (sentBy conn nodes side.other)[i]? with
    | none =>
      rw [linkStep, hseg]
      exact ⟨h, fun _ => Grows.refl _⟩
    | some seg =>
      rw [linkStep_deliver hseg]
      apply h.moves
      exact rdpArrive_moves (h.fits side) a junk (h.arrives (List.mem_of_getElem? hseg))

/-- The network and the readers are free to do what they like. -/
theorem Reaches.deliver (hreach : Reaches conn nodes nodes') (side : Side) (a : Ambient)
    (junk : Mem)
    (i : Nat) : Reaches conn nodes (linkStep conn nodes' (.deliver side a junk i)) :=
  hreach.step trivial

theorem Reaches.read (hreach : Reaches conn nodes nodes') (side : Side) (a : Ambient) (c : Nat) :
    Reaches conn nodes (linkStep conn nodes' (.node side a (.read c))) :=
  hreach.step fun _ => trivial

theorem Reaches.linked (hreach : Reaches conn nodes nodes') (h : Linked conn nodes) :
    Linked conn nodes' ∧ NodesGrow conn nodes nodes' := by
  induction hreach with
  | refl => exact ⟨h, fun _ => Grows.refl _⟩
  | step _ hfair ih =>
    obtain ⟨hlinked, hgrows⟩ := ih
    obtain ⟨hlinked', hgrows'⟩ := hlinked.step hfair
    exact ⟨hlinked', fun side => (hgrows side).trans (hgrows' side)⟩

/-! ## §4 How a connection comes about -/

section Opening

variable {c : Nat} {s : Stack} {seg : Segment} {dflt : Options}

/-- The upper half of the flags does not matter. -/
theorem has_cmp (incr flags : BitVec 8) (seqNr ackNr : BitVec 16) (data : List UInt8)
    {flag : BitVec 8} (h : flag = RDP_SYN ∨ flag = RDP_ACK ∨ flag = RDP_RST) :
    Segment.has ⟨incr <<< 4 ||| flags, seqNr, ackNr, data⟩ flag = (flags &&& flag != 0) := by
  have hincr : incr <<< 4 &&& flag = 0 := by
    rcases h with rfl | rfl | rfl <;> revert incr <;> decide
  have hflags : (incr <<< 4 ||| flags) &&& flag = flags &&& flag := by
    rw [BitVec.and_or_distrib_right, hincr]
    exact BitVec.zero_or
  rw [Segment.has, hflags]

/-- The notes about an acknowledgement are all that changes. -/
theorem cspRdpSendCmp_conn (a : Ambient) (c : Nat) (packet : Option (List UInt8)) (flags : BitVec 8)
    (seqNr ackNr : BitVec 16) (s : Stack) :
    ∃ lsa t, (cspRdpSendCmp a c packet flags seqNr ackNr s).1.conns c =
      { s.conns c with rcvLsa := lsa, ackTimestamp := t } := by
  rw [cspRdpSendCmp]
  split
  · exact ⟨_, _, rfl⟩
  simp only
  split
  · exact ⟨_, _, rfl⟩
  split
  · refine ⟨ackNr, a.ms 1, ?_⟩
    simp only [update_self]
    split <;> rfl
  · refine ⟨(s.conns c).rcvLsa, (s.conns c).ackTimestamp, ?_⟩
    split <;> rfl

/-- A SYN segment has gone out, and a copy of it may be in the queue. -/
structure SynSent (c : Nat) (seg : Segment) (s s' : Stack) : Prop where
  fits : Fits s'
  wire : mine c s'.wire = mine c s.wire ++ [seg]
  rxq : s'.rxq = s.rxq
  txq : ∀ x ∈ mine c s'.txq, x ∈ mine c s.txq ∨ x.1 = seg

theorem cspRdpSendCmp_syn (hfits : Fits s) {a : Ambient} (hbuffer : ∀ i, a.buffer i = true)
    {flags : BitVec 8} (hsyn : (flags &&& RDP_SYN != 0) = true) (packet : Option (List UInt8))
    (seqNr ackNr : BitVec 16) :
    (cspRdpSendCmp a c packet flags seqNr ackNr s).2 = true ∧
      SynSent c ⟨s.incr <<< 4 ||| flags, seqNr, ackNr, packet.getD []⟩ s
        (cspRdpSendCmp a c packet flags seqNr ackNr s).1 := by
  rw [cspRdpSendCmp]
  simp only [hbuffer, hsyn, Bool.not_true, Bool.and_false, Bool.false_eq_true, if_false, if_true]
  let seg : Segment := ⟨s.incr <<< 4 ||| flags, seqNr, ackNr, packet.getD []⟩
  let s₁ : Stack := (cspRdpQueueTxAdd { s with incr := s.incr + 1 } c seg (a.ms 0)).emit c seg
  -- the segment is on the wire, and in the queue if that has a place
  have hsent : SynSent c seg s s₁ := by
    refine ⟨⟨hfits.rxq, add_length_le hfits.txq _⟩, ?_, rfl, fun x hx => ?_⟩
    · change mine c (s.wire ++ [(c, seg)]) = _
      rw [mine_append, mine_cons_self, mine_nil]
    · replace hx : x ∈ mine c (add RDP_QUEUE_LEN s.txq (c, seg, a.ms 0)) := hx
      rw [add] at hx
      split at hx
      · rw [mine_append, mine_cons_self, mine_nil, List.mem_append, List.mem_singleton] at hx
        exact hx.imp_right fun hx => by rw [hx]
      · exact Or.inl hx
  change ((if flags &&& RDP_ACK != 0 then _ else (s₁, true) : Stack × Bool)).2 = true ∧
    SynSent c seg s (if flags &&& RDP_ACK != 0 then _ else (s₁, true) : Stack × Bool).1
  split
  · exact ⟨rfl, ⟨hsent.fits.rxq, hsent.fits.txq⟩, hsent.wire, hsent.rxq, hsent.txq⟩
  · exact ⟨rfl, hsent⟩

/-- Nothing of the connection is left at a node. -/
structure Free (c : Nat) (s : Stack) : Prop where
  fits : Fits s
  closed : (s.conns c).isOpen = false ∧ (s.conns c).state = .closed
  rxq : mine c s.rxq = []
  txq : mine c s.txq = []
  wire : mine c s.wire = []

/-- The first number of the connection that a task asks for. -/
def Ambient.iss (a : Ambient) : BitVec 16 := a.rand (a.ms 2)

/-- The connection of the client as its task leaves it. -/
def Conn.ask (a : Ambient) (dflt : Options) (conn : Conn) : Conn :=
  { conn with
    isOpen := true
    timestamp := a.ms 0
    rxQueue := []
    destSocket := false
    given := []
    handed := []
    taken := []
    opts := dflt
    ackTimestamp := a.ms 1
    sndIss := a.iss
    sndNxt := a.iss + 1
    sndUna := a.iss
    state := .synSent }

/-- The client waits for the answer to `seg`. -/
structure Asking (a : Ambient) (dflt : Options) (c : Nat) (seg : Segment) (s : Stack) : Prop where
  fits : Fits s
  conn : ∃ conn lsa t, s.conns c = { Conn.ask a dflt conn with rcvLsa := lsa, ackTimestamp := t }
  rxq : mine c s.rxq = []
  txq : ∀ x ∈ mine c s.txq, x.1 = seg
  wire : mine c s.wire = [seg]
  seqNr : seg.seqNr = a.iss
  flags : seg.has RDP_SYN = true ∧ seg.has RDP_ACK = false ∧ seg.has RDP_RST = false
  data : seg.data = dflt.bytes

/-- `csp_connect` when the SYN segment can be sent. -/
theorem step_connect {a : Ambient} (hclosed : (s.conns c).isOpen = false)
    (hsent : (cspRdpSendSyn ((a.later 1).later 2) c (s.update c (Conn.ask a dflt))).2 = true) :
    s.step a (.connect c dflt) =
      (cspRdpSendSyn ((a.later 1).later 2) c (s.update c (Conn.ask a dflt))).1 := by
  rw [Stack.step, if_neg (by rw [hclosed]; decide), cspRdpConnect, cspConnNew, update_update]
  generalize hs₁ : s.update c _ = s₁
  have hs₁' : s.update c (Conn.ask a dflt) = s₁ := hs₁
  rw [hs₁'] at hsent ⊢
  generalize cspRdpSendSyn _ c s₁ = r at hsent ⊢
  obtain ⟨s₂, ok⟩ := r
  obtain rfl : ok = true := hsent
  rfl

theorem connect_asking (h : Free c s) {a : Ambient} (hbuffer : ∀ i, a.buffer i = true)
    (dflt : Options) : ∃ seg, Asking a dflt c seg (s.step a (.connect c dflt)) := by
  have hconn : (s.update c (Conn.ask a dflt)).conns c = (s.conns c).ask a dflt := update_self ..
  -- there is a buffer for the SYN segment, and another one for its copy
  have hfirst : ((a.later 1).later 2).buffer 0 = true := hbuffer _
  have hsyn : cspRdpSendSyn ((a.later 1).later 2) c (s.update c (Conn.ask a dflt)) =
      cspRdpSendCmp (((a.later 1).later 2).later 1) c (some dflt.bytes) RDP_SYN a.iss 0
        (s.update c (Conn.ask a dflt)) := by
    rw [cspRdpSendSyn, hfirst, Bool.not_true, if_neg Bool.false_ne_true, hconn]
    rfl
  obtain ⟨hok, hsent⟩ := cspRdpSendCmp_syn (c := c) (update_fits h.fits c (Conn.ask a dflt))
    (a := ((a.later 1).later 2).later 1) (fun _ => hbuffer _)
    (by decide : (RDP_SYN &&& RDP_SYN != 0) = true) (some dflt.bytes) a.iss 0
  obtain ⟨lsa, t, hconn₂⟩ := cspRdpSendCmp_conn (((a.later 1).later 2).later 1) c (some dflt.bytes)
    RDP_SYN a.iss 0 (s.update c (Conn.ask a dflt))
  rw [step_connect h.closed.1 (by rw [hsyn]; exact hok), hsyn]
  refine ⟨⟨s.incr <<< 4 ||| RDP_SYN, a.iss, 0, dflt.bytes⟩, hsent.fits,
    ⟨s.conns c, lsa, t, hconn₂.trans (by rw [hconn])⟩, ?_, fun x hx => ?_, hsent.wire.trans ?_, rfl,
    ⟨?_, ?_, ?_⟩, rfl⟩
  · rw [hsent.rxq]
    exact h.rxq
  · apply (hsent.txq x hx).resolve_left
    change x ∉ mine c s.txq
    rw [h.txq]
    exact List.not_mem_nil
  · change mine c s.wire ++ _ = _
    rw [h.wire, List.nil_append]
    rfl
  · rw [has_cmp _ _ _ _ _ (Or.inl rfl)]
    decide
  · rw [has_cmp _ _ _ _ _ (Or.inr (Or.inl rfl))]
    decide
  · rw [has_cmp _ _ _ _ _ (Or.inr (Or.inr rfl))]
    decide

theorem short_nil : Short [] := Nat.one_lt_two_pow (by decide)

/-- An end that has sent and received nothing but SYN segments. -/
theorem EndOf.fresh {iss irs una window : BitVec 16} {tx : List (Segment × BitVec 32)}
    {wire : List Segment} (huna : una = iss ∨ una = iss + 1)
    (htx : ∀ x ∈ tx, Genuine iss irs [] 0 x.1) (hwire : ∀ seg ∈ wire, Genuine iss irs [] 0 seg) :
    EndOf ⟨irs, [], 0⟩ ⟨true, true, [], iss + 1, una, iss, irs, irs, window, [], [], []⟩ [] tx wire where
  alive := fun _ => rfl
  short := short_nil
  peerShort := short_nil
  irs := rfl
  cur := (nth_zero irs).symm
  handed := List.prefix_refl _
  nonempty := nofun
  early := nofun
  waits := fun _ => rfl
  taken := List.prefix_refl _
  nxt := ((nth_succ iss 0).trans (congrArg (· + 1) (nth_zero iss))).symm
  heard := Nat.le_refl _
  una := by
    rcases huna with rfl | rfl
    · exact ⟨0, Nat.zero_le _, (nth_zero una).symm⟩
    · exact ⟨1, Nat.le_refl _, ((nth_succ iss 0).trans (congrArg (· + 1) (nth_zero iss))).symm⟩
  flow := fun _ _ => Nat.zero_le _
  wire := hwire
  queue := htx
  kept := fun _ m data hm => absurd hm (by simp)

/-- A SYN segment without an acknowledgement is genuine, whoever the other end is. -/
theorem genuine_syn {iss irs : BitVec 16} (hseq : seg.seqNr = iss) (hsyn : seg.has RDP_SYN = true)
    (hack : seg.has RDP_ACK = false) : Genuine iss irs [] 0 seg where
  numbered := ⟨0, hseq.trans (nth_zero iss).symm, Nat.zero_le _, fun h => by simp [hsyn] at h⟩
  ackNr := fun h => by simp [hack] at h

/-- The connection of the server once the SYN segment `seg` has come. -/
def Conn.answer (a a' : Ambient) (dflt : Options) (seg : Segment) (conn : Conn) : Conn :=
  { conn with
    isOpen := true
    timestamp := a.ms 0
    rxQueue := []
    destSocket := true
    given := []
    handed := []
    taken := []
    sndIss := a'.rand (a'.ms 0)
    sndNxt := a'.rand (a'.ms 0) + 1
    sndUna := a'.rand (a'.ms 0)
    rcvCur := seg.seqNr
    rcvIrs := seg.seqNr
    rcvLsa := seg.seqNr
    opts := dflt
    state := .synRcvd }

/-- The server has answered `seg` with `seg'`. -/
structure Answering (dflt : Options) (c : Nat) (seg seg' : Segment) (s : Stack) : Prop where
  fits : Fits s
  keeps : End ⟨seg.seqNr, [], 0⟩ c s
  state : (s.conns c).state = .synRcvd
  opts : (s.conns c).opts = dflt
  given : (s.conns c).given = []
  wire : mine c s.wire = [seg']
  seqNr : seg'.seqNr = (s.conns c).sndIss
  ackNr : seg'.ackNr = seg.seqNr
  flags : seg'.has RDP_SYN = true ∧ seg'.has RDP_ACK = true ∧ seg'.has RDP_RST = false

theorem accept_answering (h : Free c s) (a : Ambient) {a' : Ambient}
    (hbuffer : ∀ i, a'.buffer i = true) (junk : Mem)
    (hflags : seg.has RDP_SYN = true ∧ seg.has RDP_ACK = false ∧ seg.has RDP_RST = false)
    (hdata : seg.data = dflt.bytes) :
    ∃ seg', Answering dflt c seg seg' ((s.step a (.accept c)).step a' (.arrive c junk seg)) := by
  -- the data of the SYN segment are the options, whatever the buffer held before
  have hopts : Options.load (store junk 0 seg.inMemory) = dflt := by
    have hholds := holds_window (store junk 0 seg.inMemory) 0 seg.inMemory.length
    rw [window_store_self] at hholds
    rw [Segment.inMemory, hdata] at hholds
    rw [Segment.inMemory, hdata]
    exact Options.load_bytes _ _ _ hholds
  have haccept : s.step a (.accept c) = cspConnNew a true c s := by
    rw [Stack.step, if_neg (by rw [h.closed.1]; decide)]
  have hopen : ((cspConnNew a true c s).conns c).isOpen = true := by rw [cspConnNew, update_self]
  have hstate : ((cspConnNew a true c s).conns c).state = .closed := by
    rw [cspConnNew, update_self]
    exact h.closed.2
  rw [haccept, Stack.step, rdpArrive, hopen, Bool.not_true, if_neg Bool.false_ne_true, cspRdpNewPacket,
    hflags.2.2, if_neg Bool.false_ne_true, hstate]
  simp only
  rw [closedReceived, hflags.1, Bool.not_true, if_neg Bool.false_ne_true, hopts, cspConnNew]
  simp only [update_update]
  -- `s₁` is the node with the connection set up, and nothing sent yet
  generalize hs₁ : s.update c _ = s₁
  have hconn : s₁.conns c = (s.conns c).answer a a' dflt seg := by
    rw [← hs₁, update_self]
    rfl
  have hfits₁ : Fits s₁ := hs₁ ▸ update_fits h.fits ..
  have hqueues : s₁.rxq = s.rxq ∧ s₁.txq = s.txq ∧ s₁.wire = s.wire := by
    rw [← hs₁]
    exact ⟨rfl, rfl, rfl⟩
  have hfirst : ∀ i, (a'.later 1).buffer i = true := fun _ => hbuffer _
  obtain ⟨-, hsent⟩ := cspRdpSendCmp_syn (c := c) hfits₁ hfirst
    (by decide : (RDP_ACK ||| RDP_SYN) &&& RDP_SYN != 0) none (s₁.conns c).sndIss (s₁.conns c).rcvIrs
  obtain ⟨lsa, t, hconn'⟩ := cspRdpSendCmp_conn (a'.later 1) c none (RDP_ACK ||| RDP_SYN)
    (s₁.conns c).sndIss (s₁.conns c).rcvIrs s₁
  have hmoves : Moves ⟨seg.seqNr, [], 0⟩ c s₁ _ := sendSynAck_moves hfits₁ (a'.later 1)
  -- the invariant starts here: nothing has been sent, received or stored
  have hend : End ⟨seg.seqNr, [], 0⟩ c s₁ := by
    rw [End, hconn, hqueues.1, hqueues.2.1, hqueues.2.2, h.rxq, h.txq, h.wire]
    exact EndOf.fresh (Or.inl rfl) (fun _ hx => absurd hx List.not_mem_nil)
      fun _ hseg => absurd hseg List.not_mem_nil
  obtain ⟨hend', -⟩ := hmoves.keeps hend
  generalize cspRdpSendCmp (a'.later 1) c none _ _ _ s₁ = r at hsent hconn' hend' ⊢
  rw [hconn] at hconn'
  refine ⟨⟨s₁.incr <<< 4 ||| (RDP_ACK ||| RDP_SYN), (s₁.conns c).sndIss, (s₁.conns c).rcvIrs, []⟩,
    hsent.fits, hend', by rw [hconn']; rfl, by rw [hconn']; rfl, by rw [hconn']; rfl,
    hsent.wire.trans ?_, by rw [hconn', hconn], by rw [hconn]; rfl, ?_, ?_, ?_⟩
  · rw [hqueues.2.2, h.wire]
    rfl
  · rw [has_cmp _ _ _ _ _ (Or.inl rfl)]
    decide
  · rw [has_cmp _ _ _ _ _ (Or.inr (Or.inl rfl))]
    decide
  · rw [has_cmp _ _ _ _ _ (Or.inr (Or.inr rfl))]
    decide

/-- The client has heard the answer. -/
structure Opened (dflt : Options) (c : Nat) (seg seg' : Segment) (s : Stack) : Prop where
  keeps : End ⟨seg'.seqNr, [], 0⟩ c s
  fits : Fits s
  state : (s.conns c).state = .opened
  opts : (s.conns c).opts = dflt
  given : (s.conns c).given = []
  iss : (s.conns c).sndIss = seg.seqNr

theorem answer_opened {a : Ambient} {seg' : Segment} (h : Asking a dflt c seg s) (a' : Ambient)
    (junk : Mem) (hack : seg'.ackNr = seg.seqNr)
    (hflags : seg'.has RDP_SYN = true ∧ seg'.has RDP_ACK = true ∧ seg'.has RDP_RST = false) :
    Opened dflt c seg seg' (s.step a' (.arrive c junk seg')) := by
  obtain ⟨conn, lsa, t, hconn⟩ := h.conn
  have hopen : (s.conns c).isOpen = true := by rw [hconn]; rfl
  have hstate : (s.conns c).state = .synSent := by rw [hconn]; rfl
  rw [Stack.step, rdpArrive, hopen, Bool.not_true, if_neg Bool.false_ne_true, cspRdpNewPacket,
    hflags.2.2, if_neg Bool.false_ne_true, hstate]
  simp only
  rw [synSentReceived, hflags.1, hflags.2.1, Bool.and_true, if_pos rfl]
  simp only
  -- `s₁` is the client with the numbers of the answer, before it acknowledges it
  generalize hs₁ : s.update c _ = s₁
  have hfits₁ : Fits s₁ := hs₁ ▸ update_fits h.fits ..
  have hqueues : s₁.rxq = s.rxq ∧ s₁.txq = s.txq ∧ s₁.wire = s.wire := by
    rw [← hs₁]
    exact ⟨rfl, rfl, rfl⟩
  have hconn₁ : ∃ x t', s₁.conns c =
      { Conn.ask a dflt conn with
        rcvCur := seg'.seqNr, rcvIrs := seg'.seqNr, rcvLsa := x, sndUna := a.iss + 1
        ackTimestamp := t', state := .opened } := by
    rw [← hs₁, update_self, hconn, hack, h.seqNr]
    exact ⟨_, _, rfl⟩
  obtain ⟨x, t', hconn₁⟩ := hconn₁
  -- the SYN segment is all that has been sent
  have hsyn : Genuine a.iss seg'.seqNr [] 0 seg := genuine_syn h.seqNr h.flags.1 h.flags.2.1
  have hend : End ⟨seg'.seqNr, [], 0⟩ c s₁ := by
    rw [End, hconn₁, hqueues.1, hqueues.2.1, hqueues.2.2, h.rxq, h.wire]
    refine EndOf.fresh (Or.inr rfl) (fun x hx => ?_) fun seg'' hseg'' => ?_
    · rw [h.txq x hx]
      exact hsyn
    · rw [List.mem_singleton.mp hseg'']
      exact hsyn
  have hmoves : Moves ⟨seg'.seqNr, [], 0⟩ c s₁ _ := sendControl_moves hfits₁ (a'.later 1) RDP_ACK rfl rfl
  obtain ⟨hend', -⟩ := hmoves.keeps hend
  obtain ⟨lsa', t'', hconn'⟩ := cspRdpSendCmp_conn (a'.later 1) c none RDP_ACK
    (s₁.conns c).sndNxt (s₁.conns c).rcvCur s₁
  have hfits' := hmoves.fits
  generalize cspRdpSendCmp (a'.later 1) c none _ _ _ s₁ = r at hfits' hconn' hend' ⊢
  rw [hconn₁] at hconn'
  exact ⟨hend', hfits', by rw [hconn'], by rw [hconn']; rfl, by rw [hconn']; rfl,
    by rw [hconn', h.seqNr]; rfl⟩

end Opening

/-- What the calls meet with which a connection is opened, and the options of the client. -/
structure Opening where
  dflt : Options
  ask : Ambient
  accept : Ambient
  answer : Ambient
  hear : Ambient
  junk : Side → Mem

/-- The client asks for a connection, the server accepts it and answers, and the client hears the
    answer: a handshake of which the network loses nothing. -/
def opening (conn : Side → Nat) (x : Opening) (nodes : Nodes) : Nodes :=
  [.node .client x.ask (.connect (conn .client) x.dflt),
    .node .server x.accept (.accept (conn .server)),
    .deliver .server x.answer (x.junk .server) 0,
    .deliver .client x.hear (x.junk .client) 0].foldl (linkStep conn) nodes

/-- Both SYN segments are on the network by then. -/
theorem opening_eq {x : Opening} {seg seg' : Segment}
    (hseg : mine (conn .client) ((nodes .client).step x.ask (.connect (conn .client) x.dflt)).wire =
      [seg])
    (hseg' : mine (conn .server) (((nodes .server).step x.accept (.accept (conn .server))).step x.answer
      (.arrive (conn .server) (x.junk .server) seg)).wire = [seg']) :
    opening conn x nodes =
      Function.update
        (Function.update
          (Function.update
            (Function.update nodes .client
              ((nodes .client).step x.ask (.connect (conn .client) x.dflt)))
            .server ((nodes .server).step x.accept (.accept (conn .server))))
          .server (((nodes .server).step x.accept (.accept (conn .server))).step x.answer
            (.arrive (conn .server) (x.junk .server) seg)))
        .client (((nodes .client).step x.ask (.connect (conn .client) x.dflt)).step x.hear
          (.arrive (conn .client) (x.junk .client) seg')) := by
  generalize hclient : (nodes .client).step x.ask (.connect (conn .client) x.dflt) = client at hseg ⊢
  generalize hserver : (nodes .server).step x.accept (.accept (conn .server)) = server at hseg' ⊢
  let n₁ : Nodes := Function.update nodes .client client
  let n₂ : Nodes := Function.update n₁ .server server
  have hn₁ : linkStep conn nodes (.node .client x.ask (.connect (conn .client) x.dflt)) = n₁ := by
    rw [linkStep, hclient]
  have hn₂ : linkStep conn n₁ (.node .server x.accept (.accept (conn .server))) = n₂ := by
    have hsame : n₁ .server = nodes .server := Function.update_of_ne (by decide) ..
    rw [linkStep, hsame, hserver]
  -- the SYN segment is the first one that the client has sent
  have hclient₂ : n₂ .client = client :=
    (Function.update_of_ne (by decide) ..).trans (Function.update_self ..)
  have hserver₂ : n₂ .server = server := Function.update_self ..
  have hfirst : (sentBy conn n₂ Side.server.other)[0]? = some seg := by
    rw [sentBy, Side.other, hclient₂, hseg]
    rfl
  have hn₃ := linkStep_deliver hfirst x.answer (x.junk .server)
  rw [hserver₂] at hn₃
  generalize hn : Function.update n₂ .server
    (server.step x.answer (.arrive (conn .server) (x.junk .server) seg)) = n₃ at hn₃ ⊢
  have hserver₃ : n₃ .server = server.step x.answer (.arrive (conn .server) (x.junk .server) seg) := by
    rw [← hn, Function.update_self]
  have hclient₃ : n₃ .client = client := by
    rw [← hn, Function.update_of_ne (by decide), hclient₂]
  have hsecond : (sentBy conn n₃ Side.client.other)[0]? = some seg' := by
    rw [sentBy, Side.other, hserver₃, hseg']
    rfl
  have hn₄ := linkStep_deliver hsecond x.hear (x.junk .client)
  rw [hclient₃] at hn₄
  rw [opening, List.foldl_cons, List.foldl_cons, List.foldl_cons, List.foldl_cons, List.foldl_nil, hn₁,
    hn₂, hn₃, hn₄]

/-- The client asks for a connection at nodes that have nothing left of an earlier one, and there
    are buffers for its segment and for the answer. -/
structure Opening.Heard (conn : Side → Nat) (x : Opening) (nodes : Nodes) : Prop where
  free : ∀ side, Free (conn side) (nodes side)
  ask : ∀ i, x.ask.buffer i = true
  answer : ∀ i, x.answer.buffer i = true

/-- Both ends know each other's numbers then, and work with the options of the client. -/
theorem opening_linked {x : Opening} (h : x.Heard conn nodes) :
    Linked conn (opening conn x nodes) ∧
      (endConn conn (opening conn x nodes) .client).state = .opened ∧
      (endConn conn (opening conn x nodes) .server).state = .synRcvd ∧
      ∀ side, (endConn conn (opening conn x nodes) side).opts = x.dflt ∧
        (endConn conn (opening conn x nodes) side).given = [] := by
  obtain ⟨seg, hasking⟩ := connect_asking (h.free .client) h.ask x.dflt
  obtain ⟨seg', hanswering⟩ := accept_answering (h.free .server) x.accept h.answer (x.junk .server)
    hasking.flags hasking.data
  have hopened := answer_opened hasking x.hear (x.junk .client) hanswering.ackNr hanswering.flags
  have hopening : opening conn x nodes = _ := opening_eq hasking.wire hanswering.wire
  have hpeer : ∀ side, peerOf conn (opening conn x nodes) side = _ := fun side => rfl
  -- only the two ends after their last step matter from here on
  generalize ((nodes .client).step x.ask (.connect (conn .client) x.dflt)).step x.hear
    (.arrive (conn .client) (x.junk .client) seg') = client at hopened hopening
  generalize ((nodes .server).step x.accept (.accept (conn .server))).step x.answer
    (.arrive (conn .server) (x.junk .server) seg) = server at hanswering hopening
  have hclient : opening conn x nodes .client = client := by rw [hopening, Function.update_self]
  have hserver : opening conn x nodes .server = server := by
    rw [hopening, Function.update_of_ne (by decide), Function.update_self]
  have hhanded : ∀ {p : Peer} {c : Nat} {s : Stack}, p.given = [] → End p c s →
      (s.conns c).handed = [] := fun hgiven hend => List.prefix_nil.mp (hgiven ▸ hend.handed)
  refine ⟨⟨fun side => ?_, fun side => ?_⟩, ?_, ?_, fun side => ?_⟩
  · cases side with
    | client => exact hclient ▸ hopened.fits
    | server => exact hserver ▸ hanswering.fits
  · cases side with
    | client =>
      -- each end is an end of what its peer has sent, which is nothing but the SYN
      have hserverPeer : peerOf conn (opening conn x nodes) .server = ⟨seg'.seqNr, [], 0⟩ := by
        rw [peerOf, endConn, hserver, hanswering.given, hhanded rfl hanswering.keeps, hanswering.seqNr]
        rfl
      rw [hclient]
      exact hserverPeer ▸ hopened.keeps
    | server =>
      have hclientPeer : peerOf conn (opening conn x nodes) .client = ⟨seg.seqNr, [], 0⟩ := by
        rw [peerOf, endConn, hclient, hopened.given, hhanded rfl hopened.keeps, hopened.iss]
        rfl
      rw [hserver]
      exact hclientPeer ▸ hanswering.keeps
  · rw [endConn, hclient]
    exact hopened.state
  · rw [endConn, hserver]
    exact hanswering.state
  · cases side with
    | client =>
      rw [endConn, hclient]
      exact ⟨hopened.opts, hopened.given⟩
    | server =>
      rw [endConn, hserver]
      exact ⟨hanswering.opts, hanswering.given⟩

def idleNodes : Nodes := fun _ => idleStack

def calmOpening : Opening := ⟨⟨4, 10000, 1000, 1, 500, 2⟩, calm, calm, calm, calm, fun _ _ => 0⟩

theorem idle_heard : calmOpening.Heard (fun _ => 0) idleNodes :=
  ⟨fun _ => ⟨⟨Nat.zero_le _, Nat.zero_le _⟩, ⟨rfl, rfl⟩, rfl, rfl, rfl⟩, fun _ => rfl, fun _ => rfl⟩

theorem opening_linked_idle :
    Linked (fun _ => 0) (opening (fun _ => 0) calmOpening idleNodes) ∧
      (endConn (fun _ => 0) (opening (fun _ => 0) calmOpening idleNodes) .server).state = .synRcvd :=
  ⟨(opening_linked idle_heard).1, (opening_linked idle_heard).2.2.1⟩

/-! ## §5 What holds in every run -/

section Runs

variable {x : Opening}

/-- The client sends twice, and the network hands over the second segment before the first one. -/
def swapped : List LinkEvent :=
  [.node .client calm (.send 0 [1]), .node .client calm (.send 0 [2]),
    .deliver .server calm (fun _ => 0) 3, .deliver .server calm (fun _ => 0) 2,
    .node .server calm (.read 0), .node .server calm (.read 0)]

def swappedRun : Nodes :=
  swapped.foldl (linkStep fun _ => 0) (opening (fun _ => 0) calmOpening idleNodes)

theorem swapped_reaches :
    Reaches (fun _ => 0) (opening (fun _ => 0) calmOpening idleNodes) swappedRun := by
  have hfirst : LinkEvent.Fair (fun _ => 0) (opening (fun _ => 0) calmOpening idleNodes)
      (.node .client calm (.send 0 [1])) := fun _ => ⟨fun _ => by decide, by unfold Short; decide⟩
  have hsecond : LinkEvent.Fair (fun _ => 0)
      (linkStep (fun _ => 0) (opening (fun _ => 0) calmOpening idleNodes)
        (.node .client calm (.send 0 [1])))
      (.node .client calm (.send 0 [2])) := fun _ => ⟨fun _ => by decide, by unfold Short; decide⟩
  have hsent := (Reaches.refl.step hfirst).step hsecond
  exact (((hsent.deliver .server calm (fun _ => 0) 3).deliver .server calm (fun _ => 0) 2).read .server
    calm 0).read .server calm 0

/-- What a task reads is what the other task has sent: the same data in the same order, none of them
    twice and none left out. -/
theorem reads_in_order (h : x.Heard conn nodes)
    (hreach : Reaches conn (opening conn x nodes) nodes') (side : Side) :
    (endConn conn nodes' side).taken <+: (endConn conn nodes' side.other).given := by
  obtain ⟨hlinked, -⟩ := hreach.linked (opening_linked h).1
  have hend := hlinked.ends side
  exact hend.taken.trans hend.handed

theorem reads_in_order_swapped :
    (endConn (fun _ => 0) swappedRun .server).taken = [[1], [2]] ∧
      (endConn (fun _ => 0) swappedRun .server).taken <+:
        (endConn (fun _ => 0) swappedRun .client).given :=
  ⟨by decide, reads_in_order idle_heard swapped_reaches .server⟩

/-- As long as an end is open, all that its task has sent has been handed over at the other end, or
    will be sent again. -/
theorem nothing_lost (h : x.Heard conn nodes)
    (hreach : Reaches conn (opening conn x nodes) nodes') (side : Side)
    (hopen : (endConn conn nodes' side).isOpen = true) {m : Nat} {data : List UInt8}
    (hgiven : (endConn conn nodes' side).given[m]? = some data) :
    (endConn conn nodes' side.other).handed[m]? = some data ∨
      ∃ y ∈ mine (conn side) (nodes' side).txq,
        y.1.Holds (nth (endConn conn nodes' side).sndIss (m + 1)) data := by
  obtain ⟨hlinked, -⟩ := hreach.linked (opening_linked h).1
  rcases (hlinked.ends side).kept hopen m data hgiven with hheard | hqueued
  · -- what the other end has received is an initial part of what was sent
    have hother := (hlinked.ends side.other).handed
    rw [Side.other_other] at hother
    obtain ⟨rest, hrest⟩ := hother
    refine Or.inl ?_
    replace hrest : (endConn conn nodes' side.other).handed ++ rest = (endConn conn nodes' side).given :=
      hrest
    rwa [← hrest, List.getElem?_append_left hheard] at hgiven
  · exact Or.inr hqueued

theorem nothing_lost_swapped :
    (endConn (fun _ => 0) swappedRun .server).handed[1]? = some [2] ∨
      ∃ y ∈ mine 0 (swappedRun .client).txq,
        y.1.Holds (nth (endConn (fun _ => 0) swappedRun .client).sndIss 2) [2] :=
  nothing_lost idle_heard swapped_reaches .client (by decide) (by decide)

/-- No end runs ahead of the other one by more than the window of the client. -/
theorem within_window (h : x.Heard conn nodes)
    (hreach : Reaches conn (opening conn x nodes) nodes')
    (hpos : 0 < (x.dflt.windowSize.setWidth 16).toNat)
    (hle : (x.dflt.windowSize.setWidth 16).toNat ≤ 2 ^ 15) (side : Side) :
    (endConn conn nodes' side).given.length ≤
      (endConn conn nodes' side.other).handed.length + (x.dflt.windowSize.setWidth 16).toNat := by
  obtain ⟨hopening, -, -, hopts⟩ := opening_linked h
  obtain ⟨hlinked, hgrows⟩ := hreach.linked hopening
  have hwindow : (endConn conn nodes' side).view.window = x.dflt.windowSize.setWidth 16 := by
    rw [(hgrows side).window, ← (hopts side).1]
    rfl
  have hflow := (hlinked.ends side).flow
  rw [← endConn, hwindow] at hflow
  exact hflow hpos hle

theorem within_window_swapped :
    (endConn (fun _ => 0) swappedRun .client).given.length ≤
      (endConn (fun _ => 0) swappedRun .server).handed.length + 4 :=
  within_window idle_heard swapped_reaches (by decide) (by decide) .client

/-- Data without bytes never get across, and nothing that is sent after them does. -/
theorem empty_stalls (h : x.Heard conn nodes)
    (hreach : Reaches conn (opening conn x nodes) nodes') (side : Side) {m : Nat}
    (hempty : (endConn conn nodes' side).given[m]? = some []) :
    (endConn conn nodes' side.other).handed.length ≤ m := by
  obtain ⟨hlinked, -⟩ := hreach.linked (opening_linked h).1
  have hother := hlinked.ends side.other
  rw [Side.other_other] at hother
  by_contra hlt
  rw [Nat.not_le] at hlt
  have hget : (endConn conn nodes' side.other).handed[m]? =
      some (endConn conn nodes' side.other).handed[m] := List.getElem?_eq_getElem hlt
  have hsame : some (endConn conn nodes' side.other).handed[m] = some [] :=
    (prefix_getElem? hother.handed hget).symm.trans hempty
  exact hother.nonempty _ (List.getElem_mem hlt) (Option.some.inj hsame)

/-- The client sends three times, without data in between, and everything arrives. -/
def emptyBetween : List LinkEvent :=
  [.node .client calm (.send 0 [1]), .node .client calm (.send 0 []),
    .node .client calm (.send 0 [2]), .deliver .server calm (fun _ => 0) 2,
    .deliver .server calm (fun _ => 0) 3, .deliver .server calm (fun _ => 0) 4]

def emptyRun : Nodes :=
  emptyBetween.foldl (linkStep fun _ => 0) (opening (fun _ => 0) calmOpening idleNodes)

theorem emptyRun_reaches :
    Reaches (fun _ => 0) (opening (fun _ => 0) calmOpening idleNodes) emptyRun := by
  have hfirst : LinkEvent.Fair (fun _ => 0) (opening (fun _ => 0) calmOpening idleNodes)
      (.node .client calm (.send 0 [1])) := fun _ => ⟨fun _ => by decide, by unfold Short; decide⟩
  have hsecond : LinkEvent.Fair (fun _ => 0)
      ((emptyBetween.take 1).foldl (linkStep fun _ => 0)
        (opening (fun _ => 0) calmOpening idleNodes))
      (.node .client calm (.send 0 [])) := fun _ => ⟨fun _ => by decide, by unfold Short; decide⟩
  have hthird : LinkEvent.Fair (fun _ => 0)
      ((emptyBetween.take 2).foldl (linkStep fun _ => 0)
        (opening (fun _ => 0) calmOpening idleNodes))
      (.node .client calm (.send 0 [2])) := fun _ => ⟨fun _ => by decide, by unfold Short; decide⟩
  have hsent := ((Reaches.refl.step hfirst).step hsecond).step hthird
  exact ((hsent.deliver .server calm (fun _ => 0) 2).deliver .server calm (fun _ => 0) 3).deliver
    .server calm (fun _ => 0) 4

theorem empty_stalls_sample :
    (endConn (fun _ => 0) emptyRun .server).handed = [[1]] ∧
      (endConn (fun _ => 0) emptyRun .server).handed.length ≤ 1 :=
  ⟨by decide, empty_stalls idle_heard emptyRun_reaches .client (by decide)⟩

end Runs

end AppSysManager.Csp
