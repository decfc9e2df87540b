import AppSysManager.Csp.Rdp
import Mathlib.Data.List.ReduceOption

/-!
# One End of a Connection

What every function of `csp_rdp.c` keeps, at one end of a connection and with the other end as it
is, as long as neither end has sent more segments than half of their numbers.

- `EndOf`: the invariant.  What this end has received is an initial part of what the other end has
  sent, and whatever this end has sent is still in its queue or has arrived.
- `Apart`: the other connections of the node keep their state and their segments.
- `Moves`: the two together, as a relation between states that composes.
- `cspRdpRxQueueFlush_done`: no segment is left waiting that could be handed over.
-/

namespace AppSysManager.Csp

open AppSysManager.Bytes AppSysManager.Channels SharedQueue Serial

/-! ## §1 The invariant -/

/-- The other end: its first number, the data that it has sent, and how many it has received. -/
structure Peer where
  iss : BitVec 16
  given : List (List UInt8)
  received : Nat

/-- The numbers of a connection are not used up. -/
def Short (given : List (List UInt8)) : Prop := given.length + 1 < 2 ^ 15

/-- The segment with the number `n`, where 0 is the SYN segment and the data follow.  A segment
    without data has the number of the next one with data. -/
structure Numbered (iss : BitVec 16) (given : List (List UInt8)) (seg : Segment) (n : Nat) : Prop where
  seqNr : seg.seqNr = nth iss n
  le : n ≤ given.length + 1
  data : seg.has RDP_SYN = false → seg.data ≠ [] → ∃ m, n = m + 1 ∧ given[m]? = some seg.data

/-- A segment of an end that has sent `given` and received `received` data segments: it
    acknowledges nothing that has not been received. -/
structure Genuine (iss irs : BitVec 16) (given : List (List UInt8)) (received : Nat)
    (seg : Segment) : Prop where
  numbered : ∃ n, Numbered iss given seg n
  ackNr : seg.has RDP_ACK = true → ∃ k ≤ received, seg.ackNr = nth irs k

/-- A segment of the other end with data. -/
structure Peer.Early (p : Peer) (seg : Segment) : Prop where
  data : seg.data ≠ []
  numbered : ∃ m, p.given[m]? = some seg.data ∧ seg.seqNr = nth p.iss (m + 1)

/-- A segment with some data and their number. -/
structure Segment.Holds (seg : Segment) (seqNr : BitVec 16) (data : List UInt8) : Prop where
  seqNr : seg.seqNr = seqNr
  data : seg.data = data
  flags : seg.flags = RDP_ACK

/-- What the invariant sees of a connection.  It is `going` once the numbers of both ends are known,
    and `waiting` are the data in its queue. -/
structure View where
  isOpen : Bool
  going : Bool
  waiting : List (List UInt8)
  sndNxt : BitVec 16
  sndUna : BitVec 16
  sndIss : BitVec 16
  rcvCur : BitVec 16
  rcvIrs : BitVec 16
  window : BitVec 16
  given : List (List UInt8)
  handed : List (List UInt8)
  taken : List (List UInt8)

def Conn.view (conn : Conn) : View where
  isOpen := conn.isOpen
  going := !(conn.state = .closed || conn.state = .synSent)
  waiting := conn.rxQueue.reduceOption
  sndNxt := conn.sndNxt
  sndUna := conn.sndUna
  sndIss := conn.sndIss
  rcvCur := conn.rcvCur
  rcvIrs := conn.rcvIrs
  window := conn.opts.windowSize.setWidth 16
  given := conn.given
  handed := conn.handed
  taken := conn.taken

/-- One end of a connection that was opened, with the other end as `p` says: `rx` are its segments
    that came early, `tx` those that it has not been acknowledged, and `wire` all that it has sent. -/
structure EndOf (p : Peer) (v : View) (rx : List Segment) (tx : List (Segment × BitVec 32))
    (wire : List Segment) : Prop where
  alive : v.isOpen = true → v.going = true
  short : Short v.given
  peerShort : Short p.given
  -- what was received
  irs : v.rcvIrs = p.iss
  cur : v.rcvCur = nth p.iss v.handed.length
  handed : v.handed <+: p.given
  nonempty : ∀ data ∈ v.handed, data ≠ []
  early : ∀ seg ∈ rx, p.Early seg
  waits : v.isOpen = true → v.taken ++ v.waiting = v.handed
  taken : v.taken <+: v.handed
  -- what was sent
  nxt : v.sndNxt = nth v.sndIss (v.given.length + 1)
  heard : p.received ≤ v.given.length
  una : ∃ u ≤ p.received + 1, v.sndUna = nth v.sndIss u
  flow : 0 < v.window.toNat → v.window.toNat ≤ 2 ^ 15 → v.given.length ≤ p.received + v.window.toNat
  wire : ∀ seg ∈ wire, Genuine v.sndIss v.rcvIrs v.given v.handed.length seg
  queue : ∀ x ∈ tx, Genuine v.sndIss v.rcvIrs v.given v.handed.length x.1
  kept : v.isOpen = true → ∀ m data, v.given[m]? = some data →
    m < p.received ∨ ∃ x ∈ tx, x.1.Holds (nth v.sndIss (m + 1)) data

/-- The end of a connection of a node. -/
def End (p : Peer) (c : Nat) (s : Stack) : Prop :=
  EndOf p (s.conns c).view (mine c s.rxq) (mine c s.txq) (mine c s.wire)

/-- How a connection may go on: what it has sent and received stays. -/
structure Grows (v v' : View) : Prop where
  iss : v'.sndIss = v.sndIss
  irs : v'.rcvIrs = v.rcvIrs
  window : v'.window = v.window
  given : v.given <+: v'.given
  handed : v.handed <+: v'.handed

theorem Grows.refl (v : View) : Grows v v := ⟨rfl, rfl, rfl, List.prefix_refl _, List.prefix_refl _⟩

theorem Grows.trans {x y z : View} (h : Grows x y) (h' : Grows y z) : Grows x z :=
  ⟨h'.iss.trans h.iss, h'.irs.trans h.irs, h'.window.trans h.window, h.given.trans h'.given,
    h.handed.trans h'.handed⟩

theorem prefix_getElem? {l l' : List (List UInt8)} (h : l <+: l') {m : Nat} {data : List UInt8}
    (hm : l[m]? = some data) : l'[m]? = some data := by
  obtain ⟨t, rfl⟩ := h
  have hlt : m < l.length := (List.getElem?_eq_some_iff.mp hm).1
  rw [List.getElem?_append_left hlt, hm]

/-- A segment stays genuine while its end goes on. -/
theorem Genuine.mono {iss irs : BitVec 16} {given given' : List (List UInt8)} {n n' : Nat}
    {seg : Segment} (h : Genuine iss irs given n seg) (hgiven : given <+: given') (hle : n ≤ n') :
    Genuine iss irs given' n' seg := by
  obtain ⟨⟨i, hseq, hi, hdata⟩, hack⟩ := h
  refine ⟨⟨i, hseq, ?_, fun hsyn hne => ?_⟩, fun hflag => ?_⟩
  · have := hgiven.length_le
    omega
  · obtain ⟨m, hm, hget⟩ := hdata hsyn hne
    exact ⟨m, hm, prefix_getElem? hgiven hget⟩
  · obtain ⟨k, hk, hnr⟩ := hack hflag
    exact ⟨k, hk.trans hle, hnr⟩

/-- The other end goes on. -/
theorem End.peer {p p' : Peer} {c : Nat} {s : Stack} (h : End p c s) (hiss : p'.iss = p.iss)
    (hgiven : p.given <+: p'.given) (hreceived : p.received ≤ p'.received)
    (hheard : p'.received ≤ (s.conns c).given.length) (hshort : Short p'.given) : End p' c s :=
  { h with
    peerShort := hshort
    irs := by rw [h.irs, hiss]
    cur := by rw [h.cur, hiss]
    handed := h.handed.trans hgiven
    early := fun seg hseg => by
      obtain ⟨hne, m, hm, hnr⟩ := h.early seg hseg
      exact ⟨hne, m, prefix_getElem? hgiven hm, by rw [hnr, hiss]⟩
    heard := hheard
    una := by
      obtain ⟨u, hu, hnr⟩ := h.una
      exact ⟨u, by omega, hnr⟩
    flow := fun hpos hle => (h.flow hpos hle).trans (by omega)
    kept := fun hopen m data hm => (h.kept hopen m data hm).imp_left fun hlt => by omega }

/-! ## §2 The rest of the node -/

/-- Both queues are within their bounds. -/
structure Fits (s : Stack) : Prop where
  rxq : s.rxq.length ≤ RDP_QUEUE_LEN
  txq : s.txq.length ≤ RDP_QUEUE_LEN

/-- The other connections are left alone; their segments may have changed places. -/
structure Apart (c : Nat) (s s' : Stack) : Prop where
  conns : ∀ c', c' ≠ c → s'.conns c' = s.conns c'
  rxq : Beside c s.rxq s'.rxq
  txq : Beside c s.txq s'.txq
  wire : ∀ c', c' ≠ c → mine c' s'.wire = mine c' s.wire

theorem Apart.refl (c : Nat) (s : Stack) : Apart c s s :=
  ⟨fun _ _ => rfl, Beside.refl _, Beside.refl _, fun _ _ => rfl⟩

theorem Apart.trans {c : Nat} {s₁ s₂ s₃ : Stack} (h : Apart c s₁ s₂) (h' : Apart c s₂ s₃) :
    Apart c s₁ s₃ where
  conns := fun c' hc => (h'.conns c' hc).trans (h.conns c' hc)
  rxq := h.rxq.trans h'.rxq
  txq := h.txq.trans h'.txq
  wire := fun c' hc => (h'.wire c' hc).trans (h.wire c' hc)

/-- What other connections do leaves an end as it is. -/
theorem End.apart {p : Peer} {c c' : Nat} {s s' : Stack} (h : End p c s) (hapart : Apart c' s s')
    (hne : c ≠ c') : End p c s' := by
  rw [End, hapart.conns c hne, hapart.wire c hne]
  have hrx := hapart.rxq c hne
  have htx := hapart.txq c hne
  exact
    { h with
      early := fun seg hseg => h.early seg (hrx.mem_iff.mp hseg)
      queue := fun x hx => h.queue x (htx.mem_iff.mp hx)
      kept := fun hopen m data hm => by
        rcases h.kept hopen m data hm with hold | ⟨x, hx, hnr⟩
        · exact Or.inl hold
        · exact Or.inr ⟨x, htx.mem_iff.mpr hx, hnr⟩ }

/-- A step of one connection. -/
structure Moves (p : Peer) (c : Nat) (s s' : Stack) : Prop where
  fits : Fits s'
  apart : Apart c s s'
  keeps : End p c s → End p c s' ∧ Grows (s.conns c).view (s'.conns c).view

theorem Moves.refl {p : Peer} {c : Nat} {s : Stack} (h : Fits s) : Moves p c s s :=
  ⟨h, Apart.refl c s, fun hend => ⟨hend, Grows.refl _⟩⟩

theorem Moves.trans {p : Peer} {c : Nat} {s₁ s₂ s₃ : Stack} (h : Moves p c s₁ s₂)
    (h' : Moves p c s₂ s₃) : Moves p c s₁ s₃ where
  fits := h'.fits
  apart := h.apart.trans h'.apart
  keeps := fun hend => by
    obtain ⟨hend₂, hgrows⟩ := h.keeps hend
    obtain ⟨hend₃, hgrows'⟩ := h'.keeps hend₂
    exact ⟨hend₃, hgrows.trans hgrows'⟩

section Steps

variable {p : Peer} {c : Nat} {s s' : Stack}

/-! ## §3 Changes of a connection -/

@[simp] theorem update_self (s : Stack) (c : Nat) (f : Conn → Conn) :
    (s.update c f).conns c = f (s.conns c) := Function.update_self ..

theorem update_other (s : Stack) {c c' : Nat} (h : c' ≠ c) (f : Conn → Conn) :
    (s.update c f).conns c' = s.conns c' := Function.update_of_ne h ..

theorem update_update (s : Stack) (c : Nat) (f g : Conn → Conn) :
    (s.update c f).update c g = s.update c fun conn => g (f conn) := by
  simp only [Stack.update, Function.update_self, Function.update_idem]

theorem update_fits (hfits : Fits s) (c : Nat) (f : Conn → Conn) : Fits (s.update c f) :=
  ⟨hfits.rxq, hfits.txq⟩

theorem update_apart (s : Stack) (c : Nat) (f : Conn → Conn) : Apart c s (s.update c f) where
  conns := fun _ hc => update_other s hc f
  rxq := Beside.refl _
  txq := Beside.refl _
  wire := fun _ _ => rfl

/-- A connection changes, and its queues do not. -/
theorem update_moves (hfits : Fits s) {f : Conn → Conn}
    (hend : End p c s → EndOf p (f (s.conns c)).view (mine c s.rxq) (mine c s.txq) (mine c s.wire))
    (hgrows : Grows (s.conns c).view (f (s.conns c)).view) : Moves p c s (s.update c f) where
  fits := update_fits hfits c f
  apart := update_apart s c f
  keeps := fun h => by
    rw [End, update_self]
    exact ⟨hend h, hgrows⟩

/-- A change that the invariant does not see. -/
theorem unseen_moves (hfits : Fits s) {f : Conn → Conn}
    (hview : (f (s.conns c)).view = (s.conns c).view) : Moves p c s (s.update c f) :=
  update_moves hfits (fun h => hview ▸ h) (hview ▸ Grows.refl _)

/-- The connection goes from one state to another. -/
theorem going_moves (hfits : Fits s) {f : Conn → Conn}
    (hview : (f (s.conns c)).view = { (s.conns c).view with going := true }) :
    Moves p c s (s.update c f) := by
  refine update_moves hfits (fun h => ?_) ?_
  · rw [hview]
    exact { h with alive := fun _ => rfl }
  · rw [hview]
    exact ⟨rfl, rfl, rfl, List.prefix_refl _, List.prefix_refl _⟩

/-! ## §4 Control segments -/

theorem emit_apart (s : Stack) (c : Nat) (seg : Segment) : Apart c s (s.emit c seg) where
  conns := fun _ _ => rfl
  rxq := Beside.refl _
  txq := Beside.refl _
  wire := fun c' hc => by
    rw [Stack.emit, mine_append, mine_cons_of_ne (Ne.symm hc), mine_nil, List.append_nil]

/-- A segment of the connection is genuine. -/
def Conn.Sends (conn : Conn) (seg : Segment) : Prop :=
  Genuine conn.sndIss conn.rcvIrs conn.given conn.handed.length seg

/-- A segment of this end goes out. -/
theorem End.emit (h : End p c s) {seg : Segment} (hsends : (s.conns c).Sends seg) :
    End p c (s.emit c seg) := by
  rw [End, Stack.emit, mine_append, mine_cons_self, mine_nil]
  refine { h with wire := fun seg' hseg' => ?_ }
  rcases List.mem_append.mp hseg' with hold | hnew
  · exact h.wire seg' hold
  · rw [List.mem_singleton.mp hnew]
    exact hsends

theorem txAdd_fits (hfits : Fits s) (c : Nat) (seg : Segment) (t : BitVec 32) :
    Fits (cspRdpQueueTxAdd s c seg t) :=
  ⟨hfits.rxq, add_length_le hfits.txq _⟩

theorem txAdd_apart (s : Stack) (c : Nat) (seg : Segment) (t : BitVec 32) :
    Apart c s (cspRdpQueueTxAdd s c seg t) :=
  ⟨fun _ _ => rfl, Beside.refl _, beside_add (seg, t), fun _ _ => rfl⟩

/-- A segment of this end is kept until it is acknowledged. -/
theorem End.txAdd (h : End p c s) {seg : Segment} (t : BitVec 32) (hsends : (s.conns c).Sends seg) :
    End p c (cspRdpQueueTxAdd s c seg t) := by
  rw [End, cspRdpQueueTxAdd, add]
  split
  · rw [mine_append, mine_cons_self, mine_nil]
    refine { h with queue := fun x hx => ?_, kept := fun hopen m data hm => ?_ }
    · rcases List.mem_append.mp hx with hold | hnew
      · exact h.queue x hold
      · rw [List.mem_singleton.mp hnew]
        exact hsends
    · rcases h.kept hopen m data hm with hold | ⟨x, hx, hnr⟩
      · exact Or.inl hold
      · exact Or.inr ⟨x, List.mem_append_left _ hx, hnr⟩
  · exact h

/-- What `csp_rdp_send_cmp` may do: nothing but a segment, and the notes about it. -/
theorem cspRdpSendCmp_moves (hfits : Fits s) (a : Ambient) {packet : Option (List UInt8)}
    {flags : BitVec 8} {seqNr ackNr : BitVec 16}
    (hsends : End p c s → ∀ seg : Segment, seg.seqNr = seqNr → seg.ackNr = ackNr →
      seg.data = packet.getD [] → (s.conns c).Sends seg) :
    Moves p c s (cspRdpSendCmp a c packet flags seqNr ackNr s).1 := by
  rw [cspRdpSendCmp]
  split
  · exact Moves.refl hfits
  -- the counter
  let seg : Segment := ⟨s.incr <<< 4 ||| flags, seqNr, ackNr, packet.getD []⟩
  have hseg : End p c s → (s.conns c).Sends seg := fun h => hsends h seg rfl rfl rfl
  let s₁ : Stack := { s with incr := s.incr + 1 }
  have hfits₁ : Fits s₁ := ⟨hfits.rxq, hfits.txq⟩
  have hapart₁ : Apart c s s₁ := ⟨fun _ _ => rfl, Beside.refl _, Beside.refl _, fun _ _ => rfl⟩
  have hend₁ : End p c s → End p c s₁ := fun h => h
  change Moves p c s (if _ then _ else _ : Stack × Bool).1
  split
  · exact ⟨hfits₁, hapart₁, fun h => ⟨hend₁ h, Grows.refl _⟩⟩
  -- the copy of a SYN segment
  let s₂ : Stack := if flags &&& RDP_SYN != 0 then cspRdpQueueTxAdd s₁ c seg (a.ms 0) else s₁
  have hcopy : Fits s₂ ∧ Apart c s s₂ ∧ s₂.conns = s.conns ∧ (End p c s → End p c s₂) := by
    simp only [s₂]
    split
    · exact ⟨txAdd_fits hfits₁ .., hapart₁.trans (txAdd_apart ..), rfl,
        fun h => (hend₁ h).txAdd _ (hseg h)⟩
    · exact ⟨hfits₁, hapart₁, rfl, hend₁⟩
  obtain ⟨hfits₂, hapart₂, hconns, hend₂⟩ := hcopy
  -- the segment
  have hmoves : Moves p c s (s₂.emit c seg) := by
    refine ⟨⟨hfits₂.rxq, hfits₂.txq⟩, hapart₂.trans (emit_apart ..), fun h => ⟨?_, ?_⟩⟩
    · apply (hend₂ h).emit
      rw [hconns]
      exact hseg h
    · show Grows (s.conns c).view (s₂.conns c).view
      rw [hconns]
      exact Grows.refl _
  change Moves p c s (if flags &&& RDP_ACK != 0 then _ else (s₂.emit c seg, true) : Stack × Bool).1
  split
  · change Moves p c s ((s₂.emit c seg).update c fun conn =>
      { conn with rcvLsa := ackNr, ackTimestamp := a.ms 1 })
    exact hmoves.trans (unseen_moves hmoves.fits rfl)
  · exact hmoves

/-- A segment without data that carries the numbers of this end. -/
theorem End.control (h : End p c s) {seg : Segment} (hseq : seg.seqNr = (s.conns c).sndNxt)
    (hack : seg.ackNr = (s.conns c).rcvCur) (hdata : seg.data = []) : (s.conns c).Sends seg where
  numbered := ⟨_, hseq.trans h.nxt, Nat.le_refl _, fun _ hne => absurd hdata hne⟩
  ackNr := fun _ => ⟨_, Nat.le_refl _, (hack.trans h.cur).trans (congrArg (nth · _) h.irs.symm)⟩

/-- A control segment with the numbers of this end. -/
theorem sendControl_moves (hfits : Fits s) (a : Ambient) (flags : BitVec 8)
    {seqNr ackNr : BitVec 16}
    (hseq : seqNr = (s.conns c).sndNxt) (hack : ackNr = (s.conns c).rcvCur) :
    Moves p c s (cspRdpSendCmp a c none flags seqNr ackNr s).1 :=
  cspRdpSendCmp_moves hfits a fun h _ hseq' hack' hdata =>
    h.control (hseq'.trans hseq) (hack'.trans hack) hdata

/-- The SYN/ACK segment. -/
theorem sendSynAck_moves (hfits : Fits s) (a : Ambient) :
    Moves p c s (cspRdpSendCmp a c none (RDP_ACK ||| RDP_SYN) (s.conns c).sndIss (s.conns c).rcvIrs s).1 := by
  refine cspRdpSendCmp_moves hfits a fun h seg hseq hack hdata => ?_
  exact ⟨⟨0, by rw [hseq, nth_zero], Nat.zero_le _, fun _ hne => absurd hdata hne⟩,
    fun _ => ⟨0, Nat.zero_le _, by rw [hack, nth_zero]⟩⟩

theorem cspRdpCheckAck_moves (hfits : Fits s) (a : Ambient) :
    Moves p c s (cspRdpCheckAck a c s) := by
  rw [cspRdpCheckAck]
  split
  · exact Moves.refl hfits
  · split
    · exact sendControl_moves hfits _ _ rfl rfl
    · exact Moves.refl hfits

/-! ## §5 Data that arrive in order -/

theorem prefix_concat {l l' : List (List UInt8)} (h : l <+: l') {data : List UInt8}
    (hnext : l'[l.length]? = some data) : l ++ [data] <+: l' := by
  obtain ⟨t, rfl⟩ := h
  rw [List.getElem?_append_right (Nat.le_refl _), Nat.sub_self] at hnext
  cases t with
  | nil => exact absurd hnext (by simp)
  | cons x t =>
    obtain rfl : x = data := by simpa using hnext
    exact ⟨t, by simp⟩

/-- The connection after the next data. -/
def Conn.deliver (conn : Conn) (data : List UInt8) : Conn :=
  { conn with
    rxQueue := conn.rxQueue ++ [some data]
    handed := conn.handed ++ [data]
    rcvCur := conn.rcvCur + 1 }

theorem Conn.deliver_grows (conn : Conn) (data : List UInt8) :
    Grows conn.view (conn.deliver data).view :=
  ⟨rfl, rfl, rfl, List.prefix_refl _, List.prefix_append ..⟩

/-- The next data of the other end are handed to the task. -/
theorem EndOf.deliver {conn : Conn} {rx : List Segment} {tx : List (Segment × BitVec 32)}
    {wire : List Segment} (h : EndOf p conn.view rx tx wire) {data : List UInt8} (hne : data ≠ [])
    (hnext : p.given[conn.handed.length]? = some data) :
    EndOf p (conn.deliver data).view rx tx wire := by
  have hhanded : (conn.deliver data).view.handed = conn.handed ++ [data] := rfl
  refine { h with
    cur := ?_, handed := prefix_concat h.handed hnext, nonempty := fun d hd => ?_
    waits := fun hopen => ?_, taken := h.taken.trans (conn.deliver_grows data).handed
    wire := fun seg hseg => ?_, queue := fun x hx => ?_ }
  · rw [hhanded, List.length_append]
    exact (congrArg (· + 1) h.cur).trans (nth_succ ..).symm
  · rcases List.mem_append.mp hd with hd | hd
    · exact h.nonempty d hd
    · rwa [List.mem_singleton.mp hd]
  · have hwaiting : (conn.deliver data).view.waiting = conn.view.waiting ++ [data] :=
      List.reduceOption_append ..
    rw [hwaiting, ← List.append_assoc]
    exact congrArg (· ++ [data]) (h.waits hopen)
  · exact (h.wire seg hseg).mono (List.prefix_refl _) (conn.deliver_grows data).handed.length_le
  · exact (h.queue x hx).mono (List.prefix_refl _) (conn.deliver_grows data).handed.length_le

/-- A segment with the next number holds the next data. -/
theorem End.next (h : End p c s) {seg : Segment} (hearly : p.Early seg)
    (hseq : seg.seqNr = (s.conns c).rcvCur + 1) :
    p.given[(s.conns c).handed.length]? = some seg.data := by
  obtain ⟨-, m, hm, hnr⟩ := hearly
  have hlt : m < p.given.length := (List.getElem?_eq_some_iff.mp hm).1
  have hshort : p.given.length + 1 < 2 ^ 15 := h.peerShort
  have hle : (s.conns c).handed.length ≤ p.given.length := h.handed.length_le
  have hcur : (s.conns c).rcvCur = nth p.iss (s.conns c).handed.length := h.cur
  -- both numbers count from the same start, less than half a turn of them
  rw [hnr, hcur, ← nth_succ, nth_inj (by omega) (by omega)] at hseq
  obtain rfl : m = (s.conns c).handed.length := by omega
  exact hm

/-- `rcv_cur` goes on to the number of the segment, and its data to the task. -/
theorem deliver_moves (hfits : Fits s) {seg : Segment} (hearly : p.Early seg)
    (hseq : seg.seqNr = (s.conns c).rcvCur + 1) {f : Conn → Conn}
    (hf : f (s.conns c) = (s.conns c).deliver seg.data) : Moves p c s (s.update c f) := by
  refine update_moves hfits (fun h => ?_) ?_
  · rw [hf]
    exact EndOf.deliver h hearly.data (h.next hearly hseq)
  · rw [hf]
    exact (s.conns c).deliver_grows seg.data

/-! ## §6 Data that arrive early -/

/-- Some of the early segments are gone, or have changed places. -/
theorem rxq_moves {rxq' : List (Nat × Segment)} (hfits : Fits s)
    (hlen : rxq'.length ≤ RDP_QUEUE_LEN)
    (hbeside : Beside c s.rxq rxq') (hsub : ∀ seg ∈ mine c rxq', seg ∈ mine c s.rxq) :
    Moves p c s { s with rxq := rxq' } where
  fits := ⟨hlen, hfits.txq⟩
  apart := ⟨fun _ _ => rfl, hbeside, Beside.refl _, fun _ _ => rfl⟩
  keeps := fun h => ⟨{ h with early := fun seg hseg => h.early seg (hsub seg hseg) }, Grows.refl _⟩

section Taken

variable {seg : Segment} {rxq rest : List (Nat × Segment)}

/-- A segment that is not the next one goes back to the queue. -/
theorem putBack_moves (hfits : Fits s) (hmine : mine c s.rxq = seg :: mine c rest)
    (hperm : ((c, seg) :: rest).Perm s.rxq) :
    Moves p c s (cspRdpQueueRxAdd { s with rxq := rest } c seg) :=
  rxq_moves hfits (add_length_le (taken_length hperm hfits.rxq).le _)
    ((beside_taken hperm).trans (beside_add seg)) (putBack_sub hfits.rxq hmine hperm)

/-- Looking for a number leaves all segments in the queue. -/
theorem seqInLoop_spec (seqNr : BitVec 16) (count : Nat) (hcap : rxq.length ≤ RDP_QUEUE_LEN) :
    (seqInLoop c seqNr count rxq).2.length ≤ RDP_QUEUE_LEN ∧
      Beside c rxq (seqInLoop c seqNr count rxq).2 ∧
      ∀ seg ∈ mine c (seqInLoop c seqNr count rxq).2, seg ∈ mine c rxq := by
  induction count generalizing rxq with
  | zero => exact ⟨hcap, Beside.refl _, fun _ h => h⟩
  | succ count ih =>
    rw [seqInLoop]
    rcases get_spec (c := c) hcap with ⟨-, hget⟩ | ⟨seg, rest, hget, hmine, hperm⟩
    · rw [hget]
      exact ⟨hcap, Beside.refl _, fun _ h => h⟩
    · rw [hget]
      have hlen : (add RDP_QUEUE_LEN rest (c, seg)).length ≤ RDP_QUEUE_LEN :=
        add_length_le (taken_length hperm hcap).le _
      have hbeside : Beside c rxq (add RDP_QUEUE_LEN rest (c, seg)) :=
        (beside_taken hperm).trans (beside_add seg)
      have hsub := putBack_sub hcap hmine hperm
      simp only
      split
      · exact ⟨hlen, hbeside, hsub⟩
      · obtain ⟨hlen', hbeside', hsub'⟩ := ih hlen
        exact ⟨hlen', hbeside.trans hbeside', fun seg' h => hsub seg' (hsub' seg' h)⟩

end Taken

theorem cspRdpRxQueueAdd_moves (hfits : Fits s) {seg : Segment} (hearly : p.Early seg) :
    Moves p c s (cspRdpRxQueueAdd c seg s).1 := by
  obtain ⟨hlen, hbeside, hsub⟩ := seqInLoop_spec (c := c) seg.seqNr s.rxq.length hfits.rxq
  rw [cspRdpRxQueueAdd, cspRdpSeqInRxQueue]
  cases hcase : seqInLoop c seg.seqNr s.rxq.length s.rxq with
  | mk found rxq =>
    rw [hcase] at hlen hbeside hsub
    have hmoves : Moves p c s { s with rxq } := rxq_moves hfits hlen hbeside hsub
    cases found with
    | true => exact hmoves
    | false =>
      -- a new one, which is dropped if the queue is full
      refine hmoves.trans ⟨⟨add_length_le hlen _, hfits.txq⟩,
        ⟨fun _ _ => rfl, beside_add seg, Beside.refl _, fun _ _ => rfl⟩, fun h => ⟨?_, Grows.refl _⟩⟩
      refine { h with early := fun seg' hseg' => ?_ }
      replace hseg' : seg' ∈ mine c (add RDP_QUEUE_LEN rxq (c, seg)) := hseg'
      rw [add] at hseg'
      split at hseg'
      · rw [mine_append, mine_cons_self, mine_nil, List.mem_append, List.mem_singleton] at hseg'
        rcases hseg' with hseg' | rfl
        · exact h.early seg' hseg'
        · exact hearly
      · exact h.early seg' hseg'

theorem flushRound_moves (hfits : Fits s) (count : Nat) : Moves p c s (flushRound c count s).1 := by
  induction count generalizing s with
  | zero => exact Moves.refl hfits
  | succ count ih =>
    rw [flushRound]
    split
    · exact Moves.refl hfits
    next hroom =>
    rcases get_spec (c := c) hfits.rxq with ⟨-, hget⟩ | ⟨seg, rest, hget, hmine, hperm⟩
    · rw [hget]
      exact Moves.refl hfits
    · rw [hget]
      have htake : Moves p c s { s with rxq := rest } :=
        rxq_moves hfits (taken_length hperm hfits.rxq).le (beside_taken hperm) (taken_sub hmine)
      by_cases hseq : seg.seqNr = (s.conns c).rcvCur + 1
      · -- there is room for it, so that it is not lost
        have henqueue : cspRdpReceiveData c seg { s with rxq := rest } =
            (Stack.update { s with rxq := rest } c fun conn =>
              { conn with
                rxQueue := conn.rxQueue ++ [some seg.data], handed := conn.handed ++ [seg.data] },
              true) := by
          rw [cspRdpReceiveData, cspConnEnqueuePacket, if_pos (by simp only; omega)]
          rfl
        simp only [hseq, if_true]
        rw [henqueue]
        simp only [update_update]
        refine ⟨⟨htake.fits.rxq, htake.fits.txq⟩, htake.apart.trans (update_apart ..), fun h => ?_⟩
        have hearly := h.early seg (by rw [hmine]; exact List.mem_cons_self)
        exact (htake.trans (deliver_moves htake.fits hearly hseq rfl)).keeps h
      · simp only [hseq, if_false]
        have hback : Moves p c s (cspRdpQueueRxAdd { s with rxq := rest } c seg) :=
          putBack_moves hfits hmine hperm
        exact hback.trans (ih hback.fits)

theorem flushLoop_moves (hfits : Fits s) (fuel : Nat) : Moves p c s (flushLoop c fuel s) := by
  induction fuel generalizing s with
  | zero => exact Moves.refl hfits
  | succ fuel ih =>
    have hround : Moves p c s (flushRound c s.rxq.length s).1 := flushRound_moves hfits _
    rw [flushLoop]
    cases hcase : flushRound c s.rxq.length s with
    | mk s' again =>
      rw [hcase] at hround
      cases again with
      | false => exact hround
      -- "Loop from first element again"
      | true => exact hround.trans (ih hround.fits)

/-! ## §7 What a flush leaves behind -/

/-- The queue of the connection has at most two places left. -/
def Conn.Full (conn : Conn) : Prop := CSP_CONN_RXQUEUE_LEN - conn.rxQueue.length ≤ 2

/-- None of the segments is the next one. -/
def NoneNext (conn : Conn) (segs : List Segment) : Prop := ∀ seg ∈ segs, seg.seqNr ≠ conn.rcvCur + 1

/-- A round that finds no segment has looked at all of them; `past` are those that it has put back
    already. -/
theorem flushRound_none (hfits : Fits s) {count : Nat} {left past : List Segment}
    (hmine : mine c s.rxq = left ++ past) (hcount : left.length ≤ count)
    (hpast : NoneNext (s.conns c) past) (hnone : (flushRound c count s).2 = false) :
    ((flushRound c count s).1.conns c).Full ∨
      NoneNext ((flushRound c count s).1.conns c) (mine c (flushRound c count s).1.rxq) := by
  induction count generalizing s left past with
  | zero =>
    obtain rfl : left = [] := List.length_eq_zero_iff.mp (Nat.le_zero.mp hcount)
    refine Or.inr ?_
    rw [flushRound, hmine]
    exact hpast
  | succ count ih =>
    rw [flushRound] at hnone ⊢
    split
    next hroom => exact Or.inl hroom
    next hroom =>
    rw [if_neg hroom] at hnone
    rcases get_spec (c := c) hfits.rxq with ⟨hnil, hget⟩ | ⟨seg, rest, hget, hfirst, hperm⟩
    · rw [hget]
      refine Or.inr ?_
      change NoneNext (s.conns c) (mine c s.rxq)
      rw [hnil]
      exact fun _ h => absurd h List.not_mem_nil
    · rw [hget] at hnone ⊢
      simp only at hnone ⊢
      by_cases hseq : seg.seqNr = (s.conns c).rcvCur + 1
      · rw [if_pos hseq] at hnone
        exact absurd hnone Bool.false_ne_true.symm
      · rw [if_neg hseq] at hnone ⊢
        have hback : mine c (cspRdpQueueRxAdd { s with rxq := rest } c seg).rxq = mine c rest ++ [seg] := by
          rw [cspRdpQueueRxAdd, mine_add (taken_length hperm hfits.rxq)]
        have hfits' : Fits (cspRdpQueueRxAdd { s with rxq := rest } c seg) :=
          ⟨add_length_le (taken_length hperm hfits.rxq).le _, hfits.txq⟩
        have hseg : NoneNext (s.conns c) [seg] := fun seg' h => by
          rw [List.mem_singleton.mp h]
          exact hseq
        cases left with
        | nil =>
          -- the segment is one of those that have been put back
          rw [List.nil_append, hfirst] at hmine
          have hpast' : NoneNext (s.conns c) (mine c rest ++ [seg]) := by
            intro seg' h
            rcases List.mem_append.mp h with h | h
            · exact hpast seg' (by rw [← hmine]; exact List.mem_cons_of_mem _ h)
            · exact hseg seg' h
          exact ih hfits' (hback.trans (List.nil_append _).symm) (Nat.zero_le _) hpast' hnone
        | cons x left =>
          -- it is the first of those that are left, and becomes the last of those put back
          rw [hfirst, List.cons_append, List.cons.injEq] at hmine
          have hpast' : NoneNext (s.conns c) (past ++ [seg]) := by
            intro seg' h
            rcases List.mem_append.mp h with h | h
            · exact hpast seg' h
            · exact hseg seg' h
          have hback' : mine c (cspRdpQueueRxAdd { s with rxq := rest } c seg).rxq =
              left ++ (past ++ [seg]) := by
            rw [hback, hmine.2, List.append_assoc]
          exact ih hfits' hback' (Nat.succ_le_succ_iff.mp hcount) hpast' hnone

/-- A round that finds one takes it out of the queue. -/
theorem flushRound_some (hfits : Fits s) (count : Nat) (hsome : (flushRound c count s).2 = true) :
    (flushRound c count s).1.rxq.length < s.rxq.length := by
  induction count generalizing s with
  | zero => exact absurd hsome Bool.false_ne_true
  | succ count ih =>
    rw [flushRound] at hsome ⊢
    split
    next hroom =>
      rw [if_pos hroom] at hsome
      exact absurd hsome Bool.false_ne_true
    next hroom =>
    rw [if_neg hroom] at hsome
    rcases get_spec (c := c) hfits.rxq with ⟨hnil, hget⟩ | ⟨seg, rest, hget, hfirst, hperm⟩
    · rw [hget] at hsome
      exact absurd hsome Bool.false_ne_true
    · rw [hget] at hsome ⊢
      have hlen := hperm.length_eq
      rw [List.length_cons] at hlen
      simp only at hsome ⊢
      by_cases hseq : seg.seqNr = (s.conns c).rcvCur + 1
      · rw [if_pos hseq]
        -- the segment that is handed over does not come back
        have hrxq : (cspRdpReceiveData c seg { s with rxq := rest }).1.rxq = rest := by
          rw [cspRdpReceiveData, cspConnEnqueuePacket]
          split <;> rfl
        change (cspRdpReceiveData c seg { s with rxq := rest }).1.rxq.length < s.rxq.length
        rw [hrxq]
        omega
      · rw [if_neg hseq] at hsome ⊢
        -- one that goes back to the queue leaves its length as it was
        have hroom' := taken_length hperm hfits.rxq
        have hlt := ih (s := cspRdpQueueRxAdd { s with rxq := rest } c seg)
          ⟨add_length_le hroom'.le _, hfits.txq⟩ hsome
        have hback : (cspRdpQueueRxAdd { s with rxq := rest } c seg).rxq.length = rest.length + 1 := by
          rw [cspRdpQueueRxAdd, add_of_lt hroom', List.length_append, List.length_singleton]
        omega

/-- After a flush the next segment is not in the queue of early ones, unless the task has to read
    first. -/
theorem cspRdpRxQueueFlush_done (hfits : Fits s) :
    ((cspRdpRxQueueFlush c s).conns c).Full ∨
      NoneNext ((cspRdpRxQueueFlush c s).conns c) (mine c (cspRdpRxQueueFlush c s).rxq) := by
  -- every round but the last one makes the queue shorter
  have hloop : ∀ fuel (s : Stack), Fits s → s.rxq.length < fuel →
      ((flushLoop c fuel s).conns c).Full ∨
        NoneNext ((flushLoop c fuel s).conns c) (mine c (flushLoop c fuel s).rxq) := by
    intro fuel
    induction fuel with
    | zero => exact fun s _ hlt => absurd hlt (Nat.not_lt_zero _)
    | succ fuel ih =>
      intro s hfits hlt
      have hmoves : Moves ⟨0, [], 0⟩ c s (flushRound c s.rxq.length s).1 := flushRound_moves hfits _
      have hnone := flushRound_none (c := c) hfits (List.append_nil (mine c s.rxq)).symm
        (mine_length_le (c := c) (q := s.rxq)) fun _ h => absurd h List.not_mem_nil
      have hsome := flushRound_some (c := c) hfits s.rxq.length
      rw [flushLoop]
      generalize flushRound c s.rxq.length s = r at hmoves hnone hsome ⊢
      obtain ⟨s', again⟩ := r
      cases again with
      | false => exact hnone rfl
      | true => exact ih s' hmoves.fits (Nat.lt_of_lt_of_le (hsome rfl) (Nat.lt_succ_iff.mp hlt))
  exact hloop _ s hfits (Nat.lt_succ_self _)

theorem cspRdpRxQueueFlush_done_idle :
    let s : Stack := { idleStack with rxq := [(0, ⟨RDP_ACK, 2, 0, [7]⟩), (0, ⟨RDP_ACK, 1, 0, [5]⟩)] }
    ((cspRdpRxQueueFlush 0 s).conns 0).handed = [[5], [7]] ∧
      (((cspRdpRxQueueFlush 0 s).conns 0).Full ∨
        NoneNext ((cspRdpRxQueueFlush 0 s).conns 0) (mine 0 (cspRdpRxQueueFlush 0 s).rxq)) :=
  ⟨by decide, cspRdpRxQueueFlush_done ⟨by decide, by decide⟩⟩

end Steps

end AppSysManager.Csp
