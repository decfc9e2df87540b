import AppSysManager.Csp.RdpEnds

/-!
# What an End Does

Closing, new packets, timeouts, and the calls of the tasks: all of them keep the invariant of an
end, and leave the other connections alone.

- `rdpArrive_moves`: a segment of the other end arrives.
- `Stack.step_moves`: everything else that happens to an open connection.
- `Stack.step_apart`: every event at all, for the other connections.
- `Stack.run_apart`: a whole run of other connections.
-/

namespace AppSysManager.Csp

open AppSysManager.Bytes AppSysManager.Channels SharedQueue Serial

variable {p : Peer} {c : Nat} {s s' : Stack}

/-! ## §1 Closing -/

theorem enterCloseWait_moves (hfits : Fits s) (a : Ambient) (sendRst : Bool) :
    Moves p c s (enterCloseWait a c sendRst s) := by
  rw [enterCloseWait]
  split
  · exact Moves.refl hfits
  · have hwait : Moves p c s (s.update c fun conn =>
        { conn with state := .closeWait, timestamp := a.ms 0 }) :=
      going_moves hfits rfl
    simp only
    split
    · exact hwait.trans (sendControl_moves hwait.fits _ _ rfl rfl)
    · exact hwait

/-- What `csp_rdp_close_internal` may do. -/
theorem cspRdpCloseInternal_cases (hfits : Fits s) (a : Ambient) (closedBy : ClosedBy)
    (sendRst : Bool) :
    ∃ s₁, Moves p c s s₁ ∧ (cspRdpCloseInternal a c closedBy sendRst s = (s₁, false) ∨
      ∃ state closedBy', cspRdpCloseInternal a c closedBy sendRst s =
        (s₁.update c fun conn => { conn with state, closedBy := closedBy' }, true)) := by
  rw [cspRdpCloseInternal]
  split
  · refine ⟨s, Moves.refl hfits, Or.inr ⟨(s.conns c).state, (s.conns c).closedBy, ?_⟩⟩
    rw [Stack.update, Function.update_eq_self]
  · have hmark : Moves p c s (s.update c fun conn =>
        { conn with closedBy := conn.closedBy.or closedBy }) := unseen_moves hfits rfl
    refine ⟨_, hmark.trans (enterCloseWait_moves hmark.fits a sendRst), ?_⟩
    simp only
    split
    · exact Or.inl rfl
    · exact Or.inr ⟨.closed, ⟨false, false, false⟩, rfl⟩

/-- A connection that is closed: its segments are gone, and nobody finds it any more. -/
theorem EndOf.closed {v : View} {rx : List Segment} {tx : List (Segment × BitVec 32)}
    {wire : List Segment} (h : EndOf p v rx tx wire) (going : Bool) :
    EndOf p { v with isOpen := false, going, waiting := [] } [] [] wire :=
  { h with
    alive := nofun
    early := fun _ hseg => absurd hseg List.not_mem_nil
    waits := nofun
    queue := fun _ hx => absurd hx List.not_mem_nil
    kept := nofun }

theorem cspRdpQueueFlush_fits (hfits : Fits s) (c : Nat) : Fits (cspRdpQueueFlush c s) :=
  ⟨(List.length_filter_le ..).trans hfits.rxq, (List.length_filter_le ..).trans hfits.txq⟩

theorem cspRdpQueueFlush_apart (s : Stack) (c : Nat) : Apart c s (cspRdpQueueFlush c s) :=
  ⟨fun _ _ => rfl, beside_filter, beside_filter, fun _ _ => rfl⟩

theorem cspConnClose_moves (hfits : Fits s) (a : Ambient) (closedBy : ClosedBy) :
    Moves p c s (cspConnClose a c closedBy s) := by
  rw [cspConnClose]
  split
  · exact Moves.refl hfits
  obtain ⟨s₁, hmoves, hwait | ⟨state, by', hdone⟩⟩ :=
    cspRdpCloseInternal_cases (p := p) (c := c) hfits a closedBy true
  · rw [hwait]
    exact hmoves
  · rw [hdone]
    simp only [update_update]
    refine ⟨cspRdpQueueFlush_fits (update_fits hmoves.fits ..) c,
      hmoves.apart.trans ((update_apart ..).trans (cspRdpQueueFlush_apart ..)), fun h => ?_⟩
    obtain ⟨hend, hgrows⟩ := hmoves.keeps h
    rw [End, cspRdpQueueFlush, update_self, mine_filter_self, mine_filter_self]
    exact ⟨hend.closed _, hgrows.trans ⟨rfl, rfl, rfl, List.prefix_refl _, List.prefix_refl _⟩⟩

/-- `NULL` wakes the task up. -/
theorem enqueueNull_moves (hfits : Fits s) : Moves p c s (cspConnEnqueuePacket c none s).1 := by
  rw [cspConnEnqueuePacket]
  split
  · change Moves p c s (s.update c fun conn =>
      { conn with rxQueue := conn.rxQueue ++ [none], handed := conn.handed ++ [] })
    apply unseen_moves hfits
    simp only [Conn.view, List.reduceOption_append, List.reduceOption_singleton, Option.toList_none,
      List.append_nil]
  · exact Moves.refl hfits

theorem discardClose_moves (hfits : Fits s) (a : Ambient) (closedBy : ClosedBy) :
    Moves p c s (discardClose a c closedBy s) := by
  rw [discardClose]
  split
  · exact cspConnClose_moves hfits a _
  · have hclose : Moves p c s (cspConnClose a c closedBy s) := cspConnClose_moves hfits a _
    exact hclose.trans (enqueueNull_moves hclose.fits)

/-! ## §2 A new packet -/

/-- A segment that comes from the other end. -/
structure Arrives (p : Peer) (iss : BitVec 16) (seg : Segment) : Prop where
  data : seg.has RDP_SYN = false → seg.data ≠ [] → p.Early seg
  ackNr : seg.has RDP_ACK = true → ∃ k ≤ p.received, seg.ackNr = nth iss k

/-- An acknowledgement is taken over. -/
theorem ack_moves (hfits : Fits s) {seg : Segment} (hack : seg.has RDP_ACK = true)
    (harrives : Arrives p (s.conns c).sndIss seg) :
    Moves p c s (s.update c fun conn => { conn with sndUna := seg.ackNr + 1 }) := by
  refine update_moves hfits (fun h => { h with una := ?_ })
    ⟨rfl, rfl, rfl, List.prefix_refl _, List.prefix_refl _⟩
  obtain ⟨k, hk, hnr⟩ := harrives.ackNr hack
  refine ⟨k + 1, by omega, ?_⟩
  exact (congrArg (· + 1) hnr).trans (nth_succ ..).symm

theorem resetReceived_moves (hfits : Fits s) (a : Ambient) {seg : Segment}
    (harrives : Arrives p (s.conns c).sndIss seg) : Moves p c s (resetReceived a c seg s).1 := by
  rw [resetReceived]
  -- the acknowledgement counts in any case
  generalize hs₁ : (if seg.has RDP_ACK then
    s.update c fun conn => { conn with sndUna := seg.ackNr + 1 } else s) = s₁
  have hack : Moves p c s s₁ := by
    rw [← hs₁]
    split
    · exact ack_moves hfits ‹_› harrives
    · exact Moves.refl hfits
  simp only
  split
  · exact hack
  split
  · exact hack.trans (discardClose_moves hack.fits _ _)
  split
  · have hwait : Moves p c s (s₁.update c fun conn =>
        { conn with state := .closeWait, timestamp := a.ms 0 }) :=
      hack.trans (going_moves hack.fits rfl)
    have hreply := hwait.trans (sendControl_moves hwait.fits (a.later 1) (RDP_ACK ||| RDP_RST)
      (by rw [update_self]) (by rw [update_self]))
    exact hreply.trans (discardClose_moves hreply.fits _ _)
  · exact hack

/-- The checks of the segment have been passed. -/
theorem dataReceived_moves (hfits : Fits s) (a : Ambient) {seg : Segment}
    (harrives : Arrives p (s.conns c).sndIss seg) (hsyn : seg.has RDP_SYN = false)
    (hack : seg.has RDP_ACK = true) : Moves p c s (dataReceived a c seg s) := by
  rw [dataReceived]
  generalize hs₁ : (if (s.conns c).destSocket then s
    else s.update c fun conn => { conn with timestamp := a.ms 0 }) = s₁
  have htime : Moves p c s s₁ ∧ (s₁.conns c).sndIss = (s.conns c).sndIss := by
    rw [← hs₁]
    split
    · exact ⟨Moves.refl hfits, rfl⟩
    · refine ⟨unseen_moves hfits rfl, ?_⟩
      rw [update_self]
  obtain ⟨htime, hiss⟩ := htime
  -- the acknowledgement in the segment counts before its data do
  have hmoves := htime.trans (ack_moves htime.fits hack (hiss ▸ harrives))
  simp only
  generalize s₁.update c (fun conn => { conn with sndUna := seg.ackNr + 1 }) = s₂ at hmoves ⊢
  split
  · exact hmoves
  split
  · exact hmoves
  next hdata =>
  have hearly : p.Early seg := harrives.data hsyn hdata
  split
  · -- too early: it is stored, unless it has been stored before
    have hadd : Moves p c s₂ (cspRdpRxQueueAdd c seg s₂).1 := cspRdpRxQueueAdd_moves hmoves.fits hearly
    cases hcase : cspRdpRxQueueAdd c seg s₂ with
    | mk s₃ added =>
      rw [hcase] at hadd
      cases added with
      | true => exact hmoves.trans hadd
      | false => exact (hmoves.trans hadd).trans (cspRdpCheckAck_moves hadd.fits _)
  · next hseq =>
    replace hseq : seg.seqNr = (s₂.conns c).rcvCur + 1 := not_not.mp hseq
    rw [cspRdpReceiveData, cspConnEnqueuePacket]
    by_cases hroom : (s₂.conns c).rxQueue.length < CSP_CONN_RXQUEUE_LEN
    · -- it is the next one
      simp only [hroom, if_true, update_update]
      generalize hs₃ : s₂.update c (fun conn =>
        { conn with
          rxQueue := conn.rxQueue ++ [some seg.data], handed := conn.handed ++ (some seg.data).toList
          rcvCur := seg.seqNr }) = s₃
      have hdeliver : Moves p c s₂ s₃ := by
        rw [← hs₃]
        apply deliver_moves hmoves.fits hearly hseq
        rw [Conn.deliver, hseq]
        rfl
      have hack := (hmoves.trans hdeliver).trans (cspRdpCheckAck_moves hdeliver.fits (a.later 1))
      exact hack.trans (flushLoop_moves hack.fits _)
    · simp only [hroom, if_false]
      exact hmoves

theorem openReceived_moves (hfits : Fits s) (a : Ambient) {seg : Segment}
    (harrives : Arrives p (s.conns c).sndIss seg) : Moves p c s (openReceived a c seg s) := by
  rw [openReceived]
  simp only
  split
  · split
    · exact discardClose_moves hfits _ _
    · exact Moves.refl hfits
  next hflags =>
  simp only [Bool.or_eq_true, Bool.not_eq_true', not_or, Bool.not_eq_true, Bool.not_eq_false] at hflags
  split
  · split
    · -- "If duplicate SYN received, send another SYN/ACK"
      exact sendSynAck_moves hfits a
    · exact Moves.refl hfits
  split
  · exact Moves.refl hfits
  split
  · split
    · exact discardClose_moves hfits _ _
    · have hopened : Moves p c s (s.update c fun conn => { conn with state := .opened }) :=
        going_moves hfits rfl
      split
      · exact hopened.trans (discardClose_moves hopened.fits _ _)
      · have haccepted := hopened.trans (unseen_moves hopened.fits
          (f := fun conn => { conn with destSocket := false }) rfl)
        refine haccepted.trans (dataReceived_moves haccepted.fits a ?_ hflags.1 hflags.2)
        simpa only [update_self] using harrives
  · exact dataReceived_moves hfits a harrives hflags.1 hflags.2

theorem closeWaitReceived_moves (hfits : Fits s) (a : Ambient) {seg : Segment}
    (harrives : Arrives p (s.conns c).sndIss seg) : Moves p c s (closeWaitReceived a c seg s) := by
  rw [closeWaitReceived]
  simp only
  split
  · exact Moves.refl hfits
  next hflags =>
  simp only [Bool.or_eq_true, Bool.not_eq_true', not_or, Bool.not_eq_true, Bool.not_eq_false] at hflags
  split
  · exact Moves.refl hfits
  · have hack : Moves p c s (s.update c fun conn => { conn with sndUna := seg.ackNr + 1 }) :=
      ack_moves hfits hflags.2 harrives
    exact hack.trans (sendControl_moves hack.fits _ _ (by rw [update_self]) (by rw [update_self]))

/-- A peer that no end has: its numbers are used up. -/
def noPeer : Peer := ⟨0, List.replicate (2 ^ 15) [], 0⟩

theorem not_end_noPeer (c : Nat) (s : Stack) : ¬ End noPeer c s := fun h => by
  have hshort : (List.replicate (2 ^ 15) ([] : List UInt8)).length + 1 < 2 ^ 15 := h.peerShort
  rw [List.length_replicate] at hshort
  omega

/-- Whatever is sent, the other connections are left alone. -/
theorem cspRdpSendCmp_noPeer (hfits : Fits s) (a : Ambient) (packet : Option (List UInt8))
    (flags : BitVec 8) (seqNr ackNr : BitVec 16) :
    Moves noPeer c s (cspRdpSendCmp a c packet flags seqNr ackNr s).1 :=
  cspRdpSendCmp_moves hfits a fun h => absurd h (not_end_noPeer c s)

/-- A connection that is still to be opened has no end yet. -/
theorem not_end_of_state (hopen : (s.conns c).isOpen = true)
    (hstate : (s.conns c).state = .closed ∨ (s.conns c).state = .synSent) : ¬ End p c s := fun h => by
  have hgoing : (!(decide ((s.conns c).state = .closed) || decide ((s.conns c).state = .synSent))) =
      true := h.alive hopen
  rcases hstate with hstate | hstate <;> rw [hstate] at hgoing <;> exact absurd hgoing (by decide)

/-- A connection gets its numbers, and answers. -/
theorem setUp_moves (hfits : Fits s) (hend : ¬ End p c s) (f : Conn → Conn) (a : Ambient)
    (packet : Option (List UInt8)) (flags : BitVec 8) (seqNr ackNr : BitVec 16) :
    Moves p c s (cspRdpSendCmp a c packet flags seqNr ackNr (s.update c f)).1 := by
  have hsend := cspRdpSendCmp_noPeer (c := c) (update_fits hfits c f) a packet flags seqNr ackNr
  exact ⟨hsend.fits, (update_apart s c f).trans hsend.apart, fun h => absurd h hend⟩

theorem closedReceived_moves (hfits : Fits s) (a : Ambient) (junk : Mem) (seg : Segment)
    (hend : ¬ End p c s) : Moves p c s (closedReceived a junk c seg s) := by
  rw [closedReceived]
  split
  · have hreset : Moves p c s
        (cspRdpSendCmp a c none RDP_RST (s.conns c).sndNxt (s.conns c).rcvCur s).1 :=
      sendControl_moves hfits _ _ rfl rfl
    exact hreset.trans (discardClose_moves hreset.fits _ _)
  · exact setUp_moves hfits hend ..

theorem synSentReceived_moves (hfits : Fits s) (a : Ambient) (seg : Segment) (hend : ¬ End p c s) :
    Moves p c s (synSentReceived a c seg s) := by
  rw [synSentReceived]
  split
  · exact setUp_moves hfits hend ..
  · split
    · exact sendControl_moves hfits _ _ rfl rfl
    · exact discardClose_moves hfits _ _

theorem cspRdpNewPacket_moves (hfits : Fits s) (a : Ambient) (junk : Mem) {seg : Segment}
    (hopen : (s.conns c).isOpen = true) (harrives : Arrives p (s.conns c).sndIss seg) :
    Moves p c s (cspRdpNewPacket a junk c seg s).1 := by
  rw [cspRdpNewPacket]
  split
  · exact resetReceived_moves hfits a harrives
  · cases hstate : (s.conns c).state with
    | closed => exact closedReceived_moves hfits a junk seg (not_end_of_state hopen (Or.inl hstate))
    | synSent => exact synSentReceived_moves hfits a seg (not_end_of_state hopen (Or.inr hstate))
    | synRcvd => exact openReceived_moves hfits a harrives
    | opened => exact openReceived_moves hfits a harrives
    | closeWait => exact closeWaitReceived_moves hfits a harrives

theorem rdpArrive_moves (hfits : Fits s) (a : Ambient) (junk : Mem) {seg : Segment}
    (harrives : Arrives p (s.conns c).sndIss seg) : Moves p c s (rdpArrive a junk c seg s) := by
  rw [rdpArrive]
  split
  · exact Moves.refl hfits
  next hopen =>
  have hnew : Moves p c s (cspRdpNewPacket a junk c seg s).1 :=
    cspRdpNewPacket_moves hfits a junk (by simpa using hopen) harrives
  cases hcase : cspRdpNewPacket a junk c seg s with
  | mk s₁ close =>
    rw [hcase] at hnew
    cases close with
    | false => exact hnew
    | true => exact hnew.trans (cspConnClose_moves hnew.fits _ _)

/-! ## §3 Timeouts -/

/-- Segments of this end are taken from their queue, and others put there: those that stay are
    its segments, and those that are gone have arrived. -/
theorem txq_moves {txq' : List (Nat × Segment × BitVec 32)} (hfits : Fits s)
    (hlen : txq'.length ≤ RDP_QUEUE_LEN) (hbeside : Beside c s.txq txq')
    (hsends : End p c s → ∀ x ∈ mine c txq', (s.conns c).Sends x.1)
    (hkept : End p c s → ∀ x ∈ mine c s.txq,
      (∃ x' ∈ mine c txq', ∀ seqNr data, x.1.Holds seqNr data → x'.1.Holds seqNr data) ∨
        ∀ m < (s.conns c).given.length, x.1.seqNr = nth (s.conns c).sndIss (m + 1) → m < p.received) :
    Moves p c s { s with txq := txq' } where
  fits := ⟨hfits.rxq, hlen⟩
  apart := ⟨fun _ _ => rfl, Beside.refl _, hbeside, fun _ _ => rfl⟩
  keeps := fun h => by
    refine ⟨{ h with queue := hsends h, kept := fun hopen m data hm => ?_ }, Grows.refl _⟩
    have hlt : m < (s.conns c).given.length := (List.getElem?_eq_some_iff.mp hm).1
    rcases h.kept hopen m data hm with hold | ⟨x, hx, hholds⟩
    · exact Or.inl hold
    · rcases hkept h x hx with ⟨x', hx', hholds'⟩ | hgone
      · exact Or.inr ⟨x', hx', hholds' _ _ hholds⟩
      · exact Or.inl (hgone m hlt hholds.seqNr)

/-- What comes before `snd_una` has arrived. -/
theorem End.acknowledged (h : End p c s) {seqNr : BitVec 16} {m : Nat}
    (hm : m < (s.conns c).given.length) (hseq : seqNr = nth (s.conns c).sndIss (m + 1))
    (hbefore : cspRdpSeqBefore seqNr (s.conns c).sndUna = true) : m < p.received := by
  obtain ⟨u, hu, huna⟩ : ∃ u ≤ p.received + 1, (s.conns c).sndUna = nth (s.conns c).sndIss u := h.una
  have hshort : (s.conns c).given.length + 1 < 2 ^ 15 := h.short
  have hheard : p.received ≤ (s.conns c).given.length := h.heard
  rw [cspRdpSeqBefore, hseq, huna, before_nth (by omega) (by omega) (by decide)] at hbefore
  omega

section Taken

variable {seg : Segment} {t : BitVec 32} {rest : List (Nat × Segment × BitVec 32)}

/-- A segment that has been acknowledged is freed. -/
theorem txFree_moves (hfits : Fits s) (hmine : mine c s.txq = (seg, t) :: mine c rest)
    (hperm : ((c, seg, t) :: rest).Perm s.txq)
    (hbefore : cspRdpSeqBefore seg.seqNr (s.conns c).sndUna = true) :
    Moves p c s { s with txq := rest } := by
  refine txq_moves hfits (taken_length hperm hfits.txq).le (beside_taken hperm) (fun h x hx => ?_)
    fun h x hx => ?_
  · exact h.queue x (taken_sub hmine x hx)
  · rw [hmine, List.mem_cons] at hx
    rcases hx with rfl | hx
    · exact Or.inr fun m hm hseq => h.acknowledged hm hseq hbefore
    · exact Or.inl ⟨x, hx, fun _ _ hholds => hholds⟩

/-- A segment is put back, perhaps with a new acknowledgement. -/
theorem txPutBack_moves (hfits : Fits s) (hmine : mine c s.txq = (seg, t) :: mine c rest)
    (hperm : ((c, seg, t) :: rest).Perm s.txq) (seg' : Segment) (t' : BitVec 32)
    (hholds : ∀ seqNr data, seg.Holds seqNr data → seg'.Holds seqNr data)
    (hsends : End p c s → (s.conns c).Sends seg') :
    Moves p c s (cspRdpQueueTxAdd { s with txq := rest } c seg' t') := by
  have hlen := taken_length hperm hfits.txq
  have hadd : mine c (add RDP_QUEUE_LEN rest (c, seg', t')) = mine c rest ++ [(seg', t')] :=
    mine_add hlen _
  refine txq_moves hfits (add_length_le hlen.le _) ((beside_taken hperm).trans (beside_add _))
    (fun h x hx => ?_) fun h x hx => ?_
  · rw [hadd, List.mem_append, List.mem_singleton] at hx
    rcases hx with hx | rfl
    · exact h.queue x (taken_sub hmine x hx)
    · exact hsends h
  · rw [hmine, List.mem_cons] at hx
    rw [hadd]
    rcases hx with rfl | hx
    · exact Or.inl ⟨_, List.mem_append_right _ List.mem_cons_self, hholds⟩
    · exact Or.inl ⟨x, List.mem_append_left _ hx, fun _ _ h => h⟩

/-- A segment that is sent again acknowledges what has been received since. -/
theorem End.again (h : End p c s) (hmine : mine c s.txq = (seg, t) :: mine c rest) :
    (s.conns c).Sends { seg with ackNr := (s.conns c).rcvCur } := by
  have hseg : (s.conns c).Sends seg := h.queue (seg, t) (by rw [hmine]; exact List.mem_cons_self)
  obtain ⟨⟨n, hseq, hle, hdata⟩, -⟩ := hseg
  exact ⟨⟨n, hseq, hle, hdata⟩, fun _ => ⟨_, Nat.le_refl _, h.cur.trans (congrArg (nth · _) h.irs.symm)⟩⟩

end Taken

theorem timeoutLoop_moves (hfits : Fits s) (a : Ambient) (now : BitVec 32) (count : Nat) :
    Moves p c s (timeoutLoop a now c count s) := by
  induction count generalizing s a with
  | zero => exact Moves.refl hfits
  | succ count ih =>
    rw [timeoutLoop]
    rcases get_spec (c := c) hfits.txq with ⟨-, hget⟩ | ⟨⟨seg, t⟩, rest, hget, hmine, hperm⟩
    · rw [hget]
      exact Moves.refl hfits
    rw [hget]
    simp only
    split
    · next hbefore =>
      have hfree : Moves p c s { s with txq := rest } := txFree_moves hfits hmine hperm hbefore
      exact hfree.trans (ih hfree.fits _)
    split
    · -- sent again, if there is a buffer for the copy
      cases hbuffer : a.buffer 0 with
      | false =>
        have hback : Moves p c s (cspRdpQueueTxAdd { s with txq := rest } c
            { seg with ackNr := (s.conns c).rcvCur } (a.ms 0)) :=
          txPutBack_moves hfits hmine hperm _ _ (fun _ _ h => ⟨h.seqNr, h.data, h.flags⟩) fun h =>
            h.again hmine
        exact hback.trans (ih hback.fits _)
      | true =>
        have hemit : Moves p c s (s.emit c { seg with ackNr := (s.conns c).rcvCur }) :=
          ⟨⟨hfits.rxq, hfits.txq⟩, emit_apart .., fun h => ⟨h.emit (h.again hmine), Grows.refl _⟩⟩
        have hback := hemit.trans (txPutBack_moves hemit.fits hmine hperm
          { seg with ackNr := (s.conns c).rcvCur } (a.ms 0)
          (fun _ _ h => ⟨h.seqNr, h.data, h.flags⟩) fun h => h.again hmine)
        exact hback.trans (ih hback.fits _)
    · have hback : Moves p c s (cspRdpQueueTxAdd { s with txq := rest } c seg t) :=
        txPutBack_moves hfits hmine hperm _ _ (fun _ _ h => h) fun h =>
          h.queue (seg, t) (by rw [hmine]; exact List.mem_cons_self)
      exact hback.trans (ih hback.fits _)

theorem cspRdpCheckTimeouts_moves (hfits : Fits s) (a : Ambient) :
    Moves p c s (cspRdpCheckTimeouts a c s) := by
  rw [cspRdpCheckTimeouts]
  simp only
  split
  · exact cspConnClose_moves hfits _ _
  split
  · split
    · exact cspConnClose_moves hfits _ _
    · exact Moves.refl hfits
  · have hloop : Moves p c s (timeoutLoop (a.later 4) (a.ms 0) c s.txq.length s) :=
      timeoutLoop_moves hfits _ _ _
    generalize timeoutLoop (a.later 4) (a.ms 0) c s.txq.length s = s₁ at hloop ⊢
    split
    · have hack := hloop.trans (cspRdpCheckAck_moves hloop.fits (a.later 1))
      exact hack.trans (flushLoop_moves hack.fits _)
    · exact hloop.trans (flushLoop_moves hloop.fits _)

/-! ## §4 The tasks -/

/-- The segment with the next data. -/
def nextSegment (conn : Conn) (data : List UInt8) : Segment :=
  ⟨RDP_ACK, conn.sndNxt, conn.rcvCur, data⟩

def Conn.send (conn : Conn) (data : List UInt8) : Conn :=
  { conn with sndNxt := conn.sndNxt + 1, given := conn.given ++ [data] }

theorem Conn.send_grows (conn : Conn) (data : List UInt8) : Grows conn.view (conn.send data).view :=
  ⟨rfl, rfl, rfl, List.prefix_append .., List.prefix_refl _⟩

theorem End.nextSegment (h : End p c s) (data : List UInt8) :
    ((s.conns c).send data).Sends (nextSegment (s.conns c) data) where
  numbered := by
    refine ⟨(s.conns c).given.length + 1, h.nxt, ?_, fun _ _ => ⟨_, rfl, ?_⟩⟩
    · rw [Conn.send, List.length_append]
      omega
    · exact List.getElem?_concat_length
  ackNr := fun _ => ⟨_, Nat.le_refl _, h.cur.trans (congrArg (nth · _) h.irs.symm)⟩

/-- The window: `snd_nxt` stays within it. -/
theorem End.window (h : End p c s) (hready : cspRdpIsConnReadyForTx (s.conns c) = true)
    (hpos : 0 < (s.conns c).view.window.toNat) (hle : (s.conns c).view.window.toNat ≤ 2 ^ 15) :
    (s.conns c).given.length + 1 ≤ p.received + (s.conns c).view.window.toNat := by
  obtain ⟨u, hu, huna⟩ : ∃ u ≤ p.received + 1, (s.conns c).sndUna = nth (s.conns c).sndIss u := h.una
  have hshort : (s.conns c).given.length + 1 < 2 ^ 15 := h.short
  have hheard : p.received ≤ (s.conns c).given.length := h.heard
  have hnxt : (s.conns c).sndNxt = nth (s.conns c).sndIss ((s.conns c).given.length + 1) := h.nxt
  obtain ⟨w, hw⟩ : ∃ w, (s.conns c).view.window.toNat = w + 1 := Nat.exists_eq_add_of_le' hpos
  have hwindow : (s.conns c).opts.windowSize.setWidth 16 = BitVec.ofNat 16 w + 1 := by
    have hview : (s.conns c).opts.windowSize.setWidth 16 = (s.conns c).view.window := rfl
    rw [hview, ← BitVec.setWidth_eq (s.conns c).view.window, ← BitVec.ofNat_toNat, hw,
      BitVec.ofNat_add]
    rfl
  have hlast : (s.conns c).sndUna + (s.conns c).opts.windowSize.setWidth 16 - 1 =
      nth (s.conns c).sndIss (u + w) := by
    rw [hwindow, huna, nth_add, ← BitVec.add_assoc, BitVec.add_sub_cancel]
  rw [cspRdpIsConnReadyForTx, cspRdpSeqAfter, cspRdpSeqBefore, hlast, hnxt, Bool.not_eq_true',
    ← Bool.not_eq_true, before_nth (by omega) (by omega) (by decide)] at hready
  omega

/-- Data are sent: they get the next number, and stay in the queue. -/
theorem End.send (h : End p c s) (t : BitVec 32) {data : List UInt8}
    (hready : cspRdpIsConnReadyForTx (s.conns c) = true) (hshort : Short ((s.conns c).given ++ [data])) :
    EndOf p ((s.conns c).send data).view (mine c s.rxq)
      (mine c s.txq ++ [(Csp.nextSegment (s.conns c) data, t)]) (mine c s.wire) := by
  have hgrows := (s.conns c).send_grows data
  refine { h with
    short := hshort, nxt := ?_, heard := h.heard.trans hgrows.given.length_le
    flow := fun hpos hle => ?_
    wire := fun seg hseg => (h.wire seg hseg).mono hgrows.given (Nat.le_refl _)
    queue := fun x hx => ?_, kept := fun hopen m d hm => ?_ }
  · have hlen : ((s.conns c).send data).view.given.length = (s.conns c).given.length + 1 :=
      List.length_append ..
    rw [hlen]
    exact (congrArg (· + 1) h.nxt).trans (nth_succ ..).symm
  · have hlen : ((s.conns c).send data).view.given.length = (s.conns c).given.length + 1 :=
      List.length_append ..
    rw [hlen]
    exact h.window hready hpos hle
  · rw [List.mem_append, List.mem_singleton] at hx
    rcases hx with hx | rfl
    · exact (h.queue x hx).mono hgrows.given (Nat.le_refl _)
    · exact h.nextSegment data
  · replace hm : ((s.conns c).given ++ [data])[m]? = some d := hm
    rcases Nat.lt_or_ge m (s.conns c).given.length with hlt | hge
    · rw [List.getElem?_append_left hlt] at hm
      rcases h.kept hopen m d hm with hold | ⟨x, hx, hnr⟩
      · exact Or.inl hold
      · exact Or.inr ⟨x, List.mem_append_left _ hx, hnr⟩
    · -- the new one
      have hm' := (List.getElem?_eq_some_iff.mp hm).1
      rw [List.length_append, List.length_singleton] at hm'
      obtain rfl : m = (s.conns c).given.length := by omega
      rw [List.getElem?_concat_length] at hm
      exact Or.inr ⟨_, List.mem_append_right _ List.mem_cons_self, h.nxt, Option.some.inj hm, rfl⟩

/-- The connection and its queue once data have been sent. -/
def Stack.sent (s : Stack) (c : Nat) (data : List UInt8) (t : BitVec 32) : Stack :=
  ((cspRdpQueueTxAdd s c (nextSegment (s.conns c) data) t).update c (Conn.send · data)).emit c
    (nextSegment (s.conns c) data)

/-- `csp_send` goes on: there is room in the window, and a buffer for the copy. -/
structure Ready (a : Ambient) (conn : Conn) : Prop where
  window : cspRdpIsConnReadyForTx conn = true
  buffer : a.buffer 0 = true

/-- What `csp_rdp_send` may do. -/
theorem cspRdpSend_cases (a : Ambient) (c : Nat) (data : List UInt8) (s : Stack) :
    cspRdpSend a c data s = (s, none) ∨ Ready a (s.conns c) ∧ cspRdpSend a c data s =
      ((cspRdpQueueTxAdd s c (nextSegment (s.conns c) data) (a.ms 0)).update c (Conn.send · data),
        some (nextSegment (s.conns c) data)) := by
  rw [cspRdpSend]
  simp only
  split
  · exact Or.inl rfl
  next hready =>
  split
  · exact Or.inl rfl
  split
  · exact Or.inl rfl
  next hbuffer =>
  simp only [Bool.or_eq_true, Bool.not_eq_true', not_or, Bool.not_eq_false] at hready hbuffer
  exact Or.inr ⟨⟨hready.2, hbuffer⟩, rfl⟩

theorem cspSend_cases (a : Ambient) (c : Nat) (data : List UInt8) (s : Stack) :
    cspSend a c data s = s ∨ Ready a (s.conns c) ∧ cspSend a c data s = s.sent c data (a.ms 0) := by
  rw [cspSend]
  split
  · exact Or.inl rfl
  rcases cspRdpSend_cases a c data s with hnone | ⟨hready, hsome⟩
  · rw [hnone]
    exact Or.inl rfl
  · rw [hsome]
    exact Or.inr ⟨hready, rfl⟩

/-- `csp_send`.  For what is sent not to be lost, there has to be a place in the queue for it. -/
theorem cspSend_moves (hfits : Fits s) (a : Ambient) (data : List UInt8)
    (hroom : End p c s → a.buffer 0 = true → s.txq.length < RDP_QUEUE_LEN)
    (hshort : End p c s → Short ((s.conns c).given ++ [data])) :
    Moves p c s (cspSend a c data s) := by
  rcases cspSend_cases a c data s with hsame | ⟨hready, hsent⟩
  · rw [hsame]
    exact Moves.refl hfits
  · rw [hsent]
    have hconn : (s.sent c data (a.ms 0)).conns c = (s.conns c).send data := by
      rw [Stack.sent, Stack.emit, update_self, cspRdpQueueTxAdd]
    refine ⟨?_, ?_, fun h => ⟨?_, ?_⟩⟩
    · have hadd := update_fits (txAdd_fits hfits c (nextSegment (s.conns c) data) (a.ms 0)) c
        (Conn.send · data)
      exact ⟨hadd.rxq, hadd.txq⟩
    · exact ((txAdd_apart ..).trans (update_apart ..)).trans (emit_apart ..)
    · apply End.emit
      · rw [End, update_self]
        change EndOf p _ _ (mine c (add RDP_QUEUE_LEN s.txq _)) _
        rw [mine_add (hroom h hready.buffer)]
        exact h.send (a.ms 0) hready.window (hshort h)
      · rw [update_self]
        exact h.nextSegment data
    · rw [hconn]
      exact (s.conns c).send_grows data

/-- `csp_read`. -/
theorem cspRead_moves (hfits : Fits s) (a : Ambient) : Moves p c s (cspRead a c s) := by
  rw [cspRead]
  split
  · exact Moves.refl hfits
  next hopen =>
  cases hqueue : (s.conns c).rxQueue with
  | nil => exact Moves.refl hfits
  | cons packet rest =>
    simp only
    have hread : Moves p c s (s.update c fun conn =>
        { conn with rxQueue := rest, taken := conn.taken ++ packet.toList }) := by
      refine update_moves hfits (fun h => ?_) ⟨rfl, rfl, rfl, List.prefix_refl _, List.prefix_refl _⟩
      have hopen' : (s.conns c).isOpen = true := by simpa using hopen
      have hwaits : (s.conns c).taken ++ (s.conns c).rxQueue.reduceOption = (s.conns c).handed :=
        h.waits hopen'
      -- what is read goes from the one to the other
      have hnext : (s.conns c).taken ++ packet.toList ++ rest.reduceOption = (s.conns c).handed := by
        rw [← hwaits, hqueue, List.append_assoc]
        cases packet with
        | none => rw [List.reduceOption_cons_of_none]; rfl
        | some data => rw [List.reduceOption_cons_of_some]; rfl
      exact { h with waits := fun _ => hnext, taken := ⟨_, hnext⟩ }
    split
    · exact hread.trans (cspRdpCheckAck_moves hread.fits _)
    · exact hread

/-! ## §5 Every event -/

/-- What happens to a connection at its own node.  The numbers are not used up, a buffer that is
    found is in no queue, and nobody makes a new connection of this one. -/
def RdpEvent.Local (a : Ambient) (s : Stack) : RdpEvent → Prop
  | .arrive .. => False
  | .send c data => (a.buffer 0 = true → s.rxq.length + s.txq.length < CSP_BUFFER_COUNT) ∧
      Short ((s.conns c).given ++ [data])
  | .accept c => (s.conns c).isOpen = true
  | .connect c _ => (s.conns c).isOpen = true
  | _ => True

/-- The queues have places for all buffers that there are. -/
theorem buffer_count_le : CSP_BUFFER_COUNT ≤ RDP_QUEUE_LEN := by decide

theorem Stack.step_moves (hfits : Fits s) (a : Ambient) {ev : RdpEvent} (hlocal : ev.Local a s) :
    Moves p ev.conn s (s.step a ev) := by
  cases ev with
  | arrive c junk seg => exact absurd hlocal id
  | check c =>
    rw [step]
    split
    · exact cspRdpCheckTimeouts_moves hfits a
    · exact Moves.refl hfits
  | send c data =>
    refine cspSend_moves hfits a data (fun _ hbuffer => ?_) fun _ => hlocal.2
    have := hlocal.1 hbuffer
    have := buffer_count_le
    omega
  | read c => exact cspRead_moves hfits a
  | close c => exact cspConnClose_moves hfits a _
  | accept c =>
    have hopen : (s.conns c).isOpen = true := hlocal
    rw [step, if_pos hopen]
    exact Moves.refl hfits
  | connect c dflt =>
    have hopen : (s.conns c).isOpen = true := hlocal
    rw [step, if_pos hopen]
    exact Moves.refl hfits

/-- A peer that has sent whatever arrives, and received whatever it acknowledges. -/
def anyPeer (seg : Segment) : Peer := ⟨seg.seqNr - 1, [seg.data], 2 ^ 16⟩

theorem arrives_anyPeer (iss : BitVec 16) (seg : Segment) : Arrives (anyPeer seg) iss seg where
  data := fun _ hne => by
    refine ⟨hne, 0, rfl, ?_⟩
    rw [anyPeer, nth_succ, nth_zero, BitVec.sub_add_cancel]
  ackNr := fun _ => by
    refine ⟨(seg.ackNr - iss).toNat, (BitVec.isLt _).le, ?_⟩
    rw [nth, BitVec.ofNat_toNat, BitVec.setWidth_eq, BitVec.add_comm, BitVec.sub_add_cancel]

theorem cspRdpConnect_apart (hfits : Fits s) (a : Ambient) (dflt : Options) (c : Nat) :
    Fits (cspRdpConnect a dflt c s) ∧ Apart c s (cspRdpConnect a dflt c s) := by
  rw [cspRdpConnect]
  generalize hs₁ : s.update c _ = s₁
  have hfits₁ : Fits s₁ := hs₁ ▸ update_fits hfits ..
  have hapart₁ : Apart c s s₁ := hs₁ ▸ update_apart ..
  have hsyn : Fits (cspRdpSendSyn (a.later 2) c s₁).1 ∧ Apart c s (cspRdpSendSyn (a.later 2) c s₁).1 := by
    rw [cspRdpSendSyn]
    split
    · exact ⟨hfits₁, hapart₁⟩
    · have hsend := cspRdpSendCmp_noPeer (c := c) hfits₁ ((a.later 2).later 1)
        (some (s₁.conns c).opts.bytes) RDP_SYN (s₁.conns c).sndIss 0
      exact ⟨hsend.fits, hapart₁.trans hsend.apart⟩
  generalize cspRdpSendSyn (a.later 2) c s₁ = sent at hsyn ⊢
  obtain ⟨s₂, ok⟩ := sent
  cases ok with
  | true => exact hsyn
  | false =>
    obtain ⟨s₃, hmoves, hwait | ⟨state, by', hdone⟩⟩ :=
      cspRdpCloseInternal_cases (p := noPeer) (c := c) hsyn.1 (a.later 5) ⟨false, true, false⟩ false
    · simp only [hwait]
      exact ⟨hmoves.fits, hsyn.2.trans hmoves.apart⟩
    · simp only [hdone]
      exact ⟨update_fits hmoves.fits .., (hsyn.2.trans hmoves.apart).trans (update_apart ..)⟩

/-- Whatever happens to a connection, the others are left alone. -/
theorem Stack.step_apart (hfits : Fits s) (a : Ambient) (ev : RdpEvent) :
    Fits (s.step a ev) ∧ Apart ev.conn s (s.step a ev) := by
  cases ev with
  | arrive c junk seg =>
    have hmoves := rdpArrive_moves hfits a junk (arrives_anyPeer (s.conns c).sndIss seg)
    exact ⟨hmoves.fits, hmoves.apart⟩
  | send c data =>
    have hmoves : Moves noPeer c s (cspSend a c data s) := cspSend_moves hfits a data
      (fun h => absurd h (not_end_noPeer c s)) fun h => absurd h (not_end_noPeer c s)
    exact ⟨hmoves.fits, hmoves.apart⟩
  | accept c =>
    rw [step]
    split
    · exact ⟨hfits, Apart.refl c s⟩
    · exact ⟨update_fits hfits .., update_apart ..⟩
  | connect c dflt =>
    rw [step]
    split
    · exact ⟨hfits, Apart.refl c s⟩
    · have hnew : Apart c s (cspConnNew a false c s) := update_apart ..
      obtain ⟨hfits', hapart⟩ := cspRdpConnect_apart (s := cspConnNew a false c s)
        (update_fits hfits ..) (a.later 1) dflt c
      exact ⟨hfits', hnew.trans hapart⟩
  | check c =>
    -- events that take nothing from outside are moves of any peer
    have hlocal : RdpEvent.Local a s (.check c) := trivial
    have hmoves : Moves noPeer c s _ := step_moves hfits a hlocal
    exact ⟨hmoves.fits, hmoves.apart⟩
  | read c =>
    have hlocal : RdpEvent.Local a s (.read c) := trivial
    have hmoves : Moves noPeer c s _ := step_moves hfits a hlocal
    exact ⟨hmoves.fits, hmoves.apart⟩
  | close c =>
    have hlocal : RdpEvent.Local a s (.close c) := trivial
    have hmoves : Moves noPeer c s _ := step_moves hfits a hlocal
    exact ⟨hmoves.fits, hmoves.apart⟩

/-- A run of a node. -/
def Stack.run (s : Stack) (evs : List (Ambient × RdpEvent)) : Stack :=
  evs.foldl (fun s ev => s.step ev.1 ev.2) s

/-- Through any run of the other connections, a connection keeps its state, what it has sent, and its
    segments in both queues of the node. -/
theorem Stack.run_apart (hfits : Fits s) {evs : List (Ambient × RdpEvent)}
    (hother : ∀ ev ∈ evs, ev.2.conn ≠ c) :
    (s.run evs).conns c = s.conns c ∧ mine c (s.run evs).wire = mine c s.wire ∧
      (mine c (s.run evs).rxq).Perm (mine c s.rxq) ∧ (mine c (s.run evs).txq).Perm (mine c s.txq) := by
  induction evs generalizing s with
  | nil => exact ⟨rfl, rfl, List.Perm.refl _, List.Perm.refl _⟩
  | cons ev evs ih =>
    obtain ⟨hfits', hapart⟩ := step_apart hfits ev.1 ev.2
    have hne : c ≠ ev.2.conn := Ne.symm (hother ev List.mem_cons_self)
    obtain ⟨hconns, hwire, hrxq, htxq⟩ := ih hfits' fun ev' h => hother ev' (List.mem_cons_of_mem _ h)
    exact ⟨hconns.trans (hapart.conns c hne), hwire.trans (hapart.wire c hne),
      hrxq.trans (hapart.rxq c hne), htxq.trans (hapart.txq c hne)⟩

/-- Two open connections; each of them has segments in both queues. -/
def busyStack : Stack :=
  { idleStack with
    conns := fun _ =>
      { idleConn with
        isOpen := true
        state := .opened
        sndNxt := 3
        sndUna := 1
        opts := ⟨4, 10000, 1000, 1, 500, 2⟩ }
    rxq := [(0, ⟨RDP_ACK, 3, 0, [3]⟩), (1, ⟨RDP_ACK, 2, 0, [7]⟩), (0, ⟨RDP_ACK, 2, 0, [2]⟩)]
    txq := [(0, ⟨RDP_ACK, 1, 0, [1]⟩, 0), (1, ⟨RDP_ACK, 1, 0, [4]⟩, 0), (0, ⟨RDP_ACK, 2, 0, [5]⟩, 0)] }

/-- Connection 1 sends again what has not been acknowledged, and gets the segment that was
    missing in front of the one in the queue. -/
def besideEvents : List (Ambient × RdpEvent) :=
  [({ calm with ms := fun _ => 5000 }, .check 1),
    (calm, .arrive 1 (fun _ => 0) ⟨RDP_ACK, 1, 0, [6]⟩)]

theorem Stack.run_apart_busy :
    (busyStack.run besideEvents).rxq ≠ busyStack.rxq ∧
      (busyStack.run besideEvents).txq ≠ busyStack.txq ∧
      (busyStack.run besideEvents).conns 0 = busyStack.conns 0 ∧
      mine 0 (busyStack.run besideEvents).wire = mine 0 busyStack.wire ∧
      (mine 0 (busyStack.run besideEvents).rxq).Perm (mine 0 busyStack.rxq) ∧
      (mine 0 (busyStack.run besideEvents).txq).Perm (mine 0 busyStack.txq) :=
  ⟨by decide, by decide, run_apart ⟨by decide, by decide⟩ (by decide)⟩

end AppSysManager.Csp
