import AppSysManager.Csp.Fragmentation

/-!
# The Bus

Runs of the CAN interface: frames arrive from any number of senders, mixed in any way, while the
router takes packets from its queue and frees them.

The state is the interface together with the buffers that the router has taken and not freed
yet.  A frame comes with readings of an unbounded clock; `csp_get_ms` wraps it to 32 bits.

- `run_safe`: in every run whose cleanups do not meet two neighbours that have timed out, every
  buffer stays in one place, and no buffer is freed twice.
- `run_delivers`: if the frames of every connection are those of whole packets, and they come in
  time, the router gets every packet once, in the order of its connection and as it was sent.
- `run_lossy`: if frames are lost, packets time out, or buffers run out, the router gets less
  than that and nothing else, as long as no packet misses its BEGIN frame or eight fragments.
-/

namespace AppSysManager.Csp

open AppSysManager.Bytes AppSysManager.Node AppSysManager.Channels
open AppSysManager.Server (CSP_BUFFER_SIZE)

/-! ## §1 Runs -/

/-- What happens to the interface. -/
inductive Event where
  /-- `csp_can2_rx`, with the readings of the clock. -/
  | frame (clock : Clock) (frame : CanFrame)
  /-- `csp_qfifo_read`. -/
  | read
  /-- `csp_buffer_free` of a packet that was read. -/
  | release (p : Nat)

/-- `csp_get_ms` has 32 bits. -/
def Clock.wrap (clock : Clock) : Clock :=
  ⟨clock.find % 2 ^ 32, clock.cleanup % 2 ^ 32, clock.new % 2 ^ 32⟩

/-- The interface, and the buffers in the hands of the router. -/
structure Bus where
  net : Net
  held : List Nat

namespace Bus

/-- One event, and the packet that the router gets, if it is a reading of the queue. -/
def step (b : Bus) : Event → Option (Bus × Option Packet)
  | .frame clock frame =>
    match cspCan2Rx b.net clock.wrap frame with
    | none => none
    | some net => some (⟨net, b.held⟩, none)
  | .read =>
    match b.net.qfifo with
    | [] => some (b, none)
    | (p, _) :: rest => some (⟨{ b.net with qfifo := rest }, p :: b.held⟩, some (b.net.packet p))
  | .release p =>
    if p ∈ b.held then some (⟨cspBufferFree b.net p, b.held.erase p⟩, none) else some (b, none)

/-- A run, and the packets that the router gets. -/
def run (b : Bus) : List Event → Option (Bus × List Packet)
  | [] => some (b, [])
  | e :: es =>
    match b.step e with
    | none => none
    | some (b', out) =>
      match b'.run es with
      | none => none
      | some (b'', outs) => some (b'', out.toList ++ outs)

/-- The packets in the queue of the router. -/
def waiting (b : Bus) : List Packet := b.net.qfifo.map fun x => b.net.packet x.1

end Bus

/-- The frames of a run, in order. -/
def framesOf : List Event → List CanFrame
  | [] => []
  | .frame _ frame :: es => frame :: framesOf es
  | .read :: es => framesOf es
  | .release _ :: es => framesOf es

/-- The frames of one connection. -/
def framesOn (k : Nat) (es : List Event) : List CanFrame :=
  (framesOf es).filter (·.conn = k)

theorem framesOn_frame_self (clock : Clock) (frame : CanFrame) (es : List Event) :
    framesOn frame.conn (.frame clock frame :: es) = frame :: framesOn frame.conn es := by
  rw [framesOn, framesOf, List.filter_cons_of_pos (by simp), framesOn]

theorem framesOn_frame_of_ne {k : Nat} {frame : CanFrame} (h : k ≠ frame.conn) (clock : Clock)
    (es : List Event) : framesOn k (.frame clock frame :: es) = framesOn k es := by
  rw [framesOn, framesOf, List.filter_cons_of_neg (by simpa using Ne.symm h), framesOn]

/-! ## §2 One event -/

/-- A state of the bus and what it stands for: `l` are the half received packets, which the table
    shows, and `queue` are the CSP frames in the queue of the router. -/
structure Shows (b : Bus) (l : List Nat) (t : Table) (queue : List (List UInt8)) : Prop where
  refines : Refines b.net l b.held t
  queued : List.Forall₂ (Carries · b.net.can.addr ·) b.waiting queue

/-- The cleanup that an event may cause does not meet two neighbours that have timed out. -/
def Bus.Sparse (b : Bus) : Event → Prop
  | .frame clock frame => ∀ l, Chain b.net.pbufs.next b.net.pbufs.head l → frame.isBegin = true →
    (∀ q ∈ l, (b.net.packet q).conn ≠ frame.conn) →
    Channels.Sparse (expired b.net clock.wrap.cleanup) l
  | _ => True

/-- What a frame does to the table, in the situation of `b`. -/
def Bus.tableStep (b : Bus) (l : List Nat) (clock : Clock) (t : Table) (frame : CanFrame) :
    Table × Option (List UInt8) :=
  Csp.tableStep (hasRoom b.net l clock.wrap.cleanup) clock.wrap t frame

/-- What becomes of the queue; a packet that finds it full is dropped. -/
def Bus.enqueued (b : Bus) (out : Option (List UInt8)) : List (List UInt8) :=
  if b.net.qfifo.length < CSP_QFIFO_LEN then out.toList else []

namespace Shows

variable {b : Bus} {l : List Nat} {t : Table} {queue : List (List UInt8)}

/-- A frame arrives. -/
theorem frame (h : Shows b l t queue) {clock : Clock} {frame : CanFrame}
    (hsparse : b.Sparse (.frame clock frame)) :
    ∃ b' l', b.step (.frame clock frame) = some (b', none) ∧
      Shows b' l' (b.tableStep l clock t frame).1
        (queue ++ b.enqueued (b.tableStep l clock t frame).2) ∧
      b'.held = b.held ∧ b'.net.can.addr = b.net.can.addr ∧
      b.net.free.length ≤ b'.net.free.length + (if frame.isBegin then 1 else 0) := by
  obtain ⟨net', l', hrx, hafter⟩ := cspCan2Rx_refines h.refines clock.wrap frame
    fun hnone hbegin => hsparse l h.refines.pool.chain hbegin fun q hq hconn => by
      have hentry := h.refines.shows q hq
      rw [hconn, hnone] at hentry
      exact absurd hentry (by simp)
  have hstep : b.step (.frame clock frame) = some (⟨net', b.held⟩, none) := by
    simp only [Bus.step, hrx]
  -- the packets in the queue are not touched
  have hkept : b.net.qfifo.map (fun x => net'.packet x.1) = b.waiting := by
    apply List.map_congr_left
    intro x hx
    exact hafter.others x.1 (List.mem_append_left _ (List.mem_map_of_mem hx))
  refine ⟨⟨net', b.held⟩, l', hstep, ⟨hafter.refines, ?_⟩, rfl, hafter.addr, hafter.free⟩
  have hdelivers := hafter.delivers
  change List.Forall₂ (Carries · net'.can.addr ·) (net'.qfifo.map fun x => net'.packet x.1) _
  rw [hafter.addr, Bus.enqueued]
  cases hout : (b.tableStep l clock t frame).2 with
  | none =>
    rw [← Bus.tableStep, hout] at hdelivers
    rw [show net'.qfifo = b.net.qfifo from hdelivers, hkept]
    simpa using h.queued
  | some out =>
    rw [← Bus.tableStep, hout, Delivers] at hdelivers
    by_cases hroom : b.net.qfifo.length < CSP_QFIFO_LEN
    · rw [if_pos hroom] at hdelivers ⊢
      obtain ⟨p, hqfifo, hcarries⟩ := hdelivers
      rw [hqfifo, List.map_append, hkept]
      exact List.rel_append h.queued (.cons hcarries .nil)
    · rw [if_neg hroom] at hdelivers ⊢
      rw [hdelivers, hkept, List.append_nil]
      exact h.queued

theorem queue_length (h : Shows b l t queue) : b.net.qfifo.length = queue.length := by
  rw [← h.queued.length_eq, Bus.waiting, List.length_map]

section Head

variable {bytes : List UInt8} {p : Nat} {input : IfaceName} {rest : List (Nat × IfaceName)}

/-- The first packet of the queue. -/
theorem head (h : Shows b l t (bytes :: queue)) (hqfifo : b.net.qfifo = (p, input) :: rest) :
    Carries (b.net.packet p) b.net.can.addr bytes := by
  have hqueued := h.queued
  rw [Bus.waiting, hqfifo, List.map_cons] at hqueued
  exact (List.forall₂_cons.mp hqueued).1

/-- It is taken off the queue. -/
theorem readOff (h : Shows b l t (bytes :: queue)) (hqfifo : b.net.qfifo = (p, input) :: rest) :
    Shows ⟨{ b.net with qfifo := rest }, p :: b.held⟩ l t queue := by
  have hqueued := h.queued
  rw [Bus.waiting, hqfifo, List.map_cons] at hqueued
  exact ⟨h.refines.congr (h.refines.pool.qfifoRead hqfifo) fun _ _ => rfl,
    (List.forall₂_cons.mp hqueued).2⟩

end Head

/-- The router reads the queue. -/
theorem read (h : Shows b l t queue) :
    ∃ b' out queue' read, b.step .read = some (b', out) ∧ Shows b' l t queue' ∧
      queue = read ++ queue' ∧ List.Forall₂ (Carries · b.net.can.addr ·) out.toList read ∧
      b'.net.can.addr = b.net.can.addr ∧ b'.net.free = b.net.free ∧
      b'.net.qfifo.length ≤ b.net.qfifo.length := by
  have hlen := h.queue_length
  cases hq : b.net.qfifo with
  | nil =>
    refine ⟨b, none, queue, [], ?_, h, rfl, .nil, rfl, rfl, ?_⟩
    · simp only [Bus.step, hq]
    · rw [hq]
  | cons x rest =>
    obtain ⟨p, iface⟩ := x
    cases queue with
    | nil =>
      rw [hq] at hlen
      exact absurd hlen (by simp)
    | cons bytes queue' =>
      refine ⟨⟨{ b.net with qfifo := rest }, p :: b.held⟩, some (b.net.packet p), queue', [bytes],
        ?_, h.readOff hq, rfl, .cons (h.head hq) .nil, rfl, rfl, ?_⟩
      · simp only [Bus.step, hq]
      · simp

/-- The router frees a packet. -/
theorem release (h : Shows b l t queue) (p : Nat) :
    ∃ b', b.step (.release p) = some (b', none) ∧ Shows b' l t queue ∧
      b'.net.can.addr = b.net.can.addr ∧ b.net.free.length ≤ b'.net.free.length ∧
      b'.net.qfifo = b.net.qfifo := by
  by_cases hp : p ∈ b.held
  · have hpool : Pool b.net l (p :: b.held.erase p) :=
      h.refines.pool.held_perm (List.perm_cons_erase hp).symm
    have hfree := hpool.free_eq (p := p) (by simp)
    have hpool' := hpool.free rfl
    rw [hfree] at hpool'
    refine ⟨⟨cspBufferFree b.net p, b.held.erase p⟩, ?_, ?_, ?_, ?_, ?_⟩
    · simp only [Bus.step, hp, if_true]
    · rw [hfree]
      exact ⟨h.refines.congr hpool' fun _ _ => rfl, h.queued⟩
    · rw [hfree]
    · rw [hfree]
      simp
    · rw [hfree]
  · refine ⟨b, ?_, h, rfl, Nat.le_refl _, rfl⟩
    simp only [Bus.step, hp, if_false]

end Shows

/-! ## §3 The table, one connection at a time -/

section Table

variable {room : Bool} (clock : Clock) {t : Table} {frame : CanFrame}

/-- The connection of the frame does what `reassemble` does. -/
theorem tableStep_self (hroom : t frame.conn = none → frame.isBegin = true → room = true) :
    ((tableStep room clock t frame).1 frame.conn).map Prod.fst =
        (reassemble ((t frame.conn).map Prod.fst) frame).1 ∧
      (tableStep room clock t frame).2 = (reassemble ((t frame.conn).map Prod.fst) frame).2 := by
  cases hentry : t frame.conn with
  | some entry =>
    rw [tableStep, hentry]
    simp [Function.comp_def]
  | none =>
    rw [tableStep, hentry]
    cases hbegin : frame.isBegin with
    | false => simp [hentry, reassemble_stray hbegin]
    | true => simp [hroom hentry hbegin, Function.comp_def]

/-- Without a buffer for it, the frame is ignored. -/
theorem tableStep_full (hentry : t frame.conn = none) (hbegin : frame.isBegin = true) :
    (tableStep false clock t frame).1 frame.conn = none ∧
      (tableStep false clock t frame).2 = none := by
  rw [tableStep, hentry]
  simp [hbegin, Table.cleanup, hentry]

/-- The other connections are left alone, unless they have timed out. -/
theorem tableStep_other {k : Nat} (hk : k ≠ frame.conn) :
    (tableStep room clock t frame).1 k = t k ∨
      (tableStep room clock t frame).1 k = none ∧
        ∃ entry, t k = some entry ∧ stale clock.cleanup entry.2 = true := by
  -- a cleanup takes what has timed out, and nothing else
  have hcleanup : t.cleanup clock.cleanup k = t k ∨ t.cleanup clock.cleanup k = none ∧
      ∃ entry, t k = some entry ∧ stale clock.cleanup entry.2 = true := by
    cases hentry : t k with
    | none => exact Or.inl (by rw [Table.cleanup, hentry]; rfl)
    | some entry =>
      cases hstale : stale clock.cleanup entry.2 with
      | false => exact Or.inl (by simp [Table.cleanup, hentry, hstale])
      | true => exact Or.inr ⟨by simp [Table.cleanup, hentry, hstale], entry, rfl, hstale⟩
  cases hentry : t frame.conn with
  | some entry =>
    rw [tableStep, hentry]
    exact Or.inl (Function.update_of_ne hk ..)
  | none =>
    rw [tableStep, hentry]
    cases hbegin : frame.isBegin with
    | false => exact Or.inl rfl
    | true =>
      cases room with
      | false => exact hcleanup
      | true =>
        have hupdate := Function.update_of_ne hk
          ((reassemble none frame).1.map (·, clock.new)) (t.cleanup clock.cleanup)
        simp only [if_true, hupdate]
        exact hcleanup

end Table

/-! ## §4 Every run -/

/-- No cleanup of a run meets two neighbours that have timed out. -/
def Bus.Clean (b : Bus) : List Event → Prop
  | [] => True
  | e :: es => b.Sparse e ∧ ∀ b' out, b.step e = some (b', out) → b'.Clean es

/-- Does a cleanup, if there were one now, meet no two neighbours that have timed out? -/
def Bus.sparse (b : Bus) : Event → Bool
  | .frame clock _ =>
    let l := b.net.pbufs.nodes CSP_BUFFER_COUNT b.net.pbufs.head
    decide (Chain b.net.pbufs.next b.net.pbufs.head l ∧
      Channels.Sparse (expired b.net clock.wrap.cleanup) l)
  | _ => true

/-- A run can be seen to be clean by following it. -/
def Bus.clean (b : Bus) : List Event → Bool
  | [] => true
  | e :: es => b.sparse e && (b.step e).all fun x => x.1.clean es

theorem Bus.clean_of {b : Bus} {es : List Event} (h : b.clean es = true) : b.Clean es := by
  induction es generalizing b with
  | nil => trivial
  | cons e es ih =>
    rw [Bus.clean, Bool.and_eq_true] at h
    refine ⟨?_, fun b' out hstep => ih ?_⟩
    · cases e with
      | frame clock frame =>
        obtain ⟨hchain, hsparse⟩ := of_decide_eq_true h.1
        intro l hl _ _
        rw [hl.unique hchain]
        exact hsparse
      | read => trivial
      | release p => trivial
    · simpa [hstep] using h.2

theorem Bus.run_cons {b b₁ b' : Bus} {e : Event} {es : List Event} {out : Option Packet}
    {outs : List Packet} (hstep : b.step e = some (b₁, out)) (hrun : b₁.run es = some (b', outs)) :
    b.run (e :: es) = some (b', out.toList ++ outs) := by
  simp only [Bus.run, hstep, hrun]

/-- What has come of a run from a state with `queue`: the router has read `outs`, and `tagged` are
    the CSP frames that were handed to it, with their connections. -/
structure Outcome (b : Bus) (queue : List (List UInt8)) (b' : Bus) (outs : List Packet)
    (l' : List Nat) (t' : Table) (tagged : List (Nat × List UInt8)) : Prop where
  shows : ∃ queue', Shows b' l' t' queue'
  received : List.Forall₂ (Carries · b.net.can.addr ·) (outs ++ b'.waiting)
    (queue ++ tagged.map Prod.snd)

namespace Outcome

variable {b b₁ b' : Bus} {l l' : List Nat} {t t' : Table} {queue : List (List UInt8)}
variable {outs : List Packet} {tagged : List (Nat × List UInt8)}

theorem nil (h : Shows b l t queue) : Outcome b queue b [] l t [] where
  shows := ⟨queue, h⟩
  received := by simpa using h.queued

/-- A frame in front of a run. -/
theorem frame {enqueued : List (List UInt8)} (haddr : b₁.net.can.addr = b.net.can.addr) (k : Nat)
    (h : Outcome b₁ (queue ++ enqueued) b' outs l' t' tagged) :
    Outcome b queue b' outs l' t' (enqueued.map (Prod.mk k) ++ tagged) where
  shows := h.shows
  received := by
    have hreceived := h.received
    rw [haddr] at hreceived
    simpa [Function.comp_def] using hreceived

/-- A reading in front of a run. -/
theorem read {out : Option Packet} {read queue₁ : List (List UInt8)}
    (haddr : b₁.net.can.addr = b.net.can.addr) (hqueue : queue = read ++ queue₁)
    (hread : List.Forall₂ (Carries · b.net.can.addr ·) out.toList read)
    (h : Outcome b₁ queue₁ b' outs l' t' tagged) :
    Outcome b queue b' (out.toList ++ outs) l' t' tagged where
  shows := h.shows
  received := by
    have hreceived := h.received
    rw [haddr] at hreceived
    rw [hqueue, List.append_assoc, List.append_assoc]
    exact List.rel_append hread hreceived

/-- An event that the router does not see, in front of a run. -/
theorem unseen (haddr : b₁.net.can.addr = b.net.can.addr)
    (h : Outcome b₁ queue b' outs l' t' tagged) : Outcome b queue b' outs l' t' tagged :=
  ⟨h.shows, haddr ▸ h.received⟩

end Outcome

section Tags

variable (k : Nat) (enqueued : List (List UInt8))

theorem tagged_self : ((enqueued.map (Prod.mk k)).filter (·.1 = k)).map Prod.snd = enqueued := by
  rw [List.filter_eq_self.mpr (by simp), List.map_map]
  exact List.map_id _

theorem tagged_other {k' : Nat} (h : k' ≠ k) :
    ((enqueued.map (Prod.mk k)).filter (·.1 = k')).map Prod.snd = [] := by
  simp [Ne.symm h]

end Tags

/-- The connection of a frame, with or without a buffer and a place in the queue for it. -/
theorem Bus.degraded_frame (b : Bus) (l : List Nat) {clock : Clock} {t : Table} {frame : CanFrame}
    {rest : List CanFrame} {outs : List (List UInt8)}
    (h : reassemble.Degraded none (((b.tableStep l clock t frame).1 frame.conn).map Prod.fst)
      rest outs) :
    reassemble.Degraded none ((t frame.conn).map Prod.fst) (frame :: rest)
      (b.enqueued (b.tableStep l clock t frame).2 ++ outs) := by
  by_cases hroom : t frame.conn = none → frame.isBegin = true →
      hasRoom b.net l clock.wrap.cleanup = true
  · obtain ⟨hstate, hout⟩ := tableStep_self clock.wrap hroom
    rw [Bus.tableStep, hstate] at h
    rw [Bus.tableStep, hout, Bus.enqueued]
    by_cases hplace : b.net.qfifo.length < CSP_QFIFO_LEN
    · rw [if_pos hplace]
      exact h.step
    · rw [if_neg hplace, List.nil_append]
      exact h.mute
  · simp only [Classical.not_imp, Bool.not_eq_true] at hroom
    -- a packet that finds no buffer is one that has fallen silent at its start
    obtain ⟨hentry, hbegin, hfull⟩ := hroom
    obtain ⟨hstate, hout⟩ := tableStep_full clock.wrap hentry hbegin
    rw [Bus.tableStep, hfull, hstate] at h
    rw [Bus.tableStep, hfull, hout, hentry]
    have hnone : b.enqueued none = [] := by
      rw [Bus.enqueued]
      split <;> rfl
    rw [hnone, List.nil_append]
    exact (h.fallBack (s := _)).mute

/-- In every clean run each connection produces at most what `reassemble` would have produced,
    had no packet timed out and no buffer been missing. -/
theorem Shows.run_degraded {b : Bus} {l : List Nat} {t : Table} {queue : List (List UInt8)}
    (h : Shows b l t queue) (es : List Event) (hclean : b.Clean es) :
    ∃ b' outs l' t' tagged, b.run es = some (b', outs) ∧ Outcome b queue b' outs l' t' tagged ∧
      ∀ k, reassemble.Degraded none ((t k).map Prod.fst) (framesOn k es)
        ((tagged.filter (·.1 = k)).map Prod.snd) := by
  induction es generalizing b l t queue with
  | nil =>
    refine ⟨b, [], l, t, [], rfl, Outcome.nil h, fun k => ?_⟩
    exact Machine.Degraded.nil _
  | cons e es ih =>
    obtain ⟨hsparse, hrest⟩ := hclean
    cases e with
    | read =>
      obtain ⟨b₁, out, queue₁, read, hstep, hshows, hqueue, hread, haddr, -, -⟩ := h.read
      obtain ⟨b', outs, l', t', tagged, hrun, hout, hdeg⟩ := ih hshows (hrest _ _ hstep)
      exact ⟨b', _, l', t', tagged, Bus.run_cons hstep hrun, hout.read haddr hqueue hread, hdeg⟩
    | release p =>
      obtain ⟨b₁, hstep, hshows, haddr, -, -⟩ := h.release p
      obtain ⟨b', outs, l', t', tagged, hrun, hout, hdeg⟩ := ih hshows (hrest _ _ hstep)
      exact ⟨b', _, l', t', tagged, Bus.run_cons hstep hrun,
        hout.unseen haddr, hdeg⟩
    | frame clock frame =>
      obtain ⟨b₁, l₁, hstep, hshows, -, haddr, -⟩ := h.frame hsparse
      obtain ⟨b', outs, l', t', tagged, hrun, hout, hdeg⟩ := ih hshows (hrest _ _ hstep)
      refine ⟨b', _, l', t', _, Bus.run_cons hstep hrun, hout.frame haddr frame.conn, fun k => ?_⟩
      rw [List.filter_append, List.map_append]
      have hdegk := hdeg k
      by_cases hk : k = frame.conn
      · subst hk
        rw [framesOn_frame_self, tagged_self]
        exact b.degraded_frame l hdegk
      · rw [framesOn_frame_of_ne hk, tagged_other _ _ hk, List.nil_append]
        -- another connection loses its packet at most, if that has timed out
        rcases tableStep_other clock.wrap hk with hsame | ⟨hgone, -⟩
        · rw [Bus.tableStep, hsame] at hdegk
          exact hdegk
        · rw [Bus.tableStep, hgone] at hdegk
          exact hdegk.fallBack

/-! ## §5 Whole packets, in time -/

/-- A frame is ignored, or extends what there is. -/
theorem reassemble_cases (s : Option Partial) (frame : CanFrame) :
    reassemble s frame = (none, none) ∨
      ∃ e bytes data, reassemble s frame = extend e bytes data frame.isEnd := by
  cases hbegin : frame.isBegin with
  | true =>
    by_cases hdlc : frame.data.length < 4
    · exact Or.inl (reassemble_short hbegin hdlc s)
    · exact Or.inr ⟨_, _, _, reassemble_begin hbegin hdlc s⟩
  | false =>
    cases s with
    | none => exact Or.inl (reassemble_stray hbegin)
    | some p =>
      by_cases hfc : p.expected = CFP2_FC.get frame.id
      · exact Or.inr ⟨_, _, _, reassemble_next hbegin hfc⟩
      · exact Or.inl (reassemble_lost hbegin hfc)

theorem reassemble_last {frame : CanFrame} (h : frame.isEnd = true) (s : Option Partial) :
    (reassemble s frame).1 = none := by
  rcases reassemble_cases s frame with heq | ⟨e, bytes, data, heq⟩
  · rw [heq]
  · rw [heq, h, extend]
    split <;> rfl

theorem reassemble_not_last {frame : CanFrame} (h : frame.isEnd = false) (s : Option Partial) :
    (reassemble s frame).2 = none := by
  rcases reassemble_cases s frame with heq | ⟨e, bytes, data, heq⟩
  · rw [heq]
  · rw [heq, h, extend]
    split <;> rfl

/-- The readings of the clock increase, and no frame comes later than `PBUF_TIMEOUT_MS` behind the
    frame of its connection before it, unless that was an END frame.  `waits` holds the time
    since when a connection waits for its next frame. -/
def OnTime (now : Nat) (waits : Nat → Option Nat) : List Event → Prop
  | [] => True
  | .frame clock frame :: es =>
    now ≤ clock.find ∧ clock.find ≤ clock.cleanup ∧ clock.cleanup ≤ clock.new ∧
      (∀ since, waits frame.conn = some since → clock.find ≤ since + PBUF_TIMEOUT_MS) ∧
      OnTime clock.new
        (Function.update waits frame.conn (if frame.isEnd then none else some clock.find)) es
  | .read :: es => OnTime now waits es
  | .release _ :: es => OnTime now waits es

/-- A connection whose next frame comes has not waited too long. -/
theorem OnTime.waits_le {now k since : Nat} {waits : Nat → Option Nat} {es : List Event}
    (h : OnTime now waits es) (hwaits : waits k = some since) (hnext : framesOn k es ≠ []) :
    now ≤ since + PBUF_TIMEOUT_MS := by
  induction es generalizing now waits with
  | nil => exact absurd rfl hnext
  | cons e es ih =>
    cases e with
    | read => exact ih h hwaits hnext
    | release p => exact ih h hwaits hnext
    | frame clock frame =>
      obtain ⟨hfind, hcleanup, hnew, hlate, hrest⟩ := h
      by_cases hk : k = frame.conn
      · have := hlate since (hk ▸ hwaits)
        omega
      · have hle := ih hrest (by rw [Function.update_of_ne hk, hwaits])
          (by rwa [framesOn_frame_of_ne hk] at hnext)
        omega

/-- The 32-bit clock sees a timeout only where there is one. -/
theorem stale_wrap {now since : Nat} (hle : since ≤ now) (hintime : now ≤ since + PBUF_TIMEOUT_MS) :
    stale (now % 2 ^ 32) (since % 2 ^ 32) = false := by
  have hms : PBUF_TIMEOUT_MS = 1000 := rfl
  rw [stale, decide_eq_false_iff_not]
  omega

/-- There is a buffer for a BEGIN frame, and a place in the queue for the packet of an END
    frame. -/
def Bus.RoomFor (b : Bus) : Event → Prop
  | .frame _ frame => (frame.isBegin = true → b.net.free ≠ []) ∧
    (frame.isEnd = true → b.net.qfifo.length < CSP_QFIFO_LEN)
  | _ => True

/-- There always is, all along a run. -/
def Bus.Roomy (b : Bus) : List Event → Prop
  | [] => True
  | e :: es => b.RoomFor e ∧ ∀ b' out, b.step e = some (b', out) → b'.Roomy es

/-- Every entry of the table was made while its connection waited. -/
def Timed (now : Nat) (waits : Nat → Option Nat) (t : Table) : Prop :=
  ∀ k entry, t k = some entry → ∃ since used, waits k = some since ∧ since ≤ used ∧ used ≤ now ∧
    entry.2 = used % 2 ^ 32

/-- The time of the entry that a frame leaves behind. -/
theorem tableStep_time {room : Bool} {clock : Clock} {t : Table} {frame : CanFrame}
    {entry : Partial × Nat} (h : (tableStep room clock t frame).1 frame.conn = some entry) :
    entry.2 = clock.find ∨ entry.2 = clock.new := by
  cases hentry : t frame.conn with
  | some old =>
    rw [tableStep, hentry] at h
    simp only [Function.update_self, Option.map_eq_some_iff] at h
    obtain ⟨p, -, rfl⟩ := h
    exact Or.inl rfl
  | none =>
    rw [tableStep, hentry] at h
    cases hbegin : frame.isBegin with
    | false => simp [hbegin, hentry] at h
    | true =>
      cases room with
      | false => simp [hbegin, Table.cleanup, hentry] at h
      | true =>
        simp only [hbegin, if_true, Function.update_self, Option.map_eq_some_iff] at h
        obtain ⟨p, -, rfl⟩ := h
        exact Or.inr rfl

section OneFrame

variable {now : Nat} {waits : Nat → Option Nat} {t : Table} {clock : Clock} {frame : CanFrame}
variable {es : List Event}

/-- If every connection goes on, none of the others has timed out. -/
theorem Timed.not_stale (h : Timed now waits t)
    (htime : OnTime now waits (.frame clock frame :: es))
    {k : Nat} (hk : k ≠ frame.conn) {entry : Partial × Nat} (hentry : t k = some entry)
    (hnext : framesOn k es ≠ []) : stale clock.wrap.cleanup entry.2 = false := by
  obtain ⟨hfind, hcleanup, hnew, -, hrest⟩ := htime
  obtain ⟨since, used, hwaits, hsince, hused, hlast⟩ := h k entry hentry
  have hle := hrest.waits_le (by rw [Function.update_of_ne hk, hwaits]) hnext
  rw [hlast]
  exact stale_wrap (by omega) (by omega)

/-- The table behind a frame is timed. -/
theorem Timed.step (h : Timed now waits t) (htime : OnTime now waits (.frame clock frame :: es))
    {room : Bool} (hroom : t frame.conn = none → frame.isBegin = true → room = true)
    (hothers : ∀ k, k ≠ frame.conn → (tableStep room clock.wrap t frame).1 k = t k) :
    Timed clock.new
      (Function.update waits frame.conn (if frame.isEnd then none else some clock.find))
      (tableStep room clock.wrap t frame).1 := by
  obtain ⟨hfind, hcleanup, hnew, -, -⟩ := htime
  intro k entry hentry
  by_cases hk : k = frame.conn
  · subst hk
    cases hend : frame.isEnd with
    | true =>
      -- nothing is left behind an END frame
      have hstate := (tableStep_self clock.wrap hroom).1
      rw [reassemble_last hend, hentry] at hstate
      exact absurd hstate (by simp)
    | false =>
      rcases tableStep_time hentry with hlast | hlast
      · exact ⟨clock.find, clock.find, by simp, Nat.le_refl _, by omega, hlast⟩
      · exact ⟨clock.find, clock.new, by simp, by omega, Nat.le_refl _, hlast⟩
  · rw [hothers k hk] at hentry
    obtain ⟨since, used, hwaits, hsince, hused, hlast⟩ := h k entry hentry
    exact ⟨since, used, by rw [Function.update_of_ne hk, hwaits], hsince, by omega, hlast⟩

end OneFrame

/-- The rest of a run in which every connection goes on in time, and comes to the end of a
    packet. -/
structure Going (now : Nat) (waits : Nat → Option Nat) (t : Table) (es : List Event) : Prop where
  onTime : OnTime now waits es
  timed : Timed now waits t
  ends : ∀ k, (reassemble.run ((t k).map Prod.fst) (framesOn k es)).1 = none

namespace Going

variable {now : Nat} {waits : Nat → Option Nat} {t : Table} {clock : Clock} {frame : CanFrame}
variable {es : List Event}

/-- Whoever has an entry goes on, and has not timed out. -/
theorem fresh (h : Going now waits t (.frame clock frame :: es)) {k : Nat} (hk : k ≠ frame.conn)
    {entry : Partial × Nat} (hentry : t k = some entry) :
    stale clock.wrap.cleanup entry.2 = false := by
  apply h.timed.not_stale h.onTime hk hentry
  intro hnil
  have hends := h.ends k
  rw [framesOn_frame_of_ne hk, hnil, hentry] at hends
  exact absurd hends (by simp)

theorem sparse (h : Going now waits t (.frame clock frame :: es)) {b : Bus} {l : List Nat}
    {queue : List (List UInt8)} (hshows : Shows b l t queue) : b.Sparse (.frame clock frame) := by
  intro l' hchain _ hconn
  have hl : l' = l := hchain.unique hshows.refines.pool.chain
  subst hl
  have hexpired : ∀ q ∈ l', expired b.net clock.wrap.cleanup q = false := fun q hq =>
    h.fresh (hconn q hq) (hshows.refines.shows q hq)
  exact (List.pairwise_of_forall_mem_list fun a ha c _ hboth => by
    rw [hexpired a ha] at hboth
    exact absurd hboth.1 (by simp)).isChain

theorem others (h : Going now waits t (.frame clock frame :: es)) {room : Bool} {k : Nat}
    (hk : k ≠ frame.conn) : (tableStep room clock.wrap t frame).1 k = t k := by
  rcases tableStep_other clock.wrap hk with hsame | ⟨-, entry, hentry, hstale⟩
  · exact hsame
  · rw [h.fresh hk hentry] at hstale
    exact absurd hstale (by simp)

theorem step (h : Going now waits t (.frame clock frame :: es)) {room : Bool}
    (hroom : t frame.conn = none → frame.isBegin = true → room = true) :
    Going clock.new
      (Function.update waits frame.conn (if frame.isEnd then none else some clock.find))
      (tableStep room clock.wrap t frame).1 es where
  onTime := h.onTime.2.2.2.2
  timed := h.timed.step h.onTime hroom fun _ hk => h.others hk
  ends := fun k => by
    have hends := h.ends k
    by_cases hk : k = frame.conn
    · subst hk
      rw [framesOn_frame_self, Machine.run_cons] at hends
      rw [(tableStep_self clock.wrap hroom).1]
      exact hends
    · rw [framesOn_frame_of_ne hk] at hends
      rw [h.others hk]
      exact hends

/-- Nothing is left in the end. -/
theorem done (h : Going now waits t []) {b : Bus} {l : List Nat} {queue : List (List UInt8)}
    (hshows : Shows b l t queue) : l = [] := by
  apply List.eq_nil_iff_forall_not_mem.mpr
  intro q hq
  have hk := h.ends (b.net.packet q).conn
  rw [hshows.refines.shows q hq] at hk
  exact absurd hk (by simp [framesOn, framesOf])

end Going

theorem Bus.RoomFor.hasRoom {b : Bus} {clock : Clock} {frame : CanFrame}
    (h : b.RoomFor (.frame clock frame)) (l : List Nat) (now : Nat) (hbegin : frame.isBegin = true) :
    hasRoom b.net l now = true := by
  have hfree := h.1 hbegin
  simp [Csp.hasRoom, hfree]

/-- With a place for it in the queue, what comes of a frame is not lost. -/
theorem Bus.RoomFor.enqueued {b : Bus} {clock : Clock} {frame : CanFrame}
    (h : b.RoomFor (.frame clock frame)) (s : Option Partial) :
    b.enqueued (reassemble s frame).2 = (reassemble s frame).2.toList := by
  rw [Bus.enqueued]
  cases hend : frame.isEnd with
  | true => rw [if_pos (h.2 hend)]
  | false =>
    rw [reassemble_not_last hend]
    split <;> rfl

/-- A frame that comes in time and finds room. -/
theorem Shows.frame_exact {b : Bus} {l : List Nat} {t : Table} {queue : List (List UInt8)}
    {now : Nat} {waits : Nat → Option Nat} {clock : Clock} {frame : CanFrame} {es : List Event}
    (h : Shows b l t queue) (hroom : b.RoomFor (.frame clock frame))
    (hgoing : Going now waits t (.frame clock frame :: es)) :
    ∃ b₁ l₁ t₁, b.step (.frame clock frame) = some (b₁, none) ∧
      Shows b₁ l₁ t₁ (queue ++ (reassemble ((t frame.conn).map Prod.fst) frame).2.toList) ∧
      Going clock.new
        (Function.update waits frame.conn (if frame.isEnd then none else some clock.find)) t₁ es ∧
      (t₁ frame.conn).map Prod.fst = (reassemble ((t frame.conn).map Prod.fst) frame).1 ∧
      (∀ k, k ≠ frame.conn → t₁ k = t k) ∧ b₁.net.can.addr = b.net.can.addr ∧
      b.net.free.length ≤ b₁.net.free.length + (if frame.isBegin then 1 else 0) := by
  have hspace : t frame.conn = none → frame.isBegin = true →
      hasRoom b.net l clock.wrap.cleanup = true := fun _ => hroom.hasRoom l _
  obtain ⟨hstate, hproduces⟩ := tableStep_self clock.wrap hspace
  obtain ⟨b₁, l₁, hstep, hshows, -, haddr, hfree⟩ := h.frame (hgoing.sparse h)
  rw [Bus.tableStep, hproduces, hroom.enqueued] at hshows
  exact ⟨b₁, l₁, _, hstep, hshows, hgoing.step hspace, hstate, fun _ hk => hgoing.others hk, haddr,
    hfree⟩

/-- With room for everything, and every packet in time and complete in the end, each connection
    produces what `reassemble` produces. -/
theorem Shows.run_exact {b : Bus} {l : List Nat} {t : Table} {queue : List (List UInt8)} {now : Nat}
    {waits : Nat → Option Nat} (h : Shows b l t queue) (es : List Event) (hroomy : b.Roomy es)
    (hgoing : Going now waits t es) :
    ∃ b' outs t' tagged, b.run es = some (b', outs) ∧ Outcome b queue b' outs [] t' tagged ∧
      ∀ k, (tagged.filter (·.1 = k)).map Prod.snd =
        (reassemble.run ((t k).map Prod.fst) (framesOn k es)).2 := by
  induction es generalizing b l t queue now waits with
  | nil =>
    have hempty : l = [] := hgoing.done h
    subst hempty
    exact ⟨b, [], t, [], rfl, Outcome.nil h, fun k => rfl⟩
  | cons e es ih =>
    obtain ⟨hroom, hrest⟩ := hroomy
    cases e with
    | read =>
      obtain ⟨b₁, out, queue₁, read, hstep, hshows, hqueue, hread, haddr, -, -⟩ := h.read
      obtain ⟨b', outs, t', tagged, hrun, hout, hexact⟩ :=
        ih hshows (hrest _ _ hstep) ⟨hgoing.onTime, hgoing.timed, hgoing.ends⟩
      exact ⟨b', _, t', tagged, Bus.run_cons hstep hrun, hout.read haddr hqueue hread, hexact⟩
    | release p =>
      obtain ⟨b₁, hstep, hshows, haddr, -, -⟩ := h.release p
      obtain ⟨b', outs, t', tagged, hrun, hout, hexact⟩ :=
        ih hshows (hrest _ _ hstep) ⟨hgoing.onTime, hgoing.timed, hgoing.ends⟩
      exact ⟨b', _, t', tagged, Bus.run_cons hstep hrun, hout.unseen haddr, hexact⟩
    | frame clock frame =>
      obtain ⟨b₁, l₁, t₁, hstep, hshows, hgoing₁, hstate, hothers, haddr, -⟩ :=
        h.frame_exact hroom hgoing
      obtain ⟨b', outs, t', tagged, hrun, hout, hexact⟩ := ih hshows (hrest _ _ hstep) hgoing₁
      refine ⟨b', _, t', _, Bus.run_cons hstep hrun, hout.frame haddr frame.conn, fun k => ?_⟩
      rw [List.filter_append, List.map_append, hexact k]
      by_cases hk : k = frame.conn
      · subst hk
        rw [framesOn_frame_self, tagged_self, Machine.run_cons, hstate]
      · rw [framesOn_frame_of_ne hk, tagged_other _ _ hk, List.nil_append, hothers k hk]

/-- A stock of free buffers and a number of queued packets that leave room for a run, even if the
    router reads and frees nothing. -/
def Budget (free queued : Nat) : List Event → Prop
  | [] => True
  | .frame _ frame :: es =>
    (frame.isBegin = true → 0 < free) ∧ (frame.isEnd = true → queued < CSP_QFIFO_LEN) ∧
      Budget (free - if frame.isBegin then 1 else 0) (queued + if frame.isEnd then 1 else 0) es
  | .read :: es => Budget free queued es
  | .release _ :: es => Budget free queued es

/-- Every frame takes a buffer and a place at most. -/
theorem budget_of_length {free queued : Nat} {es : List Event} (hfree : es.length ≤ free)
    (hqueued : queued + es.length ≤ CSP_QFIFO_LEN) : Budget free queued es := by
  induction es generalizing free queued with
  | nil => trivial
  | cons e es ih =>
    rw [List.length_cons] at hfree hqueued
    cases e with
    | read => exact ih (by omega) (by omega)
    | release p => exact ih (by omega) (by omega)
    | frame clock frame =>
      refine ⟨fun _ => by omega, fun _ => by omega, ih ?_ ?_⟩
      · split <;> omega
      · split <;> omega

theorem Shows.roomy_of_budget {b : Bus} {l : List Nat} {t : Table} {queue : List (List UInt8)}
    {now free queued : Nat} {waits : Nat → Option Nat} (h : Shows b l t queue) {es : List Event}
    (hgoing : Going now waits t es) (hbudget : Budget free queued es)
    (hfree : free ≤ b.net.free.length) (hqueued : queue.length ≤ queued) : b.Roomy es := by
  induction es generalizing b l t queue now waits free queued with
  | nil => trivial
  | cons e es ih =>
    have hlen := h.queue_length
    cases e with
    | read =>
      refine ⟨trivial, fun b' out hstep' => ?_⟩
      obtain ⟨b₁, out₁, queue₁, read, hstep, hshows, hqueue, -, -, hfree₁, -⟩ := h.read
      obtain ⟨rfl, -⟩ := Prod.mk.inj (Option.some.inj (hstep.symm.trans hstep'))
      have hshorter : queue₁.length ≤ queue.length := by
        rw [hqueue, List.length_append]
        omega
      exact ih hshows ⟨hgoing.onTime, hgoing.timed, hgoing.ends⟩ hbudget (hfree₁ ▸ hfree)
        (by omega)
    | release p =>
      refine ⟨trivial, fun b' out hstep' => ?_⟩
      obtain ⟨b₁, hstep, hshows, haddr, hfree₁, -⟩ := h.release p
      obtain ⟨rfl, -⟩ := Prod.mk.inj (Option.some.inj (hstep.symm.trans hstep'))
      exact ih hshows ⟨hgoing.onTime, hgoing.timed, hgoing.ends⟩ hbudget (by omega) hqueued
    | frame clock frame =>
      obtain ⟨hbegin, hend, hrest⟩ := hbudget
      -- the budget has a buffer for a BEGIN frame, and a place in the queue for an END frame
      have hroom : b.RoomFor (.frame clock frame) := by
        refine ⟨fun hb => ?_, fun he => ?_⟩
        · have := hbegin hb
          exact List.length_pos_iff.mp (by omega)
        · have := hend he
          omega
      refine ⟨hroom, fun b' out hstep' => ?_⟩
      obtain ⟨b₁, l₁, t₁, hstep, hshows, hgoing₁, -, -, -, hfree₁⟩ := h.frame_exact hroom hgoing
      obtain ⟨rfl, -⟩ := Prod.mk.inj (Option.some.inj (hstep.symm.trans hstep'))
      refine ih hshows hgoing₁ hrest (by omega) ?_
      rw [List.length_append]
      cases hlast : frame.isEnd with
      | true =>
        -- an END frame hands over one packet at most
        have hone := Option.length_toList_le (o := (reassemble ((t frame.conn).map Prod.fst) frame).2)
        rw [if_pos rfl]
        omega
      | false =>
        rw [reassemble_not_last hlast]
        simpa using hqueued

/-- A bus without half received packets. -/
theorem Shows.fresh {b : Bus} (hpool : Pool b.net [] b.held) (hqueue : b.net.qfifo = []) :
    Shows b [] (fun _ => none) [] where
  refines := {
    pool := hpool
    only := fun _ hk => absurd rfl hk
    shows := by simp
    begun := by simp
    inj := by simp }
  queued := by
    rw [Bus.waiting, hqueue]
    exact .nil

/-- A bus at rest, with all buffers free, has room for a short run. -/
theorem Shows.roomy_at_rest {b : Bus} (hpool : Pool b.net [] b.held) (hheld : b.held = [])
    (hqueue : b.net.qfifo = []) {now : Nat} {waits : Nat → Option Nat} {es : List Event}
    (hgoing : Going now waits (fun _ => none) es) (hshort : es.length ≤ 1000) : b.Roomy es := by
  have hfree := hpool.length_eq
  rw [hqueue, hheld] at hfree
  have hcount : CSP_BUFFER_COUNT = 1000 := rfl
  have hplaces : CSP_QFIFO_LEN = 1000 := rfl
  simp only [List.length_nil, Nat.zero_add] at hfree
  exact (Shows.fresh hpool hqueue).roomy_of_budget hgoing
    (budget_of_length (by omega) (by omega)) (by omega) (Nat.zero_le 0)

/-! ## §6 What the router gets -/

/-- The packet that was sent has arrived.  An L2 broadcast is addressed to the interface. -/
structure Received (packet : Packet) (addr : Nat) (s : Sent) : Prop where
  id : packet.id = if s.id.dst = 0x3FFF then { s.id with dst := addr } else s.id
  data : packet.data = s.data

theorem Carries.received {packet : Packet} {addr : Nat} {s : Sent}
    (h : Carries packet addr s.bytes) : Received packet addr s := by
  have hheader : (cspId2.prepend s.id).length = 6 := bytesBE_length ..
  have hholds : Holds (ofList 0 s.bytes) 0 (cspId2.prepend s.id) :=
    ((holds_append _ _ _ _).mp (holds_ofList 0 s.bytes)).1
  have hparse : cspId2.parse (loadBE (ofList 0 s.bytes) 0 6) = s.id :=
    (Layout.parse_load hholds).trans (Layout.parse_word s.fits)
  refine ⟨?_, ?_⟩
  · rw [h.id, receivedId, hparse]
  · rw [h.data, Sent.bytes]
    exact List.drop_left' hheader

/-- The packets behind the CSP frames that were handed to the router. -/
theorem exists_order {origins : Nat → List Sent} (hconn : ∀ k, ∀ s ∈ origins k, s.conn = k)
    {tagged : List (Nat × List UInt8)}
    (h : ∀ k, (tagged.filter (·.1 = k)).map Prod.snd = (origins k).map Sent.bytes) :
    ∃ order : List Sent, (∀ k, order.filter (·.conn = k) = origins k) ∧
      tagged.map Prod.snd = order.map Sent.bytes := by
  obtain ⟨all, hall, horigins⟩ := exists_origins Sent.bytes tagged origins h
  have hkey : ∀ x ∈ all, x.2.conn = x.1 := by
    intro x hx
    apply hconn x.1
    rw [← horigins x.1]
    exact List.mem_map_of_mem (List.mem_filter.mpr ⟨hx, by simp⟩)
  refine ⟨all.map Prod.snd, fun k => ?_, ?_⟩
  · rw [List.filter_map, ← horigins k]
    congr 1
    apply List.filter_congr
    intro x hx
    simp [hkey x hx]
  · rw [← hall, List.map_map, List.map_map]
    rfl

theorem received_of_carries {packets : List Packet} {addr : Nat} {order : List Sent}
    (h : List.Forall₂ (Carries · addr ·) packets (order.map Sent.bytes)) :
    List.Forall₂ (Received · addr ·) packets order :=
  (List.forall₂_map_right_iff.mp h).imp fun _ _ hs => hs.received

theorem Sent.first_conn (s : Sent) : s.first.conn = s.conn :=
  s.frames_conn (by simp [s.frames_eq])

/-- A frame of a connection belongs to it. -/
theorem conn_of_mem_framesOn {k : Nat} {es : List Event} {frame : CanFrame}
    (h : frame ∈ framesOn k es) : frame.conn = k := by
  simpa using (List.mem_filter.mp h).2

theorem conn_of_frames {es : List Event} {sent : Nat → List Sent}
    (hsent : ∀ k, framesOn k es = (sent k).flatMap Sent.frames) :
    ∀ k, ∀ s ∈ sent k, s.conn = k := by
  intro k s hs
  have hmem : s.first ∈ framesOn k es := by
    rw [hsent]
    exact List.mem_flatMap.mpr ⟨s, hs, by simp [s.frames_eq]⟩
  rw [← s.first_conn]
  exact conn_of_mem_framesOn hmem

theorem run_whole (ss : List Sent) :
    reassemble.run none (ss.flatMap Sent.frames) = (none, ss.map Sent.bytes) := by
  rw [Machine.run_flatMap reassemble none Sent.frames (fun s => [s.bytes]) ss
    fun s _ => s.run_frames none, List.map_eq_flatMap]

/-- **Delivery.**  The frames of every connection are those of whole packets, one after the other,
    mixed with the frames of the other connections in any way; they come in time, and there is
    room for them.  Then the run goes through, nothing is left half received, and the router gets
    every packet exactly once, unchanged, those of one connection in the order in which they were
    sent. -/
theorem run_delivers {b : Bus} (hpool : Pool b.net [] b.held) (hqueue : b.net.qfifo = [])
    (es : List Event) (sent : Nat → List Sent)
    (hsent : ∀ k, framesOn k es = (sent k).flatMap Sent.frames)
    (htime : OnTime 0 (fun _ => none) es) (hroomy : b.Roomy es) :
    ∃ b' outs order, b.run es = some (b', outs) ∧ Pool b'.net [] b'.held ∧
      (∀ k, order.filter (fun s => s.conn = k) = sent k) ∧
      List.Forall₂ (Received · b.net.can.addr ·) (outs ++ b'.waiting) order := by
  have hwhole : ∀ k, reassemble.run none (framesOn k es) = (none, (sent k).map Sent.bytes) :=
    fun k => by rw [hsent, run_whole]
  obtain ⟨b', outs, t', tagged, hrun, hout, hexact⟩ :=
    (Shows.fresh hpool hqueue).run_exact es hroomy
      ⟨htime, fun _ _ h => absurd h (by simp), fun k => by rw [Option.map_none, hwhole k]⟩
  obtain ⟨queue', hshows⟩ := hout.shows
  have hconn := conn_of_frames hsent
  obtain ⟨order, horder, htagged⟩ := exists_order hconn
    (fun k => by rw [hexact k, Option.map_none, hwhole k])
  have hreceived := hout.received
  rw [htagged] at hreceived
  exact ⟨b', outs, order, hrun, hshows.refines.pool, horder, received_of_carries hreceived⟩

/-! Two packets of two frames each, from two senders, whose frames alternate on the bus. -/

def sampleId (src : Nat) : CspId :=
  { pri := 2, flags := 0, src, dst := 3, dport := 10, sport := 20 }

theorem sampleId_fits {src : Nat} (h : src < 2 ^ 14) : cspId2.Fits (sampleId src) where
  pri := show 2 < 2 ^ 2 by decide
  dst := show 3 < 2 ^ 14 by decide
  src := h
  dport := show 10 < 2 ^ 6 by decide
  sport := show 20 < 2 ^ 6 by decide
  flags := show 0 < 2 ^ 6 by decide

theorem sample_length_le : [1, 2, 3, 4, 5, 6, 7, (8 : UInt8)].length ≤ CSP_BUFFER_SIZE := by decide

def sampleSent (src : Fin (2 ^ 14)) : Sent where
  id := sampleId src
  data := [1, 2, 3, 4, 5, 6, 7, 8]
  addr := src
  count := 0
  fits := sampleId_fits src.isLt
  length_le := sample_length_le

/-- The second frame of a sample. -/
def sampleSecond (src : Fin (2 ^ 14)) : CanFrame :=
  onWire (nextFrame (canHeader (sampleId src) src 0) 1 [5, 6, 7, 8])

theorem sampleSent_frames (src : Fin (2 ^ 14)) :
    (sampleSent src).frames = [(sampleSent src).first, sampleSecond src] := rfl

def sampleBus : Bus := ⟨emptyNet, []⟩

theorem sampleBus_pool : Pool sampleBus.net [] sampleBus.held := emptyNet_pool

theorem sampleBus_qfifo : sampleBus.net.qfifo = [] := by
  rw [sampleBus, emptyNet, cspInit]

def sampleEvents : List Event :=
  [.frame ⟨0, 0, 0⟩ (sampleSent 5).first, .frame ⟨10, 10, 10⟩ (sampleSent 6).first,
    .frame ⟨500, 500, 500⟩ (sampleSecond 5), .read, .frame ⟨900, 900, 900⟩ (sampleSecond 6)]

/-- Who sends what on which connection. -/
def sampleTraffic (k : Nat) : List Sent :=
  if k = (sampleSent 5).conn then [sampleSent 5]
  else if k = (sampleSent 6).conn then [sampleSent 6]
  else []

theorem sampleSecond_conn (src : Fin (2 ^ 14)) :
    (sampleSecond src).conn = (sampleSent src).conn :=
  (nextFrame_reads (sampleId src) src 0 1 [5, 6, 7, 8]).conn

theorem framesOn_sample (k : Nat) :
    framesOn k sampleEvents = (sampleTraffic k).flatMap Sent.frames := by
  have hne : (sampleSent 5).conn ≠ (sampleSent 6).conn := by decide
  simp only [framesOn, sampleEvents, framesOf, List.filter_cons, Sent.first_conn,
    sampleSecond_conn, sampleTraffic, eq_comm (a := k)]
  by_cases h5 : (sampleSent 5).conn = k
  · have h6 : (sampleSent 6).conn ≠ k := fun h6 => hne (h5.trans h6.symm)
    simp [h5, h6, sampleSent_frames]
  · by_cases h6 : (sampleSent 6).conn = k
    · simp [h5, h6, sampleSent_frames]
    · simp [h5, h6]

theorem sampleSecond_reads (src : Fin (2 ^ 14)) :
    Reads (sampleSecond src) (sampleId src) src 0 1 false true :=
  nextFrame_reads (sampleId src) src 0 1 [5, 6, 7, 8]

theorem sampleFirst_reads (src : Fin (2 ^ 14)) :
    Reads (sampleSent src).first (sampleId src) src 0 0 true false :=
  (sampleSent src).firstFrame_reads

theorem onTime_sample : OnTime 0 (fun _ => none) sampleEvents := by
  have hne : (sampleSent 5).conn ≠ (sampleSent 6).conn := by decide
  simp only [sampleEvents, OnTime, Sent.first_conn, sampleSecond_conn, PBUF_TIMEOUT_MS,
    (sampleFirst_reads _).isEnd, (sampleSecond_reads _).isEnd]
  simp [Function.update, hne, hne.symm]

theorem going_sample : Going 0 (fun _ => none) (fun _ => none) sampleEvents where
  onTime := onTime_sample
  timed := fun _ _ h => absurd h (by simp)
  ends := fun k => by rw [framesOn_sample, Option.map_none, run_whole]

theorem roomy_sample : sampleBus.Roomy sampleEvents :=
  Shows.roomy_at_rest sampleBus_pool rfl sampleBus_qfifo going_sample (by decide)

theorem run_delivers_sample :
    ∃ b' outs order, sampleBus.run sampleEvents = some (b', outs) ∧ Pool b'.net [] b'.held ∧
      (∀ k, order.filter (fun s => s.conn = k) = sampleTraffic k) ∧
      List.Forall₂ (Received · sampleBus.net.can.addr ·) (outs ++ b'.waiting) order :=
  run_delivers sampleBus_pool sampleBus_qfifo sampleEvents sampleTraffic framesOn_sample onTime_sample
    roomy_sample

/-! ## §7 Losses -/

/-- What is left of the frames of a packet when fewer than eight fragments have been lost. -/
structure Remains where
  packet : Sent
  left : List CanFrame
  sublist : left.Sublist packet.tail
  few : packet.tail.length < left.length + 8

def Remains.frames (r : Remains) : List CanFrame := r.packet.first :: r.left

/-- A BEGIN frame does the same in every state, and any other frame does nothing without one. -/
theorem reassemble_absorbs (s : Option Partial) (frame : CanFrame) :
    reassemble none frame = (none, none) ∨ reassemble s frame = reassemble none frame := by
  cases hbegin : frame.isBegin with
  | false => exact Or.inl (reassemble_stray hbegin)
  | true =>
    by_cases hdlc : frame.data.length < 4
    · exact Or.inl (reassemble_short hbegin hdlc none)
    · rw [reassemble_begin hbegin hdlc, reassemble_begin hbegin hdlc]
      exact Or.inr rfl

/-- Of what is left of some packets, only packets that were sent are put together. -/
theorem run_remains (before : Option Partial) (rs : List Remains) :
    (reassemble.run before (rs.flatMap Remains.frames)).2.Sublist
      ((rs.map Remains.packet).map Sent.bytes) := by
  induction rs generalizing before with
  | nil => exact List.Sublist.refl _
  | cons r rs ih =>
    rw [List.flatMap_cons, Machine.run_append, List.map_cons, List.map_cons]
    exact (r.packet.run_lost_few before r.sublist r.few).append (ih _)

/-- **Losses.**  The frames of every connection are what is left of those of packets, one after
    the other: no packet has lost its BEGIN frame or as many as eight fragments.  Packets may time
    out, and buffers and the queue of the router may run out.  Then what the router gets are
    packets that were sent, each at most once, unchanged, those of one connection in the order in
    which they were sent. -/
theorem run_lossy {b : Bus} (hpool : Pool b.net [] b.held) (hqueue : b.net.qfifo = [])
    (es : List Event) (sent : Nat → List Remains)
    (hsent : ∀ k, framesOn k es = (sent k).flatMap Remains.frames) (hclean : b.Clean es) :
    ∃ b' outs l order, b.run es = some (b', outs) ∧ Pool b'.net l b'.held ∧
      (∀ k, (order.filter (fun s => s.conn = k)).Sublist ((sent k).map Remains.packet)) ∧
      List.Forall₂ (Received · b.net.can.addr ·) (outs ++ b'.waiting) order := by
  obtain ⟨b', outs, l, t', tagged, hrun, hout, hdegraded⟩ :=
    (Shows.fresh hpool hqueue).run_degraded es hclean
  obtain ⟨queue', hshows⟩ := hout.shows
  -- the origins of what each connection has produced
  have hsub : ∀ k, ∃ origin : List Sent, origin.Sublist ((sent k).map Remains.packet) ∧
      (tagged.filter (·.1 = k)).map Prod.snd = origin.map Sent.bytes := by
    intro k
    have hrun := ((hdegraded k).sublist reassemble_absorbs)
    rw [hsent] at hrun
    exact List.sublist_map_iff.mp (hrun.trans (run_remains _ (sent k)))
  choose origins horigins hbytes using hsub
  have hconn : ∀ k, ∀ s ∈ origins k, s.conn = k := by
    intro k s hs
    obtain ⟨r, hr, rfl⟩ := List.mem_map.mp ((horigins k).mem hs)
    have hmem : r.packet.first ∈ framesOn k es := by
      rw [hsent]
      exact List.mem_flatMap.mpr ⟨r, hr, by simp [Remains.frames]⟩
    rw [← r.packet.first_conn]
    exact conn_of_mem_framesOn hmem
  obtain ⟨order, horder, htagged⟩ := exists_order hconn hbytes
  have hreceived := hout.received
  rw [htagged] at hreceived
  exact ⟨b', outs, l, order, hrun, hshows.refines.pool, fun k => horder k ▸ horigins k,
    received_of_carries hreceived⟩

theorem framesOf_map (clock : Clock) (frames : List CanFrame) :
    framesOf (frames.map (Event.frame clock)) = frames := by
  induction frames with
  | nil => rfl
  | cons frame frames ih => rw [List.map_cons, framesOf, ih]

/-- Frames that all belong to one connection. -/
theorem framesOn_map {c : Nat} {frames : List CanFrame} (hconn : ∀ frame ∈ frames, frame.conn = c)
    (clock : Clock) (k : Nat) :
    framesOn k (frames.map (Event.frame clock)) = if c = k then frames else [] := by
  rw [framesOn, framesOf_map]
  split
  · next hk => exact List.filter_eq_self.mpr fun frame hframe => by simp [hconn frame hframe, hk]
  · next hk => exact List.filter_eq_nil_iff.mpr fun frame hframe => by simp [hconn frame hframe, hk]

theorem framesOf_append (as bs : List Event) :
    framesOf (as ++ bs) = framesOf as ++ framesOf bs := by
  induction as with
  | nil => rfl
  | cons e as ih => cases e <;> simp [framesOf, ih]

theorem framesOn_append (k : Nat) (as bs : List Event) :
    framesOn k (as ++ bs) = framesOn k as ++ framesOn k bs := by
  rw [framesOn, framesOf_append, List.filter_append]
  rfl

theorem sampleLong_length_le : (List.replicate 80 (7 : UInt8)).length ≤ CSP_BUFFER_SIZE := by decide

def sampleLong : Sent where
  id := sampleId 5
  data := List.replicate 80 7
  addr := 5
  count := 0
  fits := sampleId_fits (show 5 < 2 ^ 14 by decide)
  length_le := sampleLong_length_le

/-- A packet of which nothing has been lost. -/
def Sent.whole (s : Sent) : Remains := ⟨s, s.tail, List.Sublist.refl _, by omega⟩

theorem sampleSent_tail_lt :
    (sampleSent 5).tail.length < ([] : List CanFrame).length + 8 := by decide

/-- A packet of which only the BEGIN frame has come. -/
def beginOnly : Remains where
  packet := sampleSent 5
  left := []
  sublist := List.nil_sublist _
  few := sampleSent_tail_lt

theorem sampleLong_tail_lt : sampleLong.tail.length < (sampleLong.tail.eraseIdx 2).length + 8 := by
  decide

/-- A packet of ten fragments that has lost the third. -/
def gapped : Remains where
  packet := sampleLong
  left := sampleLong.tail.eraseIdx 2
  sublist := List.eraseIdx_sublist _ _
  few := sampleLong_tail_lt

/-- Two senders; the first packet of the one times out, and its second one has a gap. -/
def lossyEvents : List Event :=
  beginOnly.frames.map (.frame ⟨0, 0, 0⟩) ++
    (sampleSent 6).whole.frames.map (.frame ⟨1200, 1200, 1200⟩) ++
    [.read, .release 1] ++ gapped.frames.map (.frame ⟨1300, 1300, 1300⟩) ++
    (sampleSent 5).whole.frames.map (.frame ⟨1400, 1400, 1400⟩)

def lossyTraffic (k : Nat) : List Remains :=
  if (sampleSent 5).conn = k then [beginOnly, gapped, (sampleSent 5).whole]
  else if (sampleSent 6).conn = k then [(sampleSent 6).whole]
  else []

theorem Remains.frames_conn (r : Remains) : ∀ frame ∈ r.frames, frame.conn = r.packet.conn := by
  intro frame hframe
  apply r.packet.frames_conn
  rw [r.packet.frames_eq]
  exact (r.sublist.cons_cons _).mem hframe

theorem framesOn_lossy (k : Nat) :
    framesOn k lossyEvents = (lossyTraffic k).flatMap Remains.frames := by
  have hne : (sampleSent 5).conn ≠ (sampleSent 6).conn := by decide
  have hlong : sampleLong.conn = (sampleSent 5).conn := by decide
  have hon : ∀ (r : Remains) (clock : Clock), framesOn k (r.frames.map (.frame clock)) =
      if r.packet.conn = k then r.frames else [] := fun r clock =>
    framesOn_map r.frames_conn clock k
  have hrouter : framesOn k [.read, .release 1] = [] := rfl
  have h5 : beginOnly.packet.conn = (sampleSent 5).conn := rfl
  have h5' : gapped.packet.conn = (sampleSent 5).conn := hlong
  have h5'' : (sampleSent 5).whole.packet.conn = (sampleSent 5).conn := rfl
  have h6 : (sampleSent 6).whole.packet.conn = (sampleSent 6).conn := rfl
  rw [lossyEvents, lossyTraffic]
  simp only [framesOn_append, hon, hrouter, h5, h5', h5'', h6]
  by_cases hk : (sampleSent 5).conn = k
  · have hother : (sampleSent 6).conn ≠ k := fun h => hne (hk.trans h.symm)
    simp [hk, hother]
  · by_cases hk' : (sampleSent 6).conn = k
    · simp [hk, hk']
    · simp [hk, hk']

theorem run_lossy_sample :
    ∃ b' outs l order, sampleBus.run lossyEvents = some (b', outs) ∧ Pool b'.net l b'.held ∧
      (∀ k, (order.filter (fun s => s.conn = k)).Sublist ((lossyTraffic k).map Remains.packet)) ∧
      List.Forall₂ (Received · sampleBus.net.can.addr ·) (outs ++ b'.waiting) order :=
  run_lossy sampleBus_pool sampleBus_qfifo lossyEvents lossyTraffic framesOn_lossy
    (Bus.clean_of (by decide +kernel))

/-! Eight lost fragments are too many. -/

/-- Frames that come all at once are in time. -/
theorem onTime_const {now : Nat} {waits : Nat → Option Nat}
    (hwaits : ∀ k since, waits k = some since → since = now) (frames : List CanFrame) :
    OnTime now waits (frames.map (Event.frame ⟨now, now, now⟩)) := by
  induction frames generalizing waits with
  | nil => trivial
  | cons frame frames ih =>
    refine ⟨Nat.le_refl _, Nat.le_refl _, Nat.le_refl _, fun since hsince => ?_, ih ?_⟩
    · rw [hwaits _ _ hsince]
      exact Nat.le_add_right ..
    · intro k since hk
      by_cases hconn : k = frame.conn
      · rw [hconn, Function.update_self] at hk
        split at hk
        · exact absurd hk (by simp)
        · exact (Option.some.inj hk).symm
      · rw [Function.update_of_ne hconn] at hk
        exact hwaits k since hk

/-- **Eight are not missed.**  Of a packet of more than 68 bytes eight fragments in a row are lost,
    the last one apart.  The router gets a packet that has lost their 64 bytes. -/
theorem run_misses_eight {b : Bus} (hpool : Pool b.net [] b.held) (hheld : b.held = [])
    (hqueue : b.net.qfifo = []) (s : Sent) (k now : Nat) (h : 4 + 8 * (k + 8) < s.data.length) :
    ∃ b' outs packet,
      b.run ((s.frames.take (k + 1) ++ s.frames.drop (k + 9)).map
        (Event.frame ⟨now, now, now⟩)) = some (b', outs) ∧
      outs ++ b'.waiting = [packet] ∧
      packet.data = s.data.take (4 + 8 * k) ++ s.data.drop (4 + 8 * (k + 8)) := by
  have hlost := s.run_lost_eight k h
  have hsub : (s.frames.take (k + 1) ++ s.frames.drop (k + 9)).Sublist s.frames := by
    conv_rhs => rw [← List.take_append_drop (k + 1) s.frames]
    refine (List.Sublist.refl _).append ?_
    exact List.drop_sublist_drop_left s.frames (by omega)
  generalize hw : s.frames.take (k + 1) ++ s.frames.drop (k + 9) = w at hlost hsub ⊢
  -- all frames belong to one connection
  have hframes : ∀ k', framesOn k' (w.map (Event.frame ⟨now, now, now⟩)) =
      if s.conn = k' then w else [] :=
    framesOn_map (fun frame hframe => s.frames_conn (hsub.mem hframe)) _
  have hgoing : Going now (fun _ => none) (fun _ => none)
      (w.map (Event.frame ⟨now, now, now⟩)) := by
    refine ⟨onTime_const (fun _ _ hnone => absurd hnone (by simp)) w,
      fun _ _ hnone => absurd hnone (by simp), fun k' => ?_⟩
    rw [hframes]
    split
    · rw [Option.map_none, hlost]
    · rfl
  have hshort : (w.map (Event.frame ⟨now, now, now⟩)).length ≤ 1000 := by
    have := hsub.length_le
    have := s.frames_length_le
    rw [List.length_map]
    omega
  obtain ⟨b', outs, t', tagged, hrun, hout, hexact⟩ := (Shows.fresh hpool hqueue).run_exact _
    (Shows.roomy_at_rest hpool hheld hqueue hgoing hshort) hgoing
  -- only this connection has produced something
  have htagged : tagged.map Prod.snd = [cspId2.prepend s.id ++
      (s.data.take (4 + 8 * k) ++ s.data.drop (4 + 8 * (k + 8)))] := by
    have hall : tagged.filter (·.1 = s.conn) = tagged := by
      refine List.filter_eq_self.mpr fun x hx => ?_
      by_contra hne
      have hx' := hexact x.1
      rw [hframes, if_neg (by simpa [eq_comm] using hne)] at hx'
      have : x ∈ tagged.filter (·.1 = x.1) := List.mem_filter.mpr ⟨hx, by simp⟩
      rw [List.map_eq_nil_iff.mp hx'] at this
      exact absurd this List.not_mem_nil
    have hown := hexact s.conn
    rw [hall, hframes, if_pos rfl, Option.map_none, hlost] at hown
    exact hown
  have hreceived := hout.received
  rw [htagged, List.nil_append, List.forall₂_cons_right_iff] at hreceived
  obtain ⟨packet, rest, hcarries, hrest, hpackets⟩ := hreceived
  rw [List.forall₂_nil_right_iff.mp hrest] at hpackets
  refine ⟨b', outs, packet, hrun, hpackets, ?_⟩
  rw [hcarries.data]
  exact List.drop_left' (bytesBE_length ..)

theorem run_misses_eight_sample :
    ∃ b' outs packet,
      sampleBus.run ((sampleLong.frames.take 2 ++ sampleLong.frames.drop 10).map
        (Event.frame ⟨7, 7, 7⟩)) = some (b', outs) ∧
      outs ++ b'.waiting = [packet] ∧
      packet.data = sampleLong.data.take 12 ++ sampleLong.data.drop 76 :=
  run_misses_eight sampleBus_pool rfl sampleBus_qfifo sampleLong 1 7 (by decide)

/-! ## §8 Any frames at all -/

/-- Nothing longer than a buffer is put together. -/
theorem run_length_le (s : Option Partial) (w : List CanFrame) :
    ∀ bytes ∈ (reassemble.run s w).2, bytes.length ≤ 6 + CSP_BUFFER_SIZE := by
  induction w generalizing s with
  | nil => simp
  | cons frame w ih =>
    intro bytes hbytes
    rw [Machine.run_cons] at hbytes
    rcases List.mem_append.mp hbytes with hbytes | hbytes
    · rcases reassemble_cases s frame with heq | ⟨e, before, data, heq⟩
      · simp [heq] at hbytes
      · rw [heq, extend] at hbytes
        split_ifs at hbytes with hfit hend
        · simp at hbytes
        · simp only [Option.toList_some, List.mem_singleton] at hbytes
          rw [hbytes, List.length_append]
          omega
        · simp at hbytes
    · exact ih _ bytes hbytes

/-- **Safety.**  Whatever frames arrive and whenever the router reads and frees packets: if no
    cleanup meets two neighbours that have timed out, the run goes through, every buffer is in one
    place at its end (none is lost, and none is free and in use), and the router gets only packets
    that fit a buffer. -/
theorem run_safe {b : Bus} (hpool : Pool b.net [] b.held) (hqueue : b.net.qfifo = [])
    (es : List Event) (hclean : b.Clean es) :
    ∃ b' outs l, b.run es = some (b', outs) ∧ Pool b'.net l b'.held ∧
      ∀ packet ∈ outs ++ b'.waiting, packet.length ≤ CSP_BUFFER_SIZE := by
  obtain ⟨b', outs, l, t', tagged, hrun, hout, hdegraded⟩ :=
    (Shows.fresh hpool hqueue).run_degraded es hclean
  obtain ⟨queue', hshows⟩ := hout.shows
  refine ⟨b', outs, l, hrun, hshows.refines.pool, fun packet hpacket => ?_⟩
  have hshort : ∀ bytes ∈ tagged.map Prod.snd, bytes.length ≤ 6 + CSP_BUFFER_SIZE := by
    intro bytes hbytes
    obtain ⟨⟨k, bytes⟩, hmem, rfl⟩ := List.mem_map.mp hbytes
    have hsub := (hdegraded k).sublist reassemble_absorbs
    apply run_length_le _ _ _ (hsub.mem _)
    exact List.mem_map_of_mem (f := Prod.snd) (List.mem_filter.mpr ⟨hmem, by simp⟩)
  have hreceived := hout.received
  rw [List.nil_append] at hreceived
  obtain ⟨bytes, hbytes, hcarries⟩ := exists_of_mem_forall₂ hreceived hpacket
  have := hshort bytes hbytes
  rw [hcarries.length]
  omega

/-- The runs above end with a stray fragment, and with a BEGIN frame that waits. -/
def strayEvents : List Event :=
  lossyEvents ++ [.read, .frame ⟨1500, 1500, 1500⟩ (sampleSecond 7), .release 3,
    .frame ⟨2600, 2600, 2600⟩ (sampleSent 6).first]

theorem run_safe_sample :
    ∃ b' outs l, sampleBus.run strayEvents = some (b', outs) ∧ Pool b'.net l b'.held ∧
      ∀ packet ∈ outs ++ b'.waiting, packet.length ≤ CSP_BUFFER_SIZE :=
  run_safe sampleBus_pool sampleBus_qfifo strayEvents (Bus.clean_of (by decide +kernel))

end AppSysManager.Csp
