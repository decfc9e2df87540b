import AppSysManager.Channels.Serial
import AppSysManager.Channels.SharedQueue
import AppSysManager.Csp.Can

/-!
# The Reliable Datagram Protocol

`csp_rdp.c` and `csp_rdp_queue.c`, with what they use of `csp_conn.c`: connections whose segments
are numbered, acknowledged, sent again, and put back into their order.

All connections of a node share one queue of segments that came too early and one of segments that
have not been acknowledged yet.  What wakes a waiting task (`tx_wait`) is left out, and so is the
waiting itself: `csp_rdp_send` is modelled from the point where there is room in the window, and
`csp_rdp_connect` up to the point where it waits for the answer.
-/

namespace AppSysManager.Csp

open AppSysManager.Bytes AppSysManager.Channels
open AppSysManager.Server (CSP_BUFFER_SIZE)

/-! ## §1 Segments -/

/-- `csp:conn_rxqueue_len`. -/
def CSP_CONN_RXQUEUE_LEN : Nat := 1000

/-- `csp:rdp_max_window`. -/
def CSP_RDP_MAX_WINDOW : Nat := 1000

/-- The length of both queues of `csp_rdp_queue.c`. -/
def RDP_QUEUE_LEN : Nat := CSP_RDP_MAX_WINDOW * 2

def RDP_SYN : BitVec 8 := 0x08
def RDP_ACK : BitVec 8 := 0x04
def RDP_EAK : BitVec 8 := 0x02
def RDP_RST : BitVec 8 := 0x01

/-- A packet with its `rdp_header_t`, which lies behind the data. -/
structure Segment where
  flags : BitVec 8
  seqNr : BitVec 16
  ackNr : BitVec 16
  data : List UInt8
  deriving DecidableEq

namespace Segment

/-- `header->flags & flag` -/
def has (seg : Segment) (flag : BitVec 8) : Bool := seg.flags &&& flag != 0

/-- The data of the packet on its way: both numbers are in network byte order. -/
def bytes (seg : Segment) : List UInt8 :=
  seg.data ++ (bytesBE 1 seg.flags.toNat ++ (bytesBE 2 seg.seqNr.toNat ++ bytesBE 2 seg.ackNr.toNat))

/-- The same once `csp_rdp_new_packet` has converted them. -/
def inMemory (seg : Segment) : List UInt8 :=
  seg.data ++ (bytesBE 1 seg.flags.toNat ++
    ((bytesBE 2 seg.seqNr.toNat).reverse ++ (bytesBE 2 seg.ackNr.toNat).reverse))

/-- `csp_rdp_header_ref` and the conversion of the numbers, for packets that hold a header. -/
def ofBytes (packet : List UInt8) : Option Segment :=
  if packet.length < 5 then none
  else
    let mem := ofList 0 packet
    let header : Int := packet.length - 5
    some
      { flags := BitVec.ofNat 8 (loadBE mem header 1)
        seqNr := BitVec.ofNat 16 (loadBE mem (header + 1) 2)
        ackNr := BitVec.ofNat 16 (loadBE mem (header + 3) 2)
        data := packet.take (packet.length - 5) }

end Segment

/-- The options that a SYN segment carries. -/
structure Options where
  windowSize : BitVec 32
  connTimeout : BitVec 32
  packetTimeout : BitVec 32
  delayedAcks : BitVec 32
  ackTimeout : BitVec 32
  ackDelayCount : BitVec 32
  deriving DecidableEq

/-- `htobe32` of each of them, into `data32`. -/
def Options.bytes (o : Options) : List UInt8 :=
  bytesBE 4 o.windowSize.toNat ++ (bytesBE 4 o.connTimeout.toNat ++ (bytesBE 4 o.packetTimeout.toNat ++
    (bytesBE 4 o.delayedAcks.toNat ++ (bytesBE 4 o.ackTimeout.toNat ++
      bytesBE 4 o.ackDelayCount.toNat))))

/-- `be32toh` of the first six words of `data32`. -/
def Options.load (mem : Mem) : Options where
  windowSize := BitVec.ofNat 32 (loadBE mem 0 4)
  connTimeout := BitVec.ofNat 32 (loadBE mem 4 4)
  packetTimeout := BitVec.ofNat 32 (loadBE mem 8 4)
  delayedAcks := BitVec.ofNat 32 (loadBE mem 12 4)
  ackTimeout := BitVec.ofNat 32 (loadBE mem 16 4)
  ackDelayCount := BitVec.ofNat 32 (loadBE mem 20 4)

/-! ## §2 Connections -/

/-- `csp_rdp_state_t`. -/
inductive RdpState where
  | closed
  | synSent
  | synRcvd
  | opened
  | closeWait
  deriving DecidableEq

/-- `CSP_RDP_CLOSED_BY_USERSPACE`, `CSP_RDP_CLOSED_BY_PROTOCOL` and `CSP_RDP_CLOSED_BY_TIMEOUT`. -/
structure ClosedBy where
  userspace : Bool
  protocol : Bool
  timeout : Bool
  deriving DecidableEq

def ClosedBy.or (x y : ClosedBy) : ClosedBy :=
  ⟨x.userspace || y.userspace, x.protocol || y.protocol, x.timeout || y.timeout⟩

/-- `csp_conn_t` of a connection that uses RDP, with its `csp_rdp_t`.  `NULL` in the queue of the
    connection tells its task that it was closed.  The last three fields are its history: the data
    that its task has sent, what has been put into its queue, and what its task has read.  No
    function of the source knows them. -/
structure Conn where
  isOpen : Bool
  rxQueue : List (Option (List UInt8))
  destSocket : Bool
  timestamp : BitVec 32
  state : RdpState
  closedBy : ClosedBy
  sndNxt : BitVec 16
  sndUna : BitVec 16
  sndIss : BitVec 16
  rcvCur : BitVec 16
  rcvIrs : BitVec 16
  rcvLsa : BitVec 16
  opts : Options
  ackTimestamp : BitVec 32
  given : List (List UInt8)
  handed : List (List UInt8)
  taken : List (List UInt8)

/-- The connections of a node, its two queues, `csp_rdp_incr`, and all segments that it has handed
    to `csp_send_direct`, with their connections. -/
structure Stack where
  conns : Nat → Conn
  rxq : List (Nat × Segment)
  txq : List (Nat × Segment × BitVec 32)
  incr : BitVec 8
  wire : List (Nat × Segment)

/-- What a call meets: the readings of `csp_get_ms` and whether `csp_buffer_get` and
    `csp_buffer_clone` find a buffer, both numbered by the places where they are called, whether
    the queue of the socket takes another connection, and `rand_r`. -/
structure Ambient where
  ms : Nat → BitVec 32
  buffer : Nat → Bool
  socket : Bool
  rand : BitVec 32 → BitVec 16

/-- The same, as it is met further on in the call. -/
def Ambient.later (a : Ambient) (n : Nat) : Ambient :=
  { a with ms := fun i => a.ms (n + i), buffer := fun i => a.buffer (n + i) }

/-- Change a connection. -/
def Stack.update (s : Stack) (c : Nat) (f : Conn → Conn) : Stack :=
  { s with conns := Function.update s.conns c (f (s.conns c)) }

/-- `csp_send_direct`. -/
def Stack.emit (s : Stack) (c : Nat) (seg : Segment) : Stack :=
  { s with wire := s.wire ++ [(c, seg)] }

/-- `csp_rdp_queue_tx_add`. -/
def cspRdpQueueTxAdd (s : Stack) (c : Nat) (seg : Segment) (timestampTx : BitVec 32) : Stack :=
  { s with txq := SharedQueue.add RDP_QUEUE_LEN s.txq (c, seg, timestampTx) }

/-- `csp_rdp_queue_rx_add`. -/
def cspRdpQueueRxAdd (s : Stack) (c : Nat) (seg : Segment) : Stack :=
  { s with rxq := SharedQueue.add RDP_QUEUE_LEN s.rxq (c, seg) }

/-! ## §3 Wrapping comparisons -/

def cspRdpSeqBetween (seq start stop : BitVec 16) : Bool := Serial.between seq start stop

def cspRdpSeqBefore (seq cmp : BitVec 16) : Bool := Serial.before seq cmp

def cspRdpSeqAfter (seq cmp : BitVec 16) : Bool := cspRdpSeqBefore cmp seq

def cspRdpTimeBefore (time cmp : BitVec 32) : Bool := Serial.before time cmp

def cspRdpTimeAfter (time cmp : BitVec 32) : Bool := cspRdpTimeBefore cmp time

/-- `2 * window_size`, as it is added to a sequence number. -/
def Conn.doubleWindow (conn : Conn) : BitVec 16 := (conn.opts.windowSize * 2).setWidth 16

/-! ## §4 Sending -/

/-- `csp_rdp_send_cmp`; without a packet it takes a buffer for an empty one.  A SYN segment whose
    copy finds no buffer is not sent. -/
def cspRdpSendCmp (a : Ambient) (c : Nat) (packet : Option (List UInt8)) (flags : BitVec 8)
    (seqNr ackNr : BitVec 16) (s : Stack) : Stack × Bool :=
  if packet.isNone && !a.buffer 0 then (s, false)
  else
    let seg : Segment := ⟨s.incr <<< 4 ||| flags, seqNr, ackNr, packet.getD []⟩
    let s := { s with incr := s.incr + 1 }
    if flags &&& RDP_SYN != 0 && !a.buffer 1 then (s, false)
    else
      let s := if flags &&& RDP_SYN != 0 then cspRdpQueueTxAdd s c seg (a.ms 0) else s
      let s := s.emit c seg
      if flags &&& RDP_ACK != 0 then
        (s.update c fun conn => { conn with rcvLsa := ackNr, ackTimestamp := a.ms 1 }, true)
      else (s, true)

/-- `csp_rdp_send_syn`. -/
def cspRdpSendSyn (a : Ambient) (c : Nat) (s : Stack) : Stack × Bool :=
  if !a.buffer 0 then (s, false)
  else cspRdpSendCmp (a.later 1) c (some (s.conns c).opts.bytes) RDP_SYN (s.conns c).sndIss 0 s

/-- `csp_rdp_should_ack`. -/
def cspRdpShouldAck (now : BitVec 32) (conn : Conn) : Bool :=
  conn.opts.delayedAcks == 0 || cspRdpTimeAfter now (conn.ackTimestamp + conn.opts.ackTimeout) ||
    cspRdpSeqAfter conn.rcvCur (conn.rcvLsa + conn.opts.ackDelayCount.setWidth 16)

/-- `csp_rdp_check_ack`. -/
def cspRdpCheckAck (a : Ambient) (c : Nat) (s : Stack) : Stack :=
  let conn := s.conns c
  if (CSP_CONN_RXQUEUE_LEN : Int) - conn.rxQueue.length ≤ 2 * conn.opts.windowSize.toInt then s
  else if cspRdpShouldAck (a.ms 0) conn then
    (cspRdpSendCmp (a.later 1) c none RDP_ACK conn.sndNxt conn.rcvCur s).1
  else s

/-- `csp_rdp_is_conn_ready_for_tx`. -/
def cspRdpIsConnReadyForTx (conn : Conn) : Bool :=
  !cspRdpSeqAfter conn.sndNxt (conn.sndUna + conn.opts.windowSize.setWidth 16 - 1)

/-! ## §5 Receiving -/

/-- `csp_conn_enqueue_packet`. -/
def cspConnEnqueuePacket (c : Nat) (packet : Option (List UInt8)) (s : Stack) : Stack × Bool :=
  if (s.conns c).rxQueue.length < CSP_CONN_RXQUEUE_LEN then
    (s.update c fun conn =>
      { conn with rxQueue := conn.rxQueue ++ [packet], handed := conn.handed ++ packet.toList }, true)
  else (s, false)

/-- `csp_rdp_receive_data`. -/
def cspRdpReceiveData (c : Nat) (seg : Segment) (s : Stack) : Stack × Bool :=
  cspConnEnqueuePacket c (some seg.data) s

/-- One run of the loop in `csp_rdp_rx_queue_flush`, and whether it begins again from the first
    element. -/
def flushRound (c : Nat) : Nat → Stack → Stack × Bool
  | 0, s => (s, false)
  | count + 1, s =>
    -- "we require at least two spaces to be free to hopefully avoid posting packets on a full queue"
    if CSP_CONN_RXQUEUE_LEN - (s.conns c).rxQueue.length ≤ 2 then (s, false)
    else
      match SharedQueue.get RDP_QUEUE_LEN c s.rxq with
      | (none, rxq) => ({ s with rxq }, false)
      | (some seg, rxq) =>
        let s := { s with rxq }
        -- "If the matching packet was found"; it counts as received even if it is lost here
        if seg.seqNr = (s.conns c).rcvCur + 1 then
          let s := (cspRdpReceiveData c seg s).1
          (s.update c fun conn => { conn with rcvCur := conn.rcvCur + 1 }, true)
        else flushRound c count (cspRdpQueueRxAdd s c seg)

/-- `csp_rdp_rx_queue_flush`.  Every run but the last one takes an element from the queue. -/
def flushLoop (c : Nat) : Nat → Stack → Stack
  | 0, s => s
  | fuel + 1, s =>
    match flushRound c s.rxq.length s with
    | (s, false) => s
    | (s, true) => flushLoop c fuel s

def cspRdpRxQueueFlush (c : Nat) (s : Stack) : Stack := flushLoop c (s.rxq.length + 1) s

/-- The loop of `csp_rdp_seq_in_rx_queue`. -/
def seqInLoop (c : Nat) (seqNr : BitVec 16) : Nat → List (Nat × Segment) →
    Bool × List (Nat × Segment)
  | 0, rxq => (false, rxq)
  | count + 1, rxq =>
    match SharedQueue.get RDP_QUEUE_LEN c rxq with
    | (none, rxq) => (false, rxq)
    | (some seg, rxq) =>
      let rxq := SharedQueue.add RDP_QUEUE_LEN rxq (c, seg)
      if seg.seqNr = seqNr then (true, rxq) else seqInLoop c seqNr count rxq

/-- `csp_rdp_seq_in_rx_queue`. -/
def cspRdpSeqInRxQueue (c : Nat) (seqNr : BitVec 16) (rxq : List (Nat × Segment)) :
    Bool × List (Nat × Segment) :=
  seqInLoop c seqNr rxq.length rxq

/-- `csp_rdp_rx_queue_add`; false if there is a segment with this number. -/
def cspRdpRxQueueAdd (c : Nat) (seg : Segment) (s : Stack) : Stack × Bool :=
  match cspRdpSeqInRxQueue c seg.seqNr s.rxq with
  | (true, rxq) => ({ s with rxq }, false)
  | (false, rxq) => (cspRdpQueueRxAdd { s with rxq } c seg, true)

/-! ## §6 Closing -/

/-- "If connection is open, send reset" -/
def enterCloseWait (a : Ambient) (c : Nat) (sendRst : Bool) (s : Stack) : Stack :=
  if (s.conns c).state = .closeWait then s
  else
    let s := s.update c fun conn => { conn with state := .closeWait, timestamp := a.ms 0 }
    if sendRst then
      (cspRdpSendCmp (a.later 1) c none (RDP_ACK ||| RDP_RST) (s.conns c).sndNxt
        (s.conns c).rcvCur s).1
    else s

/-- `csp_rdp_close_internal`; false if the connection has to wait for somebody else. -/
def cspRdpCloseInternal (a : Ambient) (c : Nat) (closedBy : ClosedBy) (sendRst : Bool) (s : Stack) :
    Stack × Bool :=
  if (s.conns c).state = .closed then (s, true)
  else
    let s := enterCloseWait a c sendRst
      (s.update c fun conn => { conn with closedBy := conn.closedBy.or closedBy })
    if (s.conns c).closedBy ≠ ⟨true, true, true⟩ then (s, false)
    else
      (s.update c fun conn => { conn with state := .closed, closedBy := ⟨false, false, false⟩ }, true)

/-- `csp_rdp_queue_flush`: those of other connections go once around. -/
def cspRdpQueueFlush (c : Nat) (s : Stack) : Stack :=
  { s with rxq := s.rxq.filter (·.1 ≠ c), txq := s.txq.filter (·.1 ≠ c) }

/-- `csp_conn_close`. -/
def cspConnClose (a : Ambient) (c : Nat) (closedBy : ClosedBy) (s : Stack) : Stack :=
  if !(s.conns c).isOpen then s
  else
    match cspRdpCloseInternal a c closedBy true s with
    | (s, false) => s
    | (s, true) =>
      cspRdpQueueFlush c (s.update c fun conn => { conn with rxQueue := [], isOpen := false })

/-- The label `discard_close` of `csp_rdp_new_packet`. -/
def discardClose (a : Ambient) (c : Nat) (closedBy : ClosedBy) (s : Stack) : Stack :=
  if (s.conns c).destSocket then cspConnClose a c (closedBy.or ⟨true, false, false⟩) s
  else (cspConnEnqueuePacket c none (cspConnClose a c closedBy s)).1

/-! ## §7 A new packet -/

/-- A segment with the RST flag.  `seq_nr` is compared with `rcv_cur + 1` as an `int`. -/
def resetReceived (a : Ambient) (c : Nat) (seg : Segment) (s : Stack) : Stack × Bool :=
  let s := if seg.has RDP_ACK then s.update c fun conn => { conn with sndUna := seg.ackNr + 1 } else s
  let conn := s.conns c
  if conn.state = .closed then (s, conn.destSocket)
  else if conn.state = .closeWait then (discardClose a c ⟨false, true, seg.has RDP_ACK⟩ s, false)
  else if seg.seqNr.toNat = conn.rcvCur.toNat + 1 then
    -- "Received RST in sequence, no more data incoming, reply with RST"
    let s := s.update c fun conn => { conn with state := .closeWait, timestamp := a.ms 0 }
    let s := (cspRdpSendCmp (a.later 1) c none (RDP_ACK ||| RDP_RST) conn.sndNxt conn.rcvCur s).1
    (discardClose (a.later 3) c ⟨false, true, true⟩ s, false)
  else (s, false)

/-- `case RDP_CLOSED`.  `junk` is what the buffer of the packet held before. -/
def closedReceived (a : Ambient) (junk : Mem) (c : Nat) (seg : Segment) (s : Stack) : Stack :=
  if !seg.has RDP_SYN then
    -- "No SYN flag set while in closed. Inform by sending back RST"
    let s := (cspRdpSendCmp a c none RDP_RST (s.conns c).sndNxt (s.conns c).rcvCur s).1
    discardClose (a.later 2) c ⟨false, true, false⟩ s
  else
    let iss := a.rand (a.ms 0)
    let s := s.update c fun conn =>
      { conn with
        sndIss := iss
        sndNxt := iss + 1
        sndUna := iss
        rcvCur := seg.seqNr
        rcvIrs := seg.seqNr
        rcvLsa := seg.seqNr
        opts := Options.load (store junk 0 seg.inMemory)
        state := .synRcvd }
    (cspRdpSendCmp (a.later 1) c none (RDP_ACK ||| RDP_SYN) (s.conns c).sndIss (s.conns c).rcvIrs s).1

/-- `case RDP_SYN_SENT`. -/
def synSentReceived (a : Ambient) (c : Nat) (seg : Segment) (s : Stack) : Stack :=
  if seg.has RDP_SYN && seg.has RDP_ACK then
    let s := s.update c fun conn =>
      { conn with
        rcvCur := seg.seqNr
        rcvIrs := seg.seqNr
        rcvLsa := seg.seqNr - 1
        sndUna := seg.ackNr + 1
        ackTimestamp := a.ms 0
        state := .opened }
    (cspRdpSendCmp (a.later 1) c none RDP_ACK (s.conns c).sndNxt (s.conns c).rcvCur s).1
  else if seg.has RDP_ACK then
    -- "our SYN message hit an already open connection"
    (cspRdpSendCmp a c none RDP_RST (s.conns c).sndNxt (s.conns c).rcvCur s).1
  else discardClose a c ⟨false, true, false⟩ s

/-- `case RDP_OPEN`, once the numbers of the segment have been checked. -/
def dataReceived (a : Ambient) (c : Nat) (seg : Segment) (s : Stack) : Stack :=
  let s :=
    if (s.conns c).destSocket then s else s.update c fun conn => { conn with timestamp := a.ms 0 }
  let s := s.update c fun conn => { conn with sndUna := seg.ackNr + 1 }
  if seg.has RDP_EAK then s
  else if seg.data = [] then s
  -- "If message is not in sequence, store packet"
  else if seg.seqNr ≠ (s.conns c).rcvCur + 1 then
    match cspRdpRxQueueAdd c seg s with
    | (s, false) => cspRdpCheckAck (a.later 1) c s
    | (s, true) => s
  else
    match cspRdpReceiveData c seg s with
    | (s, false) => s
    | (s, true) =>
      let s := s.update c fun conn => { conn with rcvCur := seg.seqNr }
      cspRdpRxQueueFlush c (cspRdpCheckAck (a.later 1) c s)

/-- `case RDP_SYN_RCVD` and `case RDP_OPEN`. -/
def openReceived (a : Ambient) (c : Nat) (seg : Segment) (s : Stack) : Stack :=
  let conn := s.conns c
  if seg.has RDP_SYN || !seg.has RDP_ACK then
    -- a repeated SYN is ignored
    if seg.seqNr ≠ conn.rcvIrs then discardClose a c ⟨false, true, false⟩ s else s
  else if !cspRdpSeqBetween seg.seqNr (conn.rcvCur + 1) (conn.rcvCur + conn.doubleWindow) then
    -- "If duplicate SYN received, send another SYN/ACK"
    if conn.state = .synRcvd then
      (cspRdpSendCmp a c none (RDP_ACK ||| RDP_SYN) conn.sndIss conn.rcvIrs s).1
    else s
  else if !cspRdpSeqBetween seg.ackNr (conn.sndUna - 1 - conn.doubleWindow) (conn.sndNxt - 1) then s
  else if conn.state = .synRcvd then
    if seg.ackNr ≠ conn.sndIss then discardClose a c ⟨false, true, false⟩ s
    else
      let s := s.update c fun conn => { conn with state := .opened }
      -- "this message is the first in a new connection so the connection must be queued"
      if conn.destSocket && !a.socket then discardClose a c ⟨false, true, false⟩ s
      else dataReceived a c seg (s.update c fun conn => { conn with destSocket := false })
  else dataReceived a c seg s

/-- `case RDP_CLOSE_WAIT`. -/
def closeWaitReceived (a : Ambient) (c : Nat) (seg : Segment) (s : Stack) : Stack :=
  let conn := s.conns c
  if seg.has RDP_SYN || !seg.has RDP_ACK then s
  else if !cspRdpSeqBetween seg.ackNr (conn.sndUna - 1 - conn.doubleWindow) (conn.sndNxt - 1) then s
  else
    let s := s.update c fun conn => { conn with sndUna := seg.ackNr + 1 }
    (cspRdpSendCmp a c none (RDP_ACK ||| RDP_RST) conn.sndNxt conn.rcvCur s).1

/-- `csp_rdp_new_packet`, and whether the connection should be closed. -/
def cspRdpNewPacket (a : Ambient) (junk : Mem) (c : Nat) (seg : Segment)
    (s : Stack) : Stack × Bool :=
  if seg.has RDP_RST then resetReceived a c seg s
  else
    match (s.conns c).state with
    | .closed => (closedReceived a junk c seg s, false)
    | .synSent => (synSentReceived a c seg s, false)
    | .synRcvd => (openReceived a c seg s, false)
    | .opened => (openReceived a c seg s, false)
    | .closeWait => (closeWaitReceived a c seg s, false)

/-! ## §8 Timeouts -/

/-- "MESSAGE TIMEOUT: Check each outgoing message for TX timeout" -/
def timeoutLoop (a : Ambient) (now : BitVec 32) (c : Nat) : Nat → Stack → Stack
  | 0, s => s
  | count + 1, s =>
    match SharedQueue.get RDP_QUEUE_LEN c s.txq with
    | (none, txq) => { s with txq }
    | (some (seg, timestampTx), txq) =>
      let s := { s with txq }
      let conn := s.conns c
      if cspRdpSeqBefore seg.seqNr conn.sndUna then timeoutLoop (a.later 1) now c count s
      else if cspRdpTimeAfter now (timestampTx + conn.opts.packetTimeout) then
        let seg := { seg with ackNr := conn.rcvCur }
        let s := if a.buffer 0 then s.emit c seg else s
        timeoutLoop (a.later 1) now c count (cspRdpQueueTxAdd s c seg (a.ms 0))
      else timeoutLoop (a.later 1) now c count (cspRdpQueueTxAdd s c seg timestampTx)

/-- `csp_rdp_check_timeouts`. -/
def cspRdpCheckTimeouts (a : Ambient) (c : Nat) (s : Stack) : Stack :=
  let now := a.ms 0
  let conn := s.conns c
  let late := cspRdpTimeAfter now (conn.timestamp + conn.opts.connTimeout)
  if conn.destSocket && late then cspConnClose (a.later 1) c ⟨true, true, true⟩ s
  else if conn.state = .closeWait then
    if late then cspConnClose (a.later 1) c ⟨false, true, true⟩ s else s
  else
    let s := timeoutLoop (a.later 4) now c s.txq.length s
    let s :=
      if (s.conns c).state = .opened && (s.conns c).opts.delayedAcks != 0 then
        cspRdpCheckAck (a.later 1) c s
      else s
    cspRdpRxQueueFlush c s

/-! ## §9 The tasks -/

/-- `csp_rdp_send` once there is room in the window; the segment, if there is one to send. -/
def cspRdpSend (a : Ambient) (c : Nat) (data : List UInt8) (s : Stack) : Stack × Option Segment :=
  let conn := s.conns c
  if conn.state ≠ .opened || !cspRdpIsConnReadyForTx conn then (s, none)
  else if CSP_BUFFER_SIZE < data.length + 5 then (s, none)
  else if !a.buffer 0 then (s, none)
  else
    let seg : Segment := ⟨RDP_ACK, conn.sndNxt, conn.rcvCur, data⟩
    let s := cspRdpQueueTxAdd s c seg (a.ms 0)
    (s.update c fun conn => { conn with sndNxt := conn.sndNxt + 1, given := conn.given ++ [data] },
      some seg)

/-- `csp_send`. -/
def cspSend (a : Ambient) (c : Nat) (data : List UInt8) (s : Stack) : Stack :=
  if !(s.conns c).isOpen then s
  else
    match cspRdpSend a c data s with
    | (s, none) => s
    | (s, some seg) => s.emit c seg

/-- `csp_read`, without waiting: what is at the head of the queue of the connection. -/
def cspRead (a : Ambient) (c : Nat) (s : Stack) : Stack :=
  if !(s.conns c).isOpen then s
  else
    match (s.conns c).rxQueue with
    | [] => s
    | packet :: rest =>
      let s := s.update c fun conn =>
        { conn with rxQueue := rest, taken := conn.taken ++ packet.toList }
      if (s.conns c).opts.delayedAcks != 0 then cspRdpCheckAck a c s else s

/-- `csp_rdp_connect` up to the point where it waits for the answer; `dflt` are the options that
    `csp_rdp_set_opt` has set.  A SYN segment that cannot be sent ends it. -/
def cspRdpConnect (a : Ambient) (dflt : Options) (c : Nat) (s : Stack) : Stack :=
  let iss := a.rand (a.ms 1)
  let s := s.update c fun conn =>
    { conn with
      opts := dflt
      ackTimestamp := a.ms 0
      sndIss := iss
      sndNxt := iss + 1
      sndUna := iss
      state := .synSent }
  match cspRdpSendSyn (a.later 2) c s with
  | (s, true) => s
  | (s, false) => (cspRdpCloseInternal (a.later 5) c ⟨false, true, false⟩ false s).1

/-- `csp_conn_new`, and what follows it in `csp_route_work` (`destSocket`) or in `csp_connect`. -/
def cspConnNew (a : Ambient) (destSocket : Bool) (c : Nat) (s : Stack) : Stack :=
  s.update c fun conn =>
    { conn with
      isOpen := true, timestamp := a.ms 0, rxQueue := [], destSocket
      given := [], handed := [], taken := [] }

/-! ## §10 Events -/

/-- What happens to a node. -/
inductive RdpEvent where
  /-- `csp_route_work` hands a segment to a connection. -/
  | arrive (c : Nat) (junk : Mem) (seg : Segment)
  /-- `csp_conn_check_timeouts` comes to a connection. -/
  | check (c : Nat)
  | send (c : Nat) (data : List UInt8)
  | read (c : Nat)
  | close (c : Nat)
  /-- `csp_route_work` makes a connection for a segment. -/
  | accept (c : Nat)
  | connect (c : Nat) (dflt : Options)

/-- Its connection. -/
def RdpEvent.conn : RdpEvent → Nat
  | .arrive c _ _ => c
  | .check c => c
  | .send c _ => c
  | .read c => c
  | .close c => c
  | .accept c => c
  | .connect c _ => c

/-- `csp_route_work` finds open connections only, and closes those that `csp_rdp_new_packet` is
    done with. -/
def rdpArrive (a : Ambient) (junk : Mem) (c : Nat) (seg : Segment) (s : Stack) : Stack :=
  if !(s.conns c).isOpen then s
  else
    match cspRdpNewPacket a junk c seg s with
    | (s, false) => s
    | (s, true) => cspConnClose (a.later 8) c ⟨true, false, false⟩ s

/-- One event. -/
def Stack.step (a : Ambient) (s : Stack) : RdpEvent → Stack
  | .arrive c junk seg => rdpArrive a junk c seg s
  | .check c => if (s.conns c).isOpen then cspRdpCheckTimeouts a c s else s
  | .send c data => cspSend a c data s
  | .read c => cspRead a c s
  | .close c => cspConnClose a c ⟨true, false, false⟩ s
  | .accept c => if (s.conns c).isOpen then s else cspConnNew a true c s
  | .connect c dflt =>
    if (s.conns c).isOpen then s else cspRdpConnect (a.later 1) dflt c (cspConnNew a false c s)

/-- A node that does nothing yet, and calls that meet no trouble. -/
def idleConn : Conn where
  isOpen := false
  rxQueue := []
  destSocket := false
  timestamp := 0
  state := .closed
  closedBy := ⟨false, false, false⟩
  sndNxt := 0
  sndUna := 0
  sndIss := 0
  rcvCur := 0
  rcvIrs := 0
  rcvLsa := 0
  opts := ⟨0, 0, 0, 0, 0, 0⟩
  ackTimestamp := 0
  given := []
  handed := []
  taken := []

def idleStack : Stack := ⟨fun _ => idleConn, [], [], 0, []⟩

def calm : Ambient := ⟨fun _ => 0, fun _ => true, true, fun _ => 0xFFFF⟩

end AppSysManager.Csp
