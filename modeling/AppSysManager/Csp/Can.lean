import AppSysManager.Bytes.Store
import AppSysManager.Channels.LinkedList
import AppSysManager.Csp.Header
import AppSysManager.Server.Serve

/-!
# The CAN Interface

`csp_buffer.c`, `csp_qfifo.c`, `csp_if_can_pbuf.c` and the CFP 2.0 half of `csp_if_can.c`:
packets are cut into CAN frames of at most eight bytes, and put together again from the frames
that arrive, however those of several packets are mixed.

A packet is the index of its buffer.  `pbufs` holds the head of the list of half received
packets together with the `next` field of every packet.  The loops that walk this list are run
for as many nodes as there are buffers: a list that goes on behind that goes round in a circle,
and the loop of the source does not end.  The result is then `none`.

`csp_get_ms` is read at several places; each reading is an argument.  The functions are called
from a thread, never from an interrupt handler (`task_woken == NULL`), and no buffer header has
been overwritten (`skbf_addr`).
-/

namespace AppSysManager.Csp

open AppSysManager.Bytes AppSysManager.Node AppSysManager.Channels
open AppSysManager.Server (CSP_BUFFER_SIZE maxNodeid)

/-! ## §1 Packets, buffers and queues -/

/-- `csp:buffer_count`. -/
def CSP_BUFFER_COUNT : Nat := 1000

/-- `csp:qfifo_len`. -/
def CSP_QFIFO_LEN : Nat := 1000

/-- `csp_packet_t`.  `mem` is the memory at `packet->data`; the header bytes lie in front of
    it, and `frameBegin` is an offset from it. -/
structure Packet where
  rxCount : Nat
  remain : Nat
  cfpid : Nat
  lastUsed : Nat
  frameBegin : Int
  frameLength : Nat
  length : Nat
  id : CspId
  mem : Mem

/-- The interfaces of this program. -/
inductive IfaceName where
  | can
  | lo
  deriving DecidableEq, Repr

/-- `csp_iface_t`: the settings and the statistics that are counted here. -/
structure Iface where
  addr : Nat
  netmask : Nat
  rx : Nat
  rxBytes : Nat
  frame : Nat
  rxError : Nat
  txError : Nat
  drop : Nat
  autherr : Nat

/-- `csp_dbg_errno` and `csp_dbg_can_errno`. -/
inductive DbgErrno where
  | none
  | alreadyFree
  | refcount
  deriving DecidableEq, Repr

inductive CanErrno where
  | none
  | frameLost
  | rxOvf
  | shortBegin
  deriving DecidableEq, Repr

/-- The part of the CSP library below the router: the pool of buffers, the queue of the router
    and the CAN interface. -/
structure Net where
  refcount : Nat → Nat
  packet : Nat → Packet
  /-- The queue `csp_buffers`. -/
  free : List Nat
  pbufs : Links Nat
  qfifo : List (Nat × IfaceName)
  can : Iface
  lo : Iface
  cfpPacketCounter : Nat
  dbgErrno : DbgErrno
  dbgCanErrno : CanErrno
  dbgBufferOut : Nat
  dbgConnOvf : Nat

/-- `csp_init` and `csp_can_add_interface`.  "csp buffers can never be
    assumed zeroed out". -/
def cspInit (refcount : Nat → Nat) (packet : Nat → Packet) (next : Nat → Option Nat)
    (addr netmask : Nat) : Net :=
  { refcount, packet
    free := List.range CSP_BUFFER_COUNT
    pbufs := ⟨none, next⟩
    qfifo := []
    can := ⟨addr, netmask, 0, 0, 0, 0, 0, 0, 0⟩
    lo := ⟨0, 14, 0, 0, 0, 0, 0, 0, 0⟩
    cfpPacketCounter := 0
    dbgErrno := .none
    dbgCanErrno := .none
    dbgBufferOut := 0
    dbgConnOvf := 0 }

/-- Change one packet. -/
def Net.setPacket (net : Net) (p : Nat) (packet : Packet) : Net :=
  { net with packet := Function.update net.packet p packet }

@[simp] theorem Net.setPacket_self (net : Net) (p : Nat) (packet : Packet) :
    (net.setPacket p packet).packet p = packet := Function.update_self ..

theorem Net.setPacket_other (net : Net) {p q : Nat} (h : q ≠ p) (packet : Packet) :
    (net.setPacket p packet).packet q = net.packet q := Function.update_of_ne h ..

/-- `csp_id_clear`. -/
def idClear : CspId := { pri := 0, flags := 0, src := 0, dst := 0, dport := 0, sport := 0 }

/-- `csp_buffer_get`. -/
def cspBufferGet (net : Net) : Net × Option Nat :=
  match net.free with
  | [] => ({ net with dbgBufferOut := net.dbgBufferOut + 1 }, none)
  | p :: rest =>
    ({ net with
        free := rest
        refcount := Function.update net.refcount p 1
        packet := Function.update net.packet p { net.packet p with id := idClear } }, some p)

/-- `csp_buffer_free`. -/
def cspBufferFree (net : Net) (p : Nat) : Net :=
  if net.refcount p = 0 then { net with dbgErrno := .alreadyFree }
  else
    let net := { net with refcount := Function.update net.refcount p (net.refcount p - 1) }
    if 0 < net.refcount p then { net with dbgErrno := .refcount }
    -- the queue has a place for every buffer
    else if net.free.length < CSP_BUFFER_COUNT then { net with free := net.free ++ [p] }
    else net

/-- `csp_qfifo_write` for the CAN interface. -/
def cspQfifoWrite (net : Net) (p : Nat) : Net :=
  if net.qfifo.length < CSP_QFIFO_LEN then { net with qfifo := net.qfifo ++ [(p, .can)] }
  else
    cspBufferFree
      { net with
        dbgConnOvf := net.dbgConnOvf + 1
        can := { net.can with drop := net.can.drop + 1 } } p

/-! ## §2 Half received packets -/

/-- `PBUF_TIMEOUT_MS`. -/
def PBUF_TIMEOUT_MS : Nat := 1000

/-- `now - packet->last_used > PBUF_TIMEOUT_MS`, in 32 bits. -/
def expired (net : Net) (now p : Nat) : Bool :=
  decide (PBUF_TIMEOUT_MS < (now + 2 ^ 32 - (net.packet p).lastUsed) % 2 ^ 32)

/-- `csp_can_pbuf_free`.  Only one packet can be meant, but the loop goes on to the end of the
    list. -/
def cspCanPbufFree (net : Net) (p : Nat) (bufFree : Bool) : Option Net :=
  match Links.sweep (· == p) CSP_BUFFER_COUNT net.pbufs none net.pbufs.head with
  | none => none
  | some (pbufs, removed) =>
    let net := { net with pbufs }
    some (if bufFree then removed.foldl cspBufferFree net else net)

/-- `csp_can_pbuf_cleanup`.  Freeing a buffer changes no link and no time stamp, so that the
    buffers may as well be freed behind the loop. -/
def cspCanPbufCleanup (net : Net) (now : Nat) : Option Net :=
  match Links.sweep (expired net now) CSP_BUFFER_COUNT net.pbufs none net.pbufs.head with
  | none => none
  | some (pbufs, removed) => some (removed.foldl cspBufferFree { net with pbufs })

/-- The end of `csp_can_pbuf_new`: "Insert at beginning, because easy". -/
def pbufInsert (net : Net) (p id now : Nat) : Net :=
  let net := net.setPacket p { net.packet p with lastUsed := now, cfpid := id, remain := 0 }
  { net with pbufs := ⟨some p, Function.update net.pbufs.next p net.pbufs.head⟩ }

/-- `csp_can_pbuf_new`, with the readings of the clock in `csp_can_pbuf_cleanup` and behind it. -/
def cspCanPbufNew (net : Net) (id nowCleanup nowNew : Nat) : Option (Net × Option Nat) :=
  match cspCanPbufCleanup net nowCleanup with
  | none => none
  | some net =>
    match cspBufferGet net with
    | (net, none) => some (net, none)
    | (net, some p) => some (pbufInsert net p id nowNew, some p)

/-- `csp_can_pbuf_find`. -/
def cspCanPbufFind (net : Net) (id mask now : Nat) : Option (Net × Option Nat) :=
  match Links.find (fun p => (net.packet p).cfpid &&& mask == id &&& mask) net.pbufs
      CSP_BUFFER_COUNT net.pbufs.head with
  | none => none
  | some none => some (net, none)
  | some (some p) => some (net.setPacket p { net.packet p with lastUsed := now }, some p)

/-! ## §3 Frames -/

/-- `CAN_FRAME_SIZE`. -/
def CAN_FRAME_SIZE : Nat := 8

/-- A CAN frame with an extended identifier, as the driver passes it on: 29 bits and at most
    eight bytes. -/
structure CanFrame where
  id : Nat
  data : List UInt8
  id_lt : id < 2 ^ 29
  dlc_le : data.length ≤ CAN_FRAME_SIZE

/-! The `CFP2_` constants. -/

def CFP2_PRIO : BitField := ⟨2, 27⟩
def CFP2_DST : BitField := ⟨14, 13⟩
def CFP2_SENDER : BitField := ⟨6, 7⟩
def CFP2_SC : BitField := ⟨2, 5⟩
def CFP2_FC : BitField := ⟨3, 2⟩
def CFP2_BEGIN : BitField := ⟨1, 1⟩
def CFP2_END : BitField := ⟨1, 0⟩

def CFP2_SRC : BitField := ⟨14, 18⟩
def CFP2_DPORT : BitField := ⟨6, 12⟩
def CFP2_SPORT : BitField := ⟨6, 6⟩
def CFP2_FLAGS : BitField := ⟨6, 0⟩

/-- `CFP2_ID_CONN_MASK`: "Fields used to uniquely define a CSP packet within each fragment
    header". -/
def CFP2_ID_CONN_MASK : Nat :=
  CFP2_DST.bits ||| CFP2_SENDER.bits ||| CFP2_PRIO.bits ||| CFP2_SC.bits

/-- `id & (CFP2_BEGIN_MASK << CFP2_BEGIN_OFFSET)` -/
def CanFrame.isBegin (frame : CanFrame) : Bool := CFP2_BEGIN.get frame.id == 1

/-- `id & (CFP2_END_MASK << CFP2_END_OFFSET)` -/
def CanFrame.isEnd (frame : CanFrame) : Bool := CFP2_END.get frame.id == 1

/-- The fields that the frames of one packet have in common. -/
def CanFrame.conn (frame : CanFrame) : Nat := frame.id &&& CFP2_ID_CONN_MASK

/-! ## §4 Reception -/

/-- One more frame that was not accepted, or the first of a packet: both are counted. -/
def Net.countFrame (net : Net) : Net :=
  { net with can := { net.can with frame := net.can.frame + 1 } }

/-- The end of the functions that discard a half received packet. -/
def discardPacket (net : Net) (p : Nat) (errno : CanErrno) : Option Net :=
  cspCanPbufFree { net.countFrame with dbgCanErrno := errno } p true

/-- "Copy dlc bytes into buffer". -/
def Packet.copyIn (packet : Packet) (data : List UInt8) : Packet :=
  { packet with
    mem := store packet.mem (packet.frameBegin + packet.frameLength) data
    frameLength := packet.frameLength + data.length }

/-- `csp_id_strip`, for CSP version 2.  It also clears `timestamp_rx`, which is the same memory
    as `last_used`. -/
def cspIdStrip (packet : Packet) : Packet :=
  match cspId2.strip packet.mem packet.frameBegin packet.frameLength with
  | some (id, length) => { packet with id, length, lastUsed := 0 }
  | none => { packet with lastUsed := 0 }

/-- "Rewrite incoming L2 broadcast to local node". -/
def rewriteBroadcast (addr : Nat) (packet : Packet) : Packet :=
  if packet.id.dst = 0x3FFF then { packet with id := { packet.id with dst := addr } } else packet

/-- The common end of a BEGIN frame and of a fragment: append what is left of the frame to the
    packet and, with the END flag, hand the packet to the router. -/
def appendData (net : Net) (p : Nat) (isEnd : Bool) (data : List UInt8) : Option Net :=
  let packet := net.packet p
  -- "The frame input + dlc must not exceed the end of the packet data field"
  if (CSP_BUFFER_SIZE : Int) < packet.frameBegin + packet.frameLength + data.length then
    discardPacket net p .rxOvf
  else
    let net := net.setPacket p (packet.copyIn data)
    if isEnd then
      let net := net.setPacket p (rewriteBroadcast net.can.addr (cspIdStrip (net.packet p)))
      match cspCanPbufFree net p false with
      | none => none
      | some net => some (cspQfifoWrite net p)
    else some net

/-- `csp_id_setup_rx`, "Copy first 2 bytes from CFP 2.0 header", "Copy next 4 from data" and
    "Set next expected fragment counter to be 1". -/
def Packet.setup (packet : Packet) (frame : CanFrame) : Packet :=
  let mem := store packet.mem (-6) (bytesBE 2 (frame.id >>> CFP2_DST.offset))
  let mem := store mem (-4) (frame.data.take 4)
  { packet with mem, frameBegin := -6, frameLength := 6, length := 0, rxCount := 1 }

/-- The BEGIN frame of a packet. -/
def beginFrame (net : Net) (p : Nat) (frame : CanFrame) : Option Net :=
  if frame.data.length < 4 then discardPacket net p .shortBegin
  else
    let net := net.countFrame.setPacket p ((net.packet p).setup frame)
    appendData net p frame.isEnd (frame.data.drop 4)

/-- "Increment expected next fragment counter: and with the mask in order to wrap around". -/
def Packet.nextFragment (packet : Packet) : Packet :=
  { packet with rxCount := (packet.rxCount + 1) &&& CFP2_FC.mask }

/-- A fragment behind the BEGIN frame. -/
def fragment (net : Net) (p : Nat) (frame : CanFrame) : Option Net :=
  let packet := net.packet p
  -- "Check fragment counter is increasing"
  if packet.rxCount ≠ CFP2_FC.get frame.id then discardPacket net p .frameLost
  else
    let net := net.setPacket p packet.nextFragment
    appendData net p frame.isEnd frame.data

/-- The readings of the clock during one call of `csp_can2_rx`. -/
structure Clock where
  find : Nat
  cleanup : Nat
  new : Nat

/-- `csp_can2_rx`. -/
def cspCan2Rx (net : Net) (clock : Clock) (frame : CanFrame) : Option Net :=
  match cspCanPbufFind net frame.id CFP2_ID_CONN_MASK clock.find with
  | none => none
  | some (net, some p) => if frame.isBegin then beginFrame net p frame else fragment net p frame
  | some (net, none) =>
    if frame.isBegin then
      match cspCanPbufNew net frame.id clock.cleanup clock.new with
      | none => none
      | some (net, none) =>
        some { net with can := { net.can with rxError := net.can.rxError + 1 } }
      | some (net, some p) => beginFrame net p frame
    else some net.countFrame

/-! ## §5 Transmission -/

/-- The mandatory fields of an identifier. -/
def canHeader (id : CspId) (addr senderCount : Nat) : Nat :=
  CFP2_PRIO.put id.pri ||| CFP2_DST.put id.dst ||| CFP2_SENDER.put addr ||| CFP2_SC.put senderCount

/-- "Pack the rest of the CSP header in the first 32-bit of data". -/
def headerExtension (id : CspId) : Nat :=
  CFP2_SRC.put id.src ||| CFP2_DPORT.put id.dport ||| CFP2_SPORT.put id.sport |||
    CFP2_FLAGS.put id.flags

/-- What the driver says to each frame: the frames it has taken so far and the new one. -/
abbrev TxFunc := List (Nat × List UInt8) → Nat × List UInt8 → Bool

/-- "Send next fragments if not complete", with the frames that went out so far.  The loop
    ends with the data, or with a frame that the driver does not take. -/
def txLoop (txFunc : TxFunc) (header : Nat) :
    Nat → Nat → List UInt8 → List (Nat × List UInt8) → List (Nat × List UInt8) × Bool
  | 0, _, _, sent => (sent, true)
  | fuel + 1, fragmentCount, rest, sent =>
    if rest.length = 0 then (sent, true)
    else
      let data := rest.take CAN_FRAME_SIZE
      let canId := header ||| CFP2_FC.put fragmentCount |||
        CFP2_END.put (if data.length = rest.length then 1 else 0)
      if txFunc sent (canId, data) then
        txLoop txFunc header fuel (fragmentCount + 1) (rest.drop CAN_FRAME_SIZE)
          (sent ++ [(canId, data)])
      else (sent, false)

/-- The frames of `csp_can2_tx` for a packet of the given id and data, up to one that the driver
    does not take. -/
def txFrames (txFunc : TxFunc) (id : CspId) (data : List UInt8) (addr senderCount : Nat) :
    List (Nat × List UInt8) × Bool :=
  let header := canHeader id addr senderCount
  let first := data.take 4
  let canId := header ||| CFP2_BEGIN.put 1 |||
    CFP2_END.put (if first.length = data.length then 1 else 0)
  let frame := (canId, bytesBE 4 (headerExtension id) ++ first)
  if txFunc [] frame then txLoop txFunc header data.length 1 (data.drop 4) [frame]
  else ([], false)

/-- The data of a packet. -/
def Packet.data (packet : Packet) : List UInt8 := window packet.mem 0 packet.length

/-- `csp_can2_tx`: the frames that went out, and whether the call succeeded.  A packet to the
    interface itself goes to the router.  "Does not free on return" of an error. -/
def cspCan2Tx (txFunc : TxFunc) (net : Net) (p : Nat) : Net × List (Nat × List UInt8) × Bool :=
  let packet := net.packet p
  if packet.id.dst = net.can.addr then (cspQfifoWrite net p, [], true)
  else
    let senderCount := net.cfpPacketCounter
    let net := { net with cfpPacketCounter := (net.cfpPacketCounter + 1) % 2 ^ 32 }
    match txFrames txFunc packet.id packet.data net.can.addr senderCount with
    | (sent, true) => (cspBufferFree net p, sent, true)
    | (sent, false) =>
      ({ net with can := { net.can with txError := net.can.txError + 1 } }, sent, false)

end AppSysManager.Csp
