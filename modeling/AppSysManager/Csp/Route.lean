import AppSysManager.Csp.Crc32
import AppSysManager.Csp.Routing

/-!
# The Router

`csp_route.c` and `csp_port.c`: what becomes of a packet that the router takes from its queue, up
to the point where it is handed to a callback, to the connection layer or to `csp_send_direct`.
`csp_conf.dedup` is off, and nobody listens in (`csp_promisc_enabled == 0`).

`csp_hmac_memory` is a parameter.

- `IsRequest.check`: a request with its checksum passes the security check of a callback.
- `cspRouteWork_request`: it reaches `param_serve` as it was sent.
-/

namespace AppSysManager.Csp

open AppSysManager.Bytes AppSysManager.Node
open AppSysManager.Server (CSP_BUFFER_SIZE maxNodeid)

/-! ## §1 Ports -/

/-- `csp:port_max_bind`. -/
def CSP_PORT_MAX_BIND : Nat := 16

/-- `CSP_ANY`. -/
def CSP_ANY : Nat := 255

/-- `PARAM_PORT_SERVER`, `PARAM_PORT_LIST` and `VMEM_PORT_SERVER`. -/
def PARAM_PORT_SERVER : Nat := 10
def PARAM_PORT_LIST : Nat := 12
def VMEM_PORT_SERVER : Nat := 14

/-- The callbacks of this program: `csp_service_handler` and `param_serve`. -/
inductive Callback where
  | service
  | param
  deriving DecidableEq, Repr

/-- `csp_port_t`; of a socket only the options matter here. -/
inductive PortState where
  | closed
  | socket (opts : Nat)
  | callback (c : Callback)
  deriving DecidableEq, Repr

/-- `ports`; the last one stands for all. -/
abbrev Ports := Nat → PortState

/-- `csp_port_get_callback`. -/
def cspPortGetCallback (ports : Ports) (port : Nat) : Option Callback :=
  if CSP_PORT_MAX_BIND < port then none
  else
    match ports port with
    | .callback c => some c
    | .socket _ => none
    | .closed =>
      match ports (CSP_PORT_MAX_BIND + 1) with
      | .callback c => some c
      | _ => none

/-- `csp_port_get_socket`. -/
def cspPortGetSocket (ports : Ports) (port : Nat) : Option Nat :=
  if CSP_PORT_MAX_BIND < port then none
  else
    match ports port with
    | .socket opts => some opts
    | .callback _ => none
    | .closed =>
      match ports (CSP_PORT_MAX_BIND + 1) with
      | .socket opts => some opts
      | _ => none

/-- The common part of `csp_bind` and `csp_bind_callback`: the new table, and whether the port was
    valid and closed. -/
def bindPort (ports : Ports) (port : Nat) (state : PortState) : Ports × Bool :=
  let index := if port = CSP_ANY then CSP_PORT_MAX_BIND + 1 else port
  if port ≠ CSP_ANY ∧ CSP_PORT_MAX_BIND < port then (ports, false)
  else if ports index ≠ .closed then (ports, false)
  else (Function.update ports index state, true)

/-- `csp_bind_callback`. -/
def cspBindCallback (ports : Ports) (c : Callback) (port : Nat) : Ports × Bool :=
  bindPort ports port (.callback c)

/-- `csp_bind`. -/
def cspBind (ports : Ports) (opts port : Nat) : Ports × Bool := bindPort ports port (.socket opts)

/-- The ports behind the two calls in `main`. -/
def mainPorts : Ports :=
  (cspBindCallback (cspBindCallback (fun _ => .closed) .service CSP_ANY).1 .param
    PARAM_PORT_SERVER).1

/-- The ports once `vmem_server_loop` has bound its socket as well. -/
def vmemPorts : Ports := (cspBind (cspBind mainPorts 0 VMEM_PORT_SERVER).1 0 PARAM_PORT_LIST).1

/-! ## §2 The security check -/

/-- Flags of a packet. -/
def CSP_FCRC32 : Nat := 0x01
def CSP_FRDP : Nat := 0x02
def CSP_FHMAC : Nat := 0x08

/-- Options of a socket. -/
def CSP_SO_RDPREQ : Nat := 0x0001
def CSP_SO_HMACREQ : Nat := 0x0004
def CSP_SO_CRC32REQ : Nat := 0x0040
def CSP_SO_CONN_LESS : Nat := 0x0100

inductive SecurityError where
  | crc32
  | hmac
  | inval
  deriving DecidableEq, Repr

/-- `csp_hmac_verify` without the header; `CSP_HMAC_LENGTH` is 4. -/
def cspHmacVerify (hmac : List UInt8 → List UInt8) (packet : Packet) : Option Packet :=
  if packet.length < 4 then none
  else if window packet.mem (packet.length - 4) 4 ≠
      (hmac (window packet.mem 0 (packet.length - 4))).take 4 then none
  else some { packet with length := packet.length - 4 }

/-- "CRC32 verified packet". -/
def checkCrc32 (opts : Nat) (packet : Packet) : Except SecurityError Packet :=
  if packet.id.flags &&& CSP_FCRC32 ≠ 0 then
    match cspCrc32Verify packet with
    | none => .error .crc32
    | some packet => .ok packet
  else if opts &&& CSP_SO_CRC32REQ ≠ 0 then .error .crc32
  else .ok packet

/-- "HMAC authenticated packet". -/
def checkHmac (hmac : List UInt8 → List UInt8) (opts : Nat) (packet : Packet) :
    Except SecurityError Packet :=
  if packet.id.flags &&& CSP_FHMAC ≠ 0 then
    match cspHmacVerify hmac packet with
    | none => .error .hmac
    | some packet => .ok packet
  else if opts &&& CSP_SO_HMACREQ ≠ 0 then .error .hmac
  else .ok packet

/-- `csp_route_security_check`. -/
def cspRouteSecurityCheck (hmac : List UInt8 → List UInt8) (opts : Nat) (packet : Packet) :
    Except SecurityError Packet :=
  match checkCrc32 opts packet with
  | .error e => .error e
  | .ok packet =>
    match checkHmac hmac opts packet with
    | .error e => .error e
    | .ok packet =>
      if packet.id.flags &&& CSP_FRDP = 0 ∧ opts &&& CSP_SO_RDPREQ ≠ 0 then .error .inval
      else .ok packet

/-! ## §3 Routing one packet -/

/-- Change the statistics of an interface. -/
def Net.onIface (net : Net) (f : Iface → Iface) : IfaceName → Net
  | .can => { net with can := f net.can }
  | .lo => { net with lo := f net.lo }

/-- A failed check is counted. -/
def SecurityError.count : SecurityError → Iface → Iface
  | .hmac, iface => { iface with autherr := iface.autherr + 1 }
  | _, iface => { iface with rxError := iface.rxError + 1 }

/-- The interface as routing sees it. -/
def Net.iface (net : Net) : IfaceName → Interface IfaceName
  | .can => canIface net.can.addr net.can.netmask
  | .lo => loIface

/-- "The packet is to me, if the address matches that of any interface, or the address matches the
    broadcast address of the incoming interface". -/
def isToMe (net : Net) (input : IfaceName) (dst : Nat) : Bool :=
  (nodeIfaces net.can.addr net.can.netmask).any (·.addr == dst) ||
    cspIdIsBroadcast dst (net.iface input)

/-- What `csp_route_work` does with a packet. -/
inductive Routed where
  /-- "Get next packet to route" found none. -/
  | timedOut
  | dropped
  /-- `csp_send_direct(&packet->id, packet, input.iface)` -/
  | forward (p : Nat) (input : IfaceName)
  | callback (c : Callback) (p : Nat)
  /-- Into the queue of a connection-less socket. -/
  | connectionLess (p : Nat)
  /-- To the connection layer, with the options of the socket of the port, if it has one. -/
  | connection (socket : Option Nat) (p : Nat)
  deriving DecidableEq, Repr

/-- Pass a packet on that has passed its check; free it otherwise. -/
def checked (hmac : List UInt8 → List UInt8) (opts : Nat) (net : Net) (input : IfaceName) (p : Nat)
    (result : Routed) : Net × Routed :=
  match cspRouteSecurityCheck hmac opts (net.packet p) with
  | .error e => (cspBufferFree (net.onIface e.count input) p, .dropped)
  | .ok packet => (net.setPacket p packet, result)

/-- `csp_route_work`. -/
def cspRouteWork (hmac : List UInt8 → List UInt8) (ports : Ports) (net : Net) : Net × Routed :=
  match net.qfifo with
  | [] => (net, .timedOut)
  | (p, input) :: rest =>
    let packet := net.packet p
    let net := { net with qfifo := rest }
    let net := net.onIface
      (fun iface => { iface with rx := iface.rx + 1, rxBytes := iface.rxBytes + packet.length })
      input
    if !isToMe net input packet.id.dst then (net, .forward p input)
    else
      match cspPortGetCallback ports packet.id.dport with
      | some c => checked hmac CSP_SO_CRC32REQ net input p (.callback c p)
      | none =>
        match cspPortGetSocket ports packet.id.dport with
        | some opts =>
          if opts &&& CSP_SO_CONN_LESS ≠ 0 then checked hmac opts net input p (.connectionLess p)
          else (net, .connection (some opts) p)
        | none => (net, .connection none p)

/-! ## §4 Requests -/

/-- `param_serve` has its port from the beginning, and keeps it. -/
theorem vmemPorts_param : cspPortGetCallback vmemPorts PARAM_PORT_SERVER = some .param := by decide

/-- A request to `param_serve`, as it is on the way: for this node, with the checksum of its
    payload and without authentication. -/
structure IsRequest (addr : Nat) (id : CspId) (data payload : List UInt8) : Prop where
  dst : id.dst = addr ∨ id.dst = maxNodeid
  dport : id.dport = PARAM_PORT_SERVER
  crc : id.flags &&& CSP_FCRC32 ≠ 0
  hmac : id.flags &&& CSP_FHMAC = 0
  data : data = payload ++ crcBytes (cspCrc32Memory payload)

theorem IsRequest.isToMe {addr : Nat} {id : CspId} {data payload : List UInt8}
    (h : IsRequest addr id data payload) {net : Net} (haddr : net.can.addr = addr)
    (input : IfaceName) : Csp.isToMe net input id.dst = true := by
  rcases h.dst with hdst | hdst
  · simp [Csp.isToMe, nodeIfaces, canIface, hdst, haddr]
  · simp [Csp.isToMe, cspIdIsBroadcast, hdst]

/-- The check of a request. -/
theorem IsRequest.check {addr : Nat} {packet : Packet} {payload : List UInt8}
    (h : IsRequest addr packet.id packet.data payload) (hmac : List UInt8 → List UInt8) :
    ∃ packet', cspRouteSecurityCheck hmac CSP_SO_CRC32REQ packet = .ok packet' ∧
      packet'.id = packet.id ∧ packet'.length = payload.length ∧ packet'.data = payload := by
  have hverify := cspCrc32Verify_eq h.data (crcBytes_length _)
  rw [if_pos (Or.inr rfl)] at hverify
  refine ⟨_, ?_, ?_, ?_, data_prepend h.data (crcBytes_length _)⟩
  · have hcrc : checkCrc32 CSP_SO_CRC32REQ packet =
        .ok { cspIdPrepend packet with length := payload.length } := by
      rw [checkCrc32, if_pos h.crc, hverify]
    have hmac' : checkHmac hmac CSP_SO_CRC32REQ
        { cspIdPrepend packet with length := payload.length } =
        .ok { cspIdPrepend packet with length := payload.length } := by
      have hflag : ¬ (cspIdPrepend packet).id.flags &&& CSP_FHMAC ≠ 0 := not_not.mpr h.hmac
      rw [checkHmac, if_neg hflag, if_neg (by decide)]
    rw [cspRouteSecurityCheck, hcrc]
    simp only [hmac']
    rw [if_neg]
    rintro ⟨-, hrdp⟩
    exact hrdp (by decide)
  · rfl
  · rfl

/-- What becomes of a request at the head of the queue. -/
theorem cspRouteWork_request {net : Net} {p : Nat} {input : IfaceName}
    {rest : List (Nat × IfaceName)} (hqfifo : net.qfifo = (p, input) :: rest) {payload : List UInt8}
    (h : IsRequest net.can.addr (net.packet p).id (net.packet p).data payload)
    {ports : Ports} (hports : cspPortGetCallback ports PARAM_PORT_SERVER = some .param)
    (hmac : List UInt8 → List UInt8) :
    ∃ packet' f, cspRouteWork hmac ports net =
        (((({ net with qfifo := rest } : Net).onIface f input).setPacket p packet'),
          .callback .param p) ∧
      (∀ iface, (f iface).addr = iface.addr) ∧ packet'.id = (net.packet p).id ∧
      packet'.length = payload.length ∧ packet'.data = payload := by
  obtain ⟨packet', hcheck, hid, hlength, hdata⟩ := h.check hmac
  let f : Iface → Iface := fun iface =>
    { iface with rx := iface.rx + 1, rxBytes := iface.rxBytes + (net.packet p).length }
  have hme : isToMe (({ net with qfifo := rest } : Net).onIface f input) input
      (net.packet p).id.dst = true := h.isToMe (by cases input <;> rfl) input
  -- counting the packet does not touch it
  have hpacket : (({ net with qfifo := rest } : Net).onIface f input).packet p = net.packet p := by
    cases input <;> rfl
  refine ⟨packet', f, ?_, fun _ => rfl, hid, hlength, hdata⟩
  rw [cspRouteWork, hqfifo]
  simp only [h.dport, hports]
  change (if (!isToMe (({ net with qfifo := rest } : Net).onIface f input) input
    (net.packet p).id.dst) = true then _ else checked hmac CSP_SO_CRC32REQ
      (({ net with qfifo := rest } : Net).onIface f input) input p (.callback .param p)) = _
  rw [hme, checked, hpacket, hcheck]
  rfl

end AppSysManager.Csp
