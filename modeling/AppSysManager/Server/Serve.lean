import AppSysManager.Server.Apply

/-!
# The Parameter Server

`param_server.c`: `param_serve`, which `main` binds to `PARAM_PORT_SERVER`, with the push
and pull handlers behind it.  The scheduler and command requests are not compiled in
(`PARAM_HAVE_SCHEDULER` and `PARAM_HAVE_COMMANDS` are off) and fall into the default
branch.

A request is its csp id, its length field and the memory at `packet->data`, of which
`CSP_BUFFER_SIZE` bytes are the packet's buffer.  `Uninit` holds the indeterminate
locals of the passes over it.
-/

namespace AppSysManager.Server

open AppSysManager.Bytes AppSysManager.Mpack AppSysManager.Node

/-! ## §1 Packets -/

/-- `csp:buffer_size=2048`. -/
def CSP_BUFFER_SIZE : Nat := 2048

/-- `PARAM_SERVER_MTU`. -/
def PARAM_SERVER_MTU : Nat := 200

/-- `PARAM_FLAG_END`. -/
def PARAM_FLAG_END : UInt8 := 0x80

/-- `csp_packet_t` as it is delivered: the length field never exceeds the buffer. -/
structure CspPacket where
  id : CspId
  length : Nat
  data : Mem
  length_le : length ≤ CSP_BUFFER_SIZE

/-- Indeterminate locals of `param_queue_apply`, of `param_serve_pull_request`, and of the
    scan for duplicates inside the latter. -/
structure Uninit where
  apply : Junk
  pull : Junk
  scan : Junk

/-- `csp_id_get_max_nodeid()` for CSP version 2. -/
def maxNodeid : Nat := 2 ^ 14 - 1

/-- `csp_sendto_reply` with `CSP_O_SAME`. -/
def cspSendtoReply (s : State) (request : CspId) (data : List UInt8) : State :=
  s.emit (.reply
    { pri := request.pri
      flags := request.flags
      src := if request.dst ≠ maxNodeid then request.dst else 0
      dst := request.src
      dport := request.sport
      sport := request.dport } data)

/-! ## §2 Pull requests -/

/-- `__allocate`: a fresh response buffer, or `none` when CSP has run out of buffers. -/
def allocate (env : Env) (s : State) (version : Nat) : State × Option ParamQueue :=
  let ok := env.cspBufferGet s.buffers
  ({ s with buffers := s.buffers + 1 },
    if ok then some (paramQueueInit PARAM_SERVER_MTU .set version) else none)

/-- `__send`. -/
def send (s : State) (request : CspId) (queue : ParamQueue) (last : Bool) : State :=
  let type : UInt8 := if queue.state.version = 1 then 1 else 6
  let flag : UInt8 := if last then PARAM_FLAG_END else 0
  cspSendtoReply s request (type :: flag :: queue.buffer)

/-- `__add`: append a parameter, flushing the response when it is full. -/
def add (env : Env) (s : State) (request : CspId) (queue : ParamQueue) (p : Param)
    (offset : Int) : State × Option ParamQueue :=
  match paramQueueAdd queue (paramRef s p) offset (paramWireValue s p offset) with
  | (true, queue) => (s, some queue)
  | (false, queue) =>
    let s := send s request queue false
    match allocate env s queue.state.version with
    | (s, none) => (s, none)
    -- "Retry on fresh buffer"; a parameter that is too big is dropped
    | (s, some queue) =>
      (s, some (paramQueueAdd queue (paramRef s p) offset (paramWireValue s p offset)).2)

/-- The lookup of `param_serve_pull_request`: the server's own address stands for node 0. -/
def locateLocal (serverAddr : Nat) (junk : Junk) (header : Option Header) : Option Param :=
  let id := match header with
    | some h => (h.id : Int)
    | none => junk.id
  let node := match header with
    | some h => (h.node.getD junk.lastNode : Int)
    | none => junk.node
  paramListFindId (if (serverAddr : Int) = node then 0 else node) id

/-- `mpack_discard` with enough fuel for any nesting the buffer can hold. -/
def discard (mem : Mem) (r : MpackReader) : MpackReader :=
  mpackDiscard mem ((r.end_ - r.data).toNat + 1) r

/-- "Do not ack queues with duplicate parameters multiple times": the scan of the response
    for `param`.  It runs on the serializer state of the response itself. -/
def scanLoop (mem : Mem) (serverAddr : Nat) (junk : Junk) (p : Param) :
    Nat → QueueState → MpackReader → QueueState × Bool
  | 0, q, _ => (q, false)
  | fuel + 1, q, r =>
    if r.end_ ≤ r.data then (q, false)
    else
      match paramDeserializeId mem r q with
      | (r, q, header) =>
        -- found or not, `q` has been changed by the headers in between
        if locateLocal serverAddr junk header = some p then (q, true)
        else scanLoop mem serverAddr junk p fuel q (discard mem r)

/-- The scan over the bytes a response holds so far. -/
def scanResponse (serverAddr : Nat) (junk : Junk) (p : Param) (queue : ParamQueue) :
    ParamQueue × Bool :=
  let used := queue.buffer.length
  match scanLoop (ofList 2 queue.buffer) serverAddr junk p used queue.state
      (mpackReaderInitData 2 used) with
  | (state, found) => ({ queue with state }, found)

/-- Result of a pass over a pull request; `queue = none` when it was given up for lack of
    buffers. -/
structure Pulled where
  reader : MpackReader
  queue : Option ParamQueue
  state : State

/-- The loop over the ids of a pull request. -/
def pullLoop (env : Env) (mem : Mem) (request : CspId) (ackWithPull : Bool) (uninit : Uninit) :
    Nat → QueueState → MpackReader → ParamQueue → State → Pulled
  | 0, _, r, queue, s => ⟨r, some queue, s⟩
  | fuel + 1, q, r, queue, s =>
    if r.end_ ≤ r.data then ⟨r, some queue, s⟩
    else
      match paramDeserializeId mem r q with
      | (r, q, header) =>
        match locateLocal request.dst uninit.pull header with
        -- the value behind the header of an unknown id is not skipped
        | none => pullLoop env mem request ackWithPull uninit fuel q r queue s
        | some p =>
          if ackWithPull then
            -- "Move reader forward to skip values as we normally use a get queue"
            let r := discard mem r
            match scanResponse request.dst uninit.scan p queue with
            | (queue, true) => pullLoop env mem request ackWithPull uninit fuel q r queue s
            | (queue, false) =>
              -- the vmem area of this program allows ack with pull
              match add env s request queue p (-1) with
              | (s, none) => ⟨r, none, s⟩
              | (s, some queue) => pullLoop env mem request ackWithPull uninit fuel q r queue s
          else
            match add env s request queue p (headerOffset header) with
            | (s, none) => ⟨r, none, s⟩
            | (s, some queue) => pullLoop env mem request ackWithPull uninit fuel q r queue s

/-- "Loop the full parameter list": the parameters whose mask meets the include mask and not
    the exclude mask. -/
def pullAllLoop (env : Env) (request : CspId) (includeMask excludeMask : Nat) :
    List Param → ParamQueue → State → State × Option ParamQueue
  | [], queue, s => (s, some queue)
  | p :: ps, queue, s =>
    if p.mask &&& includeMask = 0 then
      pullAllLoop env request includeMask excludeMask ps queue s
    else if p.mask &&& excludeMask ≠ 0 then
      pullAllLoop env request includeMask excludeMask ps queue s
    else
      match add env s request queue p (-1) with
      | (s, none) => (s, none)
      | (s, some queue) => pullAllLoop env request includeMask excludeMask ps queue s

/-- `packet->length - 2` in the 16-bit field `used`. -/
def usedOf (length : Nat) : Nat := (length + 65534) % 65536

/-- `param_serve_pull_request`. -/
def paramServePullRequest (env : Env) (mem : Mem) (id : CspId) (length : Nat) (all : Bool)
    (version : Nat) (uninit : Uninit) (s : State) : State :=
  let ackWithPull := decide (mem 1 = 1)
  match allocate env s version with
  | (s, none) => s
  | (s, some queue) =>
    if all then
      -- the masks are taken from fixed places, whatever the length of the packet
      let s := s.emit (.fetch 4 (if 2 ≤ version then 12 else 8) length)
      let includeMask := loadBE mem 4 4
      let excludeMask := if 2 ≤ version then loadBE mem 8 4 else 0
      match pullAllLoop env id includeMask excludeMask env.section_ queue s with
      | (s, none) => s
      | (s, some queue) => send s id queue true
    else
      let used := usedOf length
      match pullLoop env mem id ackWithPull uninit used (queueStateInit version)
          (mpackReaderInitData 2 used) queue s with
      -- no buffer was left: no last response
      | ⟨r, none, s⟩ => s.emit (.fetch 2 r.top length)
      | ⟨r, some queue, s⟩ => send (s.emit (.fetch 2 r.top length)) id queue true

/-! ## §3 Push requests -/

/-- The acknowledgement of a push: `PARAM_PUSH_RESPONSE` with `PARAM_FLAG_END`. -/
def pushResponse : List UInt8 := [3, PARAM_FLAG_END]

/-- `param_serve_push`. -/
def paramServePush (env : Env) (mem : Mem) (id : CspId) (length : Nat) (sendAck : Bool)
    (version : Nat) (nodeOverride : Bool) (uninit : Uninit) (s : State) : State :=
  let applied := paramQueueApply env mem (usedOf length) version nodeOverride id.src uninit.apply s
  let s := applied.state.emit (.fetch 2 applied.reader.top length)
  -- the process has not survived the queue
  if s.dead then s
  else if applied.returnCode ≠ 0 ∨ sendAck = false then s
  -- "If packet->data[1] == 1 ack with pull request"
  else if mem 1 = 1 then paramServePullRequest env mem id length false 2 uninit s
  else cspSendtoReply s id pushResponse

/-- `memcpy(&hwid, &packet->data[packet->length - sizeof(uint32_t)], sizeof(uint32_t))`. -/
def hwidOf (mem : Mem) (length : Nat) : Nat :=
  loadLE (fun k => mem ((length : Int) - 4 + k)) 0 4

/-- `packet->length -= sizeof(uint32_t)` in the 16-bit length field. -/
def stripHwid (length : Nat) : Nat := (length + 65532) % 65536

/-- The `PARAM_PUSH_REQUEST_V2_HWID` case of `param_serve`. -/
def paramServeHwid (env : Env) (mem : Mem) (id : CspId) (length : Nat) (uninit : Uninit)
    (s : State) : State :=
  let hwid := hwidOf mem length
  let s := s.emit (.fetch ((length : Int) - 4) length length)
  if hwid ≠ env.serial.toNat ∧ hwid ≠ 1234 then s
  else paramServePush env mem id (stripHwid length) true 2 true uninit s

/-- The cases of the switch in `param_serve`. -/
inductive PacketType where
  | pullRequest
  | pullRequestV2
  | pullAllRequest
  | pullAllRequestV2
  | pullResponse
  | pullResponseV2
  | pushRequest
  | pushRequestV2
  | pushRequestV2Hwid
  | other
  deriving DecidableEq, Repr

/-- `param_packet_type_e`: the first byte of a packet. -/
def packetType (b : UInt8) : PacketType :=
  if b = 0 then .pullRequest
  else if b = 5 then .pullRequestV2
  else if b = 4 then .pullAllRequest
  else if b = 8 then .pullAllRequestV2
  else if b = 1 then .pullResponse
  else if b = 6 then .pullResponseV2
  else if b = 2 then .pushRequest
  else if b = 7 then .pushRequestV2
  else if b = 33 then .pushRequestV2Hwid
  else .other

/-- `param_serve`. -/
def paramServe (env : Env) (packet : CspPacket) (uninit : Uninit) (s : State) : State :=
  let mem := packet.data
  let id := packet.id
  let length := packet.length
  match packetType (mem 0) with
  | .pullRequest => paramServePullRequest env mem id length false 1 uninit s
  | .pullRequestV2 => paramServePullRequest env mem id length false 2 uninit s
  | .pullAllRequest => paramServePullRequest env mem id length true 1 uninit s
  | .pullAllRequestV2 => paramServePullRequest env mem id length true 2 uninit s
  | .pullResponse => paramServePush env mem id length false 1 false uninit s
  | .pullResponseV2 => paramServePush env mem id length false 2 false uninit s
  | .pushRequest => paramServePush env mem id length true 1 true uninit s
  | .pushRequestV2 => paramServePush env mem id length true 2 true uninit s
  | .pushRequestV2Hwid => paramServeHwid env mem id length uninit s
  | .other => s

end AppSysManager.Server
