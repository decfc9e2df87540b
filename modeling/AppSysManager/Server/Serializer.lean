import AppSysManager.Mpack.Writer
import AppSysManager.Node.State

/-!
# Parameter Serializer

`param_serializer.c` and the writing half of `param_queue.c`: entry headers in both
protocol versions, and appending entries to a queue.

Bit fields are written as sums of their parts where the parts do not overlap, and with
`|||` where a sender may make them overlap.  `char` is unsigned on the target (AArch64),
so the one-byte index of an entry is a number from 0 to 255.
-/

namespace AppSysManager.Server

open AppSysManager.Bytes AppSysManager.Mpack AppSysManager.Node

/-! ## §1 Queues -/

/-- "State used by serializer" of `param_queue_t`.  `param_queue_init` sets
    `last_timestamp` only: `lastNode` is `none` until something is written to it. -/
structure QueueState where
  version : Nat
  lastNode : Option Nat
  lastTimestamp : Nat
  deriving DecidableEq, Repr

/-- `param_queue_type_e`. -/
inductive QueueType where
  | get
  | set
  deriving DecidableEq, Repr

/-- `param_queue_t` as a writer sees it; `buffer` are the `used` first bytes. -/
structure ParamQueue where
  buffer : List UInt8
  bufferSize : Nat
  type : QueueType
  state : QueueState
  deriving DecidableEq, Repr

/-- The serializer state after `param_queue_init`. -/
def queueStateInit (version : Nat) : QueueState :=
  { version, lastNode := none, lastTimestamp := 0 }

/-- `param_queue_init` of an empty queue. -/
def paramQueueInit (bufferSize : Nat) (type : QueueType) (version : Nat) : ParamQueue :=
  { buffer := [], bufferSize, type, state := queueStateInit version }

/-- The fields of a `param_t` that its header is made from. -/
structure ParamRef where
  id : Nat
  node : Nat
  timestamp : Nat
  deriving DecidableEq, Repr

/-! ## §2 Headers -/

/-- `htobe16` and `be16toh` on a little-endian machine. -/
def bswap16 (v : Nat) : Nat := v % 256 * 256 + v / 256 % 256

/-- `param_get_short_id` with `reserved = 0`. -/
def paramGetShortId (ref : ParamRef) (isarray : Nat) : Nat :=
  (ref.node * 2048 + isarray * 1024 + ref.id % 512) % 65536

/-- A condition as a bit. -/
def bit (b : Bool) : Nat := if b then 1 else 0

/-- Append a field when its flag is set. -/
def writeField (w : MpackWriter) (flag : Bool) (count value : Nat) : MpackWriter :=
  if flag then mpackWriteBytes w count value else w

/-- `param_serialize_id`. -/
def paramSerializeId (w : MpackWriter) (ref : ParamRef) (offset : Int) (q : QueueState) :
    MpackWriter × QueueState :=
  if q.version = 1 then
    if 0 ≤ offset then
      (mpackWriteBytes (mpackWriteU16 w (paramGetShortId ref 1)) 1 offset.toNat, q)
    else (mpackWriteU16 w (paramGetShortId ref 0), q)
  else
    let arrayFlag := decide (0 ≤ offset)
    let nodeFlag := decide (q.lastNode ≠ some ref.node)
    let timestampFlag := decide (q.lastTimestamp ≠ ref.timestamp)
    let extendedidFlag := decide (0x3ff < ref.id)
    let header := bit arrayFlag * 2 ^ 15 + bit nodeFlag * 2 ^ 14 + bit timestampFlag * 2 ^ 13 +
      bit extendedidFlag * 2 ^ 12 + ref.id % 1024
    let w := mpackWriteU16 w (bswap16 header)
    let w := writeField w arrayFlag 1 offset.toNat
    let w := writeField w nodeFlag 2 ref.node
    let w := writeField w timestampFlag 4 ref.timestamp
    let w := writeField w extendedidFlag 1 (ref.id / 1024 % 64 * 4)
    (w, { q with lastNode := some ref.node, lastTimestamp := ref.timestamp })

/-- What `param_deserialize_id` stores through its pointers.  `node = none` stands for the
    indeterminate `queue->last_node`, `offset = -1` for an entry without an index. -/
structure Header where
  id : Nat
  node : Option Nat
  timestamp : Nat
  offset : Int
  deriving DecidableEq, Repr

/-- Read a field when its flag is set; `default` otherwise. -/
def readField (mem : Mem) (r : MpackReader) (flag : Bool) (count : Nat) (default : Int) :
    MpackReader × Int :=
  if flag then
    match mpackReadBytes mem r count with
    | (r, v) => (r, v)
  else (r, default)

/-- `param_deserialize_id`.  The header is `none` when the function returns early and
    leaves `*id` and `*node` as they were. -/
def paramDeserializeId (mem : Mem) (r : MpackReader) (q : QueueState) :
    MpackReader × QueueState × Option Header :=
  match mpackExpectU16 mem r with
  | (r, v) =>
    if r.error ≠ .ok then (r, q, none)
    else if q.version = 1 then
      -- the short id: 5 bits of node, an array flag, 9 bits of id
      let shortId := v.toNat
      match readField mem r (decide (shortId / 1024 % 2 = 1)) 1 (-1) with
      | (r, offset) =>
        (r, q, some { id := shortId % 512, node := some (shortId / 2048 % 32),
                      timestamp := 0, offset })
    else
      -- the long header: flags for index, node, timestamp and extended id
      let header := bswap16 v.toNat
      let nodeFlag := decide (header / 2 ^ 14 % 2 = 1)
      let timestampFlag := decide (header / 2 ^ 13 % 2 = 1)
      match readField mem r (decide (header / 2 ^ 15 % 2 = 1)) 1 (-1) with
      | (r, offset) =>
        match readField mem r nodeFlag 2 0 with
        | (r, node) =>
          let q := if nodeFlag then { q with lastNode := some node.toNat } else q
          match readField mem r timestampFlag 4 0 with
          | (r, timestamp) =>
            let q := if timestampFlag then { q with lastTimestamp := timestamp.toNat } else q
            match readField mem r (decide (header / 2 ^ 12 % 2 = 1)) 1 0 with
            | (r, extendedid) =>
              (r, q, some { id := header % 1024 ||| extendedid.toNat * 256, node := q.lastNode,
                            timestamp := q.lastTimestamp, offset })

/-! ## §3 Appending to a queue -/

/-- `param_serialize_to_mpack` of a given value.  On an error the writer is reset to where
    it was; no caller looks at its position then. -/
def paramSerializeToMpack (w : MpackWriter) (ref : ParamRef) (offset : Int) (value : WireValue)
    (q : QueueState) : MpackWriter × QueueState :=
  match paramSerializeId w ref offset q with
  | (w, q) => if w.error ≠ .ok then (w, q) else (mpackWriteValue w value, q)

/-- `param_queue_add`: `none` is the return value `-1`.  A failed append leaves `used` alone
    but keeps the serializer state it has already changed. -/
def paramQueueAdd (queue : ParamQueue) (ref : ParamRef) (offset : Int) (value : WireValue) :
    Bool × ParamQueue :=
  -- "Ensure we always send nodeid on the first element of the queue"
  let state := if queue.buffer = [] then { queue.state with lastNode := some 0xffff }
    else queue.state
  let writer : MpackWriter := { buf := queue.buffer, size := queue.bufferSize, error := .ok }
  match (match queue.type with
    | .set => paramSerializeToMpack writer ref offset value state
    | .get => paramSerializeId writer ref offset state) with
  | (writer, state) =>
    if writer.error ≠ .ok then (false, { queue with state })
    else (true, { queue with buffer := writer.buf, state })

/-- A number parameter's value as the serializer writes it. -/
def numOf (type : ParamType) (v : Nat) : WireNum :=
  match type with
  | .int8 | .int16 | .int32 | .int64 => .int (toSigned (8 * type.size) v)
  | _ => .uint v

/-- The value `param_serialize_to_mpack` reads from the parameter itself (`value == NULL`). -/
def paramWireValue (s : State) (p : Param) (offset : Int) : WireValue :=
  match p.type with
  | .string => .str (cString (paramGetData s p p.arraySize))
  | .data => .bin (paramGetData s p p.arraySize)
  | _ =>
    -- an index asks for one element, no index for all of them
    let count := if 0 ≤ offset then 1 else p.arraySize
    let first := offset.toNat
    if 1 < count then
      .array ((List.range count).map fun i => numOf p.type (paramGetArray s p (first + i)))
    else .num (numOf p.type (paramGetArray s p first))

/-- The header fields of a local parameter. -/
def paramRef (s : State) (p : Param) : ParamRef :=
  { id := p.id, node := p.node, timestamp := s.timestamp p.name }

end AppSysManager.Server
