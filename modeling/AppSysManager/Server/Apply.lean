import AppSysManager.Server.Serializer

/-!
# Applying a Queue

`param_deserialize_from_mpack_to_param` and `param_queue_apply`: the loop that decodes
a push packet entry by entry and stores the values as it goes.

A packet decides the whole control flow of this loop; the parameters' values never do.
The reading half of every statement (`readValue`, `skipUnknown`, `locate`) is therefore
kept apart from the storing half (`storeValue`), and the source's loops are the
functions that put them together.

Locals of the C code that may be read before they are set are given by `Junk`.
-/

namespace AppSysManager.Server

open AppSysManager.Bytes AppSysManager.Mpack AppSysManager.Node

/-- Indeterminate values of one pass over a queue: `int id, node;` and the `last_node` that
    `param_queue_init` leaves unset. -/
structure Junk where
  id : Int
  node : Int
  lastNode : Nat
  deriving DecidableEq, Repr

/-! ## §1 One value -/

/-- The argument of one setter call in `param_deserialize_from_mpack_to_param`. -/
inductive Value where
  /-- What an expect function returned; zero if it failed. -/
  | num (v : Int)
  /-- `param_set_string(param, reader->data, len)` with `len > 0`. -/
  | str (inbuf : Nat → UInt8) (len : Nat)
  /-- `param_set_string(param, "", 1)`. -/
  | emptyStr
  /-- `param_set_data(param, reader->data, len)`. -/
  | data (inbuf : Nat → UInt8) (len : Nat)
  /-- A copy of `len` bytes that leaves the mapped memory. -/
  | overrun (len : Nat)

/-- The bytes of memory a `memcpy` of `len` bytes from `off` reads. -/
def bytesAt (mem : Mem) (off : Int) (len : Nat) : Nat → UInt8 :=
  fun j => if j < len then mem (off + j) else 0

/-- `len` bytes are copied from the read position, then `reader->data += len`.  A length of
    `2^31` or more is negative as an `int`, and almost `2^64` as a `size_t`. -/
def takeBytes (mapped : Nat) (mem : Mem) (r : MpackReader) (len : Nat)
    (make : (Nat → UInt8) → Nat → Value) : MpackReader × Value :=
  if 2 ^ 31 ≤ len ∨ mapped ≤ len then
    (r.fetch (sizeT (toSigned 32 len)), .overrun (sizeT (toSigned 32 len)))
  else ({ r.fetch len with data := r.data + len }, make (bytesAt mem r.data len) len)

/-- The reading half of one round of the loop of `param_deserialize_from_mpack_to_param`. -/
def readValue (mapped : Nat) (mem : Mem) (type : ParamType) (r : MpackReader) :
    MpackReader × Value :=
  match type with
  | .uint8 | .xint8 | .uint16 | .xint16 | .uint32 | .xint32 =>
    match mpackExpectUint mem r with
    | (r, v) => (r, .num v)
  | .uint64 | .xint64 =>
    match mpackExpectU64 mem r with
    | (r, v) => (r, .num v)
  | .int8 | .int16 | .int32 =>
    match mpackExpectInt mem r with
    | (r, v) => (r, .num v)
  | .int64 =>
    match mpackExpectI64 mem r with
    | (r, v) => (r, .num v)
  | .string =>
    match mpackExpectStr mem r with
    | (r, len) => if len = 0 then (r, .emptyStr) else takeBytes mapped mem r len .str
  | .data =>
    match mpackExpectBin mem r with
    | (r, len) => takeBytes mapped mem r len .data

/-- The storing half of the same round. -/
def storeValue (env : Env) (s : State) (p : Param) (i : Nat) : Value → State
  | .num v => paramSetArray env s p i v
  | .str inbuf len => paramSetString env s p inbuf len
  | .emptyStr => paramSetString env s p (fun _ => 0) 1
  | .data inbuf len => paramSetData env s p inbuf len
  -- the process does not survive this `memcpy`
  | .overrun len => { s.emit (.store p.name 0 len) with dead := true }

/-! ## §2 `param_deserialize_from_mpack_to_param` -/

/-- Did the round end the function, by an error or by killing the process? -/
def Value.isOverrun : Value → Bool
  | .overrun _ => true
  | _ => false

/-- How many rounds the loop `for (int i = offset; i < offset + count; i++)` makes.  Its bound is
    an `int`, which wraps. -/
def loopRounds (offset : Nat) (count : Int) : Nat :=
  (toSigned 32 ((offset + count) % 2 ^ 32).toNat - offset).toNat

/-- The rounds of that loop, from the index `i` on. -/
def storeLoop (env : Env) (mem : Mem) (p : Param) :
    Nat → Nat → MpackReader → State → MpackReader × State
  | 0, _, r, s => (r, s)
  | count + 1, i, r, s =>
    match readValue env.mapped mem p.type r with
    | (r, v) =>
      let s := storeValue env s p i v
      if r.error ≠ .ok ∨ v.isOverrun then (r, s) else storeLoop env mem p count (i + 1) r s

/-- How many values follow: the element count of an array, narrowed to `int`, else one. -/
def valueCount (mem : Mem) (r : MpackReader) : MpackReader × Int :=
  match mpackPeekTag mem r with
  | (r, .array _) =>
    match mpackExpectArray mem r with
    | (r, count) => (r, toSigned 32 count)
  | (r, _) => (r, 1)

theorem loopRounds_of_lt {offset : Nat} {count : Int} (hcount : 0 ≤ count)
    (hlt : offset + count < 2 ^ 31) : loopRounds offset count = count.toNat := by
  rw [loopRounds, toSigned, if_pos (by omega)]
  omega

/-- A bound that wraps is negative: the loop makes no round at all. -/
theorem loopRounds_of_wrap {offset : Nat} {count : Int} (hoffset : offset < 2 ^ 31)
    (hcount : count < 2 ^ 31) (hwrap : 2 ^ 31 ≤ offset + count) : loopRounds offset count = 0 := by
  rw [loopRounds, toSigned, if_neg (by omega)]
  omega

theorem loopRounds_of_nonpos {offset : Nat} {count : Int} (hoffset : offset < 2 ^ 31)
    (hlow : -2 ^ 31 ≤ count) (hcount : count ≤ 0) : loopRounds offset count = 0 := by
  rw [loopRounds, toSigned]
  split
  · omega
  · omega

@[simp] theorem loopRounds_one : loopRounds 0 1 = 1 := rfl

/-- `param_deserialize_from_mpack_to_param`. -/
def paramDeserializeFromMpackToParam (env : Env) (mem : Mem) (p : Param) (offset : Int)
    (r : MpackReader) (s : State) : MpackReader × State :=
  match valueCount mem r with
  | (r, count) => storeLoop env mem p (loopRounds offset.toNat count) offset.toNat r s

/-! ## §3 `param_queue_apply` -/

/-- The lookups of `param_queue_apply`: the node named by the entry, where 0 stands for the
    sender, and then this node if the packet may be applied locally. -/
def locate (applyLocal : Bool) (sender : Nat) (junk : Junk) (header : Option Header) :
    Option Param :=
  let id := match header with
    | some h => (h.id : Int)
    | none => junk.id
  let node := match header with
    | some h => (h.node.getD junk.lastNode : Int)
    | none => junk.node
  let node := if node = 0 then (sender : Int) else node
  match paramListFindId node id with
  | some p => some p
  | none => paramListFindId (if applyLocal then 0 else node) id

/-- Reads `count` tags, up to the first error. -/
def skipTags (mem : Mem) : Nat → MpackReader → MpackReader
  | 0, r => r
  | count + 1, r =>
    match mpackReadTag mem r with
    | (r, _) => if r.error ≠ .ok then r else skipTags mem count r

/-- "Skip this one": what is read after the tag of an unknown parameter's value.  A string
    that does not fit is not skipped at all. -/
def skipUnknown (mem : Mem) (tag : MpackTag) (r : MpackReader) : MpackReader :=
  match tag with
  | .str l => if (l : Int) ≤ r.end_ - r.data then mpackSkipBytes r l else r
  | .bin l => if (l : Int) ≤ r.end_ - r.data then mpackSkipBytes r l else r
  | .array n => skipTags mem n r
  | _ => r

/-- Result of `param_queue_apply`. -/
structure Applied where
  reader : MpackReader
  returnCode : Int
  state : State

/-- `*param->timestamp = timestamp;` -/
def stamp (s : State) (p : Param) (timestamp : Nat) : State :=
  { s with timestamp := Function.update s.timestamp p.name timestamp }

/-- The timestamp local of `param_queue_apply`, initialised to 0. -/
def headerTimestamp (header : Option Header) : Nat :=
  match header with
  | some h => h.timestamp
  | none => 0

/-- The offset local of `param_queue_apply`, initialised to -1. -/
def headerOffset (header : Option Header) : Int :=
  match header with
  | some h => h.offset
  | none => -1

/-- How the reading of one entry ends: at the value of a parameter that was found, behind an
    entry that was skipped, or with an error in the value of an unknown parameter. -/
inductive Entry where
  | found (p : Param) (header : Option Header) (r : MpackReader)
  | skipped (r : MpackReader)
  | broken (r : MpackReader)

/-- The part of the loop of `param_queue_apply` in front of the value: the header, the
    lookups, and the skipping of an unknown parameter. -/
def readEntry (mem : Mem) (applyLocal : Bool) (sender : Nat) (junk : Junk) (q : QueueState)
    (r : MpackReader) : QueueState × Entry :=
  match paramDeserializeId mem r q with
  | (r, q, header) =>
    match locate applyLocal sender junk header with
    | some p => (q, .found p header r)
    | none =>
      match mpackReadTag mem r with
      | (r, tag) => if r.error ≠ .ok then (q, .broken r) else (q, .skipped (skipUnknown mem tag r))

/-- The loop `while (reader.data < reader.end)` over entries read by `entry`; every round
    consumes a byte or ends the loop, so `fuel` is the number of bytes in the queue. -/
def paramQueueApplyLoop (env : Env) (mem : Mem)
    (entry : QueueState → MpackReader → QueueState × Entry) :
    Nat → QueueState → Int → MpackReader → State → Applied
  | 0, _, rc, r, s => ⟨r, rc, s⟩
  | fuel + 1, q, rc, r, s =>
    if r.end_ ≤ r.data then ⟨r, rc, s⟩
    else
      match entry q r with
      | (q, .found p header r) =>
        let s := stamp s p (headerTimestamp header)
        let (r, s) := paramDeserializeFromMpackToParam env mem p (headerOffset header) r s
        if s.dead then ⟨r, rc, s⟩
        else paramQueueApplyLoop env mem entry fuel q rc r s
      | (_, .broken r) => ⟨r, -1, s⟩
      | (q, .skipped r) => paramQueueApplyLoop env mem entry fuel q (-1) r s

/-- `param_queue_apply` on the `used` bytes at offset 2 of the packet. -/
def paramQueueApply (env : Env) (mem : Mem) (used version : Nat) (applyLocal : Bool)
    (sender : Nat) (junk : Junk) (s : State) : Applied :=
  paramQueueApplyLoop env mem (readEntry mem applyLocal sender junk) used
    (queueStateInit version) 0 (mpackReaderInitData 2 used) s

end AppSysManager.Server
