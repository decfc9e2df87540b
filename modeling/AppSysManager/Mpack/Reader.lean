import AppSysManager.Bytes.Memory

/-!
# MPack Reader

The part of `mpack.c` that `param_serve` reads packets with: the tag reader, the
expect functions and `mpack_discard`.

The reader works on memory as seen from `packet->data`, so `data` and `end_` are
offsets.  The library is compiled with `MPACK_READ_TRACKING 0`, `MPACK_EXTENSIONS 0`
and without a fill function: `mpack_done_*` do nothing, and every read that does not
fit flags `mpack_error_invalid`.

`end - data` is converted to `size_t` before it is compared with a byte count.  A
reader whose `data` has run past its `end_` therefore believes it has almost `2^64`
bytes left; `sizeT` keeps that behaviour.

The field `top` is not part of `mpack_reader_t`.  It records one past the highest
offset the reader has fetched so far.
-/

namespace AppSysManager.Mpack

open AppSysManager.Bytes

/-! ## §1 The reader -/

/-- The errors of `mpack_error_t` a memory reader or writer can flag. -/
inductive MpackError where
  | ok
  | invalid
  | unsupported
  | type
  | tooBig
  deriving DecidableEq, Repr

/-- `mpack_tag_t`: a type and its value; floating-point values are kept as raw bits. -/
inductive MpackTag where
  | nil
  | bool (value : Bool)
  | int (i : Int)
  | uint (u : Nat)
  | float (bits : Nat)
  | double (bits : Nat)
  | str (l : Nat)
  | bin (l : Nat)
  | array (n : Nat)
  | map (n : Nat)
  deriving DecidableEq, Repr

/-- `mpack_reader_t` over a fixed buffer, with the ghost field `top`. -/
@[ext]
structure MpackReader where
  data : Int
  end_ : Int
  error : MpackError
  top : Int
  deriving DecidableEq, Repr

/-- Conversion of a pointer difference to `size_t`. -/
def sizeT (z : Int) : Nat := (z % 2 ^ 64).toNat

/-- Two's complement reading of a `bits`-wide unsigned value. -/
def toSigned (bits v : Nat) : Int := if v < 2 ^ (bits - 1) then v else (v : Int) - 2 ^ bits

/-- `mpack_reader_init_data`. -/
def mpackReaderInitData (data : Int) (count : Nat) : MpackReader :=
  { data := data, end_ := data + count, error := .ok, top := data }

/-- `mpack_reader_flag_error`: the first error sticks and empties the buffer. -/
def mpackReaderFlagError (r : MpackReader) (e : MpackError) : MpackReader :=
  if r.error = .ok then { r with error := e, end_ := r.data } else r

/-- The test of `mpack_reader_ensure`: are there `count` bytes left? -/
def MpackReader.has (r : MpackReader) (count : Nat) : Bool :=
  decide (count ≤ sizeT (r.end_ - r.data))

/-- Note that `count` bytes at the read position have been fetched. -/
def MpackReader.fetch (r : MpackReader) (count : Nat) : MpackReader :=
  { r with top := max r.top (r.data + count) }

/-! ## §2 Tags -/

/-- The switch of `mpack_parse_tag` on the type byte: how many bytes follow it, and how
    the tag is made from their big-endian value. -/
def mpackTagCase (type : Nat) : Except MpackError (Nat × (Nat → MpackTag)) :=
  -- positive fixnum, fixmap, fixarray, fixstr, negative fixnum
  if type ≤ 0x7f then .ok (0, fun _ => .uint type)
  else if type ≤ 0x8f then .ok (0, fun _ => .map (type - 0x80))
  else if type ≤ 0x9f then .ok (0, fun _ => .array (type - 0x90))
  else if type ≤ 0xbf then .ok (0, fun _ => .str (type - 0xa0))
  else if 0xe0 ≤ type then .ok (0, fun _ => .int (toSigned 8 type))
  else if type = 0xc0 then .ok (0, fun _ => .nil)
  else if type = 0xc1 then .error .invalid
  else if type = 0xc2 then .ok (0, fun _ => .bool false)
  else if type = 0xc3 then .ok (0, fun _ => .bool true)
  -- bin8, bin16, bin32
  else if type = 0xc4 then .ok (1, .bin)
  else if type = 0xc5 then .ok (2, .bin)
  else if type = 0xc6 then .ok (4, .bin)
  -- float, double
  else if type = 0xca then .ok (4, .float)
  else if type = 0xcb then .ok (8, .double)
  -- uint8 .. uint64
  else if type = 0xcc then .ok (1, .uint)
  else if type = 0xcd then .ok (2, .uint)
  else if type = 0xce then .ok (4, .uint)
  else if type = 0xcf then .ok (8, .uint)
  -- int8 .. int64
  else if type = 0xd0 then .ok (1, fun v => .int (toSigned 8 v))
  else if type = 0xd1 then .ok (2, fun v => .int (toSigned 16 v))
  else if type = 0xd2 then .ok (4, fun v => .int (toSigned 32 v))
  else if type = 0xd3 then .ok (8, fun v => .int (toSigned 64 v))
  -- str8, str16, str32
  else if type = 0xd9 then .ok (1, .str)
  else if type = 0xda then .ok (2, .str)
  else if type = 0xdb then .ok (4, .str)
  -- array16, array32, map16, map32
  else if type = 0xdc then .ok (2, .array)
  else if type = 0xdd then .ok (4, .array)
  else if type = 0xde then .ok (2, .map)
  else if type = 0xdf then .ok (4, .map)
  -- ext8 .. ext32 and fixext1 .. fixext16
  else .error .unsupported

/-- `mpack_parse_tag`: the tag at the read position and its size, without advancing. -/
def mpackParseTag (mem : Mem) (r : MpackReader) : MpackReader × Option (MpackTag × Nat) :=
  if r.has 1 then
    match mpackTagCase (mem r.data).toNat with
    -- the type byte has been looked at
    | .error e => (mpackReaderFlagError (r.fetch 1) e, none)
    | .ok (k, make) =>
      if r.has (1 + k) then
        (r.fetch (1 + k), some (make (loadBE mem (r.data + 1) k), 1 + k))
      -- the field behind it is cut off
      else (mpackReaderFlagError (r.fetch 1) .invalid, none)
  else (mpackReaderFlagError r .invalid, none)

/-- `mpack_read_tag`. -/
def mpackReadTag (mem : Mem) (r : MpackReader) : MpackReader × MpackTag :=
  if r.error ≠ .ok then (r, .nil)
  else
    match mpackParseTag mem r with
    | (r, none) => (r, .nil)
    | (r, some (tag, count)) => ({ r with data := r.data + count }, tag)

/-- `mpack_peek_tag`. -/
def mpackPeekTag (mem : Mem) (r : MpackReader) : MpackReader × MpackTag :=
  if r.error ≠ .ok then (r, .nil)
  else
    match mpackParseTag mem r with
    | (r, none) => (r, .nil)
    | (r, some (tag, _)) => (r, tag)

/-! ## §3 Bytes -/

/-- `mpack_skip_bytes`. -/
def mpackSkipBytes (r : MpackReader) (count : Nat) : MpackReader :=
  if r.error ≠ .ok then r
  else if r.has count then { r with data := r.data + count }
  else mpackReaderFlagError r .invalid

/-- `mpack_read_bytes` of a big-endian field of `count` bytes: its value, and zero when
    the field is not there (`mpack_read_native_straddle` clears the destination). -/
def mpackReadBytes (mem : Mem) (r : MpackReader) (count : Nat) : MpackReader × Nat :=
  if r.has count then
    ({ r.fetch count with data := r.data + count }, loadBE mem r.data count)
  else (mpackReaderFlagError r .invalid, 0)

/-! ## §4 Expect functions -/

/-- The family `mpack_expect_u16`, `mpack_expect_u32`, `mpack_expect_u64`,
    `mpack_expect_int`, `mpack_expect_i64`: an integer in `[lo, hi]`, zero otherwise. -/
def mpackExpectRange (lo hi : Int) (mem : Mem) (r : MpackReader) : MpackReader × Int :=
  match mpackReadTag mem r with
  | (r, .uint u) => if lo ≤ u ∧ u ≤ hi then (r, u) else (mpackReaderFlagError r .type, 0)
  | (r, .int i) => if lo ≤ i ∧ i ≤ hi then (r, i) else (mpackReaderFlagError r .type, 0)
  | (r, _) => (mpackReaderFlagError r .type, 0)

/-- `mpack_expect_u16`. -/
def mpackExpectU16 := mpackExpectRange 0 0xffff

/-- `mpack_expect_uint`, which is `mpack_expect_u32` on this target. -/
def mpackExpectUint := mpackExpectRange 0 0xffffffff

/-- `mpack_expect_u64`. -/
def mpackExpectU64 := mpackExpectRange 0 0xffffffffffffffff

/-- `mpack_expect_int`, which is `mpack_expect_i32` on this target. -/
def mpackExpectInt := mpackExpectRange (-0x80000000) 0x7fffffff

/-- `mpack_expect_i64`. -/
def mpackExpectI64 := mpackExpectRange (-0x8000000000000000) 0x7fffffffffffffff

/-- `mpack_expect_array`. -/
def mpackExpectArray (mem : Mem) (r : MpackReader) : MpackReader × Nat :=
  match mpackReadTag mem r with
  | (r, .array n) => (r, n)
  | (r, _) => (mpackReaderFlagError r .type, 0)

/-- `mpack_expect_bin`. -/
def mpackExpectBin (mem : Mem) (r : MpackReader) : MpackReader × Nat :=
  match mpackReadTag mem r with
  | (r, .bin l) => (r, l)
  | (r, _) => (mpackReaderFlagError r .type, 0)

/-- `mpack_expect_native_u8`, `_u16` and `_u32`: a raw big-endian field of `count` bytes. -/
def mpackExpectNative (mem : Mem) (r : MpackReader) (count : Nat) : MpackReader × Nat :=
  if r.error ≠ .ok then (r, 0)
  else if r.has count then
    ({ r.fetch count with data := r.data + count }, loadBE mem r.data count)
  else (mpackReaderFlagError r .invalid, 0)

/-- `mpack_expect_str`: reads the type byte and the length separately. -/
def mpackExpectStr (mem : Mem) (r : MpackReader) : MpackReader × Nat :=
  match mpackExpectNative mem r 1 with
  | (r, type) =>
    if type / 32 = 5 then (r, type % 32)
    else if type = 0xd9 then mpackExpectNative mem r 1
    else if type = 0xda then mpackExpectNative mem r 2
    else if type = 0xdb then mpackExpectNative mem r 4
    else (mpackReaderFlagError r .type, 0)

/-! ## §5 Discarding a value -/

/-- The loops of `mpack_discard`: `count` rounds of `round`, up to the first error. -/
def discardRounds (round : MpackReader → MpackReader) : Nat → MpackReader → MpackReader
  | 0, r => r
  | count + 1, r =>
    let r := round r
    if r.error ≠ .ok then r else discardRounds round count r

/-- `mpack_discard`; `fuel` bounds the nesting depth. -/
def mpackDiscard (mem : Mem) : Nat → MpackReader → MpackReader
  | 0, r => r
  | fuel + 1, r =>
    match mpackReadTag mem r with
    | (r, tag) =>
      if r.error ≠ .ok then r
      else
        match tag with
        | .str l => mpackSkipBytes r l
        | .bin l => mpackSkipBytes r l
        | .array n => discardRounds (mpackDiscard mem fuel) n r
        | .map n => discardRounds (fun r => mpackDiscard mem fuel (mpackDiscard mem fuel r)) n r
        | _ => r

end AppSysManager.Mpack
