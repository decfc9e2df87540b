import AppSysManager.Mpack.Reader

/-!
# MPack Writer

The part of `mpack.c` that parameter queues are written with.  The writer appends to a
fixed buffer and has no flush function; `buf` are the bytes in front of
`writer->position` and `size` is the buffer size.  An item that does not fit is not
written and flags `mpack_error_too_big`.
-/

namespace AppSysManager.Mpack

open AppSysManager.Bytes

/-! ## §1 Encodings -/

/-- The bytes of `mpack_write_u64`; `mpack_write_u16` and `mpack_write_uint` write the
    same bytes for the values they take. -/
def uintBytes (v : Nat) : List UInt8 :=
  if v ≤ 127 then bytesBE 1 v
  else if v ≤ 0xff then 0xcc :: bytesBE 1 v
  else if v ≤ 0xffff then 0xcd :: bytesBE 2 v
  else if v ≤ 0xffffffff then 0xce :: bytesBE 4 v
  else 0xcf :: bytesBE 8 v

/-- The `n` low-order bytes of a signed value in two's complement. -/
def intBE (n : Nat) (v : Int) : List UInt8 := bytesBE n (v % 256 ^ n).toNat

/-- The bytes of `mpack_write_i64`, which `mpack_write_int` calls. -/
def intBytes (v : Int) : List UInt8 :=
  if -32 ≤ v then
    if v ≤ 127 then intBE 1 v
    else uintBytes v.toNat
  else if -0x80 ≤ v then 0xd0 :: intBE 1 v
  else if -0x8000 ≤ v then 0xd1 :: intBE 2 v
  else if -0x80000000 ≤ v then 0xd2 :: intBE 4 v
  else 0xd3 :: intBE 8 v

/-- The bytes of `mpack_start_str_notrack`. -/
def strHeader (count : Nat) : List UInt8 :=
  if count ≤ 31 then bytesBE 1 (0xa0 + count)
  else if count ≤ 0xff then 0xd9 :: bytesBE 1 count
  else if count ≤ 0xffff then 0xda :: bytesBE 2 count
  else 0xdb :: bytesBE 4 count

/-- The bytes of `mpack_start_bin_notrack`. -/
def binHeader (count : Nat) : List UInt8 :=
  if count ≤ 0xff then 0xc4 :: bytesBE 1 count
  else if count ≤ 0xffff then 0xc5 :: bytesBE 2 count
  else 0xc6 :: bytesBE 4 count

/-- The bytes of `mpack_write_array_notrack`. -/
def arrayHeader (count : Nat) : List UInt8 :=
  if count ≤ 15 then bytesBE 1 (0x90 + count)
  else if count ≤ 0xffff then 0xdc :: bytesBE 2 count
  else 0xdd :: bytesBE 4 count

/-- A number as the serializer writes one. -/
inductive WireNum where
  | uint (v : Nat)
  | int (v : Int)
  | float (bits : Nat)
  | double (bits : Nat)
  deriving DecidableEq, Repr

/-- The values a MessagePack number of each kind can take. -/
def WireNum.InRange : WireNum → Prop
  | .uint v => v < 2 ^ 64
  | .int v => -2 ^ 63 ≤ v ∧ v < 2 ^ 63
  | .float bits => bits < 2 ^ 32
  | .double bits => bits < 2 ^ 64

instance : DecidablePred WireNum.InRange
  | .uint v => inferInstanceAs (Decidable (v < 2 ^ 64))
  | .int v => inferInstanceAs (Decidable (-2 ^ 63 ≤ v ∧ v < 2 ^ 63))
  | .float bits => inferInstanceAs (Decidable (bits < 2 ^ 32))
  | .double bits => inferInstanceAs (Decidable (bits < 2 ^ 64))

/-- The bytes of `mpack_write_uint`, `mpack_write_int`, `mpack_write_float` and
    `mpack_write_double`. -/
def WireNum.bytes : WireNum → List UInt8
  | .uint v => uintBytes v
  | .int v => intBytes v
  | .float bits => 0xca :: bytesBE 4 bits
  | .double bits => 0xcb :: bytesBE 8 bits

/-- The value of an entry: a number, a string, binary data, or an array of numbers. -/
inductive WireValue where
  | num (x : WireNum)
  | str (bs : List UInt8)
  | bin (bs : List UInt8)
  | array (xs : List WireNum)
  deriving DecidableEq, Repr

/-! ## §2 The writer -/

/-- `mpack_writer_t` over a fixed buffer. -/
structure MpackWriter where
  buf : List UInt8
  size : Nat
  error : MpackError
  deriving DecidableEq, Repr

/-- `mpack_writer_flag_error`. -/
def mpackWriterFlagError (w : MpackWriter) (e : MpackError) : MpackWriter :=
  if w.error = .ok then { w with error := e } else w

/-- `MPACK_WRITE_ENCODED` and `mpack_write_native`: append the bytes if they fit. -/
def MpackWriter.write (w : MpackWriter) (bs : List UInt8) : MpackWriter :=
  if bs.length ≤ w.size - w.buf.length then { w with buf := w.buf ++ bs }
  else mpackWriterFlagError w .tooBig

/-- `mpack_write_u16`. -/
def mpackWriteU16 (w : MpackWriter) (value : Nat) : MpackWriter := w.write (uintBytes value)

/-- `mpack_write_bytes` of a big-endian field of `count` bytes. -/
def mpackWriteBytes (w : MpackWriter) (count value : Nat) : MpackWriter :=
  w.write (bytesBE count value)

/-- The value part of `param_serialize_to_mpack`. -/
def mpackWriteValue (w : MpackWriter) : WireValue → MpackWriter
  | .num x => w.write x.bytes
  | .str bs => (w.write (strHeader bs.length)).write bs
  | .bin bs => (w.write (binHeader bs.length)).write bs
  | .array xs => xs.foldl (fun w x => w.write x.bytes) (w.write (arrayHeader xs.length))

/-- The bytes of a value. -/
def WireValue.bytes : WireValue → List UInt8
  | .num x => x.bytes
  | .str bs => strHeader bs.length ++ bs
  | .bin bs => binHeader bs.length ++ bs
  | .array xs => arrayHeader xs.length ++ xs.flatMap WireNum.bytes

/-! ## §3 Successful writes append -/

/-- A write leaves no error exactly when there was none before and the bytes fit; it then
    appends them. -/
theorem MpackWriter.write_ok {w : MpackWriter} {bs : List UInt8}
    (h : (w.write bs).error = .ok) :
    w.error = .ok ∧ (w.write bs) = { w with buf := w.buf ++ bs } := by
  unfold MpackWriter.write mpackWriterFlagError at *
  split at h
  · case isTrue hfit => exact ⟨h, by simp [hfit]⟩
  · case isFalse =>
    split at h
    · simp at h
    · contradiction

/-- A run of writes without an error appends all of its pieces. -/
theorem foldl_write_ok {w : MpackWriter} {xs : List WireNum}
    (h : (xs.foldl (fun w x => w.write x.bytes) w).error = .ok) :
    w.error = .ok ∧ xs.foldl (fun w x => w.write x.bytes) w =
      { w with buf := w.buf ++ xs.flatMap WireNum.bytes } := by
  induction xs generalizing w with
  | nil => exact ⟨h, by simp⟩
  | cons x xs ih =>
    obtain ⟨herr, heq⟩ := ih (w := w.write x.bytes) h
    obtain ⟨herr', heq'⟩ := MpackWriter.write_ok herr
    refine ⟨herr', ?_⟩
    rw [List.foldl_cons, heq, heq']
    simp [List.append_assoc]

/-- A value that is written without an error is written as `WireValue.bytes`. -/
theorem mpackWriteValue_ok {w : MpackWriter} {v : WireValue}
    (h : (mpackWriteValue w v).error = .ok) :
    w.error = .ok ∧ mpackWriteValue w v = { w with buf := w.buf ++ v.bytes } := by
  cases v with
  | num x => exact MpackWriter.write_ok h
  | str bs =>
    obtain ⟨h1, e1⟩ := MpackWriter.write_ok h
    obtain ⟨h2, e2⟩ := MpackWriter.write_ok h1
    exact ⟨h2, by rw [mpackWriteValue, e1, e2]; simp [WireValue.bytes]⟩
  | bin bs =>
    obtain ⟨h1, e1⟩ := MpackWriter.write_ok h
    obtain ⟨h2, e2⟩ := MpackWriter.write_ok h1
    exact ⟨h2, by rw [mpackWriteValue, e1, e2]; simp [WireValue.bytes]⟩
  | array xs =>
    obtain ⟨h1, e1⟩ := foldl_write_ok h
    obtain ⟨h2, e2⟩ := MpackWriter.write_ok h1
    exact ⟨h2, by rw [mpackWriteValue, e1, e2]; simp [WireValue.bytes]⟩

/-! ## §4 What fits is written -/

/-- Bytes that fit are appended. -/
theorem MpackWriter.write_fits {w : MpackWriter} {bs : List UInt8}
    (h : w.buf.length + bs.length ≤ w.size) : w.write bs = { w with buf := w.buf ++ bs } := by
  unfold MpackWriter.write
  rw [if_pos (by omega)]

/-- A number or a string that fits is written as a whole. -/
theorem mpackWriteValue_fits {w : MpackWriter} {v : WireValue}
    (hv : (∃ x, v = .num x) ∨ ∃ bs, v = .str bs) (h : w.buf.length + v.bytes.length ≤ w.size) :
    mpackWriteValue w v = { w with buf := w.buf ++ v.bytes } := by
  rcases hv with ⟨x, rfl⟩ | ⟨bs, rfl⟩
  · exact MpackWriter.write_fits h
  · simp only [WireValue.bytes, List.length_append] at h
    have hheader : w.write (strHeader bs.length) =
        { w with buf := w.buf ++ strHeader bs.length } := by
      apply MpackWriter.write_fits
      omega
    rw [mpackWriteValue, hheader, MpackWriter.write_fits]
    · simp [WireValue.bytes]
    · simp only [List.length_append]
      omega

/-! ## §5 The buffer is never outgrown -/

/-- The writer has not written behind the end of its buffer. -/
def MpackWriter.Bounded (w : MpackWriter) (size : Nat) : Prop :=
  w.size = size ∧ w.buf.length ≤ size

theorem MpackWriter.Bounded.write {w : MpackWriter} {size : Nat} (h : w.Bounded size)
    (bs : List UInt8) : (w.write bs).Bounded size := by
  obtain ⟨hsize, hlength⟩ := h
  unfold MpackWriter.write mpackWriterFlagError
  split
  · case isTrue hfit =>
    refine ⟨hsize, ?_⟩
    rw [hsize] at hfit
    simp only [List.length_append]
    omega
  · split <;> exact ⟨hsize, hlength⟩

theorem MpackWriter.Bounded.writeValue {w : MpackWriter} {size : Nat} (h : w.Bounded size)
    (v : WireValue) : (mpackWriteValue w v).Bounded size := by
  cases v with
  | num x => exact h.write _
  | str bs => exact (h.write _).write _
  | bin bs => exact (h.write _).write _
  | array xs =>
    have hall : ∀ (xs : List WireNum) {w : MpackWriter}, w.Bounded size →
        (xs.foldl (fun w x => w.write x.bytes) w).Bounded size := by
      intro xs
      induction xs with
      | nil => exact fun hw => hw
      | cons x xs ih => exact fun hw => ih (hw.write x.bytes)
    exact hall xs (h.write _)

end AppSysManager.Mpack
