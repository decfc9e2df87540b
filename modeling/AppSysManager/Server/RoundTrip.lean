import AppSysManager.Mpack.RoundTrip
import AppSysManager.Server.Decode

/-!
# Entries Read Back

`param_deserialize_id` and the skipper of `param_queue_apply` on what `param_queue_add`
wrote.

- `headerBytes`, `headerState`: the bytes of a header without an index, and the serializer
  state behind it; `paramQueueAdd_ok` says that a successful append writes exactly these,
  followed by the value.
- `paramDeserializeId_header`: the header is read back.
- `skip_value`: the value of an unknown parameter is skipped as a whole.
-/

namespace AppSysManager.Server

open AppSysManager.Bytes AppSysManager.Mpack AppSysManager.Node

variable {mapped : Nat}

/-! ## §1 What an append writes -/

/-- The bytes of an optional field. -/
def fieldBytes (flag : Bool) (count value : Nat) : List UInt8 :=
  if flag then bytesBE count value else []

/-- The 16-bit header word of an entry without an index in version 2. -/
def headerWord (q : QueueState) (ref : ParamRef) : Nat :=
  bit (decide (q.lastNode ≠ some ref.node)) * 2 ^ 14 +
    bit (decide (q.lastTimestamp ≠ ref.timestamp)) * 2 ^ 13 +
    bit (decide (0x3ff < ref.id)) * 2 ^ 12 + ref.id % 1024

/-- The optional fields behind the header word. -/
def headerFields (q : QueueState) (ref : ParamRef) : List UInt8 :=
  fieldBytes (decide (q.lastNode ≠ some ref.node)) 2 ref.node ++
    (fieldBytes (decide (q.lastTimestamp ≠ ref.timestamp)) 4 ref.timestamp ++
      fieldBytes (decide (0x3ff < ref.id)) 1 (ref.id / 1024 % 64 * 4))

/-- The header of an entry without an index. -/
def headerBytes (q : QueueState) (ref : ParamRef) : List UInt8 :=
  if q.version = 1 then uintBytes (paramGetShortId ref 0)
  else uintBytes (bswap16 (headerWord q ref)) ++ headerFields q ref

/-- The header of an entry with or without an index in version 2. -/
def indexedHeader (q : QueueState) (ref : ParamRef) (offset : Int) : List UInt8 :=
  uintBytes (bswap16 (bit (decide (0 ≤ offset)) * 2 ^ 15 + headerWord q ref)) ++
    (fieldBytes (decide (0 ≤ offset)) 1 offset.toNat ++ headerFields q ref)

theorem headerBytes_eq_indexedHeader {q : QueueState} (hv : q.version ≠ 1) (ref : ParamRef) :
    headerBytes q ref = indexedHeader q ref (-1) := by
  simp [headerBytes, indexedHeader, hv, bit, fieldBytes]

/-- The serializer state behind a header. -/
def headerState (q : QueueState) (ref : ParamRef) : QueueState :=
  if q.version = 1 then q
  else { q with lastNode := some ref.node, lastTimestamp := ref.timestamp }

theorem headerState_version (q : QueueState) (ref : ParamRef) :
    (headerState q ref).version = q.version := by
  unfold headerState
  split <;> rfl

theorem uintBytes_length_pos (v : Nat) : 0 < (uintBytes v).length := by
  unfold uintBytes
  split_ifs
  all_goals simp

theorem headerBytes_ne_nil (q : QueueState) (ref : ParamRef) : headerBytes q ref ≠ [] := by
  apply List.length_pos_iff.mp
  unfold headerBytes
  split
  · exact uintBytes_length_pos _
  · rw [List.length_append]
    exact Nat.add_pos_left (uintBytes_length_pos _) _

theorem writeField_ok {w : MpackWriter} {flag : Bool} {count value : Nat}
    (h : (writeField w flag count value).error = .ok) :
    w.error = .ok ∧ writeField w flag count value =
      { w with buf := w.buf ++ fieldBytes flag count value } := by
  unfold writeField fieldBytes at *
  cases flag with
  | false => exact ⟨h, by simp⟩
  | true => exact MpackWriter.write_ok h

/-- A header that is written without an error in version 2. -/
theorem paramSerializeId_indexed {w : MpackWriter} {ref : ParamRef} {offset : Int}
    {q : QueueState} (hv : q.version ≠ 1)
    (h : (paramSerializeId w ref offset q).1.error = .ok) :
    w.error = .ok ∧ paramSerializeId w ref offset q =
      ({ w with buf := w.buf ++ indexedHeader q ref offset }, headerState q ref) := by
  unfold paramSerializeId indexedHeader headerState at *
  simp only [hv, if_false] at h ⊢
  obtain ⟨h3, e3⟩ := writeField_ok h
  obtain ⟨h2, e2⟩ := writeField_ok h3
  obtain ⟨h1, e1⟩ := writeField_ok h2
  obtain ⟨h0, e0⟩ := writeField_ok h1
  obtain ⟨hw, ew⟩ := MpackWriter.write_ok h0
  refine ⟨hw, ?_⟩
  rw [e3, e2, e1, e0, mpackWriteU16, ew]
  simp only [headerWord, headerFields, List.append_assoc, Nat.add_assoc]

/-- A header that is written without an error is `headerBytes`. -/
theorem paramSerializeId_ok {w : MpackWriter} {ref : ParamRef} {q : QueueState}
    (h : (paramSerializeId w ref (-1) q).1.error = .ok) :
    w.error = .ok ∧ paramSerializeId w ref (-1) q =
      ({ w with buf := w.buf ++ headerBytes q ref }, headerState q ref) := by
  by_cases hv : q.version = 1
  · have hneg : ¬ (0 : Int) ≤ -1 := by decide
    unfold paramSerializeId headerBytes headerState at *
    simp only [hv, if_true, hneg, if_false] at h ⊢
    obtain ⟨hw, heq⟩ := MpackWriter.write_ok h
    exact ⟨hw, by rw [mpackWriteU16, heq]⟩
  · rw [headerBytes_eq_indexedHeader hv]
    exact paramSerializeId_indexed hv h

theorem writeField_fits {w : MpackWriter} {flag : Bool} {count value : Nat}
    (h : w.buf.length + (fieldBytes flag count value).length ≤ w.size) :
    writeField w flag count value = { w with buf := w.buf ++ fieldBytes flag count value } := by
  unfold writeField fieldBytes at *
  cases flag with
  | false => simp
  | true => exact MpackWriter.write_fits h

/-- The fields of a header that fit are written one after another. -/
theorem writeField_fits_all {w : MpackWriter} {n t x : Bool} {node timestamp extendedid : Nat}
    (h : w.buf.length + (fieldBytes n 2 node ++ (fieldBytes t 4 timestamp ++
      fieldBytes x 1 extendedid)).length ≤ w.size) :
    writeField (writeField (writeField w n 2 node) t 4 timestamp) x 1 extendedid =
      { w with buf := w.buf ++ (fieldBytes n 2 node ++ (fieldBytes t 4 timestamp ++
        fieldBytes x 1 extendedid)) } := by
  simp only [List.length_append] at h
  have hnode : w.buf.length + (fieldBytes n 2 node).length ≤ w.size := by omega
  have hstamp : (w.buf ++ fieldBytes n 2 node).length + (fieldBytes t 4 timestamp).length ≤
      w.size := by
    rw [List.length_append]
    omega
  rw [writeField_fits hnode, writeField_fits (w := { w with buf := w.buf ++ _ }) hstamp,
    writeField_fits]
  · simp only [List.append_assoc]
  · simp only [List.length_append]
    omega

/-- A header that fits is written. -/
theorem paramSerializeId_fits {w : MpackWriter} {ref : ParamRef} {q : QueueState}
    (h : w.buf.length + (headerBytes q ref).length ≤ w.size) :
    paramSerializeId w ref (-1) q =
      ({ w with buf := w.buf ++ headerBytes q ref }, headerState q ref) := by
  have hneg : ¬ (0 : Int) ≤ -1 := by decide
  unfold paramSerializeId headerBytes headerState at *
  by_cases hv : q.version = 1
  · simp only [hv, if_true, hneg, if_false] at h ⊢
    rw [mpackWriteU16, MpackWriter.write_fits h]
  · simp only [hv, if_false, List.length_append] at h ⊢
    have hword : bit false * 2 ^ 15 + bit (decide (q.lastNode ≠ some ref.node)) * 2 ^ 14 +
        bit (decide (q.lastTimestamp ≠ ref.timestamp)) * 2 ^ 13 +
        bit (decide (0x3ff < ref.id)) * 2 ^ 12 + ref.id % 1024 = headerWord q ref := by
      simp [headerWord, bit]
    have hindex : ∀ w, writeField w false 1 (-1 : Int).toNat = w := fun _ => rfl
    rw [mpackWriteU16, decide_eq_false hneg, hword, hindex, MpackWriter.write_fits (by omega),
      writeField_fits_all]
    · simp only [headerFields, List.append_assoc]
    · rw [List.length_append, ← headerFields]
      exact le_of_eq_of_le (Nat.add_assoc ..) h

/-- The serializer state an append starts from. -/
def addState (queue : ParamQueue) : QueueState :=
  if queue.buffer = [] then { queue.state with lastNode := some 0xffff } else queue.state

/-- An entry whose header is written as `header` is written as a whole, or not at all. -/
theorem paramSerializeToMpack_append {w : MpackWriter} {ref : ParamRef} {offset : Int}
    {value : WireValue} {q : QueueState} {header : List UInt8}
    (hheader : (paramSerializeId w ref offset q).1.error = .ok →
      w.error = .ok ∧ paramSerializeId w ref offset q =
        ({ w with buf := w.buf ++ header }, headerState q ref))
    (h : (paramSerializeToMpack w ref offset value q).1.error = .ok) :
    paramSerializeToMpack w ref offset value q =
      ({ w with buf := w.buf ++ (header ++ value.bytes) }, headerState q ref) := by
  unfold paramSerializeToMpack at h ⊢
  by_cases hid : (paramSerializeId w ref offset q).1.error = .ok
  · obtain ⟨hok, heq⟩ := hheader hid
    rw [heq] at h ⊢
    simp only [hok, ne_eq, not_true, if_false] at h ⊢
    obtain ⟨-, hveq⟩ := mpackWriteValue_ok h
    rw [hveq]
    simp only [List.append_assoc]
  · simp only [hid, ne_eq, not_false_eq_true, if_true] at h

/-- `param_queue_add` on a queue of values. -/
theorem paramQueueAdd_eq {queue : ParamQueue} (htype : queue.type = .set) (ref : ParamRef)
    (offset : Int) (value : WireValue) :
    paramQueueAdd queue ref offset value =
      let written := paramSerializeToMpack ⟨queue.buffer, queue.bufferSize, .ok⟩ ref offset value
        (addState queue)
      if written.1.error ≠ .ok then (false, { queue with state := written.2 })
      else (true, { queue with buffer := written.1.buf, state := written.2 }) := by
  unfold paramQueueAdd addState
  simp only [htype]

/-- A successful append of an entry whose header is written as `header`. -/
theorem paramQueueAdd_append {queue queue' : ParamQueue} {ref : ParamRef} {offset : Int}
    {value : WireValue} {header : List UInt8} (htype : queue.type = .set)
    (hheader : ∀ w, (paramSerializeId w ref offset (addState queue)).1.error = .ok →
      w.error = .ok ∧ paramSerializeId w ref offset (addState queue) =
        ({ w with buf := w.buf ++ header }, headerState (addState queue) ref))
    (h : paramQueueAdd queue ref offset value = (true, queue')) :
    queue' = { queue with
      buffer := queue.buffer ++ (header ++ value.bytes)
      state := headerState (addState queue) ref } := by
  rw [paramQueueAdd_eq htype] at h
  dsimp only at h
  split at h
  · cases h
  · case isFalse hok =>
    rw [paramSerializeToMpack_append (hheader _) (not_not.mp hok)] at h
    exact (Prod.mk.inj h).2.symm

/-- A successful append writes the header and the value. -/
theorem paramQueueAdd_ok {queue queue' : ParamQueue} {ref : ParamRef} {value : WireValue}
    (htype : queue.type = .set) (h : paramQueueAdd queue ref (-1) value = (true, queue')) :
    queue' = { queue with
      buffer := queue.buffer ++ (headerBytes (addState queue) ref ++ value.bytes)
      state := headerState (addState queue) ref } :=
  paramQueueAdd_append htype (fun _ => paramSerializeId_ok) h

/-- A successful append in version 2, with or without an index. -/
theorem paramQueueAdd_indexed {queue queue' : ParamQueue} {ref : ParamRef} {offset : Int}
    {value : WireValue} (htype : queue.type = .set) (hv : (addState queue).version ≠ 1)
    (h : paramQueueAdd queue ref offset value = (true, queue')) :
    queue' = { queue with
      buffer := queue.buffer ++ (indexedHeader (addState queue) ref offset ++ value.bytes)
      state := headerState (addState queue) ref } :=
  paramQueueAdd_append htype (fun _ => paramSerializeId_indexed hv) h

/-- An append of a number or a string that fits succeeds. -/
theorem paramQueueAdd_fits {queue : ParamQueue} {ref : ParamRef} {value : WireValue}
    (htype : queue.type = .set) (hvalue : (∃ x, value = .num x) ∨ ∃ bs, value = .str bs)
    (h : queue.buffer.length + (headerBytes (addState queue) ref).length + value.bytes.length ≤
      queue.bufferSize) :
    ∃ queue', paramQueueAdd queue ref (-1) value = (true, queue') := by
  have hheader : queue.buffer.length + (headerBytes (addState queue) ref).length ≤
      queue.bufferSize := by omega
  rw [paramQueueAdd_eq htype, paramSerializeToMpack, paramSerializeId_fits hheader]
  simp only [ne_eq, not_true_eq_false, if_false]
  rw [mpackWriteValue_fits hvalue]
  · exact ⟨_, if_neg (by simp)⟩
  · simp only [List.length_append]
    omega

/-! ## §2 Reading a header back -/

theorem headerWord_lt (q : QueueState) (ref : ParamRef) : headerWord q ref < 2 ^ 15 := by
  have hbit : ∀ b, bit b ≤ 1 := by decide
  have h1 := hbit (decide (q.lastNode ≠ some ref.node))
  have h2 := hbit (decide (q.lastTimestamp ≠ ref.timestamp))
  have h3 := hbit (decide (0x3ff < ref.id))
  unfold headerWord
  omega

private theorem bit_eq_one (b : Bool) : decide (bit b = 1) = b := by cases b <;> rfl

/-- The bits of a header word. -/
private theorem headerWord_bits (a n t x : Bool) (id : Nat) :
    let word := bit a * 2 ^ 15 + (bit n * 2 ^ 14 + bit t * 2 ^ 13 + bit x * 2 ^ 12 + id % 1024)
    word / 2 ^ 15 % 2 = bit a ∧ word / 2 ^ 14 % 2 = bit n ∧ word / 2 ^ 13 % 2 = bit t ∧
      word / 2 ^ 12 % 2 = bit x ∧ word % 1024 = id % 1024 := by
  have ha : bit a ≤ 1 := by cases a <;> decide
  have hn : bit n ≤ 1 := by cases n <;> decide
  have ht : bit t ≤ 1 := by cases t <;> decide
  have hx : bit x ≤ 1 := by cases x <;> decide
  dsimp only
  omega

private theorem bswap16_pair {a b : Nat} (ha : a < 256) (hb : b < 256) :
    bswap16 (a * 256 + b) = b * 256 + a := by
  unfold bswap16
  omega

private theorem bswap16_bswap16 {v : Nat} (h : v < 65536) : bswap16 (bswap16 v) = v := by
  have hv : v = v / 256 * 256 + v % 256 := by omega
  rw [hv, bswap16_pair (by omega) (by omega), bswap16_pair (by omega) (by omega)]

private theorem bswap16_lt (v : Nat) : bswap16 v < 65536 := by
  unfold bswap16
  omega

/-- An optional field is read back, up to its width, or left out. -/
theorem readField_field {mem : Mem} {r : MpackReader} {flag : Bool} {count v : Nat} (d : Int)
    (h : Sees mem r (fieldBytes flag count v)) :
    ∃ r', readField mem r flag count d =
        (r', if flag then ((v % 256 ^ count : Nat) : Int) else d) ∧
      Moved r r' (fieldBytes flag count v).length := by
  unfold readField fieldBytes at *
  cases flag with
  | false => exact ⟨r, rfl, ⟨by simp, rfl, h.error⟩⟩
  | true =>
    obtain ⟨r', hread, hmoved⟩ := readBytes_field h
    exact ⟨r', by simp [hread], by simpa using hmoved⟩

/-- The low and the extended part of a 16-bit id. -/
private theorem id_parts {id : Nat} (h : id < 65536) :
    (id % 1024 ||| (if decide (0x3ff < id) then id / 1024 % 64 * 4 else 0) * 256) = id := by
  have hlow : id % 1024 < 2 ^ 10 := by omega
  have hor := Nat.two_pow_add_eq_or_of_lt hlow (id / 1024)
  have hhigh : (if decide (0x3ff < id) then id / 1024 % 64 * 4 else 0) * 256 =
      2 ^ 10 * (id / 1024) := by
    by_cases hx : 0x3ff < id
    · simp only [hx, decide_true, if_true]; omega
    · have hzero : id / 1024 = 0 := by omega
      rw [decide_eq_false hx, hzero]
      rfl
  rw [hhigh, Nat.or_comm, ← hor]
  omega

/-- The serializer state of a reader behind a header written from the state `wq`: only the
    fields that were written have changed. -/
def readState (wq rq : QueueState) (ref : ParamRef) : QueueState :=
  if wq.version = 1 then rq
  else
    { rq with
      lastNode := if decide (wq.lastNode ≠ some ref.node) then some (ref.node % 65536)
        else rq.lastNode
      lastTimestamp := if decide (wq.lastTimestamp ≠ ref.timestamp) then ref.timestamp % 2 ^ 32
        else rq.lastTimestamp }

theorem readState_version (wq rq : QueueState) (ref : ParamRef) :
    (readState wq rq ref).version = rq.version := by
  unfold readState
  split <;> rfl

/-- The reader of a queue knows the last node, or it is about to be told. -/
def SameNode (wq rq : QueueState) : Prop :=
  rq.version = wq.version ∧ (rq.lastNode = wq.lastNode ∨ wq.lastNode = some 0xffff)

theorem SameNode.lastNode {wq rq : QueueState} (h : SameNode wq rq) (hv : wq.version ≠ 1)
    {ref : ParamRef} (hnode : ref.node < 0xffff) :
    (readState wq rq ref).lastNode = some ref.node := by
  simp only [readState, hv, if_false]
  by_cases hwritten : wq.lastNode = some ref.node
  · -- not written: the writer had it from an earlier entry, and so has the reader
    rcases h.2 with hlast | hlast
    · simp [hwritten, hlast]
    · rw [hwritten] at hlast
      exact absurd (Option.some.inj hlast) (by omega)
  · have hsmall : ref.node % 65536 = ref.node := Nat.mod_eq_of_lt (by omega)
    simp [hwritten, hsmall]

theorem SameNode.next {wq rq : QueueState} (h : SameNode wq rq) (hv : wq.version ≠ 1)
    {ref : ParamRef} (hnode : ref.node < 0xffff) :
    SameNode (headerState wq ref) (readState wq rq ref) := by
  refine ⟨?_, .inl ?_⟩
  · simp [readState, headerState, hv, h.1]
  · rw [h.lastNode hv hnode]
    simp [headerState, hv]

/-- A header of version 2 is read back from any serializer state; what was not written is taken
    from that state. -/
theorem paramDeserializeId_indexed {mem : Mem} {r : MpackReader} {wq rq : QueueState}
    {ref : ParamRef} {offset : Int} (hid : ref.id < 65536) (hv : wq.version ≠ 1)
    (h : Sees mem r (indexedHeader wq ref offset)) (hversion : rq.version = wq.version) :
    ∃ r', paramDeserializeId mem r rq = (r', readState wq rq ref,
        some { id := ref.id
               node := (readState wq rq ref).lastNode
               timestamp := (readState wq rq ref).lastTimestamp
               offset := if 0 ≤ offset then ((offset.toNat % 256 : Nat) : Int) else -1 }) ∧
      Moved r r' (indexedHeader wq ref offset).length := by
  have hrv : rq.version ≠ 1 := hversion ▸ hv
  unfold indexedHeader at h ⊢
  simp only [readState, hv, if_false]
  set a := decide (0 ≤ offset) with ha
  set n := decide (wq.lastNode ≠ some ref.node) with hn
  set t := decide (wq.lastTimestamp ≠ ref.timestamp) with ht
  set x := decide (0x3ff < ref.id) with hx
  obtain ⟨h15, h14, h13, h12, hlow⟩ := headerWord_bits a n t x ref.id
  have hword : headerWord wq ref = bit n * 2 ^ 14 + bit t * 2 ^ 13 + bit x * 2 ^ 12 +
    ref.id % 1024 := rfl
  rw [← hword] at h15 h14 h13 h12 hlow
  set word := bit a * 2 ^ 15 + headerWord wq ref
  have hlt : word < 65536 := by
    have hbit : bit a ≤ 1 := by cases a <;> decide
    have := headerWord_lt wq ref
    omega
  have hswap : bswap16 (bswap16 word) = word := bswap16_bswap16 hlt
  obtain ⟨r0, hread, hm0⟩ := expectRange_uint 0 0xffff h.take
    (lt_trans (bswap16_lt _) (by decide)) (by omega) (by have := bswap16_lt word; omega)
  -- the index and the fields of `headerFields`, one after another
  have hs0 := h.drop hm0
  unfold headerFields at hs0
  obtain ⟨r1, hf1, hm1⟩ := readField_field (-1) hs0.take
  have hs1 := hs0.drop hm1
  obtain ⟨r2, hf2, hm2⟩ := readField_field 0 hs1.take
  have hs2 := hs1.drop hm2
  obtain ⟨r3, hf3, hm3⟩ := readField_field 0 hs2.take
  have hs3 := hs2.drop hm3
  obtain ⟨r4, hf4, hm4⟩ := readField_field 0 hs3
  have hmoved := hm0.trans (hm1.trans (hm2.trans (hm3.trans hm4)))
  simp only [← hn, ← ht, ← hx] at hf1 hf2 hf3 hf4
  refine ⟨r4, ?_, by simpa [headerFields, ← hn, ← ht, ← hx, Nat.add_assoc] using hmoved⟩
  have hext : (if x = true then ((ref.id / 1024 % 64 * 4 % 256 ^ 1 : Nat) : Int) else 0).toNat =
      if x = true then ref.id / 1024 % 64 * 4 else 0 := by
    have hsmall : ref.id / 1024 % 64 * 4 % 256 ^ 1 = ref.id / 1024 % 64 * 4 := by omega
    rw [hsmall]
    cases x with
    | true => exact Int.toNat_natCast _
    | false => rfl
  have hparts := id_parts hid
  rw [← hx] at hparts
  have hindex : (if a = true then ((offset.toNat % 256 ^ 1 : Nat) : Int) else -1) =
      if 0 ≤ offset then ((offset.toNat % 256 : Nat) : Int) else -1 := by
    simp [ha]
  unfold paramDeserializeId mpackExpectU16
  rw [hread]
  simp only [hm0.error, ne_eq, not_true, if_false, hrv, Int.toNat_natCast, hswap, h15, h14,
    h13, h12, hlow, bit_eq_one, hf1, hf2, hf3, hf4, hext, hparts, hindex]
  cases n <;> cases t <;> simp <;> omega

/-- A header is read back from any serializer state of the same version; what was not written
    is taken from that state. -/
theorem paramDeserializeId_fields {mem : Mem} {r : MpackReader} {wq rq : QueueState}
    {ref : ParamRef} (hid : ref.id < 65536) (hshort : wq.version = 1 → ref.id < 512)
    (h : Sees mem r (headerBytes wq ref)) (hversion : rq.version = wq.version) :
    ∃ r', paramDeserializeId mem r rq = (r', readState wq rq ref,
        some { id := ref.id
               node := if wq.version = 1 then some (ref.node % 32)
                 else (readState wq rq ref).lastNode
               timestamp := if wq.version = 1 then 0 else (readState wq rq ref).lastTimestamp
               offset := -1 }) ∧
      Moved r r' (headerBytes wq ref).length := by
  by_cases hv : wq.version = 1
  · -- version 1: one word, and no index
    have hrv : rq.version = 1 := hversion.trans hv
    have hid := hshort hv
    simp only [headerBytes, readState, hv, if_true] at h ⊢
    have hword : paramGetShortId ref 0 = ref.node % 32 * 2048 + ref.id := by
      unfold paramGetShortId; omega
    obtain ⟨r', hread, hmoved⟩ := expectRange_uint 0 0xffff h
      (by rw [hword]; omega) (by omega) (by rw [hword]; push_cast; omega)
    refine ⟨r', ?_, hmoved⟩
    have hbit : ¬ (paramGetShortId ref 0 / 1024 % 2 = 1) := by rw [hword]; omega
    have hlow : paramGetShortId ref 0 % 512 = ref.id := by rw [hword]; omega
    have hnode : paramGetShortId ref 0 / 2048 % 32 = ref.node % 32 := by rw [hword]; omega
    unfold paramDeserializeId mpackExpectU16
    rw [hread]
    simp [hmoved.error, hrv, readField, hbit, hlow, hnode]
  · -- version 2: the word and its optional fields
    rw [headerBytes_eq_indexedHeader hv] at h ⊢
    simpa [hv] using paramDeserializeId_indexed hid hv h hversion

/-- What a header must satisfy to survive: 16 and 32 bit fields, and 9-bit ids in version 1. -/
structure ParamRef.Fits (ref : ParamRef) (version : Nat) : Prop where
  id : ref.id < 65536
  shortId : version = 1 → ref.id < 512
  node : ref.node < 65536
  timestamp : ref.timestamp < 2 ^ 32

/-- A reader that has seen the same timestamps as the writer. -/
theorem readState_spec {wq rq : QueueState} {ref : ParamRef} (hfits : ref.Fits wq.version)
    (hversion : rq.version = wq.version) (hstamp : rq.lastTimestamp = wq.lastTimestamp) :
    (readState wq rq ref).version = (headerState wq ref).version ∧
      (readState wq rq ref).lastTimestamp = (headerState wq ref).lastTimestamp := by
  unfold readState headerState
  by_cases hv : wq.version = 1
  · simp only [hv, if_true]
    exact ⟨hversion.trans hv, hstamp⟩
  · simp only [hv, if_false]
    refine ⟨hversion, ?_⟩
    by_cases hsame : wq.lastTimestamp = ref.timestamp
    · simp [hsame, hstamp]
    · simpa [hsame] using Nat.mod_eq_of_lt hfits.timestamp

/-- The header of an entry is read back, with the timestamp it was written with. -/
theorem paramDeserializeId_header {mem : Mem} {r : MpackReader} {wq rq : QueueState}
    {ref : ParamRef} (hfits : ref.Fits wq.version) (h : Sees mem r (headerBytes wq ref))
    (hversion : rq.version = wq.version) (hstamp : rq.lastTimestamp = wq.lastTimestamp) :
    ∃ r' rq' header, paramDeserializeId mem r rq = (r', rq', some header) ∧
      Moved r r' (headerBytes wq ref).length ∧ header.id = ref.id ∧ header.offset = -1 ∧
      header.timestamp = (if wq.version = 1 then 0 else ref.timestamp) ∧
      rq'.version = (headerState wq ref).version ∧
      rq'.lastTimestamp = (headerState wq ref).lastTimestamp := by
  obtain ⟨r', hread, hmoved⟩ := paramDeserializeId_fields hfits.id hfits.shortId h hversion
  obtain ⟨hver, hts⟩ := readState_spec hfits hversion hstamp
  refine ⟨r', _, _, hread, hmoved, rfl, rfl, ?_, hver, hts⟩
  by_cases hv : wq.version = 1
  · simp only [hv, if_true]
  · rw [hts]
    simp only [headerState, hv, if_false]

/-! ## §3 Values -/

/-- The values MessagePack can carry. -/
def WireValue.Valid : WireValue → Prop
  | .num x => x.InRange
  | .str bs => bs.length < 2 ^ 32
  | .bin bs => bs.length < 2 ^ 32
  | .array xs => xs.length < 2 ^ 32 ∧ ∀ x ∈ xs, x.InRange

/-- The elements of an array of numbers are skipped one by one. -/
theorem skipTags_moved {mem : Mem} {r : MpackReader} {xs : List WireNum}
    (h : Sees mem r (xs.flatMap WireNum.bytes)) (hx : ∀ x ∈ xs, x.InRange) :
    Moved r (skipTags mem xs.length r) (xs.flatMap WireNum.bytes).length := by
  induction xs generalizing r with
  | nil => exact ⟨by simp [skipTags], rfl, h.error⟩
  | cons x xs ih =>
    rw [List.flatMap_cons] at h ⊢
    obtain ⟨r', tag, hread, -, hmoved⟩ := readTag_num h.take (hx x (by simp))
    have hrest := ih (h.drop hmoved) (fun y hy => hx y (by simp [hy]))
    have hstep : skipTags mem (x :: xs).length r = skipTags mem xs.length r' := by
      rw [List.length_cons, skipTags, hread]
      simp [hmoved.error]
    rw [hstep, List.length_append]
    exact hmoved.trans hrest

theorem skipUnknown_of_isNumber {mem : Mem} {tag : MpackTag} {r : MpackReader}
    (h : tag.IsNumber) : skipUnknown mem tag r = r := by
  cases tag with
  | str l => exact h.elim
  | bin l => exact h.elim
  | array n => exact h.elim
  | _ => rfl

/-- A string or binary payload that is there is skipped. -/
private theorem skip_payload {mem : Mem} {r : MpackReader} {bs : List UInt8}
    (h : Sees mem r bs) :
    Moved r (if (bs.length : Int) ≤ r.end_ - r.data then mpackSkipBytes r bs.length else r)
      bs.length := by
  have hfits := h.fits
  rw [if_pos (by omega)]
  exact skipBytes_moved h

/-- The value of an unknown parameter is skipped as a whole. -/
theorem skip_value {mem : Mem} {r : MpackReader} {value : WireValue}
    (h : Sees mem r value.bytes) (hvalid : WireValue.Valid value) :
    ∃ r' tag, mpackReadTag mem r = (r', tag) ∧ r'.error = .ok ∧
      Moved r (skipUnknown mem tag r') value.bytes.length := by
  cases value with
  | num x =>
    obtain ⟨r', tag, hread, hnum, hmoved⟩ := readTag_num h hvalid
    exact ⟨r', tag, hread, hmoved.error, by rw [skipUnknown_of_isNumber hnum]; exact hmoved⟩
  | str bs =>
    simp only [WireValue.bytes, List.length_append] at h ⊢
    obtain ⟨r', hread, hmoved⟩ := readTag_str h.take hvalid
    exact ⟨r', _, hread, hmoved.error, hmoved.trans (skip_payload (h.drop hmoved))⟩
  | bin bs =>
    simp only [WireValue.bytes, List.length_append] at h ⊢
    obtain ⟨r', hread, hmoved⟩ := readTag_bin h.take hvalid
    exact ⟨r', _, hread, hmoved.error, hmoved.trans (skip_payload (h.drop hmoved))⟩
  | array xs =>
    simp only [WireValue.bytes, List.length_append] at h ⊢
    obtain ⟨r', hread, hmoved⟩ := readTag_array h.take hvalid.1
    exact ⟨r', _, hread, hmoved.error, hmoved.trans (skipTags_moved (h.drop hmoved) hvalid.2)⟩

/-- The value of a number parameter is decoded to one setter call. -/
theorem decodeParam_uint (mapped : Nat) {mem : Mem} {r : MpackReader} {p : Param} (hp : Scalar p)
    {v : Nat}
    (hv : v < 2 ^ (8 * p.type.size)) (h : Sees mem r (uintBytes v)) :
    ∃ r', decodeParam mapped mem p (-1) r = (r', [⟨0, .num v, r'⟩]) ∧
      Moved r r' (uintBytes v).length := by
  have hv32 : v < 2 ^ 32 := by
    rcases hp.layout.2.2.2 with ht | ht
    · rw [ht] at hv; exact lt_trans hv (by decide)
    · rw [ht] at hv; exact lt_trans hv (by decide)
  obtain ⟨r0, hpeek, hm0⟩ := peekTag_uint h (by omega)
  have hs0 : Sees mem r0 (uintBytes v) := (show Sees mem r ([] ++ uintBytes v) from h).drop hm0
  obtain ⟨r1, hread, hm1⟩ := expectRange_uint 0 0xffffffff hs0 (by omega)
    (by omega) (by omega)
  have hvalue : readValue mapped mem p.type r0 = (r1, .num v) := by
    rcases hp.layout.2.2.2 with ht | ht
    · rw [ht]; simp [readValue, mpackExpectUint, hread]
    · rw [ht]; simp [readValue, mpackExpectUint, hread]
  refine ⟨r1, ?_, by simpa using hm0.trans hm1⟩
  simp [decodeParam, valueCount, hpeek, loopRounds_one, decodeValues, hvalue, hm1.error,
    Value.isOverrun]

end AppSysManager.Server
