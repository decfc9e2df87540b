import AppSysManager.Server.Responses
import Mathlib.Data.List.Find

/-!
# What a Response Says

The other end of a pull: a client that takes a response apart with `param_deserialize_id`
and one value after each header, and what it finds in the responses `__add` puts together.

- `decodeResponse`: the entries of a response, as a client reads them.
- `Contents`: bytes that hold given answers; `decodeResponse_contents` reads them back.
- `add_carries`: `__add` appends the answer to the response, or sends the response and starts
  the next one with it.  A failed append has changed the serializer state, but that state
  goes with the response it belongs to.
-/

namespace AppSysManager.Server

open AppSysManager.Bytes AppSysManager.Mpack AppSysManager.Node

/-! ## §1 Lookups -/

theorem paramTable_node {p : Param} (hp : p ∈ paramTable) : p.node = 0 := by
  rw [eq_param_of_mem hp]
  cases p.name <;> rfl

/-- The parameter of this node with an id. -/
def knownParam (id : Nat) : Option Param :=
  paramTable.find? fun p => decide (p.id = id)

theorem paramListFindId_zero (id : Nat) : paramListFindId 0 id = knownParam id := by
  unfold paramListFindId knownParam
  apply List.find?_congr
  intro p hp
  simp [paramTable_node hp]

/-- The lookup of a header that names its node. -/
theorem locateLocal_node (own : Nat) (junk : Junk) {header : Header} {node : Nat}
    (hnode : header.node = some node) :
    locateLocal own junk (some header) =
      if node = 0 ∨ node = own then knownParam header.id else none := by
  unfold locateLocal
  simp only [hnode, Option.getD_some]
  by_cases hown : node = own
  · rw [if_pos (by rw [hown]), if_pos (.inr hown), paramListFindId_zero]
  · rw [if_neg (by omega)]
    by_cases hzero : node = 0
    · rw [if_pos (.inl hzero), hzero, Nat.cast_zero, paramListFindId_zero]
    · rw [if_neg (by simp [hzero, hown]), paramListFindId_remote _ (by omega)]

/-- The ids of the table are different. -/
theorem knownParam_eq_some_iff {p : Param} (hp : p ∈ paramTable) (id : Nat) :
    knownParam id = some p ↔ p.id = id := by
  constructor
  · intro h
    simpa using List.find?_some h
  · rintro rfl
    rw [← paramListFindId_zero, eq_param_of_mem hp]
    exact paramListFindId_param p.name

/-! ## §2 The client -/

/-- An entry of a response: the fields of its header, and the value behind it. -/
structure Answer where
  id : Nat
  node : Nat
  offset : Int
  value : WireValue
  deriving DecidableEq, Repr

/-- The entry of a parameter, with its current value. -/
def answerOf (s : State) (p : Param) : Answer :=
  { id := p.id, node := p.node, offset := -1, value := paramWireValue s p (-1) }

/-- One value: a number or a string. -/
def readAnswerValue (mem : Mem) (r : MpackReader) : Option (MpackReader × WireValue) :=
  match mpackReadTag mem r with
  | (r, tag) =>
    if r.error ≠ .ok then none
    else
      match tag with
      | .uint v => some (r, .num (.uint v))
      | .int v => some (r, .num (.int v))
      | .str len =>
        if (mpackSkipBytes r len).error ≠ .ok then none
        else some (mpackSkipBytes r len, .str ((List.range len).map fun i : Nat => mem (r.data + i)))
      | _ => none

/-- The entries up to the end of a response.  A header without a node, that is one that
    depends on another packet, is an error. -/
def readAnswers (mem : Mem) : Nat → QueueState → MpackReader → Option (List Answer)
  | 0, _, r => if r.end_ ≤ r.data then some [] else none
  | fuel + 1, q, r =>
    if r.end_ ≤ r.data then some []
    else
      match paramDeserializeId mem r q with
      | (_, _, none) => none
      | (r, q, some header) =>
        match header.node, readAnswerValue mem r with
        | some node, some (r, value) =>
          (readAnswers mem fuel q r).map
            ({ id := header.id, node, offset := header.offset, value } :: ·)
        | _, _ => none

/-- The version of a response. -/
def responseTypeVersion (type : UInt8) : Option Nat :=
  match packetType type with
  | .pullResponse => some 1
  | .pullResponseV2 => some 2
  | _ => none

/-- The entries of a response, each packet on its own. -/
def decodeResponse : List UInt8 → Option (List Answer)
  | type :: _ :: payload =>
    match responseTypeVersion type with
    | some version => readAnswers (ofList 2 payload) payload.length (queueStateInit version)
        (mpackReaderInitData 2 payload.length)
    | none => none
  | _ => none

/-! ## §3 Answers in a buffer -/

/-- What a client makes of an entry. -/
def ResponseEntry.answer (e : ResponseEntry) : Answer :=
  { id := e.ref.id, node := e.ref.node, offset := -1, value := e.value }

/-- The values of the parameters as they are sent. -/
def WireValue.Stored (value : WireValue) : Prop :=
  (∃ v < 2 ^ 64, value = .num (.uint v)) ∨ ∃ bs, bs.length < 2 ^ 32 ∧ value = .str bs

/-- An entry for a parameter of this node. -/
structure ResponseEntry.Local (e : ResponseEntry) (version : Nat) : Prop extends
    e.Readable version where
  node : e.ref.node = 0
  stored : WireValue.Stored e.value

/-- The bytes hold the answers: they are entries for parameters of this node, and the first
    of them was written with its node. -/
def Contents (buffer : List UInt8) (version : Nat) (answers : List Answer) : Prop :=
  ∃ es : List ResponseEntry, buffer = es.flatMap ResponseEntry.bytes ∧
    es.map ResponseEntry.answer = answers ∧ (∀ e ∈ es, e.Local version) ∧
    ∀ e ∈ es.head?, e.state.lastNode ≠ some 0

theorem readAnswerValue_stored {mem : Mem} {r : MpackReader} {value : WireValue}
    (h : Sees mem r value.bytes) (hstored : WireValue.Stored value) :
    ∃ r', readAnswerValue mem r = some (r', value) ∧ Moved r r' value.bytes.length := by
  unfold readAnswerValue
  rcases hstored with ⟨v, hv, rfl⟩ | ⟨bs, hlength, rfl⟩
  · obtain ⟨r', hread, hmoved⟩ := readTag_uint h hv
    exact ⟨r', by simp [hread, hmoved.error], hmoved⟩
  · simp only [WireValue.bytes, List.length_append] at h ⊢
    obtain ⟨r', hread, hmoved⟩ := readTag_str h.take hlength
    have hbytes := h.drop hmoved
    have hskipped := skipBytes_moved hbytes
    have hpayload : (List.range bs.length).map (fun i : Nat => mem (r'.data + i)) = bs := by
      apply List.ext_getElem
      · simp
      · intro i hi hi'
        have hat := (holds_iff_getD _ _ _).mp hbytes.holds i hi'
        simpa [hi'] using hat
    exact ⟨_, by simp [hread, hmoved.error, hskipped.error, hpayload], hmoved.trans hskipped⟩

/-- The header of an entry for a parameter of this node, read by a client that knows the
    node or is told. -/
theorem paramDeserializeId_local {mem : Mem} {r : MpackReader} {q : QueueState}
    {e : ResponseEntry} (he : e.Local q.version)
    (hnode : q.version = 1 ∨ q.lastNode = some 0 ∨ e.state.lastNode ≠ some 0)
    (h : Sees mem r (headerBytes e.state e.ref)) :
    ∃ r' q' header, paramDeserializeId mem r q = (r', q', some header) ∧
      header.id = e.ref.id ∧ header.node = some 0 ∧ header.offset = -1 ∧
      q'.version = q.version ∧ (q.version ≠ 1 → q'.lastNode = some 0) ∧
      Moved r r' (headerBytes e.state e.ref).length := by
  have hid : e.ref.id < 65536 := lt_trans he.id (by norm_num)
  obtain ⟨r', hread, hmoved⟩ := paramDeserializeId_fields hid (fun _ => he.id) h he.version.symm
  have hversion := readState_version e.state q e.ref
  have hlast : e.state.version ≠ 1 → (readState e.state q e.ref).lastNode = some 0 := by
    intro hv
    simp only [readState, hv, if_false, he.node]
    -- The node is in the header, or the writer and the client both had it before.
    by_cases hwritten : e.state.lastNode = some 0
    · rcases hnode with hnode | hnode | hnode
      · exact absurd (he.version.trans hnode) hv
      · simp [hwritten, hnode]
      · exact absurd hwritten hnode
    · simp [hwritten]
  refine ⟨r', _, _, hread, rfl, ?_, rfl, hversion, fun hv => hlast (he.version ▸ hv), hmoved⟩
  by_cases hv : e.state.version = 1
  · simp [hv, he.node]
  · simp [hv, hlast hv]

/-- The entries of a response are read up to its end. -/
theorem readAnswers_entries {mem : Mem} {es : List ResponseEntry} {q : QueueState}
    {r : MpackReader} {fuel : Nat} (hes : ∀ e ∈ es, e.Local q.version)
    (hnode : q.version = 1 ∨ q.lastNode = some 0 ∨ ∀ e ∈ es.head?, e.state.lastNode ≠ some 0)
    (h : Sees mem r (es.flatMap ResponseEntry.bytes))
    (hend : r.end_ = r.data + (es.flatMap ResponseEntry.bytes).length)
    (hfuel : es.length ≤ fuel) :
    readAnswers mem fuel q r = some (es.map ResponseEntry.answer) := by
  induction es generalizing q r fuel with
  | nil =>
    have hdone : r.end_ ≤ r.data := by
      rw [hend]
      simp
    cases fuel <;> simp [readAnswers, hdone]
  | cons e es ih =>
    obtain ⟨fuel, rfl⟩ : ∃ n, fuel = n + 1 := ⟨fuel - 1, by simp at hfuel; omega⟩
    have he := hes e List.mem_cons_self
    rw [List.flatMap_cons, ResponseEntry.bytes, List.append_assoc] at h hend
    have hmore := not_done_of_left hend (headerBytes_ne_nil e.state e.ref)
    obtain ⟨r₁, q₁, header, hread, hid, hzero, hoffset, hversion, hlast, hmoved⟩ :=
      paramDeserializeId_local he (by simpa using hnode) h.take
    have hvalue := h.drop hmoved
    obtain ⟨r₂, hvalue₂, hmoved₂⟩ := readAnswerValue_stored hvalue.take he.stored
    have hend₂ := hmoved₂.left (hmoved.left hend)
    -- behind the first header the reader remembers node 0
    have hnode₂ : q₁.version = 1 ∨ q₁.lastNode = some 0 ∨
        ∀ e ∈ es.head?, e.state.lastNode ≠ some 0 := by
      by_cases hv : q.version = 1
      · exact .inl (hversion.trans hv)
      · exact .inr (.inl (hlast hv))
    have hrest := ih (fun e he => hversion ▸ hes e (List.mem_cons_of_mem _ he)) hnode₂
      (hvalue.drop hmoved₂) hend₂ (by simpa using hfuel)
    simp [readAnswers, hmore, hread, hzero, hvalue₂, hrest, ResponseEntry.answer, hid, hoffset,
      he.node]

/-- Every entry takes up a byte. -/
theorem length_le_entries (es : List ResponseEntry) :
    es.length ≤ (es.flatMap ResponseEntry.bytes).length := by
  induction es with
  | nil => simp
  | cons e es ih =>
    have := List.length_pos_iff.mpr (headerBytes_ne_nil e.state e.ref)
    rw [List.flatMap_cons, ResponseEntry.bytes, List.length_cons]
    simp only [List.length_append]
    omega

/-- The first byte of a response. -/
def responseType (version : Nat) : UInt8 := if version = 1 then 1 else 6

theorem sees_payload {bs : List UInt8} (h : bs.length ≤ PARAM_SERVER_MTU) :
    Sees (ofList 2 bs) (mpackReaderInitData 2 bs.length) bs :=
  sees_init (holds_ofList 2 bs) (h.trans_lt (by decide))

/-- A client finds the answers a response holds. -/
theorem decodeResponse_contents {buffer : List UInt8} {version : Nat} {answers : List Answer}
    (hversion : version = 1 ∨ version = 2) (h : Contents buffer version answers)
    (hlength : buffer.length ≤ PARAM_SERVER_MTU) (flag : UInt8) :
    decodeResponse (responseType version :: flag :: buffer) = some answers := by
  obtain ⟨es, rfl, rfl, hes, hfirst⟩ := h
  have htype : responseTypeVersion (responseType version) = some version := by
    rcases hversion with rfl | rfl <;> rfl
  rw [decodeResponse, htype]
  exact readAnswers_entries hes (.inr (.inr hfirst)) (sees_payload hlength) rfl
    (length_le_entries es)

/-! ## §4 Building a response -/

/-- A half-built response that holds the answers. -/
structure Carries (queue : ParamQueue) (version : Nat) (answers : List Answer) : Prop where
  type : queue.type = .set
  size : queue.bufferSize = PARAM_SERVER_MTU
  length : queue.buffer.length ≤ PARAM_SERVER_MTU
  contents : Contents queue.buffer version answers
  node : queue.buffer ≠ [] → version ≠ 1 → queue.state.lastNode = some 0
  version : queue.state.version = version

/-- A fresh response holds nothing. -/
theorem paramQueueInit_carries (version : Nat) :
    Carries (paramQueueInit PARAM_SERVER_MTU .set version) version [] where
  type := rfl
  size := rfl
  length := Nat.zero_le _
  contents := ⟨[], rfl, rfl, by simp, by simp⟩
  node h := absurd rfl h
  version := rfl

theorem paramWireValue_stored {p : Param} (hp : p ∈ paramTable) (s : State) :
    WireValue.Stored (paramWireValue s p (-1)) := by
  have hplain := paramWireValue_plain hp s
  by_cases hname : p.name = .stdoutBuf
  · obtain rfl : p = stdoutBuf := by rw [eq_param_of_mem hp, hname]; rfl
    obtain ⟨bs, -, hvalue⟩ := paramWireValue_log s
    rw [hvalue] at hplain ⊢
    exact .inr ⟨bs, hplain, rfl⟩
  · obtain ⟨v, -, hvalue⟩ := paramWireValue_scalar ⟨hp, hname⟩ s
    rw [hvalue] at hplain ⊢
    exact .inl ⟨v, hplain, rfl⟩

/-- A successful append adds the answer of its parameter. -/
theorem paramQueueAdd_carries {queue queue' : ParamQueue} {version : Nat} {answers : List Answer}
    (h : Carries queue version answers) {p : Param} (hp : p ∈ paramTable) (s : State)
    (hadd : paramQueueAdd queue (paramRef s p) (-1) (paramWireValue s p (-1)) = (true, queue')) :
    Carries queue' version (answers ++ [answerOf s p]) := by
  have hlength := paramQueueAdd_length h.type (h.size ▸ h.length) hadd
  rw [h.size] at hlength
  obtain rfl := paramQueueAdd_ok h.type hadd
  obtain ⟨es, hbuffer, hanswers, hes, hfirst⟩ := h.contents
  have hversion : (addState queue).version = version := (addState_version queue).trans h.version
  let e : ResponseEntry := ⟨addState queue, paramRef s p, paramWireValue s p (-1)⟩
  have he : e.Local version :=
    { version := hversion
      id := paramTable_id_lt hp
      value := paramWireValue_plain hp s
      node := paramTable_node hp
      stored := paramWireValue_stored hp s }
  refine ⟨h.type, h.size, hlength, ⟨es ++ [e], ?_, ?_, ?_, ?_⟩, ?_,
    (headerState_version _ _).trans hversion⟩
  · simp [hbuffer, ResponseEntry.bytes, e]
  · simp [hanswers, ResponseEntry.answer, answerOf, paramRef, e]
  · intro e' he'
    rcases List.mem_append.mp he' with he' | he'
    · exact hes e' he'
    · rw [List.mem_singleton.mp he']
      exact he
  · cases es with
    | nil =>
      -- "Ensure we always send nodeid on the first element of the queue"
      have hempty : queue.buffer = [] := hbuffer
      simp [e, addState, hempty]
    | cons e' es => simpa using hfirst
  · intro _ hv
    have hv' : (addState queue).version ≠ 1 := hversion.symm ▸ hv
    simp [headerState, hv', paramRef, paramTable_node hp]

theorem uintBytes_length_le {n v : Nat} (hn : n = 1 ∨ n = 2) (hv : v < 256 ^ n) :
    (uintBytes v).length ≤ 1 + n := by
  unfold uintBytes
  rcases hn with rfl | rfl
  · split_ifs <;> simp <;> omega
  · split_ifs <;> simp <;> omega

theorem fieldBytes_length_le (flag : Bool) (count v : Nat) :
    (fieldBytes flag count v).length ≤ count := by
  unfold fieldBytes
  split <;> simp

/-- The room a header takes at most. -/
theorem headerBytes_length_le {q : QueueState} {ref : ParamRef} (hid : ref.id < 1024) :
    (headerBytes q ref).length ≤ 7 + if q.lastNode = some ref.node then 0 else 2 := by
  have hword : ∀ v < 65536, (uintBytes v).length ≤ 3 := fun v hv =>
    uintBytes_length_le (.inr rfl) hv
  unfold headerBytes
  by_cases hv : q.version = 1
  · have := hword (paramGetShortId ref 0) (Nat.mod_lt _ (by norm_num))
    simp only [hv, if_true]
    omega
  · have hheader := hword (bswap16 (headerWord q ref)) (by unfold bswap16; omega)
    have hstamp := fieldBytes_length_le (decide (q.lastTimestamp ≠ ref.timestamp)) 4 ref.timestamp
    have hextended : fieldBytes (decide (0x3ff < ref.id)) 1 (ref.id / 1024 % 64 * 4) = [] := by
      have hsmall : ¬ 0x3ff < ref.id := by omega
      simp [fieldBytes, hsmall]
    simp only [hv, if_false, headerFields, hextended, List.append_nil, List.length_append]
    by_cases hnode : q.lastNode = some ref.node
    · simp only [hnode, ne_eq, not_true_eq_false, decide_false, fieldBytes, if_true,
        Bool.false_eq_true, if_false, List.length_nil] at hstamp ⊢
      omega
    · have := fieldBytes_length_le (decide (q.lastNode ≠ some ref.node)) 2 ref.node
      simp only [hnode, if_false]
      omega

/-- The room the value of a parameter takes at most. -/
def valueRoom (p : Param) : Nat :=
  match p.type with
  | .string => 2 + p.arraySize
  | type => 1 + type.size

theorem paramWireValue_length {p : Param} (hp : p ∈ paramTable) (s : State) :
    (paramWireValue s p (-1)).bytes.length ≤ valueRoom p := by
  by_cases hname : p.name = .stdoutBuf
  · obtain rfl : p = stdoutBuf := by rw [eq_param_of_mem hp, hname]; rfl
    obtain ⟨bs, hlength, hvalue⟩ := paramWireValue_log s
    have hroom : valueRoom stdoutBuf = 113 := rfl
    rw [hvalue, hroom, WireValue.bytes, List.length_append, strHeader]
    split_ifs <;> simp <;> omega
  · have hscalar : Scalar p := ⟨hp, hname⟩
    obtain ⟨v, hv, hvalue⟩ := paramWireValue_scalar hscalar s
    rw [hvalue]
    rcases hscalar.layout.2.2.2 with ht | ht
    · rw [ht] at hv
      rw [valueRoom, ht]
      exact uintBytes_length_le (.inl rfl) hv
    · rw [ht] at hv
      rw [valueRoom, ht]
      exact uintBytes_length_le (.inr rfl) hv

/-- The room an entry takes at most. -/
theorem entry_length_le (queue : ParamQueue) {p : Param} (hp : p ∈ paramTable) (s : State) :
    (headerBytes (addState queue) (paramRef s p)).length +
        (paramWireValue s p (-1)).bytes.length ≤
      7 + (if (addState queue).lastNode = some 0 then 0 else 2) + valueRoom p := by
  have hid : (paramRef s p).id < 1024 := lt_trans (paramTable_id_lt hp) (by norm_num)
  have hheader := headerBytes_length_le (q := addState queue) hid
  have hnode : (paramRef s p).node = 0 := paramTable_node hp
  rw [hnode] at hheader
  have hvalue := paramWireValue_length hp s
  omega

/-- What an append takes of the room. -/
theorem paramQueueAdd_length_le {queue queue' : ParamQueue} {version : Nat}
    {answers : List Answer} (h : Carries queue version answers) {p : Param} (hp : p ∈ paramTable)
    (s : State)
    (hadd : paramQueueAdd queue (paramRef s p) (-1) (paramWireValue s p (-1)) = (true, queue')) :
    queue'.buffer.length ≤ queue.buffer.length +
      (7 + if (addState queue).lastNode = some 0 then 0 else 2) + valueRoom p := by
  have hentry := entry_length_le queue hp s
  rw [paramQueueAdd_ok h.type hadd]
  simp only [List.length_append]
  omega

/-- An append succeeds when there is room for the header and the value. -/
theorem paramQueueAdd_room {queue : ParamQueue} {version : Nat} {answers : List Answer}
    (h : Carries queue version answers) {p : Param} (hp : p ∈ paramTable) (s : State)
    (hroom : queue.buffer.length + (7 + if (addState queue).lastNode = some 0 then 0 else 2) +
      valueRoom p ≤ PARAM_SERVER_MTU) :
    ∃ queue', paramQueueAdd queue (paramRef s p) (-1) (paramWireValue s p (-1)) =
      (true, queue') := by
  have hentry := entry_length_le queue hp s
  refine paramQueueAdd_fits h.type ?_ (by rw [h.size]; omega)
  rcases paramWireValue_stored hp s with ⟨v, -, heq⟩ | ⟨bs, -, heq⟩
  · exact .inl ⟨_, heq⟩
  · exact .inr ⟨_, heq⟩

/-- Every parameter fits into a fresh response. -/
theorem paramQueueAdd_fresh (version : Nat) {p : Param} (hp : p ∈ paramTable) (s : State) :
    ∃ queue', paramQueueAdd (paramQueueInit PARAM_SERVER_MTU .set version) (paramRef s p) (-1)
      (paramWireValue s p (-1)) = (true, queue') := by
  apply paramQueueAdd_room (paramQueueInit_carries version) hp s
  have hroom : valueRoom p ≤ 113 := by
    rw [eq_param_of_mem hp]
    cases p.name <;> decide
  have hmtu : PARAM_SERVER_MTU = 200 := rfl
  have hempty : (paramQueueInit PARAM_SERVER_MTU .set version).buffer.length = 0 := rfl
  split_ifs <;> omega

/-- A failed append has at most spoilt what the serializer remembers. -/
theorem paramQueueAdd_failed_version {queue queue' : ParamQueue} {ref : ParamRef} {offset : Int}
    {value : WireValue} (htype : queue.type = .set)
    (h : paramQueueAdd queue ref offset value = (false, queue')) :
    queue'.state.version = queue.state.version := by
  have hid : ∀ (w : MpackWriter) (q : QueueState),
      (paramSerializeId w ref offset q).2.version = q.version := by
    intro w q
    unfold paramSerializeId
    split
    · split <;> rfl
    · rfl
  have hvalue : ∀ (w : MpackWriter) (q : QueueState),
      (paramSerializeToMpack w ref offset value q).2.version = q.version := by
    intro w q
    unfold paramSerializeToMpack
    dsimp only
    split <;> exact hid w q
  rw [paramQueueAdd_eq htype] at h
  dsimp only at h
  split at h
  · rw [← (Prod.mk.inj h).2]
    exact (hvalue _ _).trans (addState_version queue)
  · cases (Prod.mk.inj h).1

/-! ## §5 Sending -/

/-- The csp id of a reply. -/
def replyId (request : CspId) : CspId :=
  { pri := request.pri
    flags := request.flags
    src := if request.dst ≠ maxNodeid then request.dst else 0
    dst := request.src
    dport := request.sport
    sport := request.dport }

/-- The packets among the events. -/
def repliesIn (evs : List Event) : List (CspId × List UInt8) :=
  evs.filterMap fun
    | .reply id data => some (id, data)
    | _ => none

/-- A pull leads from `s` to `s'`, and has sent these packets to the requester. -/
def Sent (request : CspId) (s s' : State) (datas : List (List UInt8)) : Prop :=
  ∃ buffers evs, (∀ e ∈ evs, PullEvent e) ∧
    repliesIn evs = datas.map (fun data => (replyId request, data)) ∧
    s' = { s with buffers, trace := s.trace ++ evs }

theorem Sent.trans {request : CspId} {a b c : State} {datas datas' : List (List UInt8)}
    (h : Sent request a b datas) (h' : Sent request b c datas') :
    Sent request a c (datas ++ datas') := by
  obtain ⟨n, evs, hevs, hreplies, rfl⟩ := h
  obtain ⟨n', evs', hevs', hreplies', rfl⟩ := h'
  refine ⟨n', evs ++ evs', ?_, ?_, by simp⟩
  · intro e he
    rcases List.mem_append.mp he with he | he
    · exact hevs e he
    · exact hevs' e he
  · rw [List.map_append, ← hreplies, ← hreplies']
    exact List.filterMap_append

theorem Sent.fetch (request : CspId) (s : State) (lo hi : Int) (length : Nat) :
    Sent request s (s.emit (.fetch lo hi length)) [] :=
  ⟨s.buffers, [.fetch lo hi length], by simp [PullEvent], rfl, rfl⟩

theorem Sent.allocate (request : CspId) (env : Env) (s : State) (version : Nat) :
    Sent request s (allocate env s version).1 [] :=
  ⟨s.buffers + 1, [], by simp, rfl, by simp [Server.allocate]⟩

theorem Sent.send (request : CspId) (s : State) (queue : ParamQueue) (last : Bool) :
    Sent request s (send s request queue last)
      [responseType queue.state.version :: (if last then PARAM_FLAG_END else 0) :: queue.buffer] := by
  refine ⟨s.buffers, [.reply (replyId request) _], ?_, rfl, rfl⟩
  intro e he
  rw [List.mem_singleton.mp he]
  show _ ∨ _
  unfold responseType
  split
  · exact .inl rfl
  · exact .inr rfl

/-- The values are still what they were. -/
theorem Sent.answerOf {request : CspId} {s s' : State} {datas : List (List UInt8)}
    (h : Sent request s s' datas) (p : Param) : answerOf s' p = Server.answerOf s p := by
  obtain ⟨buffers, evs, -, -, rfl⟩ := h
  rfl

/-- Does a packet carry `PARAM_FLAG_END`? -/
def carriesEnd (data : List UInt8) : Bool := decide (data.getD 1 0 &&& PARAM_FLAG_END ≠ 0)

/-- A response in the middle of an answer. -/
structure IsPart (data : List UInt8) (answers : List Answer) : Prop where
  length : data.length ≤ 2 + PARAM_SERVER_MTU
  flag : carriesEnd data = false
  decode : decodeResponse data = some answers

/-- What was sent since `s`, and the response that is being built, together hold the answers.
    At most one buffer was taken for each of them. -/
def Answering (request : CspId) (version : Nat) (s s' : State) (queue : ParamQueue)
    (answers : List Answer) : Prop :=
  (s.buffers ≤ s'.buffers ∧ s'.buffers ≤ s.buffers + 1 + answers.length) ∧
  ∃ (parts : List (List UInt8 × List Answer)) (rest : List Answer),
    Sent request s s' (parts.map Prod.fst) ∧ (∀ part ∈ parts, IsPart part.1 part.2) ∧
    Carries queue version rest ∧ answers = parts.flatMap Prod.snd ++ rest

theorem allocate_some {env : Env} {s : State} (h : env.cspBufferGet s.buffers = true)
    (version : Nat) : allocate env s version =
      ((allocate env s version).1, some (paramQueueInit PARAM_SERVER_MTU .set version)) := by
  simp [allocate, h]

/-- `__add` appends the answer, or sends the response and starts the next one with it. -/
theorem add_answering {env : Env} {request : CspId} {version : Nat}
    (hversion : version = 1 ∨ version = 2) {s₀ s : State} {queue : ParamQueue}
    {answers : List Answer} (h : Answering request version s₀ s queue answers)
    (hget : env.cspBufferGet s.buffers = true) {p : Param} (hp : p ∈ paramTable) :
    ∃ s' queue', add env s request queue p (-1) = (s', some queue') ∧
      Answering request version s₀ s' queue' (answers ++ [answerOf s₀ p]) := by
  obtain ⟨⟨hbuffers, hbuffers'⟩, parts, rest, hsent, hparts, hcarries, rfl⟩ := h
  unfold add
  rcases hfirst : paramQueueAdd queue (paramRef s p) (-1) (paramWireValue s p (-1)) with
    ⟨_ | _, queue₁⟩
  · -- "Flush", then "Retry on fresh buffer"
    obtain ⟨hbuffer, -, -⟩ := paramQueueAdd_failed hcarries.type hfirst
    have hversion₁ : queue₁.state.version = version :=
      (paramQueueAdd_failed_version hcarries.type hfirst).trans hcarries.version
    have hpart : IsPart (responseType version :: 0 :: queue₁.buffer) rest := by
      rw [hbuffer]
      refine ⟨?_, ?_, decodeResponse_contents hversion hcarries.contents hcarries.length 0⟩
      · have := hcarries.length
        simp only [List.length_cons]
        omega
      · simp [carriesEnd]
    have hflush := (Sent.send request s queue₁ false).trans
      (Sent.allocate request env _ queue₁.state.version)
    dsimp only
    rw [allocate_some (s := send s request queue₁ false) hget]
    rw [hversion₁] at hflush ⊢
    dsimp only
    obtain ⟨queue₂, hretry⟩ := paramQueueAdd_fresh version hp
      (allocate env (send s request queue₁ false) version).1
    have hcarries₂ := paramQueueAdd_carries (paramQueueInit_carries version) hp _ hretry
    rw [hretry]
    refine ⟨_, queue₂, rfl, ?_, parts ++ [(responseType version :: 0 :: queue₁.buffer, rest)], _,
      ?_, ?_, hcarries₂, ?_⟩
    · have htaken : (allocate env (send s request queue₁ false) version).1.buffers =
          s.buffers + 1 := rfl
      rw [htaken, List.length_append, List.length_singleton]
      omega
    · rw [List.map_append]
      exact hsent.trans hflush
    · intro part hmem
      rcases List.mem_append.mp hmem with hmem | hmem
      · exact hparts part hmem
      · rw [List.mem_singleton.mp hmem]
        exact hpart
    · rw [hflush.answerOf, hsent.answerOf]
      simp
  · refine ⟨s, queue₁, rfl, ?_, parts, _, hsent, hparts,
      paramQueueAdd_carries hcarries hp s hfirst, ?_⟩
    · rw [List.length_append]
      omega
    · rw [hsent.answerOf, List.append_assoc]

end AppSysManager.Server
