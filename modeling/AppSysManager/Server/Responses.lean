import AppSysManager.Server.Congruence
import AppSysManager.Server.RoundTrip

/-!
# Responses can be Scanned

A pull in place of an acknowledgement looks through the response it is building for each
parameter it is about to add.  What it scans was written by `param_queue_add`, so every
header is read back with a node, and no indeterminate local is ever looked at.

- `ReadableResponse`: the buffer is a list of headers and values, and the serializer state
  knows a node.
- `add_readable`, `scanResponse_readable`: appending and scanning keep a response readable.
- `pullLoop_congr`: the pass over a settled pull request depends on its payload only.
-/

namespace AppSysManager.Server

open AppSysManager.Bytes AppSysManager.Mpack AppSysManager.Node

/-! ## §1 Readable responses -/

/-- The values of the program's parameters: numbers and strings. -/
def WireValue.Plain : WireValue → Prop
  | .num x => x.InRange
  | .str bs => bs.length < 2 ^ 32
  | _ => False

/-- One entry of a response, with the serializer state its header was written from. -/
structure ResponseEntry where
  state : QueueState
  ref : ParamRef
  value : WireValue

/-- The bytes of an entry. -/
def ResponseEntry.bytes (e : ResponseEntry) : List UInt8 :=
  headerBytes e.state e.ref ++ e.value.bytes

/-- An entry that can be read back. -/
structure ResponseEntry.Readable (e : ResponseEntry) (version : Nat) : Prop where
  version : e.state.version = version
  id : e.ref.id < 512
  value : WireValue.Plain e.value

/-- A response that can be read back: it consists of readable entries, and its serializer
    state knows a node as soon as there is an entry. -/
structure ReadableResponse (queue : ParamQueue) : Prop where
  type : queue.type = .set
  size : queue.bufferSize = PARAM_SERVER_MTU
  length : queue.buffer.length ≤ PARAM_SERVER_MTU
  entries : ∃ es : List ResponseEntry, queue.buffer = es.flatMap ResponseEntry.bytes ∧
    ∀ e ∈ es, e.Readable queue.state.version
  node : queue.buffer ≠ [] → queue.state.version ≠ 1 → queue.state.lastNode.isSome = true

/-- A fresh response is readable. -/
theorem paramQueueInit_readable (version : Nat) :
    ReadableResponse (paramQueueInit PARAM_SERVER_MTU .set version) where
  type := rfl
  size := rfl
  length := Nat.zero_le _
  entries := ⟨[], rfl, by simp⟩
  node h := absurd rfl h

/-! ## §2 Appending -/

/-- The value of a number parameter. -/
theorem paramWireValue_scalar {p : Param} (hp : Scalar p) (s : State) :
    ∃ v < 256 ^ p.type.size, paramWireValue s p (-1) = .num (.uint v) := by
  obtain ⟨hsize, -, -, htype⟩ := hp.layout
  refine ⟨paramGetArray s p 0, ?_, ?_⟩
  · unfold paramGetArray
    split
    · positivity
    · split <;> exact loadLE_lt _ _ _
  · unfold paramWireValue
    rcases htype with ht | ht
    · simp [ht, hsize, numOf]
    · simp [ht, hsize, numOf]

/-- The value of the log. -/
theorem paramWireValue_log (s : State) :
    ∃ bs, bs.length ≤ 111 ∧ paramWireValue s stdoutBuf (-1) = .str bs := by
  refine ⟨cString (paramGetData s stdoutBuf stdoutBuf.arraySize), ?_, rfl⟩
  refine le_trans (List.takeWhile_prefix _).length_le ?_
  rw [paramGetData, List.length_map, List.length_range]
  decide

/-- The value of a parameter of the table. -/
theorem paramWireValue_plain {p : Param} (hp : p ∈ paramTable) (s : State) :
    WireValue.Plain (paramWireValue s p (-1)) := by
  by_cases hname : p.name = .stdoutBuf
  · obtain rfl : p = stdoutBuf := by rw [eq_param_of_mem hp, hname]; rfl
    obtain ⟨bs, hlength, hvalue⟩ := paramWireValue_log s
    rw [hvalue]
    exact lt_of_le_of_lt hlength (by norm_num)
  · have hscalar : Scalar p := ⟨hp, hname⟩
    obtain ⟨v, hv, hvalue⟩ := paramWireValue_scalar hscalar s
    rw [hvalue]
    refine lt_trans hv ?_
    rcases hscalar.layout.2.2.2 with ht | ht <;> rw [ht] <;> decide

/-- A failed append leaves the bytes of the response alone. -/
theorem paramQueueAdd_failed {queue queue' : ParamQueue} {ref : ParamRef} {offset : Int}
    {value : WireValue} (htype : queue.type = .set)
    (h : paramQueueAdd queue ref offset value = (false, queue')) :
    queue'.buffer = queue.buffer ∧ queue'.bufferSize = queue.bufferSize ∧ queue'.type = .set := by
  rw [paramQueueAdd_eq htype] at h
  dsimp only at h
  split at h
  · rw [← (Prod.mk.inj h).2]
    exact ⟨rfl, rfl, htype⟩
  · cases (Prod.mk.inj h).1

/-- A successful append stays inside the buffer. -/
theorem paramQueueAdd_length {queue queue' : ParamQueue} {ref : ParamRef} {offset : Int}
    {value : WireValue} {ok : Bool} (htype : queue.type = .set)
    (hlength : queue.buffer.length ≤ queue.bufferSize)
    (h : paramQueueAdd queue ref offset value = (ok, queue')) :
    queue'.buffer.length ≤ queue.bufferSize := by
  -- a field of the header is written as a whole, or not at all
  have hfield : ∀ {w : MpackWriter} {size : Nat} (flag : Bool) (count v : Nat), w.Bounded size →
      (writeField w flag count v).Bounded size := by
    intro w size flag count v hw
    unfold writeField
    split
    · exact hw.write _
    · exact hw
  have hid : ∀ (q : QueueState), (paramSerializeId ⟨queue.buffer, queue.bufferSize, .ok⟩ ref
      offset q).1.Bounded queue.bufferSize := by
    intro q
    have hstart : (⟨queue.buffer, queue.bufferSize, .ok⟩ : MpackWriter).Bounded queue.bufferSize :=
      ⟨rfl, hlength⟩
    unfold paramSerializeId
    split
    · split
      · exact (hstart.write _).write _
      · exact hstart.write _
    · exact hfield _ _ _ (hfield _ _ _ (hfield _ _ _ (hfield _ _ _ (hstart.write _))))
  rw [paramQueueAdd_eq htype] at h
  dsimp only at h
  split at h
  -- on an error the buffer is as it was
  · rw [← (Prod.mk.inj h).2]
    exact hlength
  · rw [← (Prod.mk.inj h).2]
    unfold paramSerializeToMpack
    dsimp only
    split
    · exact (hid _).2
    · exact ((hid _).writeValue value).2

theorem addState_version (queue : ParamQueue) :
    (addState queue).version = queue.state.version := by
  unfold addState
  split <;> rfl

/-- An append keeps a response readable; a failed one does so on an empty response. -/
theorem paramQueueAdd_readable {queue queue' : ParamQueue} {ref : ParamRef} {value : WireValue}
    {ok : Bool} (h : ReadableResponse queue) (hid : ref.id < 512)
    (hvalue : WireValue.Plain value) (hadd : paramQueueAdd queue ref (-1) value = (ok, queue'))
    (hok : ok = true ∨ queue.buffer = []) : ReadableResponse queue' := by
  have hlength := paramQueueAdd_length h.type (h.size ▸ h.length) hadd
  rw [h.size] at hlength
  cases ok with
  | true =>
    obtain rfl := paramQueueAdd_ok h.type hadd
    have hversion : (headerState (addState queue) ref).version = queue.state.version :=
      (headerState_version _ _).trans (addState_version queue)
    obtain ⟨es, hbuffer, hes⟩ := h.entries
    -- the new entry stands behind the others, in the state in which it was written
    refine ⟨h.type, h.size, hlength, ⟨es ++ [⟨addState queue, ref, value⟩], ?_, ?_⟩, ?_⟩
    · simp [hbuffer, ResponseEntry.bytes]
    · intro e he
      rw [hversion]
      rcases List.mem_append.mp he with he | he
      · exact hes e he
      · obtain rfl := List.mem_singleton.mp he
        exact ⟨addState_version queue, hid, hvalue⟩
    -- in version 2 the header has just told the node
    · intro _ hv
      have hv' : (addState queue).version ≠ 1 := by
        rw [addState_version, ← hversion]
        exact hv
      simp [headerState, hv']
  | false =>
    -- nothing was written, and there was nothing before
    obtain ⟨hbuffer, hsize, htype⟩ := paramQueueAdd_failed h.type hadd
    have hempty : queue'.buffer = [] := by
      rcases hok with hok | hok
      · cases hok
      · rw [hbuffer, hok]
    exact ⟨htype, hsize.trans h.size, hlength, ⟨[], hempty, by simp⟩, fun hne => absurd hempty hne⟩

theorem paramTable_id_lt {p : Param} (hp : p ∈ paramTable) : p.id < 512 := by
  rw [eq_param_of_mem hp]
  cases p.name <;> decide

/-- `__add` keeps the response readable, also when it starts a new one. -/
theorem add_readable {env : Env} {s s' : State} {request : CspId} {queue queue' : ParamQueue}
    {p : Param} (hp : p ∈ paramTable) (h : ReadableResponse queue)
    (hadd : add env s request queue p (-1) = (s', some queue')) : ReadableResponse queue' := by
  unfold add at hadd
  rcases hfirst : paramQueueAdd queue (paramRef s p) (-1) (paramWireValue s p (-1)) with
    ⟨_ | _, queue1⟩
  · -- the response is sent, and the parameter goes into a fresh one
    rw [hfirst] at hadd
    dsimp only [allocate] at hadd
    split at hadd
    · case _ heq =>
      split at heq
      · cases heq
      · cases hadd
    · case _ heq =>
      split at heq
      · obtain ⟨rfl, hfresh⟩ := Prod.mk.inj heq
        obtain rfl := Option.some.inj hfresh
        obtain ⟨rfl, hsome⟩ := Prod.mk.inj hadd
        obtain rfl := Option.some.inj hsome
        exact paramQueueAdd_readable (paramQueueInit_readable _) (paramTable_id_lt hp)
          (paramWireValue_plain hp _) rfl (.inr rfl)
      · cases heq
  · rw [hfirst] at hadd
    obtain rfl := Option.some.inj (Prod.mk.inj hadd).2
    exact paramQueueAdd_readable h (paramTable_id_lt hp) (paramWireValue_plain hp s) hfirst
      (.inl rfl)

/-! ## §3 Scanning -/

/-- `mpack_discard` skips a plain value as a whole. -/
theorem discard_value {mem : Mem} {r : MpackReader} {value : WireValue}
    (h : Sees mem r value.bytes) (hplain : WireValue.Plain value) :
    Moved r (discard mem r) value.bytes.length := by
  unfold discard mpackDiscard
  cases value with
  | num x =>
    obtain ⟨r', tag, hread, hnum, hmoved⟩ := readTag_num h hplain
    rw [hread]
    dsimp only
    rw [if_neg (not_not.mpr hmoved.error)]
    cases tag with
    | str l => exact hnum.elim
    | bin l => exact hnum.elim
    | array n => exact hnum.elim
    | map n => exact hnum.elim
    | _ => exact hmoved
  | str bs =>
    simp only [WireValue.bytes, List.length_append] at h ⊢
    obtain ⟨r', hread, hmoved⟩ := readTag_str h.take hplain
    rw [hread]
    dsimp only
    rw [if_neg (not_not.mpr hmoved.error)]
    exact hmoved.trans (skipBytes_moved (h.drop hmoved))
  | bin bs => exact hplain.elim
  | array xs => exact hplain.elim

/-- The header of an entry is read back with a node. -/
theorem paramDeserializeId_readable {mem : Mem} {r : MpackReader} {q : QueueState}
    {e : ResponseEntry} (he : e.Readable q.version)
    (hnode : q.version ≠ 1 → q.lastNode.isSome = true)
    (h : Sees mem r (headerBytes e.state e.ref)) :
    ∃ r' q' header, paramDeserializeId mem r q = (r', q', header) ∧
      settled false header = true ∧ q'.version = q.version ∧
      (q'.version ≠ 1 → q'.lastNode.isSome = true) ∧
      Moved r r' (headerBytes e.state e.ref).length := by
  have hid : e.ref.id < 65536 := lt_trans he.id (by norm_num)
  obtain ⟨r', hread, hmoved⟩ := paramDeserializeId_fields hid (fun _ => he.id) h he.version.symm
  have hversion := readState_version e.state q e.ref
  have hlast : q.version ≠ 1 → (readState e.state q e.ref).lastNode.isSome = true := by
    intro hv
    have hsome := hnode hv
    rw [← he.version] at hv
    simp only [readState, hv, if_false]
    split
    · rfl
    · exact hsome
  refine ⟨r', _, _, hread, ?_, hversion, fun hv => hlast (hversion ▸ hv), hmoved⟩
  by_cases hv : e.state.version = 1
  · simp [settled, hv]
  · have := hlast (he.version ▸ hv)
    simp [settled, hv, this]

/-- The scan of readable entries up to the end of the buffer. -/
theorem scanLoop_readable {mem : Mem} (serverAddr : Nat) (junk junk' : Junk) (p : Param)
    (fuel : Nat) {es : List ResponseEntry} {q : QueueState} {r : MpackReader}
    (hes : ∀ e ∈ es, e.Readable q.version) (hnode : q.version ≠ 1 → q.lastNode.isSome = true)
    (h : Sees mem r (es.flatMap ResponseEntry.bytes))
    (hend : r.end_ = r.data + (es.flatMap ResponseEntry.bytes).length) :
    let scanned := scanLoop mem serverAddr junk p fuel q r
    scanned = scanLoop mem serverAddr junk' p fuel q r ∧ scanned.1.version = q.version ∧
      (q.version ≠ 1 → scanned.1.lastNode.isSome = true) := by
  induction fuel generalizing es q r with
  | zero => exact ⟨rfl, rfl, hnode⟩
  | succ fuel ih =>
    unfold scanLoop
    split
    · exact ⟨rfl, rfl, hnode⟩
    · case isFalse hgo =>
      cases es with
      | nil =>
        simp only [List.flatMap_nil, List.length_nil, Nat.cast_zero, add_zero] at hend
        exact absurd (le_of_eq hend) hgo
      | cons e es =>
        rw [List.flatMap_cons, ResponseEntry.bytes, List.append_assoc] at h
        obtain ⟨r', q', header, hread, hsettled, hversion, hlast, hmoved⟩ :=
          paramDeserializeId_readable (hes e (by simp)) hnode h.take
        have hvalue := h.drop hmoved
        have hdiscard := discard_value hvalue.take (hes e (by simp)).value
        have hboth := hmoved.trans hdiscard
        rw [hread]
        dsimp only
        rw [locateLocal_settled hsettled serverAddr junk junk']
        split
        · exact ⟨rfl, hversion, fun hv => hlast (hversion ▸ hv)⟩
        · -- not this one: the rest of the response is behind its value
          have hrest : ∀ e' ∈ es, e'.Readable q'.version := by
            intro e' he'
            rw [hversion]
            exact hes e' (by simp [he'])
          rw [List.flatMap_cons, ResponseEntry.bytes, List.append_assoc] at hend
          have hend' := hdiscard.left (hmoved.left hend)
          obtain ⟨hsame, hver, hnode'⟩ := ih hrest hlast (hvalue.drop hdiscard) hend'
          exact ⟨hsame, hver.trans hversion, fun hv => hnode' (hversion ▸ hv)⟩

/-- A scan of a readable response does not depend on the locals, and the response stays
    readable. -/
theorem scanResponse_readable {queue : ParamQueue} (h : ReadableResponse queue) (serverAddr : Nat)
    (junk junk' : Junk) (p : Param) :
    scanResponse serverAddr junk p queue = scanResponse serverAddr junk' p queue ∧
      ReadableResponse (scanResponse serverAddr junk p queue).1 := by
  unfold scanResponse
  dsimp only
  -- in an empty response there is nothing to scan
  by_cases hempty : queue.buffer = []
  · have hnothing : ∀ junk, scanLoop (ofList 2 queue.buffer) serverAddr junk p
        queue.buffer.length queue.state (mpackReaderInitData 2 queue.buffer.length) =
        (queue.state, false) := by
      intro junk
      rw [hempty]
      rfl
    rw [hnothing, hnothing]
    exact ⟨rfl, h⟩
  · obtain ⟨es, hbuffer, hes⟩ := h.entries
    have hsees : Sees (ofList 2 queue.buffer) (mpackReaderInitData 2 queue.buffer.length)
        (es.flatMap ResponseEntry.bytes) := by
      rw [← hbuffer]
      exact sees_init (holds_ofList 2 queue.buffer) (h.length.trans_lt (by decide))
    have hend : (mpackReaderInitData 2 queue.buffer.length).end_ =
        (mpackReaderInitData 2 queue.buffer.length).data +
          (es.flatMap ResponseEntry.bytes).length := by
      rw [← hbuffer]
      rfl
    obtain ⟨hsame, hversion, hnode⟩ := scanLoop_readable serverAddr junk junk' p
      queue.buffer.length hes (h.node hempty) hsees hend
    refine ⟨by rw [hsame], h.type, h.size, h.length, ⟨es, hbuffer, ?_⟩, ?_⟩
    · rw [hversion]
      exact hes
    · intro _ hv
      exact hnode (hversion ▸ hv)

/-! ## §4 Pull requests -/

theorem locateLocal_mem {serverAddr : Nat} {junk : Junk} {header : Option Header} {p : Param}
    (h : locateLocal serverAddr junk header = some p) : p ∈ paramTable :=
  mem_of_paramListFindId h

/-- The pass over a settled pull request depends on its payload only. -/
theorem pullLoop_congr {limit : Int} {m m' : Mem} (hagree : AgreeOn m m' 0 limit) (env : Env)
    (request : CspId) (ackWithPull : Bool) (uninit uninit' : Uninit) (fuel : Nat) {q : QueueState}
    {r : MpackReader} {queue : ParamQueue} {s : State} (h : Within limit r)
    (hsettled : pullSettled m request.dst ackWithPull fuel q r = true)
    (hqueue : ackWithPull = true → ReadableResponse queue) :
    pullLoop env m request ackWithPull uninit fuel q r queue s =
      pullLoop env m' request ackWithPull uninit' fuel q r queue s := by
  induction fuel generalizing q r queue s with
  | zero => rfl
  | succ fuel ih =>
    have hid := h.checked (paramDeserializeId_checked' m q h.sane)
    unfold pullSettled at hsettled
    unfold pullLoop
    rw [← paramDeserializeId_congr hagree h]
    split
    · rfl
    · case isFalse hgo =>
      rw [if_neg hgo, Bool.and_eq_true] at hsettled
      obtain ⟨hheader, hrest⟩ := hsettled
      rcases hread : paramDeserializeId m r q with ⟨r', q', header⟩
      rw [hread] at hid hheader hrest
      dsimp only at hid hheader hrest ⊢
      -- the header is settled, so the locals do not matter for the lookup
      rw [locateLocal_settled hheader request.dst uninit.pull noJunk,
        locateLocal_settled hheader request.dst uninit'.pull noJunk]
      cases hloc : locateLocal request.dst noJunk header with
      | none =>
        simp only [hloc, Option.isSome_none, Bool.and_false, Bool.false_eq_true, if_false] at hrest
        exact ih hid hrest hqueue
      | some p =>
        have hp := locateLocal_mem hloc
        simp only [hloc, Option.isSome_some, Bool.and_true] at hrest
        cases ackWithPull with
        -- with an acknowledgement the response is scanned for the parameter first
        | true =>
          have hdiscard : Within limit (discard m r') := hid.checked (mpackDiscard_checked m _ r')
          obtain ⟨hscan, hreadable⟩ := scanResponse_readable (hqueue rfl) request.dst uninit.scan
            uninit'.scan p
          simp only [if_true] at hrest ⊢
          rw [← discard_congr hagree hid, ← hscan]
          rcases hfound : scanResponse request.dst uninit.scan p queue with ⟨queue1, _ | _⟩
          · rw [hfound] at hreadable
            dsimp only
            rcases hadd : add env s request queue1 p (-1) with ⟨s', _ | queue2⟩
            · rfl
            · exact ih hdiscard hrest fun _ => add_readable hp hreadable hadd
          · rw [hfound] at hreadable
            exact ih hdiscard hrest fun _ => hreadable
        | false =>
          simp only [Bool.false_eq_true, if_false] at hrest ⊢
          rcases add env s request queue p (headerOffset header) with ⟨s', _ | queue1⟩
          · rfl
          · exact ih hid hrest fun hack => absurd hack Bool.false_ne_true

end AppSysManager.Server
