import AppSysManager.Server.RoundTrip
import AppSysManager.Server.Runs

/-!
# Well-formed Pushes

Pushes that were put together with `param_queue_add`, and what serving them comes to.

- `PushEntry`: an assignment to a writable number parameter, or an id the node does not
  know with any MessagePack value.
- `Encodes`: the packets that carry a list of entries in one of the three forms of a push.
- `decodeLoop_entries`: the decoder finds the entries again.
- `paramServe_encoded`: serving the packet is `applyEntries`, and an acknowledgement if
  every id is known.
-/

namespace AppSysManager.Server

open AppSysManager.Bytes AppSysManager.Mpack AppSysManager.Node

variable {mapped : Nat}

/-! ## §1 Entries and their encoding -/

/-- The parameters a push is meant for: numbers that are not read-only. -/
structure Writable (p : Param) : Prop extends Scalar p where
  mask : p.mask &&& PM_READONLY = 0

/-- Every one of them has a callback. -/
theorem Writable.callback {p : Param} (h : Writable p) : ∃ c, p.callback = some c := by
  have hmask := h.mask
  have hname := h.name_ne
  rw [h.eq_param] at hmask hname ⊢
  cases hn : p.name with
  | switchM7Bin => rw [hn] at hmask; exact absurd hmask (by decide)
  | stdoutBuf => exact absurd (by rw [hn]; rfl) hname
  | _ => exact ⟨_, rfl⟩

/-- What an entry says: a value for a parameter of this node, or for an id that no parameter
    of this node has. -/
inductive PushBody where
  | assign (p : Param) (value : Nat)
  | unknown (id : Nat) (value : WireValue)

/-- An entry, with the node id and the timestamp its sender holds for the parameter. -/
structure PushEntry where
  node : Nat
  timestamp : Nat
  body : PushBody

/-- The header fields of an entry. -/
def PushEntry.ref (e : PushEntry) : ParamRef :=
  { id := match e.body with
      | .assign p _ => p.id
      | .unknown id _ => id
    node := e.node
    timestamp := e.timestamp }

/-- The value of an entry as it is written. -/
def PushEntry.value (e : PushEntry) : WireValue :=
  match e.body with
  | .assign p v => .num (numOf p.type v)
  | .unknown _ value => value

def PushEntry.isUnknown (e : PushEntry) : Bool :=
  match e.body with
  | .assign .. => false
  | .unknown .. => true

/-- A value in the range of the parameter's type, or an id without a parameter that the
    header of the version can carry. -/
def PushBody.Valid (version : Nat) : PushBody → Prop
  | .assign p v => Writable p ∧ v < 2 ^ (8 * p.type.size)
  | .unknown id value =>
    id < 65536 ∧ (version = 1 → id < 512) ∧ paramListFindId 0 id = none ∧ WireValue.Valid value

/-- An entry that can be put into a queue of the version. -/
structure PushEntry.Valid (version : Nat) (e : PushEntry) : Prop where
  node : e.node < 65536
  timestamp : e.timestamp < 2 ^ 32
  body : e.body.Valid version

/-- The three forms of a push request. -/
inductive PushKind where
  | v1
  | v2
  | hwid
  deriving DecidableEq, Repr

/-- The version of the queue in a push. -/
def PushKind.version : PushKind → Nat
  | .v1 => 1
  | .v2 => 2
  | .hwid => 2

/-- The packet type of a push. -/
def PushKind.type : PushKind → UInt8
  | .v1 => 2
  | .v2 => 7
  | .hwid => 33

/-- What follows the queue: the node's serial, as it lies in memory. -/
def PushKind.trailer (env : Env) : PushKind → List UInt8
  | .hwid => (List.range 4).map (byteLE env.serial.toNat)
  | _ => []

/-- Append all entries to a queue; `none` as soon as `param_queue_add` fails. -/
def addAll (queue : ParamQueue) : List PushEntry → Option ParamQueue
  | [] => some queue
  | e :: es =>
    match paramQueueAdd queue e.ref (-1) e.value with
    | (true, queue) => addAll queue es
    | (false, _) => none

/-- The packet carries the entries, put together with `param_queue_add` on a SET queue. -/
def Encodes (env : Env) (kind : PushKind) (entries : List PushEntry) (packet : CspPacket) :
    Prop :=
  ∃ bufferSize queue,
    addAll (paramQueueInit bufferSize .set kind.version) entries = some queue ∧
    packet.length = ([kind.type, 0] ++ queue.buffer ++ kind.trailer env).length ∧
    Holds packet.data 0 ([kind.type, 0] ++ queue.buffer ++ kind.trailer env)

/-- The bytes of a list of entries behind a serializer state. -/
def entriesBytes (q : QueueState) : List PushEntry → List UInt8
  | [] => []
  | e :: es => headerBytes q e.ref ++ e.value.bytes ++ entriesBytes (headerState q e.ref) es

/-- What `addAll` has written. -/
theorem addAll_ok {queue queue' : ParamQueue} {es : List PushEntry} (htype : queue.type = .set)
    (h : addAll queue es = some queue') :
    queue'.buffer = queue.buffer ++ entriesBytes (addState queue) es := by
  induction es generalizing queue with
  | nil =>
    obtain rfl := Option.some.inj h
    simp [entriesBytes]
  | cons e es ih =>
    rw [addAll] at h
    rcases hadd : paramQueueAdd queue e.ref (-1) e.value with ⟨_ | _, queue₁⟩
    · rw [hadd] at h
      cases h
    · rw [hadd] at h
      have hq := paramQueueAdd_ok htype hadd
      have hne : queue₁.buffer ≠ [] := by
        rw [hq]
        simp [headerBytes_ne_nil]
      have hstate : addState queue₁ = headerState (addState queue) e.ref := by
        rw [addState, if_neg hne, hq]
      rw [ih (by rw [hq]; exact htype) h, hstate, hq, entriesBytes]
      simp [List.append_assoc]

/-! ## §2 The decoder finds the entries -/

/-- The timestamp an entry is stored with. -/
def PushEntry.stampIn (version : Nat) (e : PushEntry) : Nat :=
  if version = 1 then 0 else e.timestamp

/-- The item is what the decoder makes of the entry. -/
def Decodes (version : Nat) (e : PushEntry) (item : Item) : Prop :=
  match e.body with
  | .assign p v => ∃ header start r, item = .known p header start [⟨0, .num v, r⟩] ∧
      headerTimestamp header = e.stampIn version
  | .unknown .. => item = .unknown

theorem PushEntry.Valid.ref_fits {version : Nat} {e : PushEntry} (h : e.Valid version) :
    e.ref.Fits version := by
  have hbody := h.body
  obtain ⟨node, timestamp, body⟩ := e
  cases body with
  | assign p v =>
    have hid : p.id < 512 := by
      rw [hbody.1.eq_param]
      cases p.name <;> decide
    exact ⟨lt_trans hid (by decide), fun _ => hid, h.node, h.timestamp⟩
  | unknown id value => exact ⟨hbody.1, hbody.2.1, h.node, h.timestamp⟩

/-- A push finds a parameter by its id, whatever node the entry names. -/
theorem locate_local (sender : Nat) (junk : Junk) (header : Header) :
    locate true sender junk (some header) = paramListFindId 0 header.id := by
  unfold locate
  dsimp only
  set node : Int := if (header.node.getD junk.lastNode : Int) = 0 then (sender : Int)
    else header.node.getD junk.lastNode with hnode
  have hnonneg : 0 ≤ node := by
    rw [hnode]
    split <;> omega
  rcases eq_or_lt_of_le hnonneg with hzero | hpos
  · rw [← hzero]
    cases hfind : paramListFindId 0 header.id with
    | none => exact hfind
    | some p => rfl
  · rw [paramListFindId_remote _ hpos]
    rfl

/-- One entry of the packet. -/
theorem readEntry_entry {mem : Mem} {r : MpackReader} {wq rq : QueueState} {e : PushEntry}
    (sender : Nat) (junk : Junk) (hvalid : e.Valid wq.version)
    (h : Sees mem r (headerBytes wq e.ref ++ e.value.bytes))
    (hversion : rq.version = wq.version) (hstamp : rq.lastTimestamp = wq.lastTimestamp) :
    ∃ rq' entry, readEntry mem true sender junk rq r = (rq', entry) ∧
      rq'.version = (headerState wq e.ref).version ∧
      rq'.lastTimestamp = (headerState wq e.ref).lastTimestamp ∧
      match e.body with
      | .assign p v => ∃ header r', entry = .found p (some header) r' ∧
          header.offset = -1 ∧ header.timestamp = e.stampIn wq.version ∧
          Moved r r' (headerBytes wq e.ref).length ∧ Sees mem r' (uintBytes v)
      | .unknown .. => ∃ r', entry = .skipped r' ∧
          Moved r r' (headerBytes wq e.ref ++ e.value.bytes).length := by
  obtain ⟨r₁, rq', header, hread, hmoved, hid, hoff, hts, hver, hlast⟩ :=
    paramDeserializeId_header hvalid.ref_fits h.take hversion hstamp
  have hsees := h.drop hmoved
  have hbody := hvalid.body
  have hloc := locate_local sender junk header
  obtain ⟨node, timestamp, body⟩ := e
  cases body with
  | assign p v =>
    -- the id of the header is the one under which the table has the parameter
    have hfind : paramListFindId 0 header.id = some p := by
      have hp := paramListFindId_param p.name
      rw [← hbody.1.eq_param] at hp
      rw [hid]
      exact hp
    have hnum : numOf p.type v = .uint v := by
      rcases hbody.1.layout.2.2.2 with ht | ht <;> rw [ht] <;> rfl
    refine ⟨rq', .found p (some header) r₁, ?_, hver, hlast, header, r₁, rfl, hoff, hts, hmoved, ?_⟩
    · unfold readEntry
      simp only [hread, hloc, hfind]
    · simpa [PushEntry.value, hnum, WireValue.bytes, WireNum.bytes] using hsees
  -- the decoder does not know the id: it reads the tag and skips what it announces
  | unknown id value =>
    have hfind : paramListFindId 0 header.id = none := by
      rw [hid]
      exact hbody.2.2.1
    obtain ⟨r₂, tag, htag, hok, hskip⟩ := skip_value hsees hbody.2.2.2
    refine ⟨rq', .skipped (skipUnknown mem tag r₂), ?_, hver, hlast, _, rfl, ?_⟩
    · unfold readEntry
      simp only [hread, hloc, hfind, htag, hok, ne_eq, not_true, if_false]
    · rw [List.length_append]
      exact hmoved.trans hskip

/-- The decoder finds every entry of the packet, and nothing else. -/
theorem decodeLoop_entries {mem : Mem} {r : MpackReader} {wq rq : QueueState}
    {es : List PushEntry} (sender : Nat) (junk : Junk) {fuel : Nat}
    (hvalid : ∀ e ∈ es, e.Valid wq.version) (h : Sees mem r (entriesBytes wq es))
    (hend : r.end_ = r.data + (entriesBytes wq es).length)
    (hversion : rq.version = wq.version) (hstamp : rq.lastTimestamp = wq.lastTimestamp)
    (hfuel : es.length ≤ fuel) :
    List.Forall₂ (Decodes wq.version) es
      (decodeLoop mapped mem (readEntry mem true sender junk) fuel rq r).items := by
  induction es generalizing wq rq r fuel with
  | nil =>
    have hle : r.end_ ≤ r.data := by simp [hend, entriesBytes]
    cases fuel with
    | zero => exact .nil
    | succ fuel =>
      rw [decodeLoop, if_pos hle]
      exact .nil
  | cons e es ih =>
    obtain ⟨fuel, rfl⟩ : ∃ k, fuel = k + 1 := ⟨fuel - 1, by simp at hfuel; omega⟩
    rw [entriesBytes] at h hend
    have hne := not_done_of_left hend (by simp [headerBytes_ne_nil])
    have hv := headerState_version wq e.ref
    have hrest : ∀ e' ∈ es, e'.Valid (headerState wq e.ref).version := by
      intro e' he'
      rw [hv]
      exact hvalid e' (by simp [he'])
    obtain ⟨rq', entry, hread, hver, hlast, hentry⟩ := readEntry_entry sender junk
      (hvalid e (by simp)) h.take hversion hstamp
    -- the rest of the packet, once this entry has been consumed
    have hcont : ∀ r', Moved r r' (headerBytes wq e.ref ++ e.value.bytes).length →
        List.Forall₂ (Decodes wq.version) es
          (decodeLoop mapped mem (readEntry mem true sender junk) fuel rq' r').items := by
      intro r' hm
      have := @ih r' (headerState wq e.ref) rq' fuel hrest (h.drop hm)
        (hm.left hend)
        hver hlast (by simp at hfuel; omega)
      rwa [hv] at this
    have hbody := (hvalid e (by simp)).body
    rw [decodeLoop, if_neg hne, hread]
    obtain ⟨node, timestamp, body⟩ := e
    cases body with
    | assign p v =>
      obtain ⟨header, r', rfl, hoff, hts, hm, hsees⟩ := hentry
      obtain ⟨r'', hdec, hm'⟩ := decodeParam_uint mapped hbody.1.toScalar hbody.2 hsees
      have hnum : numOf p.type v = .uint v := by
        rcases hbody.1.layout.2.2.2 with ht | ht <;> rw [ht] <;> rfl
      have hall : Moved r r'' (headerBytes wq (PushEntry.ref ⟨node, timestamp, .assign p v⟩) ++
          (PushEntry.value ⟨node, timestamp, .assign p v⟩).bytes).length := by
        simpa [PushEntry.value, hnum, WireValue.bytes, WireNum.bytes] using hm.trans hm'
      have hover : overruns [(⟨0, .num v, r''⟩ : Elem)] = false := rfl
      simp only [headerOffset, hoff, hdec, hover, Bool.false_eq_true, if_false]
      exact .cons ⟨some header, r', r'', rfl, hts⟩ (hcont r'' hall)
    | unknown id value =>
      obtain ⟨r', rfl, hm⟩ := hentry
      exact .cons rfl (hcont r' hm)

/-! ## §3 Assignments -/

/-- What an entry means: the timestamp, then the setter. -/
def PushEntry.apply (env : Env) (version : Nat) (s : State) (e : PushEntry) : State :=
  match e.body with
  | .assign p v => paramSet env (stamp s p (e.stampIn version)) p v
  | .unknown .. => s

/-- A list of entries, one after another. -/
def applyEntries (env : Env) (version : Nat) (s : State) (es : List PushEntry) : State :=
  es.foldl (PushEntry.apply env version) s

/-- Executing what was decoded is applying the entries. -/
theorem execItems_entries {version : Nat} {es : List PushEntry} {items : List Item}
    (h : List.Forall₂ (Decodes version) es items) (env : Env) (s : State) :
    execItems env s items = applyEntries env version s es ∧
      items.any Item.isUnknown = es.any PushEntry.isUnknown ∧
      items.any Item.isOverrun = false := by
  induction h generalizing s with
  | nil => exact ⟨rfl, rfl, rfl⟩
  | @cons e item es items hd _ ih =>
    obtain ⟨node, timestamp, body⟩ := e
    cases body with
    | assign p v =>
      obtain ⟨header, start, r, rfl, hts⟩ := hd
      obtain ⟨hexec, hunknown, hover⟩ :=
        ih ((Item.known p header start [⟨0, .num v, r⟩]).exec env s)
      refine ⟨?_, hunknown, hover⟩
      rw [execItems_cons, hexec, Item.exec, hts]
      rfl
    | unknown id value =>
      obtain rfl : item = .unknown := hd
      obtain ⟨hexec, -, hover⟩ := ih s
      exact ⟨hexec, rfl, hover⟩

/-- The length of the queue is enough fuel for its entries. -/
theorem length_le_entriesBytes (q : QueueState) (es : List PushEntry) :
    es.length ≤ (entriesBytes q es).length := by
  induction es generalizing q with
  | nil => exact le_refl _
  | cons e es ih =>
    have hpos := List.length_pos_of_ne_nil (headerBytes_ne_nil q e.ref)
    have hrest := ih (headerState q e.ref)
    simp only [entriesBytes, List.length_append, List.length_cons]
    omega

/-- How an encoded push is applied. -/
def PushKind.form (kind : PushKind) (used : Nat) : PushForm := ⟨used + 2, kind.version, true, true⟩

theorem PushKind.packetType_type (kind : PushKind) :
    packetType kind.type = match kind with
      | .v1 => .pushRequest
      | .v2 => .pushRequestV2
      | .hwid => .pushRequestV2Hwid := by
  cases kind <;> rfl

/-- The layout of an encoded push. -/
structure Layout (env : Env) (kind : PushKind) (es : List PushEntry) (packet : CspPacket)
    (bs : List UInt8) : Prop where
  bytes : ∃ q : QueueState, q.version = kind.version ∧ q.lastTimestamp = 0 ∧
    bs = entriesBytes q es
  type : packet.data 0 = kind.type
  flag : packet.data 1 = 0
  holds : Holds packet.data 2 bs
  length : packet.length = bs.length + 2 + (kind.trailer env).length
  trailer : Holds packet.data (2 + bs.length) (kind.trailer env)

theorem Encodes.layout {env : Env} {kind : PushKind} {es : List PushEntry} {packet : CspPacket}
    (h : Encodes env kind es packet) : ∃ bs, Layout env kind es packet bs := by
  obtain ⟨bufferSize, queue, hadd, hlen, hholds⟩ := h
  have hbuf := addAll_ok (by rfl) hadd
  rw [List.append_assoc, holds_append, holds_append] at hholds
  obtain ⟨⟨htype, hflag, -⟩, hqueue, htrailer⟩ := hholds
  refine ⟨queue.buffer, ⟨⟨_, rfl, rfl, by simpa [paramQueueInit] using hbuf⟩, htype, hflag, hqueue,
    ?_, htrailer⟩⟩
  rw [hlen]
  simp only [List.length_append, List.length_cons, List.length_nil]
  omega

/-- The hwid of an encoded push is the node's serial. -/
theorem Layout.hwid {env : Env} {es : List PushEntry} {packet : CspPacket} {bs : List UInt8}
    (h : Layout env .hwid es packet bs) : hwidOf packet.data packet.length = env.serial.toNat := by
  have hlen : (packet.length : Int) - 4 = 2 + bs.length := by
    have := h.length
    simp only [PushKind.trailer, List.length_map, List.length_range] at this
    omega
  have hbytes : ∀ k < 4, packet.data ((packet.length : Int) - 4 + ((0 + k : Nat) : Int)) =
      byteLE env.serial.toNat k := by
    intro k hk
    have := (holds_iff_getD _ _ _).mp h.trailer k (by simpa [PushKind.trailer] using hk)
    rw [hlen, Nat.zero_add, this]
    simp [PushKind.trailer, hk]
  rw [hwidOf, loadLE_byteLE hbytes]
  exact Nat.mod_eq_of_lt env.serial.toNat_lt

theorem Layout.pushForm {env : Env} {kind : PushKind} {es : List PushEntry} {packet : CspPacket}
    {bs : List UInt8} (h : Layout env kind es packet bs) :
    Server.pushForm env packet = some (kind.form bs.length) := by
  have hlen := h.length
  have hle := packet.length_le
  unfold Server.pushForm
  rw [h.type, kind.packetType_type]
  cases kind with
  | v1 =>
    dsimp only
    rw [hlen]
    rfl
  | v2 =>
    dsimp only
    rw [hlen]
    rfl
  | hwid =>
    have hstrip : stripHwid packet.length = bs.length + 2 := by
      simp only [PushKind.trailer, List.length_map, List.length_range] at hlen
      unfold stripHwid
      unfold CSP_BUFFER_SIZE at hle
      omega
    simp only [hwidAccepted, h.hwid, true_or, decide_true, if_true, hstrip]
    rfl

/-- The entries of an encoded push are the entries it was made from. -/
theorem Layout.items {env : Env} {kind : PushKind} {es : List PushEntry} {packet : CspPacket}
    {bs : List UInt8} (h : Layout env kind es packet bs)
    (hvalid : ∀ e ∈ es, e.Valid kind.version) (uninit : Uninit) :
    List.Forall₂ (Decodes kind.version) es (packetItems env packet uninit) := by
  obtain ⟨q, hversion, hstamp, hbytes⟩ := h.bytes
  have hle := packet.length_le
  have hlen := h.length
  unfold CSP_BUFFER_SIZE at hle
  have hused : usedOf (bs.length + 2) = bs.length := by unfold usedOf; omega
  rw [packetItems_of_pushForm h.pushForm, PushForm.items, PushForm.decode, decodeQueue]
  simp only [PushKind.form, hused]
  rw [← hversion]
  have hsees : Sees packet.data (mpackReaderInitData 2 bs.length) (entriesBytes q es) := by
    rw [← hbytes]
    exact sees_init h.holds (by omega)
  refine decodeLoop_entries _ _ ?_ hsees ?_ rfl ?_ ?_
  · rw [hversion]
    exact hvalid
  · rw [← hbytes]
    rfl
  · rw [hstamp]
    rfl
  · rw [hbytes]
    exact length_le_entriesBytes q es

/-- The answer to an encoded push: an acknowledgement unless an id was unknown. -/
def answerEntries (id : CspId) (es : List PushEntry) (s : State) : State :=
  if es.any PushEntry.isUnknown then s else cspSendtoReply s id pushResponse

/-- Serving an encoded push is applying its entries and answering. -/
theorem paramServe_encoded {env : Env} {kind : PushKind} {es : List PushEntry}
    {packet : CspPacket} (h : Encodes env kind es packet)
    (hvalid : ∀ e ∈ es, e.Valid kind.version) (uninit : Uninit) {s : State}
    (hs : s.dead = false) :
    ∃ top length, paramServe env packet uninit s =
      answerEntries packet.id es
        ((applyEntries env kind.version (prologue packet s) es).emit (.fetch 2 top length)) := by
  obtain ⟨bs, hlayout⟩ := h.layout
  obtain ⟨hexec, hunknown, hover⟩ :=
    execItems_entries (hlayout.items hvalid uninit) env (prologue packet s)
  refine ⟨((kind.form bs.length).decode env.mapped packet uninit).reader.top,
    (kind.form bs.length).length, ?_⟩
  have hflag : ¬ packet.data 1 = 1 := by
    rw [hlayout.flag]
    decide
  have hack : (kind.form bs.length).sendAck = true := rfl
  rw [paramServe_eq hlayout.pushForm uninit hs, hexec]
  simp only [pushAnswer, answerEntries, hunknown, hover, hflag, hack, Bool.false_eq_true,
    Bool.true_eq_false, or_false, if_false]

end AppSysManager.Server
