import AppSysManager.Server.Contents
import AppSysManager.Server.Runs

/-!
# Answers to Pull Requests

A pull request lists ids, put together with `param_queue_add` on a GET queue, or asks for all
parameters that meet two masks.  It is answered with as many responses as it takes, and a
client that decodes them one after another finds the parameters it asked for, in order.

- `PullBody`, `EncodedIn`: what is asked for, and the packets that ask for it.
- `requested`: the parameter that an id of a request stands for.  The header of version 1 has
  room for 9 bits of the id and 5 bits of the node.
- `pulls_answered`: every request is answered with the parameters it stands for.
- `farAddress_unanswered`: a V1 request that names an own address of more than 5 bits is not.
-/

namespace AppSysManager.Server

open AppSysManager.Bytes AppSysManager.Mpack AppSysManager.Node

/-! ## §1 Requests -/

/-- The two forms of a pull request. -/
inductive PullVersion where
  | v1
  | v2
  deriving DecidableEq, Repr

/-- The version of the queue in a request. -/
def PullVersion.number : PullVersion → Nat
  | .v1 => 1
  | .v2 => 2

theorem PullVersion.number_cases (version : PullVersion) :
    version.number = 1 ∨ version.number = 2 := by
  cases version with
  | v1 => exact .inl rfl
  | v2 => exact .inr rfl

/-- What a pull request asks for: parameters without an index, or all that meet the masks. -/
inductive PullBody where
  | ids (refs : List ParamRef)
  | all (includeMask excludeMask : Nat)

/-- The packet type of a request. -/
def PullBody.type (version : PullVersion) : PullBody → UInt8
  | .ids _ => match version with
    | .v1 => 0
    | .v2 => 5
  | .all .. => match version with
    | .v1 => 4
    | .v2 => 8

/-- The argument `all` of `param_serve_pull_request`. -/
def PullBody.isAll : PullBody → Bool
  | .ids _ => false
  | .all .. => true

/-- Append all ids to a GET queue, which takes no values; `none` as soon as `param_queue_add`
    fails. -/
def addIds (queue : ParamQueue) : List ParamRef → Option ParamQueue
  | [] => some queue
  | ref :: refs =>
    match paramQueueAdd queue ref (-1) (.bin []) with
    | (true, queue) => addIds queue refs
    | (false, _) => none

/-- The packet carries the request, with 0 in its second byte. -/
def PullBody.EncodedIn (version : PullVersion) (packet : CspPacket) : PullBody → Prop
  | .ids refs => ∃ bufferSize queue,
      addIds (paramQueueInit bufferSize .get version.number) refs = some queue ∧
      packet.length = ([(PullBody.ids refs).type version, 0] ++ queue.buffer).length ∧
      Holds packet.data 0 ([(PullBody.ids refs).type version, 0] ++ queue.buffer)
  | .all includeMask excludeMask => packet.length = 12 ∧
      Holds packet.data 0 [(PullBody.all includeMask excludeMask).type version, 0] ∧
      loadBE packet.data 4 4 = includeMask ∧ loadBE packet.data 8 4 = excludeMask

/-- The ids are 16-bit numbers, known or not, of the node 0 or the own address. -/
def PullBody.Valid (own : Nat) : PullBody → Prop
  | .ids refs => ∀ ref ∈ refs, ref.id < 65536 ∧ (ref.node = 0 ∨ ref.node = own)
  | .all .. => True

/-- The id a header carries. -/
def carriedId (version : Nat) (ref : ParamRef) : Nat :=
  if version = 1 then ref.id % 512 else ref.id

/-- The node a header carries. -/
def carriedNode (version : Nat) (ref : ParamRef) : Nat :=
  if version = 1 then ref.node % 32 else ref.node

/-- The parameter an id of a request stands for. -/
def requested (version : PullVersion) (own : Nat) (ref : ParamRef) : Option Param :=
  if carriedNode version.number ref = 0 ∨ carriedNode version.number ref = own then
    knownParam (carriedId version.number ref)
  else none

/-- The parameters a request asks for, in the order of the request or of the `param` section. -/
def PullBody.wanted (table : List Param) (version : PullVersion) (own : Nat) : PullBody → List Param
  | .ids refs => refs.filterMap (requested version own)
  | .all includeMask excludeMask => table.filter fun p =>
      decide (p.mask &&& includeMask ≠ 0 ∧ (version = .v2 → p.mask &&& excludeMask = 0))

/-! ## §2 Answers -/

/-- No parameter has changed and no callback has run, and the requester got one or more
    packets of at most 202 bytes that decode, one after another, to the answers.  The last of
    them carries `PARAM_FLAG_END`, and no other does. -/
structure Answered (request : CspId) (s s' : State) (answers : List Answer) : Prop where
  ram : s'.ram = s.ram
  vmemConfigBuf : s'.vmemConfigBuf = s.vmemConfigBuf
  timestamp : s'.timestamp = s.timestamp
  events : ∃ evs, s'.trace = s.trace ++ evs ∧ (∀ p v, .callback p v ∉ evs) ∧
    ∃ parts last, repliesIn evs = (parts ++ [last]).map (fun data => (replyId request, data)) ∧
      (∀ data ∈ parts ++ [last], data.length ≤ 202) ∧
      (∀ data ∈ parts, carriesEnd data = false) ∧ carriesEnd last = true ∧
      ((parts ++ [last]).mapM decodeResponse).map List.flatten = some answers

/-- The responses in the middle decode one after another. -/
theorem decodeResponse_parts {parts : List (List UInt8 × List Answer)}
    (h : ∀ part ∈ parts, IsPart part.1 part.2) :
    (parts.map Prod.fst).mapM decodeResponse = some (parts.map Prod.snd) := by
  induction parts with
  | nil => rfl
  | cons part parts ih =>
    have hfirst := (h part List.mem_cons_self).decode
    have hrest := ih fun part hmem => h part (List.mem_cons_of_mem _ hmem)
    simp [hfirst, hrest]

/-- The last response completes the answer. -/
theorem Answering.send {request : CspId} {version : Nat} (hversion : version = 1 ∨ version = 2)
    {s s' : State} {queue : ParamQueue} {answers : List Answer}
    (h : Answering request version s s' queue answers) :
    Answered request s (send s' request queue true) answers := by
  obtain ⟨-, parts, rest, hsent, hparts, hcarries, rfl⟩ := h
  obtain ⟨buffers, evs, hevs, hreplies, heq⟩ := hsent.trans (Sent.send request s' queue true)
  rw [heq]
  have hlast := decodeResponse_contents hversion hcarries.contents hcarries.length PARAM_FLAG_END
  have hdecode := decodeResponse_parts hparts
  refine ⟨rfl, rfl, rfl, evs, rfl, ?_, parts.map Prod.fst, _, hreplies, ?_, ?_, ?_, ?_⟩
  · intro p v hmem
    exact (hevs _ hmem).elim
  · intro data hdata
    rcases List.mem_append.mp hdata with hdata | hdata
    · obtain ⟨part, hmem, rfl⟩ := List.mem_map.mp hdata
      exact (hparts part hmem).length
    · rw [List.mem_singleton.mp hdata]
      exact Nat.add_le_add_right hcarries.length 2
  · intro data hdata
    obtain ⟨part, hmem, rfl⟩ := List.mem_map.mp hdata
    exact (hparts part hmem).flag
  · simp [carriesEnd, PARAM_FLAG_END]
  · rw [hcarries.version]
    simp [hdecode, hlast, List.flatMap]

/-! ## §3 Lists of ids -/

/-- The bytes of a list of ids behind a serializer state. -/
def idsBytes (q : QueueState) : List ParamRef → List UInt8
  | [] => []
  | ref :: refs => headerBytes q ref ++ idsBytes (headerState q ref) refs

/-- A successful append to a GET queue writes the header. -/
theorem paramQueueAdd_get {queue queue' : ParamQueue} {ref : ParamRef} {value : WireValue}
    (htype : queue.type = .get) (h : paramQueueAdd queue ref (-1) value = (true, queue')) :
    queue' = { queue with
      buffer := queue.buffer ++ headerBytes (addState queue) ref
      state := headerState (addState queue) ref } := by
  unfold paramQueueAdd at h
  simp only [htype] at h
  rw [← addState] at h
  split at h
  · cases h
  · case isFalse hok =>
    obtain ⟨-, heq⟩ := paramSerializeId_ok (not_not.mp hok)
    rw [heq] at h
    rw [htype]
    exact (Prod.mk.inj h).2.symm

/-- What `addIds` has written. -/
theorem addIds_ok {queue queue' : ParamQueue} {refs : List ParamRef} (htype : queue.type = .get)
    (h : addIds queue refs = some queue') :
    queue'.buffer = queue.buffer ++ idsBytes (addState queue) refs := by
  induction refs generalizing queue with
  | nil =>
    obtain rfl := Option.some.inj h
    simp [idsBytes]
  | cons ref refs ih =>
    rw [addIds] at h
    rcases hadd : paramQueueAdd queue ref (-1) (.bin []) with ⟨_ | _, queue₁⟩
    · rw [hadd] at h
      cases h
    · rw [hadd] at h
      have hq := paramQueueAdd_get htype hadd
      have hne : queue₁.buffer ≠ [] := by
        rw [hq]
        simp [headerBytes_ne_nil]
      have hstate : addState queue₁ = headerState (addState queue) ref := by
        rw [addState, if_neg hne, hq]
      rw [ih (by rw [hq]; exact htype) h, hstate, hq, idsBytes]
      simp [List.append_assoc]

/-- Version 1 writes the low-order bits of an id. -/
theorem headerBytes_carried {q : QueueState} (hv : q.version = 1) (ref : ParamRef) :
    headerBytes q { ref with id := ref.id % 512 } = headerBytes q ref := by
  simp [headerBytes, hv, paramGetShortId]

/-- The header of an id is read back as what it carries. -/
theorem paramDeserializeId_request {mem : Mem} {r : MpackReader} {wq rq : QueueState}
    {ref : ParamRef} (hid : ref.id < 65536) (hnode : ref.node < 0xffff) (hsame : SameNode wq rq)
    (h : Sees mem r (headerBytes wq ref)) :
    ∃ r' rq' header, paramDeserializeId mem r rq = (r', rq', some header) ∧
      header.id = carriedId wq.version ref ∧
      header.node = some (carriedNode wq.version ref) ∧ header.offset = -1 ∧
      SameNode (headerState wq ref) rq' ∧ Moved r r' (headerBytes wq ref).length := by
  by_cases hv : wq.version = 1
  · -- one word, which is all there is to remember
    rw [← headerBytes_carried hv] at h ⊢
    have hlow : ref.id % 512 < 512 := Nat.mod_lt _ (by norm_num)
    obtain ⟨r', hread, hmoved⟩ := paramDeserializeId_fields (by dsimp only; omega)
      (fun _ => hlow) h hsame.1
    refine ⟨r', _, _, hread, ?_, ?_, rfl, ?_, hmoved⟩
    · simp [carriedId, hv]
    · simp [carriedNode, hv]
    · simpa [readState, headerState, hv] using hsame
  · obtain ⟨r', hread, hmoved⟩ := paramDeserializeId_fields hid (fun hv' => absurd hv' hv) h
      hsame.1
    refine ⟨r', _, _, hread, ?_, ?_, rfl, hsame.next hv hnode, hmoved⟩
    · simp [carriedId, hv]
    · simp [carriedNode, hv, hsame.lastNode hv hnode]

theorem mem_of_requested {version : PullVersion} {own : Nat} {ref : ParamRef} {p : Param}
    (h : requested version own ref = some p) : p ∈ paramTable := by
  unfold requested knownParam at h
  split at h
  · exact List.mem_of_find?_eq_some h
  · cases h

/-- The buffers from the one at hand on that a number of answers may take. -/
def EnoughBuffers (env : Env) (s : State) (count : Nat) : Prop :=
  ∀ k ≤ count, env.cspBufferGet (s.buffers + k) = true

/-- There is a buffer for the next answer. -/
theorem Answering.buffer {env : Env} {request : CspId} {version count : Nat} {s s' : State}
    {queue : ParamQueue} {answers : List Answer}
    (h : Answering request version s s' queue answers) (henough : EnoughBuffers env s count)
    (hcount : answers.length < count) : env.cspBufferGet s'.buffers = true := by
  obtain ⟨⟨hlow, hhigh⟩, -⟩ := h
  have hk := henough (s'.buffers - s.buffers) (by omega)
  rwa [Nat.add_sub_cancel' hlow] at hk

/-- The loop over a list of ids answers them one by one. -/
theorem pullLoop_ids {env : Env} {mem : Mem} {request : CspId} {uninit : Uninit}
    {version : PullVersion} {s₀ : State} {count : Nat} (henough : EnoughBuffers env s₀ count)
    {refs : List ParamRef} (hrefs : ∀ ref ∈ refs, ref.id < 65536 ∧ ref.node < 0xffff)
    {fuel : Nat} (hfuel : refs.length ≤ fuel) {wq rq : QueueState} {r : MpackReader}
    (hversion : wq.version = version.number) (hsame : SameNode wq rq)
    (hsees : Sees mem r (idsBytes wq refs)) (hend : r.end_ = r.data + (idsBytes wq refs).length)
    {queue : ParamQueue} {s : State} {answers : List Answer}
    (hcount : answers.length + (refs.filterMap (requested version request.dst)).length ≤ count)
    (h : Answering request version.number s₀ s queue answers) :
    ∃ r' queue' s', pullLoop env mem request false uninit fuel rq r queue s =
        ⟨r', some queue', s'⟩ ∧
      Answering request version.number s₀ s' queue'
        (answers ++ (refs.filterMap (requested version request.dst)).map (answerOf s₀)) := by
  induction refs generalizing fuel wq rq r queue s answers with
  | nil =>
    have hdone : r.end_ ≤ r.data := by
      rw [hend]
      simp [idsBytes]
    refine ⟨r, queue, s, ?_, by simpa using h⟩
    cases fuel <;> simp [pullLoop, hdone]
  | cons ref refs ih =>
    obtain ⟨fuel, rfl⟩ : ∃ n, fuel = n + 1 := ⟨fuel - 1, by simp at hfuel; omega⟩
    obtain ⟨hid, hnode⟩ := hrefs ref List.mem_cons_self
    rw [idsBytes] at hsees hend
    have hmore := not_done_of_left hend (headerBytes_ne_nil wq ref)
    obtain ⟨r₁, rq₁, header, hread, hheader, hcarried, hoffset, hsame₁, hmoved⟩ :=
      paramDeserializeId_request hid hnode hsame hsees.take
    have hend₁ := hmoved.left hend
    -- the lookup finds what the header stands for, which is what the entry requests
    have hlocate : locateLocal request.dst uninit.pull (some header) =
        requested version request.dst ref := by
      rw [locateLocal_node _ _ hcarried, hheader, hversion, requested]
    -- the loop goes on behind the header, with an answer more or with none
    have hnext := @ih (fun ref hmem => hrefs ref (List.mem_cons_of_mem _ hmem)) fuel
      (by simpa using hfuel) (headerState wq ref) rq₁ r₁
      ((headerState_version wq ref).trans hversion) hsame₁ (hsees.drop hmoved) hend₁
    rw [pullLoop, if_neg hmore, hread]
    dsimp only
    rw [hlocate]
    cases hrequested : requested version request.dst ref with
    | none =>
      rw [List.filterMap_cons_none hrequested] at hcount ⊢
      exact hnext hcount h
    | some p =>
      rw [List.filterMap_cons_some hrequested] at hcount ⊢
      rw [List.length_cons] at hcount
      obtain ⟨s₁, queue₁, hadd, h₁⟩ := add_answering version.number_cases h
        (h.buffer henough (by omega)) (mem_of_requested hrequested)
      simp only [Bool.false_eq_true, if_false, headerOffset, hoffset, hadd]
      obtain ⟨r', queue', s', hloop, hanswers⟩ := hnext
        (by rw [List.length_append, List.length_singleton]; omega) h₁
      exact ⟨r', queue', s', hloop, by simpa using hanswers⟩

/-! ## §4 Pull all -/

/-- The loop over the table answers with the parameters that meet the masks. -/
theorem pullAllLoop_masks {env : Env} {request : CspId} {version : PullVersion} {s₀ : State}
    {count : Nat} (henough : EnoughBuffers env s₀ count) (includeMask excludeMask : Nat)
    {ps : List Param} (hps : ∀ p ∈ ps, p ∈ paramTable) {queue : ParamQueue} {s : State}
    {answers : List Answer}
    (hcount : answers.length + (ps.filter fun p =>
      decide (p.mask &&& includeMask ≠ 0 ∧ p.mask &&& excludeMask = 0)).length ≤ count)
    (h : Answering request version.number s₀ s queue answers) :
    ∃ queue' s', pullAllLoop env request includeMask excludeMask ps queue s = (s', some queue') ∧
      Answering request version.number s₀ s' queue' (answers ++ (ps.filter fun p =>
        decide (p.mask &&& includeMask ≠ 0 ∧ p.mask &&& excludeMask = 0)).map (answerOf s₀)) := by
  induction ps generalizing queue s answers with
  | nil => exact ⟨queue, s, rfl, by simpa using h⟩
  | cons p ps ih =>
    have hrest : ∀ p ∈ ps, p ∈ paramTable := fun p hmem => hps p (List.mem_cons_of_mem _ hmem)
    unfold pullAllLoop
    by_cases hinclude : p.mask &&& includeMask = 0
    · rw [if_pos hinclude]
      rw [List.filter_cons_of_neg (by simp [hinclude])] at hcount ⊢
      exact ih hrest hcount h
    · rw [if_neg hinclude]
      by_cases hexclude : p.mask &&& excludeMask = 0
      · rw [if_neg (not_not.mpr hexclude)]
        rw [List.filter_cons_of_pos (by simp [hinclude, hexclude])] at hcount ⊢
        rw [List.length_cons] at hcount
        obtain ⟨s₁, queue₁, hadd, h₁⟩ := add_answering version.number_cases h
          (h.buffer henough (by omega)) (hps p List.mem_cons_self)
        rw [hadd]
        obtain ⟨queue', s', hloop, hanswers⟩ := ih hrest
          (by rw [List.length_append, List.length_singleton]; omega) h₁
        exact ⟨queue', s', hloop, by simpa using hanswers⟩
      · rw [if_pos hexclude]
        rw [List.filter_cons_of_neg (by simp [hexclude])] at hcount ⊢
        exact ih hrest hcount h

/-- The exclude mask of a request in force: version 1 has none. -/
theorem wanted_all (table : List Param) (version : PullVersion)
    (own includeMask excludeMask : Nat) :
    (PullBody.all includeMask excludeMask).wanted table version own = table.filter fun p =>
      decide (p.mask &&& includeMask ≠ 0 ∧
        p.mask &&& (if 2 ≤ version.number then excludeMask else 0) = 0) := by
  unfold PullBody.wanted
  apply List.filter_congr
  intro p _
  cases version with
  | v1 => simp [PullVersion.number]
  | v2 => simp [PullVersion.number]

/-! ## §5 Every request is answered -/

theorem Answering.fetch {request : CspId} {version : Nat} {s s' : State} {queue : ParamQueue}
    {answers : List Answer} (h : Answering request version s s' queue answers) (lo hi : Int)
    (length : Nat) : Answering request version s (s'.emit (.fetch lo hi length)) queue answers := by
  obtain ⟨hbuffers, parts, rest, hsent, hrest⟩ := h
  refine ⟨hbuffers, parts, rest, ?_, hrest⟩
  simpa using hsent.trans (Sent.fetch request s' lo hi length)

/-- The first buffer. -/
theorem Answering.start (request : CspId) (env : Env) (s : State) (version : Nat) :
    Answering request version s (allocate env s version).1
      (paramQueueInit PARAM_SERVER_MTU .set version) [] := by
  refine ⟨⟨Nat.le_succ _, le_refl _⟩, [], [], Sent.allocate request env s version, by simp,
    paramQueueInit_carries version, rfl⟩

theorem length_le_idsBytes (q : QueueState) (refs : List ParamRef) :
    refs.length ≤ (idsBytes q refs).length := by
  induction refs generalizing q with
  | nil => simp
  | cons ref refs ih =>
    have := List.length_pos_iff.mpr (headerBytes_ne_nil q ref)
    have := ih (headerState q ref)
    rw [idsBytes, List.length_cons, List.length_append]
    omega

/-- A request for a list of ids. -/
theorem paramServePullRequest_ids {env : Env} {version : PullVersion} {refs : List ParamRef}
    {packet : CspPacket} (hrefs : ∀ ref ∈ refs, ref.id < 65536 ∧ ref.node < 0xffff)
    (h : (PullBody.ids refs).EncodedIn version packet) (uninit : Uninit) (s : State)
    (henough : EnoughBuffers env s (refs.filterMap (requested version packet.id.dst)).length) :
    Answered packet.id s
      (paramServePullRequest env packet.data packet.id packet.length false version.number uninit s)
      ((refs.filterMap (requested version packet.id.dst)).map (answerOf s)) := by
  obtain ⟨bufferSize, queue, hadd, hlength, hholds⟩ := h
  -- the bytes of the request are the headers of its ids
  have hbuffer : queue.buffer = idsBytes ⟨version.number, some 0xffff, 0⟩ refs :=
    addIds_ok (by rfl) hadd
  rw [holds_append] at hholds
  obtain ⟨⟨-, hflag, -⟩, hqueue⟩ := hholds
  have hused : usedOf packet.length = queue.buffer.length := by
    have hle := packet.length_le
    rw [hlength] at hle ⊢
    simp only [List.length_append, List.length_cons, List.length_nil, CSP_BUFFER_SIZE] at hle ⊢
    unfold usedOf
    omega
  have hsees : Sees packet.data (mpackReaderInitData 2 queue.buffer.length)
      (idsBytes ⟨version.number, some 0xffff, 0⟩ refs) := by
    rw [← hbuffer]
    have hle := packet.length_le
    rw [hlength] at hle
    simp only [List.length_append, CSP_BUFFER_SIZE] at hle
    exact sees_init (by simpa using hqueue) (by omega)
  have hfuel : refs.length ≤ queue.buffer.length := by
    rw [hbuffer]
    exact length_le_idsBytes _ refs
  have hend : (mpackReaderInitData 2 queue.buffer.length).end_ =
      (mpackReaderInitData 2 queue.buffer.length).data +
        (idsBytes ⟨version.number, some 0xffff, 0⟩ refs).length := by
    rw [← hbuffer]
    rfl
  -- client and server start with the same idea of the last node
  have hsame : SameNode ⟨version.number, some 0xffff, 0⟩ (queueStateInit version.number) :=
    ⟨rfl, .inr rfl⟩
  have hstart := Answering.start packet.id env s version.number
  obtain ⟨r', queue', s', hloop, hanswering⟩ :
      ∃ r' queue' s', pullLoop env packet.data packet.id false uninit queue.buffer.length
          (queueStateInit version.number) (mpackReaderInitData 2 queue.buffer.length)
          (paramQueueInit PARAM_SERVER_MTU .set version.number)
          (allocate env s version.number).1 = ⟨r', some queue', s'⟩ ∧
        Answering packet.id version.number s s' queue'
          ([] ++ (refs.filterMap (requested version packet.id.dst)).map (answerOf s)) :=
    pullLoop_ids henough hrefs hfuel rfl hsame hsees hend (by simp) hstart
  -- the flag byte of a plain pull is 0
  have hack : decide (packet.data 1 = 1) = false := by
    have hzero : packet.data 1 = 0 := hflag
    rw [hzero]
    rfl
  unfold paramServePullRequest
  rw [allocate_some (henough 0 (Nat.zero_le _)), hack, hused]
  simp only [Bool.false_eq_true, if_false, hloop]
  exact (hanswering.fetch _ _ _).send version.number_cases

/-- A request for all parameters. -/
theorem paramServePullRequest_all {env : Env} {version : PullVersion}
    {includeMask excludeMask : Nat} {packet : CspPacket}
    (h : (PullBody.all includeMask excludeMask).EncodedIn version packet) (uninit : Uninit)
    (s : State) (henough : EnoughBuffers env s
      ((PullBody.all includeMask excludeMask).wanted env.section_ version packet.id.dst).length) :
    Answered packet.id s
      (paramServePullRequest env packet.data packet.id packet.length true version.number uninit s)
      (((PullBody.all includeMask excludeMask).wanted env.section_ version packet.id.dst).map
        (answerOf s)) := by
  obtain ⟨-, -, hinclude, hexclude⟩ := h
  rw [wanted_all] at henough ⊢
  have hstart := (Answering.start packet.id env s version.number).fetch 4
    (if 2 ≤ version.number then 12 else 8) packet.length
  obtain ⟨queue', s', hloop, hanswering⟩ := pullAllLoop_masks henough includeMask
    (if 2 ≤ version.number then excludeMask else 0) (fun p hp => env.section_perm.mem_iff.mp hp)
    (by simp)
    hstart
  unfold paramServePullRequest
  rw [allocate_some (henough 0 (Nat.zero_le _)), hinclude, hexclude]
  simp only [if_true, hloop]
  exact hanswering.send version.number_cases

/-- The case of `param_serve` for a request. -/
theorem paramServe_pull (env : Env) {version : PullVersion} {body : PullBody} {packet : CspPacket}
    (h : packet.data 0 = body.type version) (uninit : Uninit) (s : State) :
    paramServe env packet uninit s = paramServePullRequest env packet.data packet.id packet.length
      body.isAll version.number uninit s := by
  unfold paramServe
  dsimp only
  rw [h]
  cases body <;> cases version <;> rfl

/-- Every pull request is answered with the parameters it asks for, as far as its headers can
    say what that is. -/
theorem pulls_answered {env : Env} {version : PullVersion} {body : PullBody} {packet : CspPacket}
    (hdst : packet.id.dst ≤ maxNodeid) (hbody : body.Valid packet.id.dst)
    (h : body.EncodedIn version packet) (uninit : Uninit) {s : State}
    (henough : EnoughBuffers env s (body.wanted env.section_ version packet.id.dst).length) :
    Answered packet.id s (paramServe env packet uninit s)
      ((body.wanted env.section_ version packet.id.dst).map (answerOf s)) := by
  cases body with
  | ids refs =>
    have hrefs : ∀ ref ∈ refs, ref.id < 65536 ∧ ref.node < 0xffff := by
      intro ref hmem
      obtain ⟨hid, hnode⟩ := hbody ref hmem
      have hmax : maxNodeid < 0xffff := by decide
      exact ⟨hid, by omega⟩
    have hserve := paramServePullRequest_ids hrefs h uninit s henough
    obtain ⟨-, queue, -, -, htype, -⟩ := h
    rw [paramServe_pull env htype]
    exact hserve
  | all includeMask excludeMask =>
    have hserve := paramServePullRequest_all h uninit s henough
    obtain ⟨-, ⟨htype, -⟩, -⟩ := h
    rw [paramServe_pull env htype]
    exact hserve

/-- `mng_camera_control` at the own address, an id that nobody has, and the log twice. -/
def cameraAndLog : List ParamRef :=
  [⟨33, 21, 0⟩, ⟨999, 0, 0⟩, ⟨41, 0, 7⟩, ⟨41, 0, 7⟩]

/-- Their headers in version 2. -/
def cameraAndLogIds : List UInt8 :=
  [0xcd, 0x21, 0x40, 0, 21, 0xcd, 0xe7, 0x43, 0, 0, 0xcd, 0x29, 0x20, 0, 0, 0, 7, 0xcd, 0x29, 0]

theorem cameraAndLogPull_fits : ([5, 0] ++ cameraAndLogIds).length ≤ CSP_BUFFER_SIZE := by
  decide

/-- The request for them. -/
def cameraAndLogPull : Delivery := deliveryOf ([5, 0] ++ cameraAndLogIds) cameraAndLogPull_fits

theorem pulls_answered_camera :
    (PullBody.ids cameraAndLog).EncodedIn .v2 cameraAndLogPull.packet ∧
      Answered cameraAndLogPull.packet.id (initialState none none)
        (paramServe plainEnv cameraAndLogPull.packet cameraAndLogPull.uninit
          (initialState none none))
        ([mngCameraControl, stdoutBuf, stdoutBuf].map (answerOf (initialState none none))) := by
  have hbody : (PullBody.ids cameraAndLog).Valid cameraAndLogPull.packet.id.dst := by
    unfold PullBody.Valid
    decide
  have hadd : addIds (paramQueueInit 200 .get 2) cameraAndLog =
      some ⟨cameraAndLogIds, 200, .get, ⟨2, some 0, 7⟩⟩ := by
    decide +kernel
  have hencoded : (PullBody.ids cameraAndLog).EncodedIn .v2 cameraAndLogPull.packet :=
    ⟨200, _, hadd, rfl, holds_ofList 0 _⟩
  refine ⟨hencoded, ?_⟩
  exact pulls_answered (by decide) hbody hencoded cameraAndLogPull.uninit fun _ _ => rfl

/-! ## §6 What version 1 cannot say -/

theorem farPull_fits : ([0, 0, 0xcd, 0x08, 0x21] : List UInt8).length ≤ CSP_BUFFER_SIZE := by
  decide

/-- A V1 request for `mng_camera_control` to a node with the address 33, by that address. -/
def farPull : CspPacket :=
  { (deliveryOf [0, 0, 0xcd, 0x08, 0x21] farPull_fits).packet with
    id := { pri := 2, flags := 0, src := 5, dst := 33, dport := 10, sport := 20 } }

/-- The header has room for the low five bits of the address, and the answer is empty. -/
theorem farAddress_unanswered :
    (PullBody.ids [⟨33, 33, 0⟩]).Valid farPull.id.dst ∧
      (PullBody.ids [⟨33, 33, 0⟩]).EncodedIn .v1 farPull ∧
      ¬ Answered farPull.id (initialState none none)
        (paramServe plainEnv farPull (deliveryOf [] (Nat.zero_le _)).uninit
          (initialState none none))
        (([⟨33, 33, 0⟩] : List ParamRef).filterMap (fun ref => knownParam ref.id)
          |>.map (answerOf (initialState none none))) := by
  refine ⟨by unfold PullBody.Valid; decide, ?_, ?_⟩
  · have hadd : addIds (paramQueueInit 200 .get 1) [⟨33, 33, 0⟩] =
        some ⟨[0xcd, 0x08, 0x21], 200, .get, ⟨1, some 0xffff, 0⟩⟩ := by
      decide +kernel
    exact ⟨200, _, hadd, rfl, holds_ofList 0 _⟩
  · intro h
    obtain ⟨evs, htrace, -, parts, last, hreplies, -, -, -, hdecode⟩ := h.events
    -- the header says node 1, and the server sends a response without entries
    have hserved : (paramServe plainEnv farPull (deliveryOf [] (Nat.zero_le _)).uninit
        (initialState none none)).trace =
          [.fetch 2 5 5, .reply (replyId farPull.id) [1, 0x80]] := by
      decide +kernel
    rw [hserved] at htrace
    obtain rfl : evs = _ := htrace.symm
    have hpackets : parts ++ [last] = [[1, 0x80]] := by
      have := congrArg (List.map Prod.snd) hreplies
      simpa [repliesIn] using this.symm
    rw [hpackets] at hdecode
    revert hdecode
    decide +kernel

end AppSysManager.Server
