import AppSysManager.Server.Contents
import AppSysManager.Server.Malformed
import Mathlib.Algebra.BigOperators.Group.List.Basic
import Mathlib.Algebra.Order.BigOperators.Group.List
import Mathlib.Data.List.Perm.Subperm

/-!
# Pushes Read Back

With 1 in its second byte a push asks for the values it has set in place of an
acknowledgement: when its entries have been applied, `param_serve_push` hands the packet to
`param_serve_pull_request`, which goes through it a second time.

- `ReadBack`: the reply holds the distinct parameters of the push, with their values.
- `pulledParams`: the parameters that the second pass comes across.
- `pullLoop_readBack`: the reply holds these parameters, each one once; it is never split.
- `readBack_iff_agree`: the push is read back exactly when there is a reply and both passes
  come across the same parameters.
-/

namespace AppSysManager.Server

open AppSysManager.Bytes AppSysManager.Mpack AppSysManager.Node

/-! ## §1 The property and the condition -/

/-- Append the parameters that are not yet there, in the order of their first occurrence. -/
def distinctOnto (seen : List Param) (ps : List Param) : List Param :=
  ps.foldl (fun seen p => if p ∈ seen then seen else seen ++ [p]) seen

/-- Every parameter of a list once, in the order of the first occurrences. -/
def distinct (ps : List Param) : List Param := distinctOnto [] ps

/-- The parameter that an entry was applied to. -/
def Item.param : Item → Option Param
  | .known p _ _ _ => some p
  | .unknown => none

/-- The parameters that a push was applied to, entry by entry. -/
def pushedParams (env : Env) (packet : CspPacket) (uninit : Uninit) : List Param :=
  (packetItems env packet uninit).filterMap Item.param

/-- There is one reply, and it decodes to the distinct parameters of the push with the values
    they have now. -/
def ReadBack (env : Env) (packet : CspPacket) (uninit : Uninit) (s : State) : Prop :=
  ∃ evs data, (paramServe env packet uninit s).trace = s.trace ++ evs ∧
    repliesIn evs = [(replyId packet.id, data)] ∧
    decodeResponse data = some ((distinct (pushedParams env packet uninit)).map
      (answerOf (paramServe env packet uninit s)))

/-- The parameters that the headers of a queue lead to in version 2, when a value is skipped
    behind those headers only. -/
def pulledFrom (mem : Mem) (own : Nat) (junk : Junk) : Nat → QueueState → MpackReader → List Param
  | 0, _, _ => []
  | fuel + 1, q, r =>
    if r.end_ ≤ r.data then []
    else
      match paramDeserializeId mem r q with
      | (r, q, header) =>
        match locateLocal own junk header with
        | none => pulledFrom mem own junk fuel q r
        | some p => p :: pulledFrom mem own junk fuel q (discard mem r)

/-- The parameters that the second pass over a push comes across. -/
def pulledParams (form : PushForm) (packet : CspPacket) (uninit : Uninit) : List Param :=
  pulledFrom packet.data packet.id.dst uninit.pull (usedOf form.length) (queueStateInit 2)
    (mpackReaderInitData 2 (usedOf form.length))

/-- Both passes come across the same parameters, in the same order of first occurrence. -/
def PassesAgree (env : Env) (form : PushForm) (packet : CspPacket) (uninit : Uninit) : Prop :=
  distinct (pulledParams form packet uninit) = distinct (pushedParams env packet uninit)

/-! ## §2 Distinct parameters -/

theorem distinctOnto_cons (seen : List Param) (p : Param) (ps : List Param) :
    distinctOnto seen (p :: ps) =
      distinctOnto (if p ∈ seen then seen else seen ++ [p]) ps := rfl

/-- The room an entry takes, apart from the node of the first one. -/
def entryRoom (p : Param) : Nat := 7 + valueRoom p

/-- Distinct parameters of the table fit into one response. -/
theorem entryRoom_sum_le {ps : List Param} (hnodup : ps.Nodup) (hmem : ∀ p ∈ ps, p ∈ paramTable) :
    2 + (ps.map entryRoom).sum ≤ PARAM_SERVER_MTU := by
  obtain ⟨qs, hperm, hsub⟩ := hnodup.subperm hmem
  have hsum : (ps.map entryRoom).sum ≤ (paramTable.map entryRoom).sum := by
    rw [← (hperm.map entryRoom).sum_eq]
    exact (hsub.map entryRoom).sum_le_sum (by simp)
  have htable : (paramTable.map entryRoom).sum = 194 := by decide
  have hmtu : PARAM_SERVER_MTU = 200 := rfl
  omega

/-! ## §3 The scan for duplicates -/

/-- The scan of a response finds a parameter exactly when there is an entry with its id. -/
theorem scanLoop_local {mem : Mem} (own : Nat) (junk : Junk) {p : Param} (hp : p ∈ paramTable)
    {es : List ResponseEntry} {q : QueueState} {r : MpackReader} {fuel : Nat}
    (hes : ∀ e ∈ es, e.Local q.version) (hversion : q.version ≠ 1) (hnode : q.lastNode = some 0)
    (h : Sees mem r (es.flatMap ResponseEntry.bytes))
    (hend : r.end_ = r.data + (es.flatMap ResponseEntry.bytes).length)
    (hfuel : es.length ≤ fuel) :
    ∃ q', scanLoop mem own junk p fuel q r = (q', decide (∃ e ∈ es, e.ref.id = p.id)) ∧
      q'.version = q.version ∧ q'.lastNode = some 0 := by
  induction es generalizing q r fuel with
  | nil =>
    have hdone : r.end_ ≤ r.data := by
      rw [hend]
      simp
    refine ⟨q, ?_, rfl, hnode⟩
    cases fuel <;> simp [scanLoop, hdone]
  | cons e es ih =>
    obtain ⟨fuel, rfl⟩ : ∃ n, fuel = n + 1 := ⟨fuel - 1, by simp at hfuel; omega⟩
    have he := hes e List.mem_cons_self
    rw [List.flatMap_cons, ResponseEntry.bytes, List.append_assoc] at h hend
    have hmore := not_done_of_left hend (headerBytes_ne_nil e.state e.ref)
    obtain ⟨r₁, q₁, header, hread, hid, hzero, -, hversion₁, hlast, hmoved⟩ :=
      paramDeserializeId_local he (.inr (.inl hnode)) h.take
    have hlocate : locateLocal own junk (some header) = some p ↔ e.ref.id = p.id := by
      rw [locateLocal_node own junk hzero, if_pos (.inl rfl), knownParam_eq_some_iff hp, hid,
        eq_comm]
    rw [scanLoop, if_neg hmore, hread]
    dsimp only
    by_cases hsame : e.ref.id = p.id
    · rw [if_pos (hlocate.mpr hsame)]
      exact ⟨q₁, by simp [hsame], hversion₁, hlast hversion⟩
    · -- not this one: the rest of the response is behind its value
      rw [if_neg (mt hlocate.mp hsame)]
      have hvalue := h.drop hmoved
      have hdiscard := discard_value hvalue.take he.value
      have hend₂ := hdiscard.left (hmoved.left hend)
      obtain ⟨q₂, hscan, hversion₂, hlast₂⟩ := ih
        (fun e he => hversion₁ ▸ hes e (List.mem_cons_of_mem _ he)) (hversion₁ ▸ hversion)
        (hlast hversion) (hvalue.drop hdiscard) hend₂ (by simpa using hfuel)
      exact ⟨q₂, by simp [hscan, hsame], hversion₂.trans hversion₁, hlast₂⟩

/-- The reply that is being built: distinct parameters with their values, in no more room than
    they take. -/
structure ReadingBack (s : State) (queue : ParamQueue) (ps : List Param) : Prop where
  carries : Carries queue 2 (ps.map (answerOf s))
  mem : ∀ p ∈ ps, p ∈ paramTable
  nodup : ps.Nodup
  room : queue.buffer.length ≤ (if ps = [] then 0 else 2) + (ps.map entryRoom).sum

/-- The scan finds the parameters that are there, and the reply can still be appended to.  It
    may have changed the timestamp that the serializer remembers. -/
theorem scanResponse_readingBack {s : State} {queue : ParamQueue} {ps : List Param}
    (h : ReadingBack s queue ps) (own : Nat) (junk : Junk) {p : Param} (hp : p ∈ paramTable) :
    ∃ queue', scanResponse own junk p queue = (queue', decide (p ∈ ps)) ∧
      ReadingBack s queue' ps := by
  obtain ⟨es, hbuffer, hanswers, hes, hfirst⟩ := h.carries.contents
  -- the entries of the reply carry the ids of the parameters, which name them
  have hids : es.map (fun e => e.ref.id) = ps.map Param.id := by
    have := congrArg (List.map Answer.id) hanswers
    simpa [ResponseEntry.answer, answerOf, Function.comp_def] using this
  have hfound : (∃ e ∈ es, e.ref.id = p.id) ↔ p ∈ ps := by
    have hexists : (∃ e ∈ es, e.ref.id = p.id) ↔ p.id ∈ ps.map Param.id := by
      rw [← hids]
      simp
    rw [hexists, List.mem_map]
    constructor
    · rintro ⟨p', hmem, hid⟩
      have hsame := (knownParam_eq_some_iff hp p'.id).mpr hid.symm
      rw [(knownParam_eq_some_iff (h.mem p' hmem) p'.id).mpr rfl] at hsame
      rwa [← Option.some.inj hsame]
    · intro hmem
      exact ⟨p, hmem, rfl⟩
  unfold scanResponse
  dsimp only
  by_cases hempty : queue.buffer = []
  · -- nothing to scan
    have hnil : es = [] := by
      have := length_le_entries es
      rw [← hbuffer, hempty] at this
      exact List.length_eq_zero_iff.mp (Nat.le_zero.mp this)
    have hnot : p ∉ ps := by
      rw [← hfound, hnil]
      simp
    have hscan : scanLoop (ofList 2 queue.buffer) own junk p queue.buffer.length queue.state
        (mpackReaderInitData 2 queue.buffer.length) = (queue.state, false) := by
      rw [hempty]
      rfl
    exact ⟨queue, by rw [hscan, decide_eq_false hnot], h⟩
  · have hversion := h.carries.version
    have hsees : Sees (ofList 2 queue.buffer) (mpackReaderInitData 2 queue.buffer.length)
        (es.flatMap ResponseEntry.bytes) := by
      rw [← hbuffer]
      exact sees_payload h.carries.length
    have hend : (mpackReaderInitData 2 queue.buffer.length).end_ =
        (mpackReaderInitData 2 queue.buffer.length).data +
          (es.flatMap ResponseEntry.bytes).length := by
      rw [← hbuffer]
      rfl
    -- every entry takes a byte of the reply, so there is fuel for all of them
    have hfuel : es.length ≤ queue.buffer.length := by
      rw [hbuffer]
      exact length_le_entries es
    obtain ⟨q', hscan, hversion', hlast⟩ := scanLoop_local own junk hp
      (hversion.symm ▸ hes) (by rw [hversion]; decide)
      (h.carries.node hempty (by decide)) hsees hend hfuel
    rw [hscan, decide_eq_decide.mpr hfound]
    refine ⟨_, rfl, ⟨h.carries.type, h.carries.size, h.carries.length, h.carries.contents,
      fun _ _ => hlast, hversion'.trans hversion⟩, h.mem, h.nodup, h.room⟩

/-- There is room for one more parameter, and `__add` appends it. -/
theorem add_readingBack (env : Env) (request : CspId) {s : State} {queue : ParamQueue}
    {ps : List Param} (h : ReadingBack s queue ps) {p : Param} (hp : p ∈ paramTable)
    (hnew : p ∉ ps) :
    ∃ queue', add env s request queue p (-1) = (s, some queue') ∧
      ReadingBack s queue' (ps ++ [p]) := by
  have hnodup : (ps ++ [p]).Nodup := by
    rw [List.nodup_append]
    exact ⟨h.nodup, List.nodup_singleton p, by simpa using fun q hq => ne_of_mem_of_not_mem hq hnew⟩
  have hmem : ∀ q ∈ ps ++ [p], q ∈ paramTable := by
    intro q hq
    rcases List.mem_append.mp hq with hq | hq
    · exact h.mem q hq
    · rwa [List.mem_singleton.mp hq]
  have hsum : ((ps ++ [p]).map entryRoom).sum = (ps.map entryRoom).sum + entryRoom p := by
    simp
  have htotal := entryRoom_sum_le hnodup hmem
  have hroom := h.room
  -- Only the first entry carries its node, which the two bytes of `ReadingBack.room` are for.
  have hcost : queue.buffer.length + (7 + if (addState queue).lastNode = some 0 then 0 else 2) ≤
      2 + (ps.map entryRoom).sum + 7 := by
    by_cases hempty : queue.buffer = []
    · rw [hempty, List.length_nil]
      split_ifs <;> omega
    · have hnode : (addState queue).lastNode = some 0 := by
        rw [addState, if_neg hempty]
        exact h.carries.node hempty (by decide)
      rw [if_pos hnode]
      split_ifs at hroom <;> omega
  have hsmall : entryRoom p = 7 + valueRoom p := rfl
  obtain ⟨queue', hadd⟩ := paramQueueAdd_room h.carries hp s (by omega)
  have hcarries := paramQueueAdd_carries h.carries hp s hadd
  refine ⟨queue', by rw [add, hadd], ?_, hmem, hnodup, ?_⟩
  · rw [List.map_append]
    exact hcarries
  · have hlength := paramQueueAdd_length_le h.carries hp s hadd
    rw [if_neg (by simp), hsum]
    omega

/-- The second pass over a push: the reply holds the parameters it comes across. -/
theorem pullLoop_readBack (env : Env) (mem : Mem) (request : CspId) (uninit : Uninit) {s : State}
    (fuel : Nat) (q : QueueState) (r : MpackReader) {queue : ParamQueue} {ps : List Param}
    (h : ReadingBack s queue ps) :
    ∃ r' queue', pullLoop env mem request true uninit fuel q r queue s = ⟨r', some queue', s⟩ ∧
      ReadingBack s queue'
        (distinctOnto ps (pulledFrom mem request.dst uninit.pull fuel q r)) := by
  induction fuel generalizing q r queue ps with
  | zero => exact ⟨r, queue, rfl, h⟩
  | succ fuel ih =>
    unfold pullLoop pulledFrom
    by_cases hdone : r.end_ ≤ r.data
    · rw [if_pos hdone, if_pos hdone]
      exact ⟨r, queue, rfl, h⟩
    · rw [if_neg hdone, if_neg hdone]
      rcases paramDeserializeId mem r q with ⟨r₁, q₁, header⟩
      dsimp only
      cases hlocate : locateLocal request.dst uninit.pull header with
      | none => exact ih q₁ r₁ h
      | some p =>
        have hp := locateLocal_mem hlocate
        obtain ⟨queue₁, hscan, h₁⟩ := scanResponse_readingBack h request.dst uninit.scan hp
        simp only [if_true, hscan, distinctOnto_cons]
        by_cases hseen : p ∈ ps
        · -- "Do not ack queues with duplicate parameters multiple times"
          simp only [hseen, decide_true, if_true]
          exact ih q₁ (discard mem r₁) h₁
        · obtain ⟨queue₂, hadd, h₂⟩ := add_readingBack env request h₁ hp hseen
          simp only [hseen, decide_false, if_false, hadd]
          exact ih q₁ (discard mem r₁) h₂

/-! ## §4 The reply -/

/-- The pull in place of an acknowledgement sends one reply. -/
theorem paramServePullRequest_readBack {env : Env} {mem : Mem} (id : CspId) (length : Nat)
    (uninit : Uninit) {s : State} (hack : mem 1 = 1) (hget : env.cspBufferGet s.buffers = true) :
    ∃ data, Sent id s (paramServePullRequest env mem id length false 2 uninit s) [data] ∧
      ∃ ps, decodeResponse data = some (ps.map (answerOf s)) ∧ (∀ p ∈ ps, p ∈ paramTable) ∧
        ps = distinct (pulledFrom mem id.dst uninit.pull (usedOf length) (queueStateInit 2)
          (mpackReaderInitData 2 (usedOf length))) := by
  have hstart : ReadingBack (allocate env s 2).1 (paramQueueInit PARAM_SERVER_MTU .set 2) [] :=
    ⟨paramQueueInit_carries 2, by simp, List.nodup_nil, Nat.zero_le _⟩
  obtain ⟨r', queue', hloop, h⟩ := pullLoop_readBack env mem id uninit (usedOf length)
    (queueStateInit 2) (mpackReaderInitData 2 (usedOf length)) hstart
  have hsent := ((Sent.allocate id env s 2).trans
    (Sent.fetch id _ 2 r'.top length)).trans (Sent.send id _ queue' true)
  have hvalues : answerOf (allocate env s 2).1 = answerOf s :=
    funext (Sent.allocate id env s 2).answerOf
  unfold paramServePullRequest
  rw [allocate_some hget, decide_eq_true hack]
  simp only [Bool.false_eq_true, if_false, hloop]
  refine ⟨_, hsent, _, ?_, h.mem, rfl⟩
  rw [h.carries.version, ← hvalues]
  exact decodeResponse_contents (.inr rfl) h.carries.contents h.carries.length _

/-- Without a buffer there is no reply. -/
theorem paramServePullRequest_noBuffer {env : Env} (mem : Mem) (id : CspId) (length : Nat)
    (uninit : Uninit) {s : State} (hget : env.cspBufferGet s.buffers = false) :
    Sent id s (paramServePullRequest env mem id length false 2 uninit s) [] := by
  have hnone : allocate env s 2 = ((allocate env s 2).1, none) := by
    simp [allocate, hget]
  unfold paramServePullRequest
  rw [hnone]
  exact Sent.allocate id env s 2

theorem mem_distinctOnto {p : Param} {seen ps : List Param} (h : p ∈ distinctOnto seen ps) :
    p ∈ seen ∨ p ∈ ps := by
  induction ps generalizing seen with
  | nil => exact .inl h
  | cons p' ps ih =>
    rw [distinctOnto_cons] at h
    rcases ih h with hseen | hrest
    · split at hseen
      · exact .inl hseen
      · rcases List.mem_append.mp hseen with hseen | hseen
        · exact .inl hseen
        · exact .inr (List.mem_singleton.mp hseen ▸ List.mem_cons_self)
    · exact .inr (List.mem_cons_of_mem _ hrest)

theorem pushedParams_mem {env : Env} {packet : CspPacket} {uninit : Uninit} {p : Param}
    (h : p ∈ pushedParams env packet uninit) : p ∈ paramTable := by
  obtain ⟨item, hitem, hp⟩ := List.mem_filterMap.mp h
  have htyped := packetItems_wellTyped env packet uninit item hitem
  cases item with
  | unknown => cases hp
  | known p' header start elems =>
    obtain rfl := Option.some.inj hp
    exact htyped.1

/-- The answers say which parameters they are for. -/
theorem answers_injective {s : State} {ps qs : List Param} (hps : ∀ p ∈ ps, p ∈ paramTable)
    (hqs : ∀ p ∈ qs, p ∈ paramTable) (h : ps.map (answerOf s) = qs.map (answerOf s)) :
    ps = qs := by
  have hfind : ∀ ps : List Param, (∀ p ∈ ps, p ∈ paramTable) →
      (ps.map (answerOf s)).map (fun answer => knownParam answer.id) = ps.map some := by
    intro ps hps
    rw [List.map_map]
    exact List.map_congr_left fun p hp => (knownParam_eq_some_iff (hps p hp) _).mpr rfl
  have hsame := hfind ps hps
  rw [h, hfind qs hqs] at hsame
  exact (List.map_injective_iff.mpr (Option.some_injective _) hsame).symm

theorem repliesIn_append (as bs : List Event) :
    repliesIn (as ++ bs) = repliesIn as ++ repliesIn bs :=
  List.filterMap_append

theorem repliesIn_eq_nil {evs : List Event} (h : ∀ e ∈ evs, ∀ id data, e ≠ .reply id data) :
    repliesIn evs = [] := by
  rw [repliesIn, List.filterMap_eq_nil_iff]
  intro e he
  cases e with
  | reply id data => exact absurd rfl (h _ he id data)
  | _ => rfl

/-- The entries have been applied: none was skipped, and the process is still there. -/
def AllApplied (env : Env) (packet : CspPacket) (uninit : Uninit) : Prop :=
  ∀ item ∈ packetItems env packet uninit, item.isUnknown = false ∧ item.isOverrun = false

/-- The buffers in use when the entries of a push have been applied. -/
theorem execItems_buffers (env : Env) (s : State) (items : List Item) :
    (execItems env s items).buffers = s.buffers := by
  induction items generalizing s with
  | nil => rfl
  | cons item items ih =>
    rw [execItems_cons, ih]
    cases item with
    | unknown => rfl
    | known p header start elems => exact (execElems_frame env p _ elems).buffers

/-- What is sent in reply to a push that was applied. -/
theorem paramServe_readBack {env : Env} {packet : CspPacket} (hpush : IsPush packet)
    (hflag : packet.data 1 = 1) {form : PushForm} (hform : pushForm env packet = some form)
    (uninit : Uninit) {s : State} (hs : s.dead = false)
    (happlied : AllApplied env packet uninit) :
    ∃ s₁ pre, s₁.buffers = s.buffers ∧ s₁.trace = s.trace ++ pre ∧ repliesIn pre = [] ∧
      paramServe env packet uninit s =
        paramServePullRequest env packet.data packet.id form.length false 2 uninit s₁ := by
  set items := packetItems env packet uninit with hitems
  have hbuffers : (prologue packet s).buffers = s.buffers := by
    unfold prologue
    split <;> rfl
  obtain ⟨pre, hpre, hnone⟩ := execItems_noReply env packet items s 2
    (form.decode env.mapped packet uninit).reader.top form.length
  have hknown : ¬ items.any Item.isUnknown = true := by
    simp only [List.any_eq_true, not_exists, not_and, Bool.not_eq_true]
    exact fun item hmem => (happlied item hmem).1
  have halive : ¬ items.any Item.isOverrun = true := by
    simp only [List.any_eq_true, not_exists, not_and, Bool.not_eq_true]
    exact fun item hmem => (happlied item hmem).2
  refine ⟨(execItems env (prologue packet s) items).emit
    (.fetch 2 (form.decode env.mapped packet uninit).reader.top form.length), pre,
    (execItems_buffers env _ items).trans hbuffers, hpre, repliesIn_eq_nil hnone, ?_⟩
  rw [paramServe_eq hform uninit hs, pushAnswer, (hpush.form hform).2.1, if_neg halive,
    if_neg (by simpa using hknown), if_pos hflag]

/-- The reply is the push read back exactly when there is one and the passes agree. -/
theorem readBack_iff_agree {env : Env} {packet : CspPacket} (hpush : IsPush packet)
    (hflag : packet.data 1 = 1) {form : PushForm} (hform : pushForm env packet = some form)
    (uninit : Uninit) {s : State} (hs : s.dead = false)
    (happlied : AllApplied env packet uninit) :
    ReadBack env packet uninit s ↔
      env.cspBufferGet s.buffers = true ∧ PassesAgree env form packet uninit := by
  obtain ⟨s₁, pre, hbuffers, hpre, hnone, hserve⟩ :=
    paramServe_readBack hpush hflag hform uninit hs happlied
  unfold ReadBack PassesAgree
  rw [hserve]
  cases hget : env.cspBufferGet s.buffers with
  | false =>
    -- no buffer: what was sent is nothing
    obtain ⟨buffers, evs₁, -, hreplies, heq⟩ := paramServePullRequest_noBuffer packet.data
      packet.id form.length uninit (hbuffers.symm ▸ hget)
    rw [heq]
    simp only [Bool.false_eq_true, false_and, iff_false, not_exists, not_and]
    intro evs data htrace hone
    obtain rfl : evs = pre ++ evs₁ := by
      apply List.append_cancel_left
      rw [← htrace, ← List.append_assoc, ← hpre]
    rw [repliesIn_append, hnone, hreplies] at hone
    cases hone
  | true =>
    obtain ⟨data, hsent, ps, hdecode, hmem, hps⟩ := paramServePullRequest_readBack packet.id
      form.length uninit hflag (hbuffers.symm ▸ hget)
    have hvalues := funext hsent.answerOf
    obtain ⟨buffers, evs₁, -, hreplies, heq⟩ := hsent
    rw [heq] at hvalues ⊢
    rw [hvalues, eq_self, true_and, pulledParams, ← hps]
    constructor
    · rintro ⟨evs, data', htrace, hone, hdecode'⟩
      obtain rfl : evs = pre ++ evs₁ := by
        apply List.append_cancel_left
        rw [← htrace, ← List.append_assoc, ← hpre]
      rw [repliesIn_append, hnone, hreplies] at hone
      obtain rfl : data = data' := by simpa using hone
      rw [hdecode] at hdecode'
      refine answers_injective hmem (fun p hp => ?_) (Option.some.inj hdecode')
      rcases mem_distinctOnto hp with hp | hp
      · cases hp
      · exact pushedParams_mem hp
    · intro hsame
      refine ⟨pre ++ evs₁, data, ?_, ?_, ?_⟩
      · rw [← List.append_assoc, ← hpre]
      · rw [repliesIn_append, hnone, hreplies]
        rfl
      · rw [hdecode, hsame]

end AppSysManager.Server
