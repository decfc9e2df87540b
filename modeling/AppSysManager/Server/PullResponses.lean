import AppSysManager.Server.Runs

/-!
# Pull Responses

A pull response is for a client that has asked another node.  `param_serve` hands it to
`param_queue_apply` with `apply_local = 0`, so that its entries are applied to the parameters
of the node that sent it, and the program has no such parameters.

The entries name a node, 0 stands for the sender of the packet, and 0 is also the node of the
local parameters: a response from the address 0 is applied like a push.

- `untouched_iff`: a response leaves every state of the node untouched if and only if none of
  its headers leads to a local parameter.
- `response_applied`: a response from the address 0 runs a callback.
-/

namespace AppSysManager.Server

open AppSysManager.Bytes AppSysManager.Mpack AppSysManager.Node

variable {mapped : Nat}

/-! ## §1 The property and the condition -/

/-- A packet of type `PARAM_PULL_RESPONSE` or `PARAM_PULL_RESPONSE_V2`. -/
def IsPullResponse (packet : CspPacket) : Prop :=
  packetType (packet.data 0) = .pullResponse ∨ packetType (packet.data 0) = .pullResponseV2

/-- The version of the queue in a response. -/
def responseVersion (packet : CspPacket) : Nat :=
  if packetType (packet.data 0) = .pullResponse then 1 else 2

/-- Neither a callback nor a reply. -/
def SilentEvent : Event → Prop
  | .callback .. => False
  | .reply .. => False
  | _ => True

/-- No parameter has changed, no callback has run and nothing was sent. -/
structure Untouched (s s' : State) : Prop where
  ram : s'.ram = s.ram
  vmemConfigBuf : s'.vmemConfigBuf = s.vmemConfigBuf
  timestamp : s'.timestamp = s.timestamp
  silent : ∀ evs, s'.trace = s.trace ++ evs → ∀ e ∈ evs, SilentEvent e

/-- The id that an entry is looked up under. -/
def entryId (junk : Junk) : Option Header → Int
  | some h => h.id
  | none => junk.id

/-- The node that an entry names. -/
def entryNode (junk : Junk) : Option Header → Int
  | some h => (h.node.getD junk.lastNode : Nat)
  | none => junk.node

/-- An entry of a response names a local parameter: by a node below 0, or by 0 when the sender
    has the address 0. -/
def ReachesLocal (sender : Nat) (junk : Junk) (header : Option Header) : Prop :=
  (∃ p ∈ paramTable, (p.id : Int) = entryId junk header) ∧
    (entryNode junk header < 0 ∨ entryNode junk header = 0 ∧ sender = 0)

instance (sender : Nat) (junk : Junk) : DecidablePred (ReachesLocal sender junk) := fun header =>
  inferInstanceAs (Decidable ((∃ p ∈ paramTable, (p.id : Int) = entryId junk header) ∧
    (entryNode junk header < 0 ∨ entryNode junk header = 0 ∧ sender = 0)))

/-- The headers of a queue, when the value behind each of them is skipped. -/
def skippedHeaders (mem : Mem) : Nat → QueueState → MpackReader → List (Option Header)
  | 0, _, _ => []
  | fuel + 1, q, r =>
    if r.end_ ≤ r.data then []
    else
      let entry := paramDeserializeId mem r q
      let value := mpackReadTag mem entry.1
      entry.2.2 :: if value.1.error ≠ .ok then []
        else skippedHeaders mem fuel entry.2.1 (skipUnknown mem value.2 value.1)

/-- The headers of a response. -/
def responseHeaders (packet : CspPacket) : List (Option Header) :=
  skippedHeaders packet.data (usedOf packet.length) (queueStateInit (responseVersion packet))
    (mpackReaderInitData 2 (usedOf packet.length))

/-! ## §2 Lookups -/

theorem paramListFindId_eq_none_iff (node id : Int) :
    paramListFindId node id = none ↔ 0 < node ∨ ∀ p ∈ paramTable, (p.id : Int) ≠ id := by
  by_cases hremote : 0 < node
  · simp [paramListFindId_remote id hremote, hremote]
  · -- A node below 0 is looked up as node 0, which all parameters have.
    have hnode : (if node < 0 then 0 else node) = 0 := by
      split <;> omega
    have hlocal : ∀ p ∈ paramTable, p.node = 0 := by decide
    rw [paramListFindId, List.find?_eq_none]
    simp only [hnode, hremote, false_or, decide_eq_true_eq, not_and]
    constructor
    · intro h p hp
      exact h p hp (by rw [hlocal p hp]; rfl)
    · intro h p hp _
      exact h p hp

/-- The lookups of `param_queue_apply` with `apply_local = 0` are one lookup made twice. -/
theorem locate_response (sender : Nat) (junk : Junk) (header : Option Header) :
    locate false sender junk header = none ↔ ¬ ReachesLocal sender junk header := by
  have hlocate : locate false sender junk header =
      paramListFindId (if entryNode junk header = 0 then (sender : Int) else entryNode junk header)
        (entryId junk header) := by
    unfold locate
    simp only [Bool.false_eq_true, if_false]
    cases header with
    | none =>
      split
      · case _ hfind => exact hfind.symm
      · rfl
    | some h =>
      split
      · case _ hfind => exact hfind.symm
      · rfl
  have hremote : 0 < (if entryNode junk header = 0 then (sender : Int) else entryNode junk header) ↔
      ¬ (entryNode junk header < 0 ∨ entryNode junk header = 0 ∧ sender = 0) := by
    split <;> omega
  rw [hlocate, paramListFindId_eq_none_iff, hremote, ReachesLocal, not_and_or, or_comm]
  simp

/-- An entry is skipped exactly when it does not lead to a local parameter. -/
theorem items_unknown_iff (mem : Mem) (sender : Nat) (junk : Junk) (fuel : Nat) (q : QueueState)
    (r : MpackReader) :
    (∀ item ∈ (decodeLoop mapped mem (readEntry mem false sender junk) fuel q r).items,
      item = .unknown) ↔
      ∀ header ∈ skippedHeaders mem fuel q r, ¬ ReachesLocal sender junk header := by
  induction fuel generalizing q r with
  | zero => simp [decodeLoop, skippedHeaders]
  | succ fuel ih =>
    unfold decodeLoop skippedHeaders readEntry
    by_cases hend : r.end_ ≤ r.data
    · simp [hend]
    · rw [if_neg hend, if_neg hend]
      have hlocate := locate_response sender junk (paramDeserializeId mem r q).2.2
      cases hloc : locate false sender junk (paramDeserializeId mem r q).2.2 with
      | some p =>
        have hreaches : ReachesLocal sender junk (paramDeserializeId mem r q).2.2 := by
          rw [hloc] at hlocate
          simpa using hlocate
        -- The first entry that is found ends both sides.
        simp only [hloc, List.forall_mem_cons, hreaches, not_true_eq_false, false_and,
          iff_false]
        intro h
        split at h
        · exact absurd (h _ List.mem_cons_self) (by simp)
        · exact absurd (h _ List.mem_cons_self) (by simp)
      | none =>
        have hskipped := hlocate.mp hloc
        simp only [hloc, List.forall_mem_cons]
        by_cases herror : (mpackReadTag mem (paramDeserializeId mem r q).1).1.error ≠ .ok
        · simp [herror, hskipped]
        · simp only [herror, if_false, List.forall_mem_cons, true_and, hskipped, not_false_eq_true]
          exact ih _ _

/-! ## §3 Timestamps of executed entries -/

/-- An entry that is applied sets the timestamp of its parameter, and no other. -/
theorem Item.exec_timestamp (env : Env) (s : State) (p : Param) (header : Option Header)
    (start : MpackReader) (elems : List Elem) :
    ((Item.known p header start elems).exec env s).timestamp =
      Function.update s.timestamp p.name (headerTimestamp header) :=
  (execElems_frame env p _ elems).timestamp

theorem execItems_single (env : Env) (s : State) (item : Item) :
    execItems env s [item] = item.exec env s := rfl

/-- The last entry for a parameter decides its timestamp, whatever it was before. -/
theorem execItems_timestamp (env : Env) {items : List Item} {p : Param} {header : Option Header}
    {start : MpackReader} {elems : List Elem} (h : .known p header start elems ∈ items) :
    ∃ t, ∀ s, (execItems env s items).timestamp p.name = t := by
  induction items using List.reverseRecOn with
  | nil => exact absurd h List.not_mem_nil
  | append_singleton items last ih =>
    simp only [execItems_append]
    rcases List.mem_append.mp h with hmem | hmem
    · obtain ⟨t, ht⟩ := ih hmem
      -- The last entry is for the same parameter, or leaves its timestamp alone.
      cases last with
      | unknown => exact ⟨t, ht⟩
      | known p' header' start' elems' =>
        by_cases hname : p.name = p'.name
        · refine ⟨headerTimestamp header', fun s => ?_⟩
          rw [execItems_single, Item.exec_timestamp, hname, Function.update_self]
        · refine ⟨t, fun s => ?_⟩
          rw [execItems_single, Item.exec_timestamp, Function.update_of_ne hname]
          exact ht s
    · obtain rfl := List.mem_singleton.mp hmem
      refine ⟨headerTimestamp header, fun s => ?_⟩
      rw [execItems_single, Item.exec_timestamp, Function.update_self]

/-! ## §4 Responses -/

theorem IsPullResponse.pushForm {packet : CspPacket} (h : IsPullResponse packet) (env : Env) :
    pushForm env packet = some ⟨packet.length, responseVersion packet, false, false⟩ := by
  rcases h with h | h
  · simp [Server.pushForm, responseVersion, h]
  · simp [Server.pushForm, responseVersion, h]

theorem IsPullResponse.prologue {packet : CspPacket} (h : IsPullResponse packet) (s : State) :
    prologue packet s = s := by
  rcases h with h | h
  · simp [Server.prologue, h]
  · simp [Server.prologue, h]

/-- A response is never answered. -/
theorem paramServe_response (env : Env) {packet : CspPacket} (h : IsPullResponse packet)
    (uninit : Uninit) {s : State} (hs : s.dead = false) :
    ∃ top, paramServe env packet uninit s =
      (execItems env s (packetItems env packet uninit)).emit (.fetch 2 top packet.length) := by
  rw [paramServe_eq (h.pushForm env) uninit hs, h.prologue, pushAnswer]
  simp only [or_true, if_true, ite_self]
  exact ⟨_, rfl⟩

theorem packetItems_response (env : Env) {packet : CspPacket} (h : IsPullResponse packet)
    (uninit : Uninit) :
    (∀ item ∈ packetItems env packet uninit, item = .unknown) ↔
      ∀ header ∈ responseHeaders packet, ¬ ReachesLocal packet.id.src uninit.apply header := by
  rw [packetItems_of_pushForm (h.pushForm env), PushForm.items, PushForm.decode, decodeQueue]
  exact items_unknown_iff _ _ _ _ _ _

theorem execItems_unknown (env : Env) (s : State) {items : List Item}
    (h : ∀ item ∈ items, item = .unknown) : execItems env s items = s := by
  induction items generalizing s with
  | nil => rfl
  | cons item items ih =>
    rw [execItems_cons, h item List.mem_cons_self]
    exact ih s fun item hmem => h item (List.mem_cons_of_mem _ hmem)

/-- A response leaves every state of the node untouched if and only if none of its headers
    leads to a local parameter. -/
theorem untouched_iff (env : Env) {packet : CspPacket} (h : IsPullResponse packet)
    (uninit : Uninit) :
    (∀ s : State, s.dead = false → Untouched s (paramServe env packet uninit s)) ↔
      ∀ header ∈ responseHeaders packet, ¬ ReachesLocal packet.id.src uninit.apply header := by
  rw [← packetItems_response env h uninit]
  constructor
  · intro huntouched item hitem
    cases item with
    | unknown => rfl
    | known p header start elems =>
      -- In a state with another timestamp the parameter gets the one of its last entry.
      obtain ⟨t, ht⟩ := execItems_timestamp env hitem
      let s : State := { initialState none none with timestamp := fun _ => t + 1 }
      obtain ⟨top, hserve⟩ := paramServe_response env h uninit (s := s) rfl
      have hkept := congrFun (huntouched s rfl).timestamp p.name
      rw [hserve] at hkept
      have hstamped : t = t + 1 := (ht s).symm.trans hkept
      omega
  · intro hunknown s hs
    obtain ⟨top, hserve⟩ := paramServe_response env h uninit hs
    rw [hserve, execItems_unknown env s hunknown]
    refine ⟨rfl, rfl, rfl, fun evs hevs e he => ?_⟩
    obtain rfl := List.append_cancel_left hevs
    obtain rfl := List.mem_singleton.mp he
    trivial

/-- A packet as it is delivered, from another address. -/
def CspPacket.sentBy (packet : CspPacket) (src : Nat) : CspPacket :=
  { packet with id := { packet.id with src } }

theorem cameraResponse_fits : [1, 0x80, 33, 5].length ≤ CSP_BUFFER_SIZE := by
  decide

/-- A V1 response with `mng_camera_control = 5`. -/
def cameraResponse : Delivery :=
  deliveryOf [1, 0x80, 33, 5] cameraResponse_fits

theorem untouched_iff_camera :
    (∀ header ∈ responseHeaders cameraResponse.packet, ¬ ReachesLocal 5 ⟨0, 0, 0⟩ header) ∧
      ∀ s : State, s.dead = false →
        Untouched s (paramServe plainEnv cameraResponse.packet cameraResponse.uninit s) := by
  have hheaders : ∀ header ∈ responseHeaders cameraResponse.packet,
      ¬ ReachesLocal 5 ⟨0, 0, 0⟩ header := by
    decide +kernel
  exact ⟨hheaders, (untouched_iff plainEnv (.inl (by decide)) cameraResponse.uninit).mpr hheaders⟩

/-- The same response from the address 0 starts the camera control. -/
theorem response_applied :
    ¬ Untouched (initialState none none)
      (paramServe plainEnv (cameraResponse.packet.sentBy 0) cameraResponse.uninit
        (initialState none none)) := by
  intro h
  have htrace : (paramServe plainEnv (cameraResponse.packet.sentBy 0) cameraResponse.uninit
      (initialState none none)).trace =
        [.store .mngCameraControl 0 1, .callback .mngCameraControl 5,
          .popen (.startCameraControl 5) true, .fetch 2 4 4] := by
    decide +kernel
  exact h.silent _ htrace (.callback .mngCameraControl 5) (by decide)

end AppSysManager.Server
