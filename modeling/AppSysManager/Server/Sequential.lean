import AppSysManager.Node.Blind
import AppSysManager.Server.Encoding
import AppSysManager.Server.ReadOnly

/-!
# Pushes Mean Sequential Assignment

What an observer sees of a well-formed push.

- `actionsOf`: the stores to number parameters, the callbacks and the replies in a trace.
- `Assigns`: the effect of a list of entries, as a list of assignments.
- `State.observable`: a node without its timestamps and without the record of its fetches.
- `paramServe_sequential`: serving an encoded push carries its assignments out in order,
  and the three encodings of one list cannot be told apart.
-/

namespace AppSysManager.Server

open AppSysManager.Bytes AppSysManager.Mpack AppSysManager.Node

/-! ## §1 Actions -/

/-- Stores to a number parameter, callbacks and replies. -/
def Event.isAction : Event → Bool
  | .store p _ _ => decide (p ≠ .stdoutBuf)
  | .callback .. => true
  | .reply .. => true
  | _ => false

/-- The actions of a trace, in order. -/
def actionsOf (evs : List Event) : List Event := evs.filter Event.isAction

@[simp] theorem actionsOf_append (as bs : List Event) :
    actionsOf (as ++ bs) = actionsOf as ++ actionsOf bs := List.filter_append ..

theorem actionsOf_printEvents (texts : List (List UInt8)) :
    actionsOf (texts.flatMap printEvents) = [] := by
  refine List.filter_eq_nil_iff.mpr fun e he => ?_
  obtain ⟨text, -, he⟩ := List.mem_flatMap.mp he
  simp only [printEvents, List.mem_cons, List.not_mem_nil, or_false] at he
  rcases he with rfl | rfl | rfl | rfl | rfl <;> exact Bool.false_ne_true

/-- A callback stores to no number parameter, runs no other callback and sends nothing. -/
theorem actionsOf_callbackEvents (value : Nat) (answer : Option (List (List UInt8)))
    (fopenOk : Bool) (callback : Callback) :
    actionsOf (callbackEvents value answer fopenOk callback) = [] := by
  have hio : actionsOf (callbackIo fopenOk callback) = [] := by
    cases callback <;> cases fopenOk <;> rfl
  have hcommands : actionsOf ((callbackCommands value callback).map (.popen · answer.isSome)) =
      [] := by
    refine List.filter_eq_nil_iff.mpr fun e he => ?_
    obtain ⟨cmd, -, rfl⟩ := List.mem_map.mp he
    exact Bool.false_ne_true
  rw [callbackEvents, actionsOf_append, actionsOf_append, hio, hcommands, actionsOf_printEvents]
  rfl

theorem actionsOf_writeEvents {p : Param} (h : Scalar p) (fopenOk : Bool) (off len : Nat) :
    actionsOf (writeEvents p fopenOk off len) = [.store p.name off len] := by
  have hstore : Event.isAction (.store p.name off len) = true := by
    simpa [Event.isAction] using h.name_ne
  unfold writeEvents actionsOf
  rw [List.filter_cons_of_pos hstore]
  cases p.vmem <;> cases fopenOk <;> rfl

/-- The actions of an entry: the store, and right behind it the callback, which finds the
    stored value. -/
def PushEntry.actions (e : PushEntry) : List Event :=
  match e.body with
  | .assign p v => [.store p.name 0 p.type.size, .callback p.name v]
  | .unknown .. => []

theorem actionsOf_setEvents {p : Param} (h : Writable p) (env : Env) (s : State) (v : Nat) :
    actionsOf (setEvents env s p v) = [.store p.name 0 p.type.size, .callback p.name v] := by
  obtain ⟨c, hc⟩ := h.callback
  have hcallback := actionsOf_callbackEvents v (env.popen s.popens)
    (env.fopen (if p.vmem then s.fopens + 1 else s.fopens)) c
  rw [setEvents, hc, actionsOf_append, actionsOf_writeEvents h.toScalar]
  show [_] ++ (Event.callback p.name v :: actionsOf _) = _
  rw [hcallback]
  rfl

/-! ## §2 Entries as assignments -/

/-- The value an entry assigns to a parameter. -/
def PushEntry.assigned (name : ParamName) (e : PushEntry) : Option Nat :=
  match e.body with
  | .assign p v => if p.name = name then some v else none
  | .unknown .. => none

/-- The value a list of entries assigns to a parameter in the end. -/
def lastAssigned (name : ParamName) : List PushEntry → Option Nat
  | [] => none
  | e :: es => (lastAssigned name es).or (e.assigned name)

/-- `s'` is `s` after the assignments of the entries: their actions are all the actions there
    were, every number parameter holds what was assigned to it last, and the log holds what
    the callbacks printed. -/
structure Assigns (s s' : State) (es : List PushEntry) : Prop where
  actions : ∃ evs, Extends s s' evs ∧ actionsOf evs = es.flatMap PushEntry.actions
  value : ∀ q, Scalar q → paramGet s' q = (lastAssigned q.name es).getD (paramGet s q)
  timestamp : ∀ name, lastAssigned name es = none → s'.timestamp name = s.timestamp name

theorem Assigns.nil (s : State) : Assigns s s [] :=
  ⟨⟨[], Extends.refl s, rfl⟩, fun _ _ => rfl, fun _ _ => rfl⟩

/-- One entry. -/
theorem PushEntry.apply_assigns {version : Nat} {e : PushEntry} (h : e.body.Valid version)
    (env : Env) (s : State) : Assigns s (e.apply env version s) [e] := by
  obtain ⟨node, timestamp, body⟩ := e
  cases body with
  | assign p v =>
    obtain ⟨hp, hv⟩ := h
    set t := PushEntry.stampIn version ⟨node, timestamp, .assign p v⟩
    have hset := paramSetArray_spec hp.toScalar (i := 0) (by decide) env (stamp s p t) v
    rw [converted_of_lt hv] at hset
    change NumberSet env (stamp s p t) (paramSet env (stamp s p t) p v) p v at hset
    change Assigns s (paramSet env (stamp s p t) p v) _
    -- the stamp shows in the timestamps only; then comes the store
    refine ⟨⟨_, (Extends.mk (by simp [Server.stamp]) rfl rfl :
      Extends s (stamp s p t) []).trans hset.events, ?_⟩, fun q hq => ?_, fun name hname => ?_⟩
    · rw [List.nil_append, actionsOf_setEvents hp]
      rfl
    · by_cases hne : p.name = q.name
      -- the parameter itself has the new value
      · have hq' : q = p := by rw [hq.eq_param, ← hne, ← hp.eq_param]
        rw [hq', hset.value]
        simp [lastAssigned, assigned]
      -- no other one has changed
      · rw [hset.other q hq (Ne.symm hne)]
        simp only [lastAssigned, assigned, hne, if_false]
        rfl
    · have hne : p.name ≠ name := by
        intro heq
        simp [lastAssigned, assigned, heq] at hname
      rw [hset.timestamp]
      exact Function.update_of_ne (Ne.symm hne) _ _
  | unknown id value => exact ⟨⟨[], Extends.refl s, rfl⟩, fun _ _ => rfl, fun _ _ => rfl⟩

theorem Assigns.cons {a b c : State} {e : PushEntry} {es : List PushEntry}
    (h : Assigns a b [e]) (h' : Assigns b c es) : Assigns a c (e :: es) := by
  obtain ⟨evs, hext, hacts⟩ := h.actions
  obtain ⟨evs', hext', hacts'⟩ := h'.actions
  refine ⟨⟨evs ++ evs', hext.trans hext', ?_⟩, fun q hq => ?_, fun name hname => ?_⟩
  · rw [actionsOf_append, hacts, hacts']
    simp
  · rw [h'.value q hq, h.value q hq]
    simp only [lastAssigned, Option.none_or]
    cases lastAssigned q.name es <;> rfl
  · rw [lastAssigned, Option.or_eq_none_iff] at hname
    rw [h'.timestamp name hname.1, h.timestamp name (by simpa [lastAssigned] using hname.2)]

/-- A list of entries, by induction along the list. -/
theorem applyEntries_assigns {version : Nat} {es : List PushEntry}
    (h : ∀ e ∈ es, e.body.Valid version) (env : Env) (s : State) :
    Assigns s (applyEntries env version s es) es := by
  induction es generalizing s with
  | nil => exact Assigns.nil s
  | cons e es ih =>
    exact (PushEntry.apply_assigns (h e (by simp)) env s).cons
      (ih (fun e' he' => h e' (by simp [he'])) _)

/-! ## §3 Encodings cannot be told apart -/

/-- The record of a fetch. -/
def Event.isFetch : Event → Bool
  | .fetch .. => true
  | _ => false

/-- The node without its timestamps, and without the record of what it fetched. -/
def State.observable (s : State) : State :=
  s.relabel (s.trace.filter fun e => !Event.isFetch e) fun _ => 0

theorem observable_emit_fetch (s : State) (lo hi : Int) (length : Nat) :
    State.observable (s.emit (.fetch lo hi length)) = State.observable s := by
  simp [State.observable, State.emit, State.relabel, Event.isFetch]

theorem observable_emit {s s' : State} (h : State.observable s = State.observable s')
    (e : Event) : State.observable (s.emit e) = State.observable (s'.emit e) := by
  have htrace := congrArg State.trace h
  simp only [State.observable, State.relabel, State.mk.injEq] at h htrace ⊢
  simp only [State.emit, List.filter_append, htrace]
  simp [h]

theorem observable_prologue (packet : CspPacket) (s : State) :
    State.observable (prologue packet s) = State.observable s := by
  unfold prologue
  split
  · exact observable_emit_fetch s _ _ _
  · rfl

/-- Nodes that look the same differ in their traces and timestamps only. -/
theorem eq_relabel_of_observable {s s' : State}
    (h : State.observable s = State.observable s') : s' = s.relabel s'.trace s'.timestamp := by
  simp only [State.observable, State.relabel, State.mk.injEq] at h
  obtain ⟨h1, h2, -, h4, h5, h6, h7, h8, h9, h10, h11, h12, h13, -⟩ := h
  rw [State.relabel, State.mk.injEq]
  exact ⟨h1.symm, h2.symm, rfl, h4.symm, h5.symm, h6.symm, h7.symm, h8.symm, h9.symm, h10.symm,
    h11.symm, h12.symm, h13.symm, rfl⟩

/-- An entry does the same to nodes that look the same, whatever version it came in. -/
theorem PushEntry.apply_observable {version : Nat} {e : PushEntry} (h : e.body.Valid version)
    (env : Env) (version' : Nat) {s s' : State}
    (hsame : State.observable s = State.observable s') :
    State.observable (e.apply env version s) = State.observable (e.apply env version' s') := by
  have hs' := eq_relabel_of_observable hsame
  have htrace := congrArg State.trace hsame
  obtain ⟨node, timestamp, body⟩ := e
  cases body with
  | assign p v =>
    -- both sides run the setter on `s` with another trace and other timestamps
    have hset : ∀ trace ts, paramSet env (s.relabel trace ts) p v =
        (paramSet env s p v).relabel (trace ++ setEvents env s p (converted p v)) ts :=
      fun trace ts => paramSet_relabel h.1.toScalar env s v trace ts
    have hleft : PushEntry.apply env version s ⟨node, timestamp, .assign p v⟩ =
        paramSet env (s.relabel s.trace (Function.update s.timestamp p.name _)) p v := rfl
    have hright : PushEntry.apply env version' s' ⟨node, timestamp, .assign p v⟩ =
        paramSet env (s.relabel s'.trace (Function.update s'.timestamp p.name
          (PushEntry.stampIn version' ⟨node, timestamp, .assign p v⟩))) p v := by
      conv_lhs => rw [hs']
      rfl
    rw [hleft, hright, hset, hset]
    simp only [State.observable, State.relabel] at htrace ⊢
    simp only [List.filter_append, htrace]
  | unknown id value => exact hsame

theorem applyEntries_observable {version : Nat} {es : List PushEntry}
    (h : ∀ e ∈ es, e.body.Valid version) (env : Env) (version' : Nat) {s s' : State}
    (hsame : State.observable s = State.observable s') :
    State.observable (applyEntries env version s es) =
      State.observable (applyEntries env version' s' es) := by
  induction es generalizing s s' with
  | nil => exact hsame
  | cons e es ih =>
    exact ih (fun e' he' => h e' (by simp [he']))
      (PushEntry.apply_observable (h e (by simp)) env version' hsame)

/-! ## §4 Serving an encoded push -/

/-- The acknowledgement of a request. -/
def acknowledgement (request : CspId) : Event :=
  .reply
    { pri := request.pri
      flags := request.flags
      src := if request.dst ≠ maxNodeid then request.dst else 0
      dst := request.src
      dport := request.sport
      sport := request.dport } pushResponse

/-- What serving a list of entries shows: the actions of the entries and then one
    acknowledgement, if no id was unknown; the values assigned last; and a log that only
    prints have written to. -/
structure Sequential (request : CspId) (es : List PushEntry) (s s' : State) : Prop where
  actions : ∃ evs, s'.trace = s.trace ++ evs ∧
    actionsOf evs = es.flatMap PushEntry.actions ++
      (if es.any PushEntry.isUnknown then [] else [acknowledgement request]) ∧
    s'.ram .stdoutBuf = ((printsOf evs).foldl Log.print s.log).stdbuf
  value : ∀ q, Scalar q → paramGet s' q = (lastAssigned q.name es).getD (paramGet s q)
  timestamp : ∀ name, lastAssigned name es = none → s'.timestamp name = s.timestamp name

theorem prologue_answers (packet : CspPacket) (s : State) :
    ∃ evs, prologue packet s = { s with trace := s.trace ++ evs } ∧ actionsOf evs = [] ∧
      printsOf evs = [] := by
  unfold prologue
  split
  · exact ⟨_, rfl, rfl, rfl⟩
  · exact ⟨[], by simp, rfl, rfl⟩

private theorem paramServe_encoded_sequential {env : Env} {kind : PushKind}
    {es : List PushEntry} {packet : CspPacket} (h : Encodes env kind es packet)
    (hvalid : ∀ e ∈ es, e.Valid kind.version) (uninit : Uninit) {s : State}
    (hs : s.dead = false) : Sequential packet.id es s (paramServe env packet uninit s) := by
  obtain ⟨top, length, hserve⟩ := paramServe_encoded h hvalid uninit hs
  obtain ⟨pre, hpre, hpreActions, hprePrints⟩ := prologue_answers packet s
  have hassigns := applyEntries_assigns (fun e he => (hvalid e he).body) env (prologue packet s)
  set s₁ := applyEntries env kind.version (prologue packet s) es
  obtain ⟨evs, hext, hacts⟩ := hassigns.actions
  -- the prologue prints nothing
  have hlog : s₁.ram .stdoutBuf = ((printsOf evs).foldl Log.print s.log).stdbuf := by
    have := congrArg Log.stdbuf hext.log
    rw [hpre] at this
    exact this
  have hvalue : ∀ q, Scalar q → paramGet s₁ q = (lastAssigned q.name es).getD (paramGet s q) := by
    intro q hq
    rw [hassigns.value q hq, hpre]
    rfl
  have htime : ∀ name, lastAssigned name es = none → s₁.timestamp name = s.timestamp name := by
    intro name hname
    rw [hassigns.timestamp name hname, hpre]
  have htrace : s₁.trace = s.trace ++ (pre ++ evs) := by
    rw [hext.trace, hpre, List.append_assoc]
  rw [hserve, answerEntries]
  split
  -- an unknown id withholds the acknowledgement
  · case isTrue hunknown =>
    refine ⟨⟨pre ++ evs ++ [.fetch 2 top length], ?_, ?_, ?_⟩, hvalue, htime⟩
    · simp [State.emit, htrace]
    · rw [if_pos hunknown, actionsOf_append, actionsOf_append, hpreActions, hacts]
      rfl
    · simp only [printsOf_append, hprePrints]
      simpa [State.emit, printsOf] using hlog
  · case isFalse hunknown =>
    refine ⟨⟨pre ++ evs ++ [.fetch 2 top length, acknowledgement packet.id], ?_, ?_, ?_⟩,
      hvalue, htime⟩
    · simp [State.emit, cspSendtoReply, acknowledgement, htrace]
    · rw [if_neg hunknown, actionsOf_append, actionsOf_append, hpreActions, hacts]
      rfl
    · simp only [printsOf_append, hprePrints]
      simpa [State.emit, printsOf, acknowledgement, cspSendtoReply] using hlog

/-- A well-formed push means sequential assignment, and its encodings agree up to parameter
    timestamps. -/
theorem paramServe_sequential {env : Env} {kind : PushKind} {es : List PushEntry}
    {packet : CspPacket} (h : Encodes env kind es packet)
    (hvalid : ∀ e ∈ es, e.Valid kind.version) (uninit : Uninit) {s : State}
    (hs : s.dead = false) :
    Sequential packet.id es s (paramServe env packet uninit s) ∧
      ∀ (kind' : PushKind) (packet' : CspPacket) (uninit' : Uninit), packet'.id = packet.id →
        Encodes env kind' es packet' → (∀ e ∈ es, e.Valid kind'.version) →
        State.observable (paramServe env packet' uninit' s) =
          State.observable (paramServe env packet uninit s) := by
  refine ⟨paramServe_encoded_sequential h hvalid uninit hs, ?_⟩
  intro kind' packet' uninit' hid h' hvalid'
  -- both packets are their entries, applied one after another
  obtain ⟨top, length, hserve⟩ := paramServe_encoded h hvalid uninit hs
  obtain ⟨top', length', hserve'⟩ := paramServe_encoded h' hvalid' uninit' hs
  have hprologue : State.observable (prologue packet' s) = State.observable (prologue packet s) :=
    (observable_prologue packet' s).trans (observable_prologue packet s).symm
  -- the versions differ in the timestamps they stamp, which nobody observes
  have happly := applyEntries_observable (fun e he => (hvalid' e he).body) env kind.version
    hprologue
  have hfetch : State.observable ((applyEntries env kind'.version (prologue packet' s) es).emit
      (.fetch 2 top' length')) =
      State.observable ((applyEntries env kind.version (prologue packet s) es).emit
      (.fetch 2 top length)) := by
    rw [observable_emit_fetch, observable_emit_fetch, happly]
  rw [hserve, hserve', answerEntries, answerEntries, hid]
  split
  · exact hfetch
  · exact observable_emit hfetch _

/-- `mng_dipp = 4`, and a string for an id the node does not have. -/
def dippEntries : List PushEntry :=
  [⟨21, 7, .assign mngDipp 4⟩, ⟨21, 7, .unknown 300 (.str [104, 105])⟩]

theorem dippEntries_valid (version : Nat) : ∀ e ∈ dippEntries, e.Valid version := by
  have hdipp : Writable mngDipp := ⟨⟨by decide, by decide⟩, by decide⟩
  intro e he
  simp only [dippEntries, List.mem_cons, List.not_mem_nil, or_false] at he
  rcases he with rfl | rfl
  · exact ⟨by decide, by decide, hdipp, by decide⟩
  · exact ⟨by decide, by decide, by decide, fun _ => by decide, by decide,
      by simp [WireValue.Valid]⟩

/-- The entries in version 1. -/
def dippPush : Delivery :=
  deliveryOf [2, 0, 0xcd, 0xa8, 34, 4, 0xcd, 0xa9, 44, 0xa2, 104, 105] (by decide)

/-- The entries in version 2 with the hwid of the node. -/
def dippPushHwid : Delivery :=
  deliveryOf [33, 0, 0xcd, 0x22, 0x60, 0, 21, 0, 0, 0, 7, 4, 0xcd, 0x2c, 1, 0xa2, 104, 105,
    77, 0, 0, 0] (by decide)

theorem dippPush_encodes : Encodes plainEnv .v1 dippEntries dippPush.packet :=
  ⟨200, ⟨[0xcd, 0xa8, 34, 4, 0xcd, 0xa9, 44, 0xa2, 104, 105], 200, .set, ⟨1, some 0xffff, 0⟩⟩,
    by decide +kernel, by decide, holds_ofList 0 _⟩

theorem dippPushHwid_encodes : Encodes plainEnv .hwid dippEntries dippPushHwid.packet :=
  ⟨200, ⟨[0xcd, 0x22, 0x60, 0, 21, 0, 0, 0, 7, 4, 0xcd, 0x2c, 1, 0xa2, 104, 105], 200, .set,
      ⟨2, some 21, 7⟩⟩,
    by decide +kernel, by decide, holds_ofList 0 _⟩

theorem paramServe_sequential_dipp :
    Sequential dippPush.packet.id dippEntries (initialState none none)
        (paramServe plainEnv dippPush.packet dippPush.uninit (initialState none none)) ∧
      State.observable (paramServe plainEnv dippPushHwid.packet dippPushHwid.uninit
        (initialState none none)) =
        State.observable (paramServe plainEnv dippPush.packet dippPush.uninit
          (initialState none none)) := by
  obtain ⟨hseq, hsame⟩ := paramServe_sequential dippPush_encodes (dippEntries_valid _)
    dippPush.uninit (s := initialState none none) rfl
  exact ⟨hseq, hsame .hwid _ dippPushHwid.uninit rfl dippPushHwid_encodes (dippEntries_valid _)⟩

end AppSysManager.Server
