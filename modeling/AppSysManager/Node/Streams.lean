import AppSysManager.Node.Frame

/-!
# Streams of the Callbacks

Four callbacks of `main.c` open a stream: `suspend_on_boot_callback` a file, which it closes,
and the callbacks that run a command a pipe, which no code of the program closes (`pclose` is
called in the commented body of `switch_m7_bin_callback` only).

## Main statements

- `openStreams_length`: every `popen` that succeeds leaves one more stream open.
- `streamsKept_iff`: the callbacks of a run leave no stream behind if and only if no `popen` of
  the run succeeds.
-/

namespace AppSysManager.Node

open AppSysManager.Bytes

/-! ## §1 Open streams -/

/-- A `FILE *`: how many streams were opened before it, and its file, if it is not a pipe. -/
structure Stream where
  serial : Nat
  file : Option FileName
  deriving DecidableEq, Repr

/-- The streams of the process: how many were ever opened, and those open now. -/
structure Streams where
  count : Nat
  opened : List Stream
  deriving DecidableEq, Repr

/-- `popen` and `fopen` open a stream, `fclose` closes the last one of its file. -/
def Streams.observe (streams : Streams) : Event → Streams
  | .popen _ true => ⟨streams.count + 1, ⟨streams.count, none⟩ :: streams.opened⟩
  | .fopen file true => ⟨streams.count + 1, ⟨streams.count, some file⟩ :: streams.opened⟩
  | .fclose file =>
    { streams with opened := streams.opened.eraseP fun stream => stream.file = some file }
  | _ => streams

/-- The streams after a list of events. -/
def Streams.run (streams : Streams) (evs : List Event) : Streams :=
  evs.foldl Streams.observe streams

/-- The streams of a process that has done what the trace says. -/
def streamsOf (s : State) : Streams :=
  Streams.run ⟨0, []⟩ s.trace

/-- The streams that are open. -/
def openStreams (s : State) : List Stream :=
  (streamsOf s).opened

theorem Streams.run_append (streams : Streams) (as bs : List Event) :
    streams.run (as ++ bs) = (streams.run as).run bs := List.foldl_append

theorem Extends.streamsOf {s s' : State} {evs : List Event} (h : Extends s s' evs) :
    streamsOf s' = (streamsOf s).run evs := by
  rw [Node.streamsOf, h.trace, Streams.run_append]
  rfl

/-- Streams are numbered in the order in which they are opened. -/
theorem Streams.serial_lt {streams : Streams} (h : ∀ x ∈ streams.opened, x.serial < streams.count)
    (evs : List Event) :
    ∀ x ∈ (streams.run evs).opened, x.serial < (streams.run evs).count := by
  induction evs generalizing streams with
  | nil => exact h
  | cons e evs ih =>
    refine @ih (streams.observe e) ?_
    intro x hx
    unfold observe at hx ⊢
    split at hx
    · rcases List.mem_cons.mp hx with rfl | hx
      · exact Nat.lt_succ_self _
      · exact Nat.lt_succ_of_lt (h x hx)
    · rcases List.mem_cons.mp hx with rfl | hx
      · exact Nat.lt_succ_self _
      · exact Nat.lt_succ_of_lt (h x hx)
    · exact h x (List.mem_of_mem_eraseP hx)
    · exact h x hx

theorem streamsOf_serial_lt (s : State) : ∀ x ∈ openStreams s, x.serial < (streamsOf s).count :=
  Streams.serial_lt (by simp) s.trace

/-! ## §2 Writes -/

/-- The parameters whose callbacks open a stream. -/
def streamParams : List Param :=
  [vimbaInstall, mngCameraControl, mngDipp, suspendOnBoot]

/-- A write to one of them. -/
structure Write where
  param : Param
  mem : param ∈ streamParams
  value : Int

/-- The node when the callback of a write is called. -/
def Write.stored (env : Env) (s : State) (w : Write) : State :=
  paramWrite env s w.param 0 w.param.type.size (byteLE (converted w.param w.value))

/-- The node behind a write and its callback. -/
def Write.exec (env : Env) (s : State) (w : Write) : State :=
  paramSet env s w.param w.value

/-- The node after a sequence of writes. -/
def writeAll (env : Env) (s : State) (ws : List Write) : State :=
  ws.foldl (Write.exec env) s

/-- The callback of the write runs a command. -/
def Write.popens (w : Write) : Bool :=
  decide (w.param ≠ suspendOnBoot)

/-- How often a sequence of writes calls `popen`. -/
def popensOf (ws : List Write) : Nat :=
  ws.countP Write.popens

/-- The same streams are open. -/
def SameStreams (s s' : State) : Prop :=
  ∀ x, x ∈ openStreams s' ↔ x ∈ openStreams s

/-- No callback of a sequence of writes leaves a stream behind, so that a process which may
    have so many streams can open another one after them if it could before. -/
structure StreamsKept (env : Env) (s : State) (ws : List Write) : Prop where
  callback : ∀ before w after, ws = before ++ w :: after →
    SameStreams (w.stored env (writeAll env s before)) (w.exec env (writeAll env s before))
  available : ∀ limit, (openStreams s).length < limit →
    (openStreams (writeAll env s ws)).length < limit

/-! ## §3 One write -/

/-- Events that open and close nothing. -/
theorem Streams.run_quiet (streams : Streams) {evs : List Event}
    (h : ∀ e ∈ evs, ∀ st : Streams, st.observe e = st) : streams.run evs = streams := by
  induction evs with
  | nil => rfl
  | cons e evs ih =>
    show (streams.observe e).run evs = streams
    rw [h e List.mem_cons_self]
    exact ih fun e' he' => h e' (List.mem_cons_of_mem _ he')

theorem Streams.run_prints (streams : Streams) (texts : List (List UInt8)) :
    streams.run (texts.flatMap printEvents) = streams := by
  apply Streams.run_quiet
  intro e he st
  obtain ⟨text, -, hmem⟩ := List.mem_flatMap.mp he
  simp only [printEvents, List.mem_cons, List.not_mem_nil, or_false] at hmem
  rcases hmem with rfl | rfl | rfl | rfl | rfl <;> rfl

/-- A file that is closed behind its use is no longer open. -/
theorem Streams.run_file (streams : Streams) (file : FileName) (ok : Bool) :
    (streams.run (.fopen file ok :: if ok then [.fclose file] else [])).opened =
      streams.opened := by
  cases ok with
  | false => rfl
  | true => simp [Streams.run, Streams.observe]

theorem Streams.run_writeEvents (streams : Streams) (p : Param) (ok : Bool) (off len : Nat) :
    (streams.run (writeEvents p ok off len)).opened = streams.opened := by
  cases hvmem : p.vmem with
  | false =>
    rw [writeEvents, hvmem]
    rfl
  | true =>
    rw [writeEvents, hvmem]
    exact Streams.run_file streams .config ok

/-- A pipe that is not closed stays open. -/
theorem Streams.run_command (streams : Streams) (cmd : Command) (ok : Bool)
    (texts : List (List UInt8)) :
    (streams.run (.popen cmd ok :: texts.flatMap printEvents)).opened =
      if ok then ⟨streams.count, none⟩ :: streams.opened else streams.opened := by
  show ((streams.observe (.popen cmd ok)).run _).opened = _
  rw [Streams.run_prints]
  cases ok <;> rfl

/-- The callback of a write opens the flag file, or runs one command. -/
theorem Write.callback_cases (w : Write) :
    (w.popens = false ∧ w.param.callback = some .suspendOnBoot) ∨
      (w.popens = true ∧ ∃ callback, w.param.callback = some callback ∧
        (∀ ok, callbackIo ok callback = []) ∧
        ∀ v, ∃ cmd, callbackCommands v callback = [cmd]) := by
  obtain ⟨p, hmem, value⟩ := w
  simp only [streamParams, List.mem_cons, List.not_mem_nil, or_false] at hmem
  rcases hmem with rfl | rfl | rfl | rfl
  · exact .inr ⟨rfl, .vimbaInstall, rfl, fun _ => rfl, fun _ => ⟨_, rfl⟩⟩
  · exact .inr ⟨rfl, .mngCameraControl, rfl, fun _ => rfl, fun _ => ⟨_, rfl⟩⟩
  · exact .inr ⟨rfl, .mngDipp, rfl, fun _ => rfl, fun _ => ⟨_, rfl⟩⟩
  · exact .inl ⟨rfl, rfl⟩

theorem Write.scalar (w : Write) : Scalar w.param := by
  obtain ⟨p, hmem, value⟩ := w
  have hall : ∀ p ∈ streamParams, p ∈ paramTable ∧ p.name ≠ .stdoutBuf := by decide
  exact ⟨(hall p hmem).1, (hall p hmem).2⟩

section Step

variable (env : Env) (s : State) (w : Write)

theorem Write.openStreams_stored : openStreams (w.stored env s) = openStreams s := by
  have hext : Extends s (w.stored env s) _ :=
    paramWrite_extends w.scalar.name_ne env s 0 w.param.type.size _
  rw [openStreams, hext.streamsOf]
  exact Streams.run_writeEvents _ _ _ _ _

theorem Write.exec_eq : w.exec env s = runCallback env (w.stored env s) w.param :=
  paramSetArray_eq w.scalar (Nat.zero_le 1) env s w.value

/-- The events of the callback, behind the write. -/
theorem Write.callback_extends {callback : Callback} (h : w.param.callback = some callback) :
    ∃ v ok, Extends ((w.stored env s).emit (.callback w.param.name (paramGet (w.stored env s) w.param)))
      (w.exec env s) (callbackEvents v (env.popen s.popens) ok callback) := by
  have hpopens : (w.stored env s).popens = s.popens := (paramWrite_frame env s w.param _ _ _).popens
  rw [Write.exec_eq, runCallback, h]
  obtain ⟨hrun, -⟩ := Callback.run_spec env
    ((w.stored env s).emit (.callback w.param.name (paramGet (w.stored env s) w.param))) callback
  rw [show ((w.stored env s).emit (.callback w.param.name
    (paramGet (w.stored env s) w.param))).popens = s.popens from hpopens] at hrun
  exact ⟨_, _, hrun⟩

theorem streamsOf_emit_callback (s : State) (name : ParamName) (v : Nat) :
    streamsOf (s.emit (.callback name v)) = streamsOf s := by
  rw [streamsOf, State.emit, Streams.run_append]
  rfl

/-- What a write does to the streams: a `popen` that succeeds leaves a pipe behind, and nothing
    else does. -/
theorem Write.openStreams_exec :
    openStreams (w.exec env s) =
      if w.popens ∧ (env.popen s.popens).isSome then
        ⟨(streamsOf (w.stored env s)).count, none⟩ :: openStreams s
      else openStreams s := by
  rcases w.callback_cases with ⟨hpopens, hcallback⟩ | ⟨hpopens, callback, hcallback, hio, hcmds⟩
  · obtain ⟨v, ok, hext⟩ := w.callback_extends env s hcallback
    rw [openStreams, hext.streamsOf, streamsOf_emit_callback]
    simp only [callbackEvents, callbackCommands, callbackTexts, callbackIo, List.map_nil,
      List.flatMap_nil, List.append_nil, hpopens, Bool.false_eq_true, false_and, if_false]
    rw [Streams.run_file]
    exact w.openStreams_stored env s
  · obtain ⟨v, ok, hext⟩ := w.callback_extends env s hcallback
    obtain ⟨cmd, hcmd⟩ := hcmds v
    have hevents : callbackEvents v (env.popen s.popens) ok callback =
        .popen cmd (env.popen s.popens).isSome ::
          (callbackTexts v (env.popen s.popens) callback).flatMap printEvents := by
      rw [callbackEvents, hio, hcmd]
      rfl
    rw [openStreams, hext.streamsOf, streamsOf_emit_callback, hevents, Streams.run_command]
    simp only [hpopens, true_and]
    rw [← w.openStreams_stored env s]
    rfl

theorem Write.popens_exec :
    (w.exec env s).popens = s.popens + if w.popens then 1 else 0 := by
  have hset := paramSetArray_spec w.scalar (Nat.zero_le 1) env s w.value
  have hpopens := hset.events.popens
  rw [commandsOf_setEvents] at hpopens
  rcases w.callback_cases with ⟨hw, hcallback⟩ | ⟨hw, callback, hcallback, -, hcmds⟩
  · rw [hcallback] at hpopens
    rw [hw]
    exact hpopens
  · obtain ⟨cmd, hcmd⟩ := hcmds (converted w.param w.value)
    rw [hcallback] at hpopens
    simp only [hcmd, List.length_singleton] at hpopens
    rw [hw]
    exact hpopens

/-- The callback of a write leaves no stream behind if and only if it runs no command, or the
    command cannot be run. -/
theorem Write.sameStreams_iff :
    SameStreams (w.stored env s) (w.exec env s) ↔
      (w.popens → env.popen s.popens = none) := by
  rw [SameStreams, w.openStreams_exec, ← w.openStreams_stored env s]
  by_cases hleak : w.popens ∧ (env.popen s.popens).isSome
  · rw [if_pos hleak]
    constructor
    · -- The number of the new pipe is not that of an open stream.
      intro h
      have hmem := (h ⟨(streamsOf (w.stored env s)).count, none⟩).mp List.mem_cons_self
      exact absurd (streamsOf_serial_lt _ _ hmem) (lt_irrefl _)
    · intro h
      have hnone := h hleak.1
      rw [hnone] at hleak
      exact absurd hleak.2 (by decide)
  · rw [if_neg hleak]
    simp only [iff_self, implies_true, true_iff]
    intro hpopens
    by_contra hsome
    exact hleak ⟨hpopens, Option.isSome_iff_ne_none.mpr hsome⟩

end Step

/-! ## §4 Sequences of writes -/

/-- How many of the next `n` calls of `popen` succeed. -/
def successes (env : Env) : Nat → Nat → Nat
  | _, 0 => 0
  | first, n + 1 => (if (env.popen first).isSome then 1 else 0) + successes env (first + 1) n

theorem popensOf_cons (w : Write) (ws : List Write) :
    popensOf (w :: ws) = popensOf ws + if w.popens then 1 else 0 :=
  List.countP_cons

/-- The streams pile up: one for every `popen` that succeeds. -/
theorem openStreams_length (env : Env) (s : State) (ws : List Write) :
    (openStreams (writeAll env s ws)).length =
      (openStreams s).length + successes env s.popens (popensOf ws) := by
  induction ws generalizing s with
  | nil => rfl
  | cons w ws ih =>
    show (openStreams (writeAll env (w.exec env s) ws)).length = _
    rw [ih, w.openStreams_exec, w.popens_exec, popensOf_cons]
    cases w.popens with
    | false => simp
    | true =>
      simp only [true_and, if_true, successes]
      split
      · rw [List.length_cons]
        omega
      · omega

theorem successes_eq_zero {env : Env} {first n : Nat}
    (h : ∀ k < n, env.popen (first + k) = none) : successes env first n = 0 := by
  induction n generalizing first with
  | zero => rfl
  | succ n ih =>
    have hfirst : env.popen first = none := h 0 (Nat.succ_pos n)
    rw [successes, hfirst, ih]
    · rfl
    · intro k hk
      rw [Nat.add_assoc, Nat.add_comm 1 k]
      exact h (k + 1) (by omega)

theorem callbacks_cons_iff (env : Env) (s : State) (w : Write) (ws : List Write) :
    (∀ before v after, w :: ws = before ++ v :: after →
      SameStreams (v.stored env (writeAll env s before)) (v.exec env (writeAll env s before))) ↔
    SameStreams (w.stored env s) (w.exec env s) ∧
      ∀ before v after, ws = before ++ v :: after →
        SameStreams (v.stored env (writeAll env (w.exec env s) before))
          (v.exec env (writeAll env (w.exec env s) before)) := by
  constructor
  · intro h
    refine ⟨h [] w ws rfl, fun before v after hws => ?_⟩
    exact h (w :: before) v after (by rw [hws]; rfl)
  · rintro ⟨hfirst, hrest⟩ before v after hws
    cases before with
    | nil =>
      obtain ⟨rfl, rfl⟩ := List.cons.inj hws
      exact hfirst
    | cons b before =>
      obtain ⟨rfl, htail⟩ := List.cons.inj hws
      exact hrest before v after htail

theorem callbacks_iff (env : Env) (s : State) (ws : List Write) :
    (∀ before w after, ws = before ++ w :: after →
      SameStreams (w.stored env (writeAll env s before)) (w.exec env (writeAll env s before))) ↔
    ∀ n < popensOf ws, env.popen (s.popens + n) = none := by
  induction ws generalizing s with
  | nil => simp [popensOf]
  | cons w ws ih =>
    rw [callbacks_cons_iff, w.sameStreams_iff, ih, w.popens_exec, popensOf_cons]
    cases w.popens with
    | false => simp
    | true =>
      -- the first `popen` of the run is the one of this write
      simp only [if_true, true_imp_iff]
      constructor
      · rintro ⟨hfirst, hrest⟩ n hn
        cases n with
        | zero => exact hfirst
        | succ n =>
          rw [Nat.add_comm n 1, ← Nat.add_assoc]
          exact hrest n (Nat.lt_of_succ_lt_succ hn)
      · intro h
        refine ⟨h 0 (Nat.succ_pos _), fun n hn => ?_⟩
        rw [Nat.add_assoc, Nat.add_comm 1 n]
        exact h (n + 1) (Nat.succ_lt_succ hn)

/-- The callbacks of a sequence of writes leave no stream behind if and only if none of their
    calls of `popen` succeeds. -/
theorem streamsKept_iff (env : Env) (s : State) (ws : List Write) :
    StreamsKept env s ws ↔ ∀ n < popensOf ws, env.popen (s.popens + n) = none := by
  constructor
  · intro h
    exact (callbacks_iff env s ws).mp h.callback
  · intro h
    refine ⟨(callbacks_iff env s ws).mpr h, fun limit hlimit => ?_⟩
    rw [openStreams_length, successes_eq_zero h]
    exact hlimit

theorem mngCameraControl_mem_streamParams : mngCameraControl ∈ streamParams := by
  decide

/-- The command that kills the camera control. -/
def killWrite : Write :=
  ⟨mngCameraControl, mngCameraControl_mem_streamParams, 0⟩

/-- After one kill command its pipe is still open. -/
theorem killWrite_leaks : ¬ StreamsKept plainEnv (initialState none none) [killWrite] := by
  intro h
  have hfew := h.available 1 (by decide)
  exact absurd hfew (by decide +kernel)

end AppSysManager.Node
