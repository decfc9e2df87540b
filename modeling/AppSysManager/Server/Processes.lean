import Mathlib.Data.List.DropRight
import AppSysManager.Server.ReadOnly
import AppSysManager.Server.Sessions

/-!
# The Managed Processes

`mng_camera_control` and `mng_dipp` start and stop two programs: a non-zero value starts the
program as that node number, zero kills all of its instances.  The callbacks do not look at
what is already running, so every non-zero push starts another instance, also when it is a
repetition of an earlier push.

- `Processes`: the instances that run, as far as the commands in a trace account for them.
- `servePushes_processes`: after any run of pushes the instances are those assigned since the
  last zero.
- `repeatedPush_two`: a push that is sent twice starts the program twice.
-/

namespace AppSysManager.Server

open AppSysManager.Bytes AppSysManager.Mpack AppSysManager.Node

/-! ## §1 Processes -/

/-- The node numbers of the running instances, in the order in which they were started. -/
structure Processes where
  camera : List Nat
  dipp : List Nat
  deriving DecidableEq, Repr

/-- What a command does: a started process runs until it is killed, and `pkill -f` removes
    every instance. -/
def Processes.exec (ps : Processes) : Command → Processes
  | .startCameraControl node => { ps with camera := ps.camera ++ [node] }
  | .killCameraControl => { ps with camera := [] }
  | .startDipp node => { ps with dipp := ps.dipp ++ [node] }
  | .killDipp => { ps with dipp := [] }
  | .vimbaInstall => ps

/-- The processes after an event; a `popen` that fails runs nothing. -/
def Processes.observe (ps : Processes) : Event → Processes
  | .popen cmd true => ps.exec cmd
  | _ => ps

/-- The processes after a list of events. -/
def Processes.run (ps : Processes) (evs : List Event) : Processes := evs.foldl Processes.observe ps

/-- No process at all. -/
def noProcesses : Processes := ⟨[], []⟩

/-- The instances that belong to the value of a `mng_*` parameter. -/
def instancesOf (value : Nat) : List Nat := if value = 0 then [] else [value]

/-- The running programs match the parameters, with one instance each. -/
structure Processes.Match (ps : Processes) (s : State) : Prop where
  camera : ps.camera = instancesOf (paramGet s mngCameraControl)
  dipp : ps.dipp = instancesOf (paramGet s mngDipp)

/-- Without a failed `popen`, the commands of a trace are all that counts. -/
theorem Processes.run_commands (ps : Processes) {evs : List Event}
    (h : ∀ cmd, Event.popen cmd false ∉ evs) :
    ps.run evs = (commandsOf evs).foldl Processes.exec ps := by
  induction evs generalizing ps with
  | nil => rfl
  | cons e evs ih =>
    have hrest : ∀ cmd, Event.popen cmd false ∉ evs := fun cmd hmem =>
      h cmd (List.mem_cons_of_mem _ hmem)
    show (ps.observe e).run evs = _
    rw [ih _ hrest]
    cases e with
    | popen cmd ok =>
      cases ok with
      | true => rfl
      | false => exact absurd (List.mem_cons_self ..) (h cmd)
    | _ => rfl

/-! ## §2 Commands of pushes -/

/-- The commands that the callback of a parameter runs for a value. -/
def Assignment.commands (a : Assignment) : List Command :=
  match a.name.param.callback with
  | some callback => callbackCommands a.value callback
  | none => []

/-- Between the two nodes, no `popen` has failed, and the commands are those of the callbacks. -/
def Commands (as : List Assignment) (s s' : State) : Prop :=
  ∃ evs, s'.trace = s.trace ++ evs ∧ (∀ cmd, Event.popen cmd false ∉ evs) ∧
    commandsOf evs = as.flatMap Assignment.commands

/-- Pushes run the commands of their callbacks, as long as `popen` succeeds. -/
theorem commands_follows {env : Env} (hpopen : ∀ n, (env.popen n).isSome = true) :
    Follows env Commands where
  answers s s' h := by
    obtain ⟨buffers, evs, hevs, rfl⟩ := h
    refine ⟨evs, rfl, fun cmd hmem => hevs _ hmem, ?_⟩
    rw [(printsOf_of_server hevs).2]
    rfl
  append as bs a b c h h' := by
    obtain ⟨evs, htrace, hok, hcmds⟩ := h
    obtain ⟨evs', htrace', hok', hcmds'⟩ := h'
    refine ⟨evs ++ evs', by rw [htrace', htrace, List.append_assoc], fun cmd hmem => ?_, ?_⟩
    · rcases List.mem_append.mp hmem with hmem | hmem
      · exact hok cmd hmem
      · exact hok' cmd hmem
    · rw [commandsOf_append, hcmds, hcmds', List.flatMap_append]
  stamp s p t := ⟨[], (List.append_nil _).symm, by simp, rfl⟩
  assign p hp s x := by
    have hset := paramSet_spec hp env s x
    refine ⟨_, hset.events.trace, fun cmd hmem => ?_, ?_⟩
    -- no event of a store is a `popen` that failed
    · rcases mem_setEvents hmem with ⟨ok, hmem⟩ | hmem | ⟨ok, callback, -, hmem⟩
      · rcases mem_writeEvents hmem with h | h | h <;> cases h
      · cases hmem
      · rcases mem_callbackEvents hmem with hmem | ⟨cmd', heq⟩ | ⟨text, -, hmem⟩
        · cases callback <;> cases ok <;> simp [callbackIo] at hmem
        · rw [hpopen] at heq
          cases heq
        · simp [printEvents] at hmem
    -- the commands are those of the callback
    · rw [commandsOf_setEvents]
      have hname : p.name.param = p := hp.eq_param.symm
      cases hc : p.callback <;> simp [Assignment.commands, hname, hc]

/-! ## §3 Instances -/

/-- What values of a `mng_*` parameter leave running. -/
def instancesAfter (running values : List Nat) : List Nat :=
  values.foldl (fun running v => if v = 0 then [] else running ++ [v]) running

theorem instancesAfter_append (running values values' : List Nat) :
    instancesAfter running (values ++ values') =
      instancesAfter (instancesAfter running values) values' := by
  rw [instancesAfter, List.foldl_append]
  rfl

/-- Starting from nothing, these are the values since the last zero. -/
theorem instancesAfter_nil (values : List Nat) :
    instancesAfter [] values = values.rtakeWhile (· ≠ 0) := by
  induction values using List.reverseRecOn with
  | nil => rfl
  | append_singleton values v ih =>
    rw [instancesAfter_append, ih]
    by_cases hv : v = 0
    · rw [List.rtakeWhile_concat_neg _ _ _ (by simp [hv])]
      simp [instancesAfter, hv]
    · rw [List.rtakeWhile_concat_pos _ _ _ (by simp [hv])]
      simp [instancesAfter, hv]

/-- What an assignment does to the processes. -/
theorem exec_commands (a : Assignment) (ps : Processes) :
    a.commands.foldl Processes.exec ps =
      ⟨instancesAfter ps.camera (valuesOf .mngCameraControl [a]),
        instancesAfter ps.dipp (valuesOf .mngDipp [a])⟩ := by
  obtain ⟨name, v⟩ := a
  cases name with
  | mngCameraControl =>
    by_cases hv : v = 0
    · subst hv; rfl
    · simp [Assignment.commands, ParamName.param, mngCameraControl, paramDefineStaticRam,
        callbackCommands, mngCommand, hv, Processes.exec, valuesOf, instancesAfter]
  | mngDipp =>
    by_cases hv : v = 0
    · subst hv; rfl
    · simp [Assignment.commands, ParamName.param, mngDipp, paramDefineStaticRam,
        callbackCommands, mngCommand, hv, Processes.exec, valuesOf, instancesAfter]
  -- the other parameters start no program
  | _ => rfl

/-- What a list of assignments does to the processes. -/
theorem exec_assignments (as : List Assignment) (ps : Processes) :
    (as.flatMap Assignment.commands).foldl Processes.exec ps =
      ⟨instancesAfter ps.camera (valuesOf .mngCameraControl as),
        instancesAfter ps.dipp (valuesOf .mngDipp as)⟩ := by
  induction as generalizing ps with
  | nil => rfl
  | cons a as ih =>
    have hsplit : ∀ name, valuesOf name (a :: as) = valuesOf name [a] ++ valuesOf name as :=
      fun name => valuesOf_append name [a] as
    rw [List.flatMap_cons, List.foldl_append, exec_commands, ih, hsplit, hsplit,
      instancesAfter_append, instancesAfter_append]

/-- After any run of pushes, the running instances of each program are those assigned since the
    last zero, one for each assignment; the parameters hold what was assigned last. -/
theorem servePushes_processes {env : Env} (hpopen : ∀ n, (env.popen n).isSome = true) {s : State}
    (hs : s.dead = false) (pushes : List (Push env)) :
    ∃ evs, (servePushes env s pushes).trace = s.trace ++ evs ∧
      noProcesses.run evs =
        ⟨(valuesOf .mngCameraControl (assignmentsOf pushes)).rtakeWhile (· ≠ 0),
          (valuesOf .mngDipp (assignmentsOf pushes)).rtakeWhile (· ≠ 0)⟩ ∧
      Values (assignmentsOf pushes) s (servePushes env s pushes) := by
  obtain ⟨⟨evs, htrace, hok, hcmds⟩, -⟩ := (commands_follows hpopen).servePushes pushes hs
  refine ⟨evs, htrace, ?_, ((values_follows env).servePushes pushes hs).1⟩
  rw [Processes.run_commands _ hok, hcmds, exec_assignments, noProcesses, instancesAfter_nil,
    instancesAfter_nil]

theorem startPush_fits : ([2, 1, 33, 5] : List UInt8).length ≤ CSP_BUFFER_SIZE := by decide

/-- A V1 push of `mng_camera_control = 5`, with the second byte 1 that clients send. -/
def startPush : Push plainEnv where
  delivery := deliveryOf [2, 1, 33, 5] startPush_fits
  push := .inl (by decide)
  numbers := by decide +kernel

theorem arrayPush_fits : ([2, 0, 33, 0x92, 5, 6] : List UInt8).length ≤ CSP_BUFFER_SIZE := by
  decide

/-- A V1 push of the two numbers 5 and 6. -/
def arrayPush : Push plainEnv where
  delivery := deliveryOf [2, 0, 33, 0x92, 5, 6] arrayPush_fits
  push := .inl (by decide)
  numbers := by decide +kernel

theorem servePushes_processes_repeated :
    ∃ evs, (servePushes plainEnv (initialState none none) [startPush, startPush, arrayPush]).trace =
        evs ∧ noProcesses.run evs = ⟨[5, 5, 5, 6], []⟩ := by
  obtain ⟨evs, htrace, hrun, -⟩ := @servePushes_processes plainEnv (fun _ => rfl)
    (initialState none none) rfl [startPush, startPush, arrayPush]
  refine ⟨evs, htrace, hrun.trans ?_⟩
  decide +kernel

/-- A push that arrives twice leaves two instances running. -/
theorem repeatedPush_two :
    ¬ (noProcesses.run (servePushes plainEnv (initialState none none)
        [startPush, startPush]).trace).Match
      (servePushes plainEnv (initialState none none) [startPush, startPush]) := by
  intro h
  have hcamera := h.camera
  have hrun : (noProcesses.run (servePushes plainEnv (initialState none none)
      [startPush, startPush]).trace).camera = [5, 5] := by decide +kernel
  have hvalue : paramGet (servePushes plainEnv (initialState none none) [startPush, startPush])
      mngCameraControl = 5 := by decide +kernel
  rw [hrun, hvalue] at hcamera
  exact absurd hcamera (by decide)

end AppSysManager.Server
