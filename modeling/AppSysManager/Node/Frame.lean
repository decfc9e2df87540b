import AppSysManager.Node.Log
import Mathlib.Tactic.Positivity
import Mathlib.Tactic.NormNum

/-!
# What Setters and Callbacks Do

One description of each operation of `Node.State`, for the proofs about whole packets and
whole runs.

- `Extends s s' evs`: the trace of `s'` is that of `s` with `evs` behind it, and the log
  and the number of `popen` calls are those the events account for.
- `callbackEvents`: the events of a callback, as a function of the stored value and of the
  environment's next answers.
- `CallbackFrame`: what no callback touches.
- `NumberSet`: what a store of a number with its callback does, as `PARAM_SET` makes it.
-/

namespace AppSysManager.Node

open AppSysManager.Bytes

/-! ## §1 Traces -/

/-- The texts printed in a list of events. -/
def printsOf (evs : List Event) : List (List UInt8) :=
  evs.filterMap fun
    | .print text => some text
    | _ => none

/-- The commands given to `popen` in a list of events. -/
def commandsOf (evs : List Event) : List Command :=
  evs.filterMap fun
    | .popen cmd _ => some cmd
    | _ => none

@[simp] theorem printsOf_append (as bs : List Event) :
    printsOf (as ++ bs) = printsOf as ++ printsOf bs := List.filterMap_append

@[simp] theorem commandsOf_append (as bs : List Event) :
    commandsOf (as ++ bs) = commandsOf as ++ commandsOf bs := List.filterMap_append

@[simp] theorem printsOf_printEvents (text : List UInt8) : printsOf (printEvents text) = [text] :=
  rfl

@[simp] theorem commandsOf_printEvents (text : List UInt8) : commandsOf (printEvents text) = [] :=
  rfl

/-- `s'` is reached from `s` with the events `evs`. -/
structure Extends (s s' : State) (evs : List Event) : Prop where
  trace : s'.trace = s.trace ++ evs
  log : s'.log = (printsOf evs).foldl Log.print s.log
  popens : s'.popens = s.popens + (commandsOf evs).length

theorem Extends.refl (s : State) : Extends s s [] := ⟨by simp, rfl, rfl⟩

theorem Extends.trans {s s' s'' : State} {evs evs' : List Event} (h : Extends s s' evs)
    (h' : Extends s' s'' evs') : Extends s s'' (evs ++ evs') where
  trace := by rw [h'.trace, h.trace, List.append_assoc]
  log := by rw [h'.log, h.log, printsOf_append, List.foldl_append]
  popens := by rw [h'.popens, h.popens, commandsOf_append, List.length_append]; omega

/-! ## §2 Prints -/

/-- A print extends the trace by its five events and touches nothing but the log. -/
theorem cspPrintFunc_extends (env : Env) (s : State) (text : List UInt8) :
    Extends s (cspPrintFunc env s text) (printEvents (printed text)) where
  trace := by rw [cspPrintFunc_eq]
  log := by rw [cspPrintFunc_log]; rfl
  popens := by rw [cspPrintFunc_eq]; rfl

/-- What neither a print nor a callback changes. -/
structure CallbackFrame (s s' : State) : Prop where
  ram : ∀ p, p ≠ .stdoutBuf → s'.ram p = s.ram p
  vmemConfigBuf : s'.vmemConfigBuf = s.vmemConfigBuf
  timestamp : s'.timestamp = s.timestamp
  configFile : s'.configFile = s.configFile
  buffers : s'.buffers = s.buffers
  dead : s'.dead = s.dead

theorem CallbackFrame.refl (s : State) : CallbackFrame s s :=
  ⟨fun _ _ => rfl, rfl, rfl, rfl, rfl, rfl⟩

theorem CallbackFrame.trans {s s' s'' : State} (h : CallbackFrame s s')
    (h' : CallbackFrame s' s'') : CallbackFrame s s'' where
  ram p hp := (h'.ram p hp).trans (h.ram p hp)
  vmemConfigBuf := h'.vmemConfigBuf.trans h.vmemConfigBuf
  timestamp := h'.timestamp.trans h.timestamp
  configFile := h'.configFile.trans h.configFile
  buffers := h'.buffers.trans h.buffers
  dead := h'.dead.trans h.dead

theorem cspPrintFunc_frame (env : Env) (s : State) (text : List UInt8) :
    CallbackFrame s (cspPrintFunc env s text) := by
  rw [cspPrintFunc_eq]
  exact ⟨fun p hp => Function.update_of_ne hp _ _, rfl, rfl, rfl, rfl, rfl⟩

theorem cspPrintFunc_flagFile (env : Env) (s : State) (text : List UInt8) :
    (cspPrintFunc env s text).flagFile = s.flagFile := by rw [cspPrintFunc_eq]

/-- The output of a command is printed line by line. -/
theorem printLines_spec (env : Env) (s : State) (lines : List (List UInt8)) :
    Extends s (printLines env s lines)
      (lines.flatMap fun line => printEvents (printed (cString line))) ∧
    CallbackFrame s (printLines env s lines) ∧ (printLines env s lines).flagFile = s.flagFile := by
  induction lines generalizing s with
  | nil => exact ⟨Extends.refl s, CallbackFrame.refl s, rfl⟩
  | cons line lines ih =>
    obtain ⟨hext, hframe, hflag⟩ := ih (cspPrintFunc env s (cString line))
    refine ⟨?_, (cspPrintFunc_frame env s _).trans hframe, ?_⟩
    · rw [List.flatMap_cons]
      exact (cspPrintFunc_extends env s _).trans hext
    · exact hflag.trans (cspPrintFunc_flagFile env s _)

/-! ## §3 Callbacks -/

/-- The texts printed for the answer to a `popen`. -/
def answerTexts (failure : List UInt8) : Option (List (List UInt8)) → List (List UInt8)
  | none => [printed failure]
  | some lines => lines.map fun line => printed (cString line)

/-- The command a `mng_*` parameter stands for. -/
def mngCommand (kill : Command) (start : Nat → Command) (value : Nat) : Command :=
  if value = 0 then kill else start value

/-- The texts a `mng_*` callback prints: the output of the kill command, and for the start
    command only the failure to run it. -/
def mngTexts (start : Nat → Command) (value : Nat) (answer : Option (List (List UInt8))) :
    List (List UInt8) :=
  if value = 0 then answerTexts (asciiBytes "Failed to run command\n") answer
  else if answer.isNone then [printed (asciiBytes ("Failed " ++ (start value).text ++ "\n"))]
  else []

/-- The commands a callback runs. -/
def callbackCommands (value : Nat) : Callback → List Command
  | .vimbaInstall => [.vimbaInstall]
  | .mngCameraControl => [mngCommand .killCameraControl .startCameraControl value]
  | .mngDipp => [mngCommand .killDipp .startDipp value]
  | _ => []

/-- The texts a callback prints, given the answer to its `popen`. -/
def callbackTexts (value : Nat) (answer : Option (List (List UInt8))) : Callback → List (List UInt8)
  | .vimbaInstall => answerTexts (asciiBytes "Failed to run command\n") answer
  | .mngCameraControl => mngTexts .startCameraControl value answer
  | .mngDipp => mngTexts .startDipp value answer
  | _ => []

/-- The events of a callback other than commands and prints. -/
def callbackIo (fopenOk : Bool) : Callback → List Event
  | .suspendOnBoot =>
    .fopen .suspendOnBoot fopenOk :: if fopenOk then [.fclose .suspendOnBoot] else []
  | .suspendA53 =>
    [.system "echo N > /sys/module/printk/parameters/console_suspend",
      .system "echo mem > /sys/power/state"]
  | _ => []

/-- All events of a callback, in order. -/
def callbackEvents (value : Nat) (answer : Option (List (List UInt8))) (fopenOk : Bool)
    (callback : Callback) : List Event :=
  callbackIo fopenOk callback ++ (callbackCommands value callback).map (.popen · answer.isSome) ++
    (callbackTexts value answer callback).flatMap printEvents

/-- A state that differs in nothing an `Extends` speaks about but the trace. -/
private theorem extends_emit (s : State) {e : Event} (hprint : printsOf [e] = [])
    (hcmd : commandsOf [e] = []) : Extends s (s.emit e) [e] :=
  ⟨rfl, by rw [hprint]; rfl, by rw [hcmd]; rfl⟩

private theorem popen_extends (env : Env) (s : State) (cmd : Command) :
    Extends s (popen env s cmd).1 [.popen cmd (env.popen s.popens).isSome] :=
  ⟨rfl, rfl, rfl⟩

private theorem popen_frame (env : Env) (s : State) (cmd : Command) :
    CallbackFrame s (popen env s cmd).1 :=
  ⟨fun _ _ => rfl, rfl, rfl, rfl, rfl, rfl⟩

/-- Run a command and print its output: the body shared by `vimba_install_callback` and the
    kill branches. -/
private theorem popen_print_spec (env : Env) (s : State) (cmd : Command) (failure : List UInt8) :
    let s' := match popen env s cmd with
      | (s, none) => cspPrintFunc env s failure
      | (s, some lines) => printLines env s lines
    Extends s s' ([.popen cmd (env.popen s.popens).isSome] ++
      (answerTexts failure (env.popen s.popens)).flatMap printEvents) ∧
    CallbackFrame s s' ∧ s'.flagFile = s.flagFile := by
  have hext := popen_extends env s cmd
  have hframe := popen_frame env s cmd
  have hpopen : popen env s cmd = ((popen env s cmd).1, env.popen s.popens) := rfl
  rw [hpopen]
  cases hanswer : env.popen s.popens with
  | none =>
    rw [hanswer] at hext
    refine ⟨?_, hframe.trans (cspPrintFunc_frame env _ _), cspPrintFunc_flagFile env _ _⟩
    simpa [answerTexts] using hext.trans (cspPrintFunc_extends env _ failure)
  | some lines =>
    rw [hanswer] at hext
    obtain ⟨hlines, hlframe, hlflag⟩ := printLines_spec env (popen env s cmd).1 lines
    refine ⟨?_, hframe.trans hlframe, hlflag⟩
    simpa [answerTexts, List.flatMap_map] using hext.trans hlines

/-- Both branches of a `mng_*` callback. -/
private theorem mngCallback_spec (env : Env) (s : State) (p : Param) (kill : Command)
    (start : Nat → Command) :
    Extends s (mngCallback env s p kill start)
      ([.popen (mngCommand kill start (paramGet s p)) (env.popen s.popens).isSome] ++
        (mngTexts start (paramGet s p) (env.popen s.popens)).flatMap printEvents) ∧
    CallbackFrame s (mngCallback env s p kill start) ∧
    (mngCallback env s p kill start).flagFile = s.flagFile := by
  unfold mngCallback
  by_cases hzero : paramGet s p = 0
  · simp only [hzero, if_true, mngCommand, mngTexts]
    exact popen_print_spec env s kill _
  · simp only [hzero, if_false, mngCommand, mngTexts]
    have hext := popen_extends env s (start (paramGet s p))
    have hframe := popen_frame env s (start (paramGet s p))
    have hpopen : popen env s (start (paramGet s p)) =
      ((popen env s (start (paramGet s p))).1, env.popen s.popens) := rfl
    rw [hpopen]
    cases hanswer : env.popen s.popens with
    | none =>
      rw [hanswer] at hext
      refine ⟨?_, hframe.trans (cspPrintFunc_frame env _ _), cspPrintFunc_flagFile env _ _⟩
      simpa using hext.trans (cspPrintFunc_extends env _ _)
    | some lines =>
      rw [hanswer] at hext
      exact ⟨by simpa using hext, hframe, rfl⟩

private theorem suspendOnBootCallback_spec (env : Env) (s : State) :
    Extends s (suspendOnBootCallback env s)
      (callbackIo (env.fopen s.fopens) .suspendOnBoot) ∧
    CallbackFrame s (suspendOnBootCallback env s) := by
  unfold suspendOnBootCallback
  cases hok : env.fopen s.fopens with
  | true =>
    refine ⟨⟨?_, rfl, rfl⟩, ⟨fun _ _ => rfl, rfl, rfl, rfl, rfl, rfl⟩⟩
    simp [State.emit, callbackIo]
  | false => exact ⟨⟨rfl, rfl, rfl⟩, ⟨fun _ _ => rfl, rfl, rfl, rfl, rfl, rfl⟩⟩

/-- The parameter a callback belongs to. -/
def Callback.owner : Callback → Param
  | .canAddr => Node.canAddr
  | .canNetmask => Node.canNetmask
  | .suspendOnBoot => Node.suspendOnBoot
  | .suspendA53 => Node.suspendA53
  | .vimbaInstall => Node.vimbaInstall
  | .mngCameraControl => Node.mngCameraControl
  | .mngDipp => Node.mngDipp

/-- What a callback does: its events, and what it leaves alone. -/
theorem Callback.run_spec (env : Env) (s : State) (callback : Callback) :
    Extends s (callback.run env s)
      (callbackEvents (paramGet s callback.owner) (env.popen s.popens) (env.fopen s.fopens)
        callback) ∧
    CallbackFrame s (callback.run env s) := by
  have hsame : ∀ s' : State, s'.trace = s.trace → s'.log = s.log → s'.popens = s.popens →
      Extends s s' [] := fun s' h1 h2 h3 => ⟨by simpa using h1, h2, h3⟩
  cases callback with
  | canAddr => exact ⟨hsame _ rfl rfl rfl, ⟨fun _ _ => rfl, rfl, rfl, rfl, rfl, rfl⟩⟩
  | canNetmask => exact ⟨hsame _ rfl rfl rfl, ⟨fun _ _ => rfl, rfl, rfl, rfl, rfl, rfl⟩⟩
  | suspendOnBoot =>
    obtain ⟨hext, hframe⟩ := suspendOnBootCallback_spec env s
    refine ⟨?_, hframe⟩
    show Extends s (suspendOnBootCallback env s) _
    simpa [callbackEvents, callbackCommands, callbackTexts] using hext
  | suspendA53 =>
    refine ⟨?_, ⟨fun _ _ => rfl, rfl, rfl, rfl, rfl, rfl⟩⟩
    exact (extends_emit s rfl rfl).trans (extends_emit _ rfl rfl)
  | vimbaInstall =>
    obtain ⟨hext, hframe, -⟩ := popen_print_spec env s .vimbaInstall
      (asciiBytes "Failed to run command\n")
    exact ⟨hext, hframe⟩
  | mngCameraControl =>
    obtain ⟨hext, hframe, -⟩ := mngCallback_spec env s Node.mngCameraControl
      .killCameraControl .startCameraControl
    exact ⟨hext, hframe⟩
  | mngDipp =>
    obtain ⟨hext, hframe, -⟩ := mngCallback_spec env s Node.mngDipp .killDipp .startDipp
    exact ⟨hext, hframe⟩

/-- The same for whatever callback a parameter has. -/
theorem runCallback_spec (env : Env) (s : State) (p : Param) :
    (∃ evs, Extends s (runCallback env s p) evs) ∧ CallbackFrame s (runCallback env s p) := by
  unfold runCallback
  cases p.callback with
  | none => exact ⟨⟨[], Extends.refl s⟩, CallbackFrame.refl s⟩
  | some callback =>
    obtain ⟨hrun, hframe⟩ :=
      Callback.run_spec env (s.emit (.callback p.name (paramGet s p))) callback
    exact ⟨⟨_, (extends_emit s rfl rfl).trans hrun⟩, hframe.ram, hframe.vmemConfigBuf,
      hframe.timestamp, hframe.configFile, hframe.buffers, hframe.dead⟩

/-- Only `suspend_on_boot_callback` writes the flag file. -/
theorem Callback.run_flagFile {callback : Callback} (h : callback ≠ .suspendOnBoot) (env : Env)
    (s : State) : (callback.run env s).flagFile = s.flagFile := by
  cases callback with
  | suspendOnBoot => exact absurd rfl h
  | canAddr => rfl
  | canNetmask => rfl
  | suspendA53 => rfl
  | vimbaInstall => exact (popen_print_spec env s .vimbaInstall _).2.2
  | mngCameraControl => exact (mngCallback_spec env s _ _ _).2.2
  | mngDipp => exact (mngCallback_spec env s _ _ _).2.2

/-! ## §4 Writes -/

/-- What the table says about the number parameters: one element, of the size of the
    declared storage, at the start of the parameter. -/
structure Scalar (p : Param) : Prop where
  mem : p ∈ paramTable
  name_ne : p.name ≠ .stdoutBuf

theorem Scalar.eq_param {p : Param} (h : Scalar p) : p = p.name.param := eq_param_of_mem h.mem

theorem Scalar.layout {p : Param} (h : Scalar p) :
    p.arraySize = 1 ∧ p.arrayStep = 0 ∧ p.name.storage = p.type.size ∧
      (p.type = .uint8 ∨ p.type = .uint16) := by
  have hname := h.name_ne
  rw [h.eq_param] at hname ⊢
  cases hn : p.name with
  | stdoutBuf => exact absurd (by rw [hn]; rfl) hname
  | canAddr => exact ⟨rfl, rfl, rfl, .inr rfl⟩
  | canNetmask => exact ⟨rfl, rfl, rfl, .inr rfl⟩
  | _ => exact ⟨rfl, rfl, rfl, .inl rfl⟩

/-- The places of two VMEM parameters in `vmem_config_buf` do not overlap, and all of them
    lie inside it. -/
theorem Scalar.vmem_layout {p q : Param} (hp : Scalar p) (hq : Scalar q) (hpv : p.vmem = true)
    (hqv : q.vmem = true) :
    p.addr + p.type.size ≤ VMEM_CONFIG_SIZE ∧
      (p.name ≠ q.name → p.addr + p.type.size ≤ q.addr ∨ q.addr + q.type.size ≤ p.addr) := by
  rw [hp.eq_param] at hpv ⊢
  rw [hq.eq_param] at hqv ⊢
  generalize p.name = a at *
  generalize q.name = b at *
  revert hpv hqv
  cases a <;> cases b <;> decide

/-- The events of a write. -/
def writeEvents (p : Param) (fopenOk : Bool) (off len : Nat) : List Event :=
  .store p.name off len ::
    if p.vmem then .fopen .config fopenOk :: (if fopenOk then [.fclose .config] else []) else []

/-- What no write changes. -/
structure WriteFrame (s s' : State) : Prop where
  timestamp : s'.timestamp = s.timestamp
  ring : s'.log.ring = s.log.ring
  flagFile : s'.flagFile = s.flagFile
  popens : s'.popens = s.popens
  buffers : s'.buffers = s.buffers
  dead : s'.dead = s.dead

/-- What a write does, field by field. -/
theorem paramWrite_eq (env : Env) (s : State) (p : Param) (off len : Nat) (src : Nat → UInt8) :
    paramWrite env s p off len src =
      let buf := overwrite VMEM_CONFIG_SIZE s.vmemConfigBuf (p.addr + off) len src
      { s with
        ram := if p.vmem then s.ram
          else Function.update s.ram p.name (overwrite p.name.storage (s.ram p.name) off len src)
        vmemConfigBuf := if p.vmem then buf else s.vmemConfigBuf
        configFile := if p.vmem && env.fopen s.fopens
          then some ((List.range VMEM_CONFIG_SIZE).map buf) else s.configFile
        fopens := if p.vmem then s.fopens + 1 else s.fopens
        trace := s.trace ++ writeEvents p (env.fopen s.fopens) off len } := by
  cases hv : p.vmem with
  | false => simp [paramWrite, ramWrite, writeEvents, State.emit, hv]
  | true =>
    cases hok : env.fopen s.fopens with
    | false => simp [paramWrite, vmemFileWrite, writeEvents, State.emit, hv, hok]
    | true => simp [paramWrite, vmemFileWrite, writeEvents, State.emit, hv, hok]

theorem paramWrite_frame (env : Env) (s : State) (p : Param) (off len : Nat)
    (src : Nat → UInt8) : WriteFrame s (paramWrite env s p off len src) := by
  rw [paramWrite_eq]
  exact ⟨rfl, rfl, rfl, rfl, rfl, rfl⟩

theorem paramWrite_trace (env : Env) (s : State) (p : Param) (off len : Nat)
    (src : Nat → UInt8) :
    (paramWrite env s p off len src).trace =
      s.trace ++ writeEvents p (env.fopen s.fopens) off len := by
  rw [paramWrite_eq]

theorem paramWrite_ram_eq (env : Env) (s : State) (p : Param) (off len : Nat)
    (src : Nat → UInt8) :
    (paramWrite env s p off len src).ram =
      if p.vmem then s.ram
      else Function.update s.ram p.name
        (overwrite p.name.storage (s.ram p.name) off len src) := by
  rw [paramWrite_eq]

theorem paramWrite_vmemConfigBuf (env : Env) (s : State) (p : Param) (off len : Nat)
    (src : Nat → UInt8) :
    (paramWrite env s p off len src).vmemConfigBuf =
      if p.vmem then overwrite VMEM_CONFIG_SIZE s.vmemConfigBuf (p.addr + off) len src
      else s.vmemConfigBuf := by
  rw [paramWrite_eq]

theorem printsOf_writeEvents (p : Param) (ok : Bool) (off len : Nat) :
    printsOf (writeEvents p ok off len) = [] := by
  unfold writeEvents
  cases p.vmem <;> cases ok <;> rfl

theorem commandsOf_writeEvents (p : Param) (ok : Bool) (off len : Nat) :
    commandsOf (writeEvents p ok off len) = [] := by
  unfold writeEvents
  cases p.vmem <;> cases ok <;> rfl

/-- A write of any parameter but `stdout_buf` leaves the log alone. -/
theorem paramWrite_extends {p : Param} (h : p.name ≠ .stdoutBuf) (env : Env) (s : State)
    (off len : Nat) (src : Nat → UInt8) :
    Extends s (paramWrite env s p off len src) (writeEvents p (env.fopen s.fopens) off len) where
  trace := paramWrite_trace env s p off len src
  log := by
    have hring := (paramWrite_frame env s p off len src).ring
    rw [printsOf_writeEvents]
    apply Log.ext
    · exact hring
    · show (paramWrite env s p off len src).ram .stdoutBuf = s.ram .stdoutBuf
      rw [paramWrite_ram_eq]
      split
      · rfl
      · rw [Function.update_of_ne h.symm]
  popens := by
    rw [(paramWrite_frame env s p off len src).popens, commandsOf_writeEvents]
    rfl

/-! ## §5 Values -/

/-- The value of a scalar parameter is its `type.size` bytes at its start. -/
theorem paramGet_eq {p : Param} (h : Scalar p) (s : State) :
    paramGet s p = if p.vmem then loadLE s.vmemConfigBuf p.addr p.type.size
      else loadLE (s.ram p.name) 0 p.type.size := by
  obtain ⟨hsize, hstep, -, -⟩ := h.layout
  simp [paramGet, paramGetArray, hsize, hstep]

/-- The value just written is the value read. -/
theorem paramGet_paramWrite {p : Param} (h : Scalar p) (env : Env) (s : State) (v : Nat) :
    paramGet (paramWrite env s p 0 p.type.size (byteLE v)) p = v % 256 ^ p.type.size := by
  obtain ⟨-, -, hstorage, -⟩ := h.layout
  rw [paramGet_eq h]
  cases hv : p.vmem with
  | true =>
    have hin := (h.vmem_layout h hv hv).1
    simp only [if_true, paramWrite_vmemConfigBuf, hv, Nat.add_zero]
    exact loadLE_overwrite hin
  | false =>
    simp only [paramWrite_ram_eq, hv, if_false, Bool.false_eq_true, Function.update_self]
    exact loadLE_overwrite (by omega)

/-- A write does not change the value of another parameter. -/
theorem paramGet_paramWrite_ne {p q : Param} (hp : Scalar p) (hq : Scalar q)
    (hne : q.name ≠ p.name) (env : Env) (s : State) (src : Nat → UInt8) :
    paramGet (paramWrite env s p 0 p.type.size src) q = paramGet s q := by
  rw [paramGet_eq hq, paramGet_eq hq]
  cases hqv : q.vmem with
  | true =>
    simp only [if_true, paramWrite_vmemConfigBuf]
    cases hpv : p.vmem with
    | true =>
      have hdisj := (hq.vmem_layout hp hqv hpv).2 hne
      simp only [if_true, Nat.add_zero]
      exact loadLE_overwrite_disjoint hdisj
    | false => rfl
  | false =>
    simp only [paramWrite_ram_eq, if_false, Bool.false_eq_true]
    split
    · rfl
    · rw [Function.update_of_ne hne]

/-- Callbacks change no scalar parameter. -/
theorem CallbackFrame.paramGet {s s' : State} (h : CallbackFrame s s') {q : Param}
    (hq : Scalar q) : paramGet s' q = paramGet s q := by
  rw [paramGet_eq hq, paramGet_eq hq, h.vmemConfigBuf, h.ram _ hq.name_ne]

/-! ## §6 Setters of numbers -/

/-- The value `PARAM_SET` stores: its argument, converted to the parameter's type. -/
def converted (p : Param) (value : Int) : Nat := (value % 2 ^ (8 * p.type.size)).toNat

/-- A value of the parameter's type is stored as it is. -/
theorem converted_of_lt {p : Param} {v : Nat} (h : v < 2 ^ (8 * p.type.size)) :
    converted p v = v := by
  unfold converted
  rw [show ((2 : Int) ^ (8 * p.type.size)) = ((2 ^ (8 * p.type.size) : Nat) : Int) by simp,
    Int.emod_eq_of_lt (by omega) (by exact_mod_cast h), Int.toNat_natCast]

private theorem converted_mod (p : Param) (value : Int) :
    converted p value % 256 ^ p.type.size = converted p value := by
  apply Nat.mod_eq_of_lt
  have hpow : (2 : Int) ^ (8 * p.type.size) = ((256 ^ p.type.size : Nat) : Int) := by
    rw [Nat.cast_pow, pow_mul]; norm_num
  have hpos : (0 : Int) < 2 ^ (8 * p.type.size) := by positivity
  have hlo := Int.emod_nonneg value hpos.ne'
  have hhi := Int.emod_lt_of_pos value hpos
  unfold converted
  rw [hpow] at hlo hhi ⊢
  omega

/-- The events of one store of a number: the write, then the callback with the new value. -/
def setEvents (env : Env) (s : State) (p : Param) (v : Nat) : List Event :=
  writeEvents p (env.fopen s.fopens) 0 p.type.size ++
    match p.callback with
    | none => []
    | some callback =>
      .callback p.name v :: callbackEvents v (env.popen s.popens)
        (env.fopen (if p.vmem then s.fopens + 1 else s.fopens)) callback

/-- A write stores once, and opens and closes the config file. -/
theorem mem_writeEvents {p : Param} {ok : Bool} {off len : Nat} {e : Event}
    (h : e ∈ writeEvents p ok off len) :
    e = .store p.name off len ∨ e = .fopen .config ok ∨ e = .fclose .config := by
  unfold writeEvents at h
  cases p.vmem <;> cases ok <;> simp at h <;> tauto

/-- A callback runs commands, opens files and prints. -/
theorem mem_callbackEvents {value : Nat} {answer : Option (List (List UInt8))} {ok : Bool}
    {callback : Callback} {e : Event} (h : e ∈ callbackEvents value answer ok callback) :
    e ∈ callbackIo ok callback ∨ (∃ cmd, e = .popen cmd answer.isSome) ∨
      ∃ text ∈ callbackTexts value answer callback, e ∈ printEvents text := by
  unfold callbackEvents at h
  rw [List.mem_append, List.mem_append] at h
  rcases h with (h | h) | h
  · exact .inl h
  · obtain ⟨cmd, -, rfl⟩ := List.mem_map.mp h
    exact .inr (.inl ⟨cmd, rfl⟩)
  · exact .inr (.inr (List.mem_flatMap.mp h))

/-- The events of one store of a number. -/
theorem mem_setEvents {env : Env} {s : State} {p : Param} {v : Nat} {e : Event}
    (h : e ∈ setEvents env s p v) :
    (∃ ok, e ∈ writeEvents p ok 0 p.type.size) ∨ e = .callback p.name v ∨
      ∃ ok callback, p.callback = some callback ∧
        e ∈ callbackEvents v (env.popen s.popens) ok callback := by
  unfold setEvents at h
  rw [List.mem_append] at h
  rcases h with h | h
  · exact .inl ⟨_, h⟩
  · cases hc : p.callback with
    | none => simp [hc] at h
    | some callback =>
      rw [hc] at h
      rcases List.mem_cons.mp h with h | h
      · exact .inr (.inl h)
      · exact .inr (.inr ⟨_, callback, rfl, h⟩)

theorem commandsOf_callbackEvents (value : Nat) (answer : Option (List (List UInt8)))
    (fopenOk : Bool) (callback : Callback) :
    commandsOf (callbackEvents value answer fopenOk callback) =
      callbackCommands value callback := by
  have hio : commandsOf (callbackIo fopenOk callback) = [] := by
    cases callback <;> cases fopenOk <;> rfl
  have htexts : ∀ texts : List (List UInt8), commandsOf (texts.flatMap printEvents) = [] := by
    intro texts
    induction texts with
    | nil => rfl
    | cons text texts ih => rw [List.flatMap_cons, commandsOf_append, ih]; rfl
  have hcmds : ∀ cmds : List Command,
      commandsOf (cmds.map (.popen · answer.isSome)) = cmds := by
    intro cmds
    induction cmds with
    | nil => rfl
    | cons cmd cmds ih => exact congrArg (cmd :: ·) ih
  rw [callbackEvents, commandsOf_append, commandsOf_append, hio, hcmds, htexts]
  simp

theorem commandsOf_setEvents (env : Env) (s : State) (p : Param) (v : Nat) :
    commandsOf (setEvents env s p v) =
      match p.callback with
      | some callback => callbackCommands v callback
      | none => [] := by
  rw [setEvents, commandsOf_append, commandsOf_writeEvents, List.nil_append]
  cases p.callback with
  | none => rfl
  | some callback => exact commandsOf_callbackEvents v _ _ callback

/-- What one store of the number `v` to `p` does. -/
structure NumberSet (env : Env) (s s' : State) (p : Param) (v : Nat) : Prop where
  events : Extends s s' (setEvents env s p v)
  value : paramGet s' p = v
  other : ∀ q, Scalar q → q.name ≠ p.name → paramGet s' q = paramGet s q
  timestamp : s'.timestamp = s.timestamp
  buffers : s'.buffers = s.buffers
  dead : s'.dead = s.dead

theorem Scalar.owner_callback {p : Param} (h : Scalar p) {callback : Callback}
    (hc : p.callback = some callback) : callback.owner = p := by
  rw [h.eq_param] at hc ⊢
  generalize p.name = name at *
  cases name <;> first | (injection hc with hc; subst hc; rfl) | injection hc

/-- The guard of `PARAM_SET` lets index 1 of a scalar through and drops every later one. -/
theorem paramSetArray_beyond {p : Param} (h : Scalar p) {i : Nat} (hi : 2 ≤ i) (env : Env)
    (s : State) (value : Int) : paramSetArray env s p i value = s := by
  have hsize := h.layout.1
  rw [paramSetArray, if_pos (by omega)]

/-- `PARAM_SET` at index 0 or 1 of a scalar: store, then callback. -/
theorem paramSetArray_eq {p : Param} (h : Scalar p) {i : Nat} (hi : i ≤ 1) (env : Env)
    (s : State) (value : Int) :
    paramSetArray env s p i value =
      runCallback env (paramWrite env s p 0 p.type.size (byteLE (converted p value))) p := by
  obtain ⟨hsize, hstep, -, -⟩ := h.layout
  rw [paramSetArray, if_neg (by omega), hstep, Nat.mul_zero]
  rfl

/-- Index 1 of a scalar is index 0 again. -/
theorem paramSetArray_eq_paramSet {p : Param} (hp : Scalar p) {i : Nat} (hi : i ≤ 1) (env : Env)
    (s : State) (value : Int) : paramSetArray env s p i value = paramSet env s p value := by
  rw [paramSet, paramSetArray_eq hp hi, paramSetArray_eq hp (by decide)]

theorem paramSetArray_spec {p : Param} (h : Scalar p) {i : Nat} (hi : i ≤ 1) (env : Env)
    (s : State) (value : Int) :
    NumberSet env s (paramSetArray env s p i value) p (converted p value) := by
  rw [paramSetArray_eq h hi]
  set s₁ := paramWrite env s p 0 p.type.size (byteLE (converted p value)) with hs₁
  have hext : Extends s s₁ _ := paramWrite_extends h.name_ne env s 0 p.type.size _
  have hframe : WriteFrame s s₁ := paramWrite_frame env s p _ _ _
  have hvalue : paramGet s₁ p = converted p value := by
    rw [hs₁, paramGet_paramWrite h, converted_mod]
  have hother : ∀ q, Scalar q → q.name ≠ p.name → paramGet s₁ q = paramGet s q :=
    fun q hq hne => paramGet_paramWrite_ne h hq hne env s _
  unfold runCallback
  cases hc : p.callback with
  | none =>
    refine ⟨?_, hvalue, hother, hframe.timestamp, hframe.buffers, hframe.dead⟩
    simpa [setEvents, hc] using hext
  | some callback =>
    -- the callback runs on the state with the value already in place
    set s₂ := s₁.emit (.callback p.name (paramGet s₁ p)) with hs₂
    have hemit : Extends s₁ s₂ [.callback p.name (paramGet s₁ p)] := extends_emit s₁ rfl rfl
    obtain ⟨hrun, hcframe⟩ := Callback.run_spec env s₂ callback
    have howner : paramGet s₂ callback.owner = converted p value := by
      rw [h.owner_callback hc]; exact hvalue
    have hpopens : s₂.popens = s.popens := hframe.popens
    have hfopens : s₂.fopens = if p.vmem then s.fopens + 1 else s.fopens := by
      show s₁.fopens = _
      rw [hs₁, paramWrite_eq]
    refine ⟨?_, ?_, ?_, ?_, ?_, ?_⟩
    · have hall := (hext.trans hemit).trans hrun
      rw [howner, hpopens, hfopens, hvalue] at hall
      simpa [setEvents, hc] using hall
    · exact (hcframe.paramGet h).trans hvalue
    · intro q hq hne
      exact (hcframe.paramGet hq).trans (hother q hq hne)
    · exact hcframe.timestamp.trans hframe.timestamp
    · exact hcframe.buffers.trans hframe.buffers
    · exact hcframe.dead.trans hframe.dead

end AppSysManager.Node
