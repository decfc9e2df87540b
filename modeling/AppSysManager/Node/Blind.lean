import AppSysManager.Node.Frame

/-!
# Nothing Reads the Trace

The trace and the timestamps are written and never looked at by setters and callbacks: two
nodes that differ in nothing else do the same.  This is what makes runs from different
packets comparable.
-/

namespace AppSysManager.Node

open AppSysManager.Bytes

/-- `s` with another trace and other timestamps. -/
def State.relabel (s : State) (trace : List Event) (timestamp : ParamName → Nat) : State :=
  { s with trace, timestamp }

/-- `f` does not depend on the trace and the timestamps. -/
def Blind (f : State → State) : Prop :=
  ∀ s trace timestamp, ∃ trace', f (s.relabel trace timestamp) = (f s).relabel trace' timestamp

theorem Blind.id : Blind fun s => s := fun _ trace _ => ⟨trace, rfl⟩

theorem Blind.comp {f g : State → State} (hf : Blind f) (hg : Blind g) :
    Blind fun s => g (f s) := by
  intro s trace timestamp
  obtain ⟨trace', hf'⟩ := hf s trace timestamp
  obtain ⟨trace'', hg'⟩ := hg (f s) trace' timestamp
  exact ⟨trace'', by simp only [hf', hg']⟩

theorem Blind.emit {e : State → Event}
    (he : ∀ s trace timestamp, e (s.relabel trace timestamp) = e s) :
    Blind fun s => s.emit (e s) := by
  intro s trace timestamp
  exact ⟨trace ++ [e s], by simp only [he]; rfl⟩

theorem Blind.paramWrite (env : Env) (p : Param) (off len : Nat) (src : Nat → UInt8) :
    Blind fun s => paramWrite env s p off len src := by
  intro s trace timestamp
  refine ⟨trace ++ writeEvents p (env.fopen s.fopens) off len, ?_⟩
  dsimp only
  rw [paramWrite_eq, paramWrite_eq]
  rfl

theorem Blind.cspPrintFunc (env : Env) (text : List UInt8) :
    Blind fun s => cspPrintFunc env s text := by
  intro s trace timestamp
  refine ⟨trace ++ printEvents (printed text), ?_⟩
  dsimp only
  rw [cspPrintFunc_eq, cspPrintFunc_eq]
  rfl

theorem Blind.printLines (env : Env) (lines : List (List UInt8)) :
    Blind fun s => printLines env s lines := by
  induction lines with
  | nil => exact Blind.id
  | cons line lines ih => exact (Blind.cspPrintFunc env (cString line)).comp ih

/-- What follows a `popen` may depend on the answer, which comes from the environment. -/
private theorem Blind.answer (env : Env) (cmd : Command) {fail : State → State}
    (hfail : Blind fail) (next : List (List UInt8) → State → State)
    (hnext : ∀ lines, Blind (next lines)) :
    Blind fun s => match popen env s cmd with
      | (s, none) => fail s
      | (s, some lines) => next lines s := by
  intro s trace timestamp
  set trace' := trace ++ [Event.popen cmd (env.popen s.popens).isSome]
  have hs : popen env s cmd = ((popen env s cmd).1, env.popen s.popens) := rfl
  have hr : popen env (s.relabel trace timestamp) cmd =
    ((popen env s cmd).1.relabel trace' timestamp, env.popen s.popens) := rfl
  dsimp only
  rw [hs, hr]
  cases env.popen s.popens with
  | none => exact hfail _ trace' timestamp
  | some lines => exact hnext lines _ trace' timestamp

private theorem Blind.mngCallback (env : Env) (p : Param) (kill : Command)
    (start : Nat → Command) : Blind fun s => mngCallback env s p kill start := by
  intro s trace timestamp
  have hkill := Blind.answer env kill
    (Blind.cspPrintFunc env (asciiBytes "Failed to run command\n")) (fun lines s =>
      Node.printLines env s lines) (Blind.printLines env) s trace timestamp
  have hstart := Blind.answer env (start (paramGet s p))
    (Blind.cspPrintFunc env (asciiBytes ("Failed " ++ (start (paramGet s p)).text ++ "\n")))
    (fun _ s => s) (fun _ => Blind.id) s trace timestamp
  have hget : paramGet (s.relabel trace timestamp) p = paramGet s p := rfl
  simp only [Node.mngCallback, hget]
  by_cases h : paramGet s p = 0
  · simp only [h, if_true]
    exact hkill
  · simp only [h, if_false]
    exact hstart

theorem Blind.callback (env : Env) (callback : Callback) : Blind fun s => callback.run env s := by
  cases callback with
  | canAddr => exact fun s trace timestamp => ⟨trace, rfl⟩
  | canNetmask => exact fun s trace timestamp => ⟨trace, rfl⟩
  | suspendOnBoot =>
    intro s trace timestamp
    show ∃ trace', suspendOnBootCallback env (s.relabel trace timestamp) =
      (suspendOnBootCallback env s).relabel trace' timestamp
    have hfopens : (s.relabel trace timestamp).fopens = s.fopens := rfl
    unfold suspendOnBootCallback
    cases hok : env.fopen s.fopens with
    | true => exact ⟨_, by simp only [hfopens, hok]; rfl⟩
    | false => exact ⟨_, by simp only [hfopens, hok]; rfl⟩
  | suspendA53 => exact fun s trace timestamp => ⟨_, rfl⟩
  | vimbaInstall =>
    exact Blind.answer env .vimbaInstall (Blind.cspPrintFunc env _) _ (Blind.printLines env)
  | mngCameraControl => exact Blind.mngCallback env _ _ _
  | mngDipp => exact Blind.mngCallback env _ _ _

theorem Blind.runCallback (env : Env) (p : Param) : Blind fun s => runCallback env s p := by
  unfold Node.runCallback
  cases p.callback with
  | none => exact Blind.id
  | some callback =>
    exact (Blind.emit (e := fun s => .callback p.name (paramGet s p)) fun _ _ _ => rfl).comp
      (Blind.callback env callback)

theorem Blind.paramSet {p : Param} (h : Scalar p) (env : Env) (value : Int) :
    Blind fun s => paramSet env s p value := by
  have heq : (fun s => Node.paramSet env s p value) = fun s =>
      Node.runCallback env (Node.paramWrite env s p 0 p.type.size (byteLE (converted p value))) p :=
    funext fun s => paramSetArray_eq h (by decide) env s value
  rw [heq]
  exact (Blind.paramWrite env p 0 p.type.size _).comp (Blind.runCallback env p)

/-- A setter call appends the same events whatever the trace holds. -/
theorem paramSet_relabel {p : Param} (h : Scalar p) (env : Env) (s : State) (value : Int)
    (trace : List Event) (timestamp : ParamName → Nat) :
    paramSet env (s.relabel trace timestamp) p value =
      (paramSet env s p value).relabel (trace ++ setEvents env s p (converted p value))
        timestamp := by
  obtain ⟨trace', hblind⟩ := Blind.paramSet h env value s trace timestamp
  have htrace : trace' = trace ++ setEvents env s p (converted p value) := by
    have hset := paramSetArray_spec h (i := 0) (by decide) env (s.relabel trace timestamp) value
    have heq := hset.events.trace
    change (paramSet env (s.relabel trace timestamp) p value).trace = _ at heq
    dsimp only at hblind
    rw [hblind] at heq
    exact heq
  rw [← htrace]
  exact hblind

end AppSysManager.Node
