import AppSysManager.Node.Frame

/-!
# The Start of the Program

`main` of app-sys-manager, with `suspend_on_boot_read`, up to the point where it sleeps for
ever and the packet handlers have the node to themselves.

The CSP library is set up before anything here runs, and `malloc` of the 19 bytes for the
revision string succeeds.  The program is loaded with all of its objects zero; nothing in
it ever calls `vmem_file_init`, which would read the config file back.

- `fscanfInt_decimal`: what the callback writes is read back.
- `main_events`: the address and netmask given to the CAN interface, and the suspension.
- `main_flag`: what becomes of the flag file, and of `suspend_on_boot`.
-/

namespace AppSysManager.Node

open AppSysManager.Bytes

/-! ## §1 `fscanf` -/

/-- The number in front of a text; `none` if it does not start with a digit. -/
def scanDigits (cs : List Char) : Option Nat :=
  match cs.takeWhile Char.isDigit with
  | [] => none
  | digits => some (Nat.ofDigitChars 10 digits 0)

/-- `isspace`. -/
def isSpace (c : Char) : Bool := c.isWhitespace || c.toNat == 11 || c.toNat == 12

/-- `fscanf(file, "%d", &v)` on the content of a file: white space, a sign and digits.  The
    result is `none` when there is no number, and then `v` keeps what it had. -/
def fscanfInt (cs : List Char) : Option Int :=
  match cs.dropWhile isSpace with
  | '-' :: cs => (scanDigits cs).map fun n : Nat => Int.bmod (-(n : Int)) (2 ^ 32)
  | '+' :: cs => (scanDigits cs).map fun n : Nat => Int.bmod (n : Int) (2 ^ 32)
  | cs => (scanDigits cs).map fun n : Nat => Int.bmod (n : Int) (2 ^ 32)

/-- A decimal number is scanned as a whole. -/
theorem scanDigits_decimal (v : Nat) : scanDigits (decimal v) = some v := by
  have hall : (decimal v).takeWhile Char.isDigit = decimal v :=
    List.takeWhile_eq_self_iff.mpr fun c hc =>
      Nat.isDigit_of_mem_toDigits (by decide) (by decide) hc
  have hne : decimal v ≠ [] := Nat.toDigits_ne_nil
  rw [scanDigits, hall]
  split
  · case _ hnil => exact absurd hnil hne
  · exact congrArg some Nat.ofDigitChars_ten_toDigits

/-- What `fprintf(file, "%d", v)` writes is what `fscanf(file, "%d", &v)` reads. -/
theorem fscanfInt_decimal {v : Nat} (h : v < 2 ^ 31) : fscanfInt (decimal v) = some (v : Int) := by
  have hscan := scanDigits_decimal v
  have hmod : Int.bmod v (2 ^ 32) = v := by
    rw [Int.bmod_def]
    omega
  rcases hd : decimal v with _ | ⟨c, cs⟩
  · exact absurd hd Nat.toDigits_ne_nil
  · have hc : c.isDigit = true :=
      Nat.isDigit_of_mem_toDigits (b := 10) (n := v) (by decide) (by decide)
        (show c ∈ decimal v by rw [hd]; simp)
    have hrange : 48 ≤ c.toNat ∧ c.toNat ≤ 57 := by
      simpa [Char.isDigit, UInt32.le_iff_toNat_le] using hc
    -- the first character is neither white space nor a sign
    have hspace : isSpace c = false := by
      have hne : ∀ d : Char, d.toNat < 48 → c ≠ d := by
        rintro d hlt rfl
        omega
      simp [isSpace, Char.isWhitespace, hne ' ' (by decide), hne '\t' (by decide),
        hne '\r' (by decide), hne '\n' (by decide)]
      omega
    have hminus : c ≠ '-' := by rintro rfl; exact absurd hrange.1 (by decide)
    have hplus : c ≠ '+' := by rintro rfl; exact absurd hrange.1 (by decide)
    rw [hd] at hscan
    rw [fscanfInt, List.dropWhile_cons_of_neg (by simp [hspace])]
    split
    · case _ heq => exact absurd (List.cons.inj heq).1 hminus
    · case _ heq => exact absurd (List.cons.inj heq).1 hplus
    · rw [hscan, Option.map_some, hmod]

/-! ## §2 `suspend_on_boot_read` and `main` -/

/-- `CAN_ADDR_DEFAULT`. -/
def CAN_ADDR_DEFAULT : Nat := 21

/-- `CAN_NETMASK_DEFAULT`. -/
def CAN_NETMASK_DEFAULT : Nat := 8

/-- What `suspend_on_boot_read` returns for a flag file: `-1` without a file, and whatever
    `param_val` held before when there is no number in the file. -/
def bootValue (env : Env) : Option (List Char) → Int
  | none => -1
  | some text => (fscanfInt text).getD env.paramVal

/-- `suspend_on_boot_read`. -/
def suspendOnBootRead (env : Env) (s : State) : State × Int :=
  let paramVal := bootValue env s.flagFile
  let s := s.emit (.fopen .suspendOnBoot s.flagFile.isSome)
  if s.flagFile.isSome then
    (paramSet env (s.emit (.fclose .suspendOnBoot)) suspendOnBoot paramVal, paramVal)
  else (s, paramVal)

/-- `if (_can_addr == 0) { ... }` -/
def defaultCanAddr (env : Env) (s : State) : State :=
  if s.canAddrVar = 0 then
    paramSet env { s with canAddrVar := CAN_ADDR_DEFAULT } canAddr CAN_ADDR_DEFAULT
  else s

/-- `if (_can_netmask == 0) { ... }` -/
def defaultCanNetmask (env : Env) (s : State) : State :=
  if s.canNetmaskVar = 0 then
    paramSet env { s with canNetmaskVar := CAN_NETMASK_DEFAULT } canNetmask CAN_NETMASK_DEFAULT
  else s

/-- The part of `main` in front of the CAN interface: the globals are loaded from the
    parameters, and defaults are stored for those that are zero. -/
def loadCanConfig (env : Env) (s : State) : State :=
  defaultCanNetmask env (defaultCanAddr env
    { s with canAddrVar := paramGet s canAddr, canNetmaskVar := paramGet s canNetmask })

/-- `csp_can_socketcan_open_and_add_interface`. -/
def canOpened (s : State) : State := s.emit (.canOpen s.canAddrVar)

/-- Address and netmask are written to the interface. -/
def canConfigured (s : State) : State := s.emit (.canConfig s.canAddrVar s.canNetmaskVar)

/-- `if (suspend_on_boot_read() >= 1) suspend_a53_callback();` -/
def bootDecision (env : Env) (s : State) : State :=
  match suspendOnBootRead env s with
  | (s, paramVal) => if 1 ≤ paramVal then suspendA53Callback s else s

/-- `main`, up to its endless loop. -/
def main (env : Env) (s : State) : State :=
  let s := canOpened (loadCanConfig env s)
  if env.canOpen then bootDecision env (canConfigured s)
  else
    -- `return error;`
    { cspPrintFunc env s (asciiBytes "Failed to open CAN interface\n") with dead := true }

/-! ## §3 The flag file -/

/-- The steps of the callback, taken together. -/
theorem applySteps_suspendOnBootSteps (file : Option (List Char)) (v : Nat) :
    applySteps file (suspendOnBootSteps v) = some (decimal v) := rfl

/-- A store to `suspend_on_boot` puts its value into the flag file, if the file can be opened.
    The store itself opens the config file first. -/
theorem paramSet_suspendOnBoot_flagFile (env : Env) (s : State) (value : Int) :
    (paramSet env s suspendOnBoot value).flagFile =
      if env.fopen (s.fopens + 1) then some (decimal (converted suspendOnBoot value))
      else s.flagFile := by
  have hp : Scalar suspendOnBoot := ⟨by decide, by decide⟩
  have hset := (paramSetArray_spec hp (i := 0) (by decide) env s value).value
  change paramGet (paramSet env s suspendOnBoot value) suspendOnBoot = _ at hset
  rw [← hset]
  -- the callback reads the value from the state that it then writes to the file
  rw [paramSet, paramSetArray_eq hp (by decide)]
  have hfopens : ∀ off len src, (paramWrite env s suspendOnBoot off len src).fopens =
      s.fopens + 1 := by
    intro off len src
    rw [paramWrite_eq]
    rfl
  have hflag : ∀ off len src, (paramWrite env s suspendOnBoot off len src).flagFile =
      s.flagFile := fun off len src => (paramWrite_frame env s _ off len src).flagFile
  have hcallback : suspendOnBoot.callback = some .suspendOnBoot := rfl
  simp only [runCallback, hcallback, Callback.run, suspendOnBootCallback, State.emit, hfopens]
  split
  · simp only [applySteps_suspendOnBootSteps]
    rfl
  · exact hflag _ _ _

/-- A store to any other number parameter leaves the flag file alone. -/
theorem paramSet_flagFile {p : Param} (hp : Scalar p) (hne : p.name ≠ .suspendOnBoot) (env : Env)
    (s : State) (value : Int) : (paramSet env s p value).flagFile = s.flagFile := by
  rw [paramSet, paramSetArray_eq hp (by decide), runCallback]
  cases hc : p.callback with
  | none => exact (paramWrite_frame env s p _ _ _).flagFile
  | some callback =>
    have hcb : callback ≠ .suspendOnBoot := by
      rintro rfl
      exact hne (congrArg Param.name (hp.owner_callback hc)).symm
    exact (Callback.run_flagFile hcb env _).trans (paramWrite_frame env s p _ _ _).flagFile

/-! ## §4 The network configuration -/

/-- Is the event about the CAN interface, or a `system` command? -/
def Event.isBoot : Event → Bool
  | .canOpen _ => true
  | .canConfig .. => true
  | .system _ => true
  | _ => false

/-- What is done to the CAN interface, and by `system`, in a trace. -/
def bootEventsOf (evs : List Event) : List Event := evs.filter Event.isBoot

@[simp] theorem bootEventsOf_append (as bs : List Event) :
    bootEventsOf (as ++ bs) = bootEventsOf as ++ bootEventsOf bs := List.filter_append ..

theorem bootEventsOf_printEvents (text : List UInt8) : bootEventsOf (printEvents text) = [] := rfl

/-- Setters have nothing to do with the CAN interface, and of the callbacks only that of
    `suspend_a53` calls `system`. -/
theorem bootEventsOf_setEvents {p : Param} (hp : p.callback ≠ some .suspendA53) (env : Env)
    (s : State) (v : Nat) : bootEventsOf (setEvents env s p v) = [] := by
  refine List.filter_eq_nil_iff.mpr fun e he => ?_
  rcases mem_setEvents he with ⟨ok, h⟩ | rfl | ⟨ok, callback, hc, h⟩
  · rcases mem_writeEvents h with rfl | rfl | rfl <;> exact Bool.false_ne_true
  · exact Bool.false_ne_true
  · rcases mem_callbackEvents h with h | ⟨cmd, rfl⟩ | ⟨text, -, h⟩
    · have hio : bootEventsOf (callbackIo ok callback) = [] := by
        cases callback with
        | suspendA53 => exact absurd hc hp
        | _ => cases ok <;> rfl
      exact List.filter_eq_nil_iff.mp hio e h
    · exact Bool.false_ne_true
    · exact List.filter_eq_nil_iff.mp (bootEventsOf_printEvents text) e h

theorem scalar_canAddr : Scalar canAddr := ⟨by decide, by decide⟩

theorem scalar_canNetmask : Scalar canNetmask := ⟨by decide, by decide⟩

theorem scalar_suspendOnBoot : Scalar suspendOnBoot := ⟨by decide, by decide⟩

/-- A setter call of `main`, which always uses index 0. -/
theorem paramSet_spec {p : Param} (h : Scalar p) (env : Env) (s : State) (value : Int) :
    NumberSet env s (paramSet env s p value) p (converted p value) :=
  paramSetArray_spec h (by decide) env s value

/-- The callback of `can_addr` copies the parameter to the global. -/
theorem paramSet_canAddr_vars (env : Env) (s : State) (value : Int) :
    (paramSet env s canAddr value).canAddrVar = converted canAddr value ∧
      (paramSet env s canAddr value).canNetmaskVar = s.canNetmaskVar := by
  have hvalue := (paramSet_spec scalar_canAddr env s value).value
  rw [paramSet, paramSetArray_eq scalar_canAddr (by decide)] at hvalue ⊢
  refine ⟨hvalue, ?_⟩
  rw [paramWrite_eq]
  rfl

/-- The callback of `can_netmask` copies the parameter to the global. -/
theorem paramSet_canNetmask_vars (env : Env) (s : State) (value : Int) :
    (paramSet env s canNetmask value).canNetmaskVar = converted canNetmask value ∧
      (paramSet env s canNetmask value).canAddrVar = s.canAddrVar := by
  have hvalue := (paramSet_spec scalar_canNetmask env s value).value
  rw [paramSet, paramSetArray_eq scalar_canNetmask (by decide)] at hvalue ⊢
  refine ⟨hvalue, ?_⟩
  rw [paramWrite_eq]
  rfl

/-- A value, or the default in place of zero. -/
def orDefault (default value : Nat) : Nat := if value = 0 then default else value

/-- What storing a default leaves alone. -/
structure DefaultFrame (s s' : State) : Prop where
  events : ∃ evs, s'.trace = s.trace ++ evs ∧ bootEventsOf evs = []
  suspendOnBoot : paramGet s' suspendOnBoot = paramGet s suspendOnBoot
  flagFile : s'.flagFile = s.flagFile
  dead : s'.dead = s.dead

theorem DefaultFrame.trans {a b c : State} (h : DefaultFrame a b) (h' : DefaultFrame b c) :
    DefaultFrame a c := by
  obtain ⟨evs, htrace, hevs⟩ := h.events
  obtain ⟨evs', htrace', hevs'⟩ := h'.events
  refine ⟨⟨evs ++ evs', ?_, ?_⟩, h'.suspendOnBoot.trans h.suspendOnBoot,
    h'.flagFile.trans h.flagFile, h'.dead.trans h.dead⟩
  · rw [htrace', htrace, List.append_assoc]
  · rw [bootEventsOf_append, hevs, hevs']
    rfl

/-- A setter call on another parameter than `suspend_on_boot`. -/
private theorem paramSet_defaultFrame {p : Param} (hp : Scalar p) (hne : p.name ≠ .suspendOnBoot)
    (hc : p.callback ≠ some .suspendA53) (env : Env) (s : State) (value : Int) :
    DefaultFrame s (paramSet env s p value) where
  events := ⟨_, (paramSet_spec hp env s value).events.trace, bootEventsOf_setEvents hc ..⟩
  suspendOnBoot := (paramSet_spec hp env s value).other _ scalar_suspendOnBoot (Ne.symm hne)
  flagFile := paramSet_flagFile hp hne env s value
  dead := (paramSet_spec hp env s value).dead

/-- A change of the globals alone. -/
private theorem globals_defaultFrame (s : State) (addr netmask : Nat) :
    DefaultFrame s { s with canAddrVar := addr, canNetmaskVar := netmask } :=
  ⟨⟨[], by simp, rfl⟩, rfl, rfl, rfl⟩

theorem defaultCanAddr_spec (env : Env) (s : State) :
    (defaultCanAddr env s).canAddrVar = orDefault CAN_ADDR_DEFAULT s.canAddrVar ∧
      (defaultCanAddr env s).canNetmaskVar = s.canNetmaskVar ∧
      DefaultFrame s (defaultCanAddr env s) := by
  unfold defaultCanAddr orDefault
  split
  · obtain ⟨hvar, hmask⟩ := paramSet_canAddr_vars env { s with canAddrVar := CAN_ADDR_DEFAULT }
      CAN_ADDR_DEFAULT
    exact ⟨hvar.trans (by decide), hmask, (globals_defaultFrame s CAN_ADDR_DEFAULT _).trans
      (paramSet_defaultFrame scalar_canAddr (by decide) (by decide) env _ _)⟩
  · exact ⟨rfl, rfl, globals_defaultFrame s _ _⟩

theorem defaultCanNetmask_spec (env : Env) (s : State) :
    (defaultCanNetmask env s).canNetmaskVar = orDefault CAN_NETMASK_DEFAULT s.canNetmaskVar ∧
      (defaultCanNetmask env s).canAddrVar = s.canAddrVar ∧
      DefaultFrame s (defaultCanNetmask env s) := by
  unfold defaultCanNetmask orDefault
  split
  · obtain ⟨hvar, haddr⟩ := paramSet_canNetmask_vars env
      { s with canNetmaskVar := CAN_NETMASK_DEFAULT } CAN_NETMASK_DEFAULT
    exact ⟨hvar.trans (by decide), haddr, (globals_defaultFrame s _ CAN_NETMASK_DEFAULT).trans
      (paramSet_defaultFrame scalar_canNetmask (by decide) (by decide) env _ _)⟩
  · exact ⟨rfl, rfl, globals_defaultFrame s _ _⟩

/-- The globals hold the parameters, with the defaults in place of zeros. -/
theorem loadCanConfig_spec (env : Env) (s : State) :
    (loadCanConfig env s).canAddrVar = orDefault CAN_ADDR_DEFAULT (paramGet s canAddr) ∧
      (loadCanConfig env s).canNetmaskVar =
        orDefault CAN_NETMASK_DEFAULT (paramGet s canNetmask) ∧
      DefaultFrame s (loadCanConfig env s) := by
  set s₀ : State :=
    { s with canAddrVar := paramGet s canAddr, canNetmaskVar := paramGet s canNetmask }
  obtain ⟨haddr, hkeep, hframe⟩ := defaultCanAddr_spec env s₀
  obtain ⟨hmask, hkeep', hframe'⟩ := defaultCanNetmask_spec env (defaultCanAddr env s₀)
  refine ⟨hkeep'.trans haddr, hmask.trans (by rw [hkeep]), ?_⟩
  exact ((globals_defaultFrame s _ _).trans hframe).trans hframe'

/-! ## §5 A whole start -/

/-- What `suspend_on_boot_read` does with the flag file, which it may fail to write. -/
theorem suspendOnBootRead_spec (env : Env) (s : State) :
    (suspendOnBootRead env s).2 = bootValue env s.flagFile ∧
      (suspendOnBootRead env s).1.flagFile = s.flagFile.map (fun text =>
        if env.fopen (s.fopens + 1) then decimal (converted suspendOnBoot (bootValue env s.flagFile))
        else text) ∧
      paramGet (suspendOnBootRead env s).1 suspendOnBoot =
        (if s.flagFile.isSome then converted suspendOnBoot (bootValue env s.flagFile)
          else paramGet s suspendOnBoot) := by
  cases hfile : s.flagFile with
  | none => simp [suspendOnBootRead, State.emit, hfile, paramGet, paramGetArray]
  | some text =>
    simp only [suspendOnBootRead, State.emit, hfile, Option.isSome_some, if_true, Option.map_some]
    refine ⟨trivial, ?_, (paramSet_spec scalar_suspendOnBoot env _ _).value⟩
    rw [paramSet_suspendOnBoot_flagFile]
    dsimp only
    split
    · rfl
    · rfl

/-- The CAN interface is not touched by the boot read, and the process survives it. -/
theorem suspendOnBootRead_frame (env : Env) (s : State) :
    (∃ evs, (suspendOnBootRead env s).1.trace = s.trace ++ evs ∧ bootEventsOf evs = []) ∧
      (suspendOnBootRead env s).1.dead = s.dead := by
  unfold suspendOnBootRead
  dsimp only
  split
  · set s₁ := (s.emit (.fopen .suspendOnBoot s.flagFile.isSome)).emit (.fclose .suspendOnBoot)
      with hs₁
    have hset := paramSet_spec scalar_suspendOnBoot env s₁ (bootValue env s.flagFile)
    refine ⟨⟨[.fopen .suspendOnBoot s.flagFile.isSome, .fclose .suspendOnBoot] ++
      setEvents env s₁ suspendOnBoot (converted suspendOnBoot (bootValue env s.flagFile)), ?_, ?_⟩,
      hset.dead⟩
    · rw [hset.events.trace, hs₁]
      simp [State.emit]
    · rw [bootEventsOf_append, bootEventsOf_setEvents (by decide)]
      rfl
  · exact ⟨⟨[.fopen .suspendOnBoot s.flagFile.isSome], rfl, rfl⟩, rfl⟩

/-- The commands of `suspend_a53_callback`. -/
def suspendEvents : List Event := callbackIo true .suspendA53

theorem bootDecision_events (env : Env) (s : State) :
    bootEventsOf (bootDecision env s).trace =
      bootEventsOf s.trace ++ if 1 ≤ bootValue env s.flagFile then suspendEvents else [] := by
  obtain ⟨⟨evs, htrace, hevs⟩, -⟩ := suspendOnBootRead_frame env s
  have hread : bootEventsOf (suspendOnBootRead env s).1.trace = bootEventsOf s.trace := by
    rw [htrace, bootEventsOf_append, hevs, List.append_nil]
  have hvalue : (suspendOnBootRead env s).2 = bootValue env s.flagFile := by
    unfold suspendOnBootRead
    dsimp only
    split <;> rfl
  unfold bootDecision
  rcases hr : suspendOnBootRead env s with ⟨s', paramVal⟩
  rw [hr] at hread hvalue
  dsimp only at hread hvalue ⊢
  rw [← hvalue]
  split
  · simp only [suspendA53Callback, State.emit, bootEventsOf_append, hread, List.append_assoc]
    rfl
  · rw [hread, List.append_nil]

/-- What `main` does to the CAN interface, and whether it suspends the cores. -/
theorem main_events (env : Env) (s : State) :
    bootEventsOf (main env s).trace =
      bootEventsOf s.trace ++
        .canOpen (orDefault CAN_ADDR_DEFAULT (paramGet s canAddr)) ::
          if env.canOpen then
            .canConfig (orDefault CAN_ADDR_DEFAULT (paramGet s canAddr))
              (orDefault CAN_NETMASK_DEFAULT (paramGet s canNetmask)) ::
              if 1 ≤ bootValue env s.flagFile then suspendEvents else []
          else [] := by
  obtain ⟨haddr, hmask, hframe⟩ := loadCanConfig_spec env s
  obtain ⟨evs, htrace, hevs⟩ := hframe.events
  unfold main
  dsimp only
  rw [← haddr, ← hmask, ← hframe.flagFile]
  -- the rest of `main` reads the globals, not the parameters
  generalize loadCanConfig env s = s₁ at htrace
  have hs₁ : bootEventsOf s₁.trace = bootEventsOf s.trace := by
    rw [htrace, bootEventsOf_append, hevs, List.append_nil]
  cases env.canOpen with
  | true =>
    simp only [if_true]
    rw [bootDecision_events]
    simp only [canConfigured, canOpened, State.emit, bootEventsOf_append, hs₁, List.append_assoc]
    rfl
  -- without the interface the program prints a message and ends
  | false =>
    simp only [Bool.false_eq_true, if_false]
    rw [(cspPrintFunc_extends env _ _).trace, bootEventsOf_append, bootEventsOf_printEvents]
    simp only [canOpened, State.emit, bootEventsOf_append, hs₁, List.append_nil]
    rfl

theorem bootDecision_flag (env : Env) (s : State) :
    (bootDecision env s).flagFile = s.flagFile.map (fun text =>
        if env.fopen (s.fopens + 1) then decimal (converted suspendOnBoot (bootValue env s.flagFile))
        else text) ∧
      paramGet (bootDecision env s) suspendOnBoot =
        (if s.flagFile.isSome then converted suspendOnBoot (bootValue env s.flagFile)
          else paramGet s suspendOnBoot) ∧
      (bootDecision env s).dead = s.dead := by
  obtain ⟨-, hfile, hparam⟩ := suspendOnBootRead_spec env s
  have hdead := (suspendOnBootRead_frame env s).2
  unfold bootDecision
  rcases hr : suspendOnBootRead env s with ⟨s', paramVal⟩
  rw [hr] at hfile hparam hdead
  dsimp only at hfile hparam hdead ⊢
  split
  · exact ⟨hfile, hparam, hdead⟩
  · exact ⟨hfile, hparam, hdead⟩

/-- Does the boot read get to write the flag file? -/
def bootWrites (env : Env) (s : State) : Bool := env.fopen ((loadCanConfig env s).fopens + 1)

/-- What `main` does to the flag file and to `suspend_on_boot`. -/
theorem main_flag {env : Env} (hopen : env.canOpen = true) (s : State) :
    (main env s).flagFile = s.flagFile.map (fun text =>
        if bootWrites env s then decimal (converted suspendOnBoot (bootValue env s.flagFile))
        else text) ∧
      paramGet (main env s) suspendOnBoot =
        (if s.flagFile.isSome then converted suspendOnBoot (bootValue env s.flagFile)
          else paramGet s suspendOnBoot) ∧
      (main env s).dead = s.dead := by
  obtain ⟨-, -, hframe⟩ := loadCanConfig_spec env s
  unfold main bootWrites
  dsimp only
  rw [if_pos hopen, ← hframe.flagFile, ← hframe.suspendOnBoot, ← hframe.dead]
  generalize loadCanConfig env s = s₁
  exact bootDecision_flag env (canConfigured (canOpened s₁))

/-- A start that finds no CAN interface ends the program and leaves the flag file alone. -/
theorem main_failed {env : Env} (hopen : env.canOpen = false) (s : State) :
    (main env s).flagFile = s.flagFile ∧ (main env s).dead = true := by
  obtain ⟨-, -, hframe⟩ := loadCanConfig_spec env s
  unfold main
  dsimp only
  rw [if_neg (by simp [hopen]), ← hframe.flagFile]
  generalize loadCanConfig env s = s₁
  dsimp only
  rw [cspPrintFunc_flagFile]
  exact ⟨rfl, rfl⟩

end AppSysManager.Node
