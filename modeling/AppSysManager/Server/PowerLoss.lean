import AppSysManager.Server.Sessions

/-!
# The Flag File under Power Loss

`suspend_on_boot_callback` truncates the flag file, writes the value to a buffer and flushes
the buffer when it closes the file; `suspend_on_boot_read` does the same once more at every
boot, with the value it has read.  If power is lost between truncation and flush, the next
boot finds an empty file, and `fscanf` leaves `param_val` as it was: undefined.

A file that cannot be opened for writing is left alone by the callback.  For reading it can be
opened whenever it exists.

- `PoweredSession`: a boot and the pushes after it, with the place where power is lost.
- `Ledger`: the last value whose write was completed, and those interrupted since then.
- `Keeps.follows`: pushes of any form keep the file in step with the ledger of their trace.
- `flagSurvives`: as long as no power loss falls between truncation and flush, every boot
  reads a value of the ledger.
- `tornWrite_lost`: a torn write makes up a value.
-/

namespace AppSysManager.Server

open AppSysManager.Bytes AppSysManager.Mpack AppSysManager.Node

/-! ## §1 Sessions that end with a power loss -/

/-- A setter call of a push that stores to `suspend_on_boot`, and what lies in front of it. -/
structure FlagCall {env : Env} (push : Push env) where
  before : List Item
  header : Option Header
  start : MpackReader
  earlier : List Elem
  call : Elem
  later : List Elem
  after : List Item
  split : packetItems env push.delivery.packet push.delivery.uninit =
    before ++ .known suspendOnBoot header start (earlier ++ call :: later) :: after
  value : Nat
  assigned : call.assignment suspendOnBoot = some ⟨.suspendOnBoot, value⟩

/-- The node when it comes to the call. -/
def FlagCall.reach {env : Env} {push : Push env} (c : FlagCall push) (s : State) : State :=
  let s := execItems env (prologue push.delivery.packet s) c.before
  execElems env suspendOnBoot (stamp s suspendOnBoot (headerTimestamp c.header)) c.earlier

/-- What happens after a boot has got to `suspend_on_boot_read`. -/
inductive Course (env : Env) where
  /-- Power is lost after so many file steps of the callback that the read runs. -/
  | lostInBoot (steps : Nat)
  /-- Pushes are served, and power is lost after the last one. -/
  | served (pushes : List (Push env))
  /-- Power is lost in a further push, after so many file steps of the callback of one of its
      setter calls. -/
  | lostInPush (pushes : List (Push env)) (push : Push env) (call : FlagCall push) (steps : Nat)

/-- A boot, with what the config file holds at that time: one that finds no CAN interface and
    ends before the read, or one that goes on. -/
inductive PoweredSession where
  | offline (env : Env) (config : Option (List UInt8)) (closed : env.canOpen = false)
  | online (env : Env) (config : Option (List UInt8)) (canOpen : env.canOpen = true)
      (course : Course env)

/-- Does the callback that a store to `suspend_on_boot` runs get to open the flag file?  The
    store opens the config file first. -/
def flagOpens (env : Env) (s : State) : Bool := env.fopen (s.fopens + 1)

/-- The flag file when power is lost after some steps of writing a value. -/
def interruptedWrite (env : Env) (s : State) (value steps : Nat) : Option (List Char) :=
  if flagOpens env s then applySteps s.flagFile ((suspendOnBootSteps value).take steps)
  else s.flagFile

/-- The value that `suspend_on_boot_read` stores in the parameter. -/
def readBack (env : Env) (file : Option (List Char)) : Nat :=
  converted suspendOnBoot (bootValue env file)

/-- The node after `main`, on a program loaded next to the two files. -/
def bootState (env : Env) (config : Option (List UInt8)) (file : Option (List Char)) : State :=
  main env (initialState config file)

/-- The node when `suspend_on_boot_read` stores what it has read from a file. -/
def bootStore (env : Env) (config : Option (List UInt8)) (file : Option (List Char)) : State :=
  ((canConfigured (canOpened (loadCanConfig env (initialState config file)))).emit
    (.fopen .suspendOnBoot true)).emit (.fclose .suspendOnBoot)

/-- The flag file that a course leaves behind. -/
def Course.fileAfter {env : Env} (config : Option (List UInt8)) (file : Option (List Char)) :
    Course env → Option (List Char)
  | .lostInBoot steps =>
    if file.isSome then interruptedWrite env (bootStore env config file) (readBack env file) steps
    else file
  | .served pushes => (servePushes env (bootState env config file) pushes).flagFile
  | .lostInPush pushes _ call steps =>
    interruptedWrite env (call.reach (servePushes env (bootState env config file) pushes))
      call.value steps

/-- The flag file that a session leaves behind. -/
def PoweredSession.fileAfter (file : Option (List Char)) : PoweredSession → Option (List Char)
  | .offline env config _ => (bootState env config file).flagFile
  | .online _ config _ course => course.fileAfter config file

/-! ## §2 What a boot may find -/

/-- The last value whose write was completed, the values of the writes that power losses have
    interrupted since then, and the value that a running callback is about to write. -/
structure Ledger where
  completed : Option Nat
  interrupted : List Nat
  writing : Option Nat
  deriving DecidableEq, Repr

/-- The ledger behind an event.  A write is completed when the callback closes its file. -/
def Ledger.observe (ledger : Ledger) : Event → Ledger
  | .callback .suspendOnBoot value => { ledger with writing := some value }
  | .fopen .suspendOnBoot false => { ledger with writing := none }
  | .fclose .suspendOnBoot =>
    match ledger.writing with
    | some value => ⟨some value, [], none⟩
    | none => ledger
  | _ => ledger

/-- The ledger behind a trace. -/
def Ledger.run (ledger : Ledger) (evs : List Event) : Ledger := evs.foldl Ledger.observe ledger

/-- A write that power was lost in after so many steps. -/
def Ledger.interrupt (ledger : Ledger) (env : Env) (s : State) (value steps : Nat) : Ledger :=
  if flagOpens env s then
    if (suspendOnBootSteps value).length ≤ steps then ⟨some value, [], none⟩
    else { ledger with interrupted := value :: ledger.interrupted }
  else ledger

/-- The ledger after a course. -/
def Course.ledgerAfter {env : Env} (config : Option (List UInt8)) (file : Option (List Char))
    (ledger : Ledger) : Course env → Ledger
  | .lostInBoot steps =>
    let s := bootStore env config file
    if file.isSome then (ledger.run s.trace).interrupt env s (readBack env file) steps else ledger
  | .served pushes => ledger.run (servePushes env (bootState env config file) pushes).trace
  | .lostInPush pushes _ call steps =>
    let s := call.reach (servePushes env (bootState env config file) pushes)
    (ledger.run s.trace).interrupt env s call.value steps

/-- The ledger after a session. -/
def PoweredSession.ledgerAfter (file : Option (List Char)) (ledger : Ledger) :
    PoweredSession → Ledger
  | .offline .. => ledger
  | .online _ config _ course => course.ledgerAfter config file ledger

/-- The last completed value, or one that was interrupted since then. -/
def Ledger.Has (ledger : Ledger) (value : Nat) : Prop :=
  ledger.completed = some value ∨ value ∈ ledger.interrupted

/-- The boot reads a value of the ledger, which the parameter then holds too, or `-1` if there
    never was a file, and the cores are suspended accordingly. -/
structure ReadsLedger (env : Env) (config : Option (List UInt8)) (file : Option (List Char))
    (ledger : Ledger) : Prop where
  absent : file = none → bootValue env file = -1 ∧ ledger.completed = none
  present : file.isSome → ∃ v : Nat, bootValue env file = v ∧ ledger.Has v ∧
    paramGet (bootState env config file) suspendOnBoot = v
  decides : Event.system "echo mem > /sys/power/state" ∈ (bootState env config file).trace ↔
    1 ≤ bootValue env file

/-- The boot of a session, if it gets to the read, reads a value of the ledger. -/
def PoweredSession.ReadsLedger (file : Option (List Char)) (ledger : Ledger) :
    PoweredSession → Prop
  | .offline .. => True
  | .online env config _ _ => Server.ReadsLedger env config file ledger

/-- Flag file and ledger after a number of sessions. -/
def flagRun (file : Option (List Char)) (ledger : Ledger) :
    List PoweredSession → Option (List Char) × Ledger
  | [] => (file, ledger)
  | session :: sessions =>
    flagRun (session.fileAfter file) (session.ledgerAfter file ledger) sessions

/-- Every boot of a history reads a value of the ledger. -/
def FlagSurvives (file : Option (List Char)) (ledger : Ledger) (history : List PoweredSession) :
    Prop :=
  ∀ earlier session later, history = earlier ++ session :: later →
    session.ReadsLedger (flagRun file ledger earlier).1 (flagRun file ledger earlier).2

/-- The power loss of a course does not fall between truncation and flush. -/
def Course.NotTorn {env : Env} : Course env → Prop
  | .lostInBoot steps => steps ≠ 1
  | .served _ => True
  | .lostInPush _ _ _ steps => steps ≠ 1

/-- The power loss of a session does not fall between truncation and flush. -/
def PoweredSession.NotTorn : PoweredSession → Prop
  | .offline .. => True
  | .online _ _ _ course => course.NotTorn

/-! ## §3 The invariant -/

/-- The file holds a number of one byte from the ledger, or there is none and never was one. -/
def Holding (ledger : Ledger) : Option (List Char) → Prop
  | none => ledger.completed = none
  | some text => ∃ v : Nat, v < 256 ∧ fscanfInt text = some (v : Int) ∧ ledger.Has v

/-- The file holds a value of the ledger, and no write is going on. -/
structure Recorded (file : Option (List Char)) (ledger : Ledger) : Prop where
  idle : ledger.writing = none
  holding : Holding ledger file

/-- A value that has just been written as a whole. -/
theorem recorded_decimal {v : Nat} (hv : v < 256) :
    Recorded (some (decimal v)) ⟨some v, [], none⟩ :=
  ⟨rfl, v, hv, fscanfInt_decimal (by omega), .inl rfl⟩

/-- Between two nodes of a session, the file keeps up with the ledger of the trace. -/
def Keeps (s s' : State) : Prop :=
  ∃ evs, s'.trace = s.trace ++ evs ∧
    ∀ ledger, Recorded s.flagFile ledger → Recorded s'.flagFile (ledger.run evs)

theorem Keeps.trans {a b c : State} (h : Keeps a b) (h' : Keeps b c) : Keeps a c := by
  obtain ⟨evs, htrace, hkeep⟩ := h
  obtain ⟨evs', htrace', hkeep'⟩ := h'
  refine ⟨evs ++ evs', by rw [htrace', htrace, List.append_assoc], fun ledger hledger => ?_⟩
  rw [Ledger.run, List.foldl_append]
  exact hkeep' _ (hkeep ledger hledger)

/-- The ledger looks at the callback of `suspend_on_boot` and at the flag file only. -/
def FlagEvent : Event → Prop
  | .callback p _ => p = .suspendOnBoot
  | .fopen file _ => file = .suspendOnBoot
  | .fclose file => file = .suspendOnBoot
  | _ => False

theorem Ledger.observe_quiet (ledger : Ledger) {e : Event} (h : ¬ FlagEvent e) :
    ledger.observe e = ledger := by
  cases e with
  | callback p v =>
    cases p with
    | suspendOnBoot => exact absurd rfl h
    | _ => rfl
  | fopen file ok =>
    cases file with
    | suspendOnBoot => exact absurd rfl h
    | config => cases ok <;> rfl
  | fclose file =>
    cases file with
    | suspendOnBoot => exact absurd rfl h
    | config => rfl
  | _ => rfl

theorem Ledger.run_quiet (ledger : Ledger) {evs : List Event} (h : ∀ e ∈ evs, ¬ FlagEvent e) :
    ledger.run evs = ledger := by
  induction evs with
  | nil => rfl
  | cons e evs ih =>
    show (ledger.observe e).run evs = ledger
    rw [ledger.observe_quiet (h e List.mem_cons_self)]
    exact ih fun e' he' => h e' (List.mem_cons_of_mem _ he')

/-- What has nothing to do with the flag file. -/
theorem Keeps.quiet {s s' : State} {evs : List Event} (htrace : s'.trace = s.trace ++ evs)
    (hquiet : ∀ e ∈ evs, ¬ FlagEvent e) (hfile : s'.flagFile = s.flagFile) : Keeps s s' := by
  refine ⟨evs, htrace, fun ledger hledger => ?_⟩
  rwa [ledger.run_quiet hquiet, hfile]

theorem Keeps.refl (s : State) : Keeps s s :=
  Keeps.quiet (List.append_nil _).symm (by simp) rfl

theorem Keeps.emit {s : State} {e : Event} (h : ¬ FlagEvent e) : Keeps s (s.emit e) :=
  Keeps.quiet rfl (by simpa using h) rfl

theorem quiet_writeEvents (p : Param) (ok : Bool) (off len : Nat) :
    ∀ e ∈ writeEvents p ok off len, ¬ FlagEvent e := by
  intro e he
  rcases mem_writeEvents he with rfl | rfl | rfl <;> simp [FlagEvent]

/-! ## §4 Setter calls and packets -/

theorem converted_suspendOnBoot_lt (x : Int) : converted suspendOnBoot x < 256 := by
  have hsize : suspendOnBoot.type.size = 1 := rfl
  rw [converted, hsize]
  omega

/-- The value of a setter call on `suspend_on_boot` is a byte. -/
theorem FlagCall.value_lt {env : Env} {push : Push env} (c : FlagCall push) : c.value < 256 := by
  have h := c.assigned
  unfold Elem.assignment at h
  split at h
  · split at h
    · have hvalue : converted suspendOnBoot _ = c.value :=
        congrArg Assignment.value (Option.some.inj h)
      rw [← hvalue]
      exact converted_suspendOnBoot_lt _
    · cases h
  · cases h

/-- A store to `suspend_on_boot` writes its value as a whole, or not at all. -/
theorem paramSet_suspendOnBoot_keeps (env : Env) (s : State) (x : Int) :
    Keeps s (paramSet env s suspendOnBoot x) := by
  have hset := paramSet_spec scalar_suspendOnBoot env s x
  refine ⟨_, hset.events.trace, fun ledger hledger => ?_⟩
  rw [paramSet_suspendOnBoot_flagFile]
  have hcallback : suspendOnBoot.callback = some .suspendOnBoot := rfl
  have hvmem : suspendOnBoot.vmem = true := rfl
  have hlt := converted_suspendOnBoot_lt x
  -- behind the store, the callback announces the value and tries to open the file
  have hrun : ledger.run (setEvents env s suspendOnBoot (converted suspendOnBoot x)) =
      ({ ledger with writing := some (converted suspendOnBoot x) } : Ledger).run
        (callbackIo (env.fopen (s.fopens + 1)) .suspendOnBoot) := by
    have hquiet := ledger.run_quiet
      (quiet_writeEvents suspendOnBoot (env.fopen s.fopens) 0 suspendOnBoot.type.size)
    rw [Ledger.run] at hquiet
    rw [setEvents, Ledger.run, List.foldl_append, hquiet, hcallback, hvmem]
    simp only [if_true, callbackEvents, callbackCommands, callbackTexts, List.map_nil,
      List.flatMap_nil, List.append_nil]
    rfl
  rw [hrun]
  cases env.fopen (s.fopens + 1) with
  | true => exact recorded_decimal hlt
  | false => exact ⟨rfl, hledger.holding⟩

theorem paramSet_keeps {p : Param} (hp : Scalar p) (env : Env) (s : State) (x : Int) :
    Keeps s (paramSet env s p x) := by
  by_cases hflag : p.name = .suspendOnBoot
  · obtain rfl : p = suspendOnBoot := by rw [hp.eq_param, hflag]; rfl
    exact paramSet_suspendOnBoot_keeps env s x
  · have hset := paramSet_spec hp env s x
    refine Keeps.quiet hset.events.trace ?_ (paramSet_flagFile hp hflag env s x)
    intro e he
    rcases mem_setEvents he with ⟨ok, hmem⟩ | rfl | ⟨ok, callback, hc, hmem⟩
    · exact quiet_writeEvents _ _ _ _ e hmem
    · exact hflag
    · have hne : callback ≠ .suspendOnBoot := by
        rintro rfl
        exact hflag (congrArg Param.name (hp.owner_callback hc)).symm
      rcases mem_callbackEvents hmem with hmem | ⟨cmd, rfl⟩ | ⟨text, -, hmem⟩
      · cases callback <;> simp [callbackIo] at hmem hne
        rcases hmem with rfl | rfl <;> simp [FlagEvent]
      · simp [FlagEvent]
      · simp only [printEvents, List.mem_cons, List.not_mem_nil, or_false] at hmem
        rcases hmem with rfl | rfl | rfl | rfl | rfl <;> simp [FlagEvent]

/-- Answers and timestamps do not matter, and setter calls keep the file in step. -/
theorem Keeps.follows (env : Env) : Follows env fun _ => Keeps where
  answers s s' h := by
    obtain ⟨buffers, evs, hevs, rfl⟩ := h
    refine Keeps.quiet rfl (fun e he hflag => ?_) rfl
    have hserver := hevs e he
    cases e <;> first | exact hserver | exact hflag
  append _ _ _ _ _ h h' := h.trans h'
  stamp s p t := Keeps.quiet (List.append_nil _).symm (by simp) rfl
  assign p hp s x := paramSet_keeps hp env s x

/-- The setter calls of a push in front of one that stores to `suspend_on_boot`. -/
theorem FlagCall.reach_keeps {env : Env} {push : Push env} (c : FlagCall push) (s : State) :
    Keeps s (c.reach s) := by
  have hitems : ∀ item ∈ c.before, item ∈
      packetItems env push.delivery.packet push.delivery.uninit := by
    intro item hitem
    rw [c.split]
    exact List.mem_append_left _ hitem
  have htyped := packetItems_wellTyped env push.delivery.packet push.delivery.uninit
  have hthis : Item.known suspendOnBoot c.header c.start (c.earlier ++ c.call :: c.later) ∈
      packetItems env push.delivery.packet push.delivery.uninit := by
    rw [c.split]
    exact List.mem_append_right _ List.mem_cons_self
  have hfits : ∀ e ∈ c.earlier, e.value.Fits suspendOnBoot.type := fun e he =>
    (htyped _ hthis).2 e (List.mem_append_left _ he)
  have hpro : Keeps s (prologue push.delivery.packet s) := by
    unfold prologue
    split
    · exact Keeps.emit id
    · exact Keeps.refl s
  -- what lies in front of the call: the hwid, whole entries, the stamp, and earlier elements
  have hbefore := (Keeps.follows env).execItems (fun i hi => push.numbers i (hitems i hi))
    (fun i hi => htyped i (hitems i hi)) (prologue push.delivery.packet s)
  have hstamp := (Keeps.follows env).stamp
    (execItems env (prologue push.delivery.packet s) c.before) suspendOnBoot
    (headerTimestamp c.header)
  exact ((hpro.trans hbefore).trans hstamp).trans
    ((Keeps.follows env).execElems scalar_suspendOnBoot hfits _)

/-! ## §5 Boots -/

theorem loadCanConfig_keeps (env : Env) (s : State) : Keeps s (loadCanConfig env s) := by
  have hglobals : ∀ s (addr netmask : Nat),
      Keeps s { s with canAddrVar := addr, canNetmaskVar := netmask } :=
    fun s addr netmask => Keeps.quiet (List.append_nil _).symm (by simp) rfl
  have haddr : ∀ s, Keeps s (defaultCanAddr env s) := by
    intro s
    unfold defaultCanAddr
    split
    · exact (hglobals s CAN_ADDR_DEFAULT _).trans (paramSet_keeps scalar_canAddr env _ _)
    · exact Keeps.refl s
  have hnetmask : ∀ s, Keeps s (defaultCanNetmask env s) := by
    intro s
    unfold defaultCanNetmask
    split
    · exact (hglobals s _ CAN_NETMASK_DEFAULT).trans (paramSet_keeps scalar_canNetmask env _ _)
    · exact Keeps.refl s
  exact (hglobals s _ _).trans ((haddr _).trans (hnetmask _))

/-- `main` up to the boot read. -/
theorem configured_keeps (env : Env) (s : State) :
    Keeps s (canConfigured (canOpened (loadCanConfig env s))) :=
  (loadCanConfig_keeps env s).trans ((Keeps.emit id).trans (Keeps.emit id))

/-- Opening the file for reading and closing it is no write. -/
theorem read_keeps (s : State) :
    Keeps s ((s.emit (.fopen .suspendOnBoot true)).emit (.fclose .suspendOnBoot)) := by
  refine ⟨[.fopen .suspendOnBoot true, .fclose .suspendOnBoot],
    (List.append_assoc s.trace [_] [_]), fun ledger hledger => ?_⟩
  have hsame : ledger.run [.fopen .suspendOnBoot true, .fclose .suspendOnBoot] = ledger := by
    show ledger.observe (.fclose .suspendOnBoot) = ledger
    rw [Ledger.observe, hledger.idle]
  rw [hsame]
  exact hledger

theorem bootDecision_keeps (env : Env) (s : State) : Keeps s (bootDecision env s) := by
  have hread : Keeps s (suspendOnBootRead env s).1 := by
    have hemit : (s.emit (.fopen .suspendOnBoot s.flagFile.isSome)).flagFile = s.flagFile := rfl
    unfold suspendOnBootRead
    dsimp only
    rw [hemit]
    cases hfile : s.flagFile with
    | none =>
      refine ⟨[.fopen .suspendOnBoot false], rfl, fun ledger hledger => ?_⟩
      exact ⟨rfl, hledger.holding⟩
    | some text => exact (read_keeps s).trans (paramSet_keeps scalar_suspendOnBoot env _ _)
  unfold bootDecision
  rcases hr : suspendOnBootRead env s with ⟨s', paramVal⟩
  rw [hr] at hread
  dsimp only at hread ⊢
  split
  · exact hread.trans ((Keeps.emit id).trans (Keeps.emit id))
  · exact hread

theorem bootState_keeps {env : Env} (hopen : env.canOpen = true) (config : Option (List UInt8))
    (file : Option (List Char)) : Keeps (initialState config file) (bootState env config file) := by
  unfold bootState main
  dsimp only
  rw [if_pos hopen]
  exact (configured_keeps env _).trans (bootDecision_keeps env _)

/-- A program starts with an empty trace. -/
theorem Keeps.recorded {config : Option (List UInt8)} {file : Option (List Char)} {s : State}
    (h : Keeps (initialState config file) s) {ledger : Ledger} (hledger : Recorded file ledger) :
    Recorded s.flagFile (ledger.run s.trace) := by
  obtain ⟨evs, htrace, hkeep⟩ := h
  rw [htrace]
  exact hkeep ledger hledger

/-- Losing power outside the gap leaves the old number or the new one. -/
theorem interruptedWrite_recorded {env : Env} {s : State} {ledger : Ledger} {v steps : Nat}
    (h : Recorded s.flagFile ledger) (hv : v < 256) (hsteps : steps ≠ 1) :
    Recorded (interruptedWrite env s v steps) (ledger.interrupt env s v steps) := by
  unfold interruptedWrite Ledger.interrupt
  have hlength : (suspendOnBootSteps v).length = 3 := rfl
  cases flagOpens env s with
  | false => exact h
  | true =>
    rw [if_pos rfl, if_pos rfl, hlength]
    by_cases hall : 3 ≤ steps
    · rw [List.take_of_length_le (by omega), applySteps_suspendOnBootSteps, if_pos hall]
      exact recorded_decimal hv
    · rw [if_neg hall]
      refine ⟨h.idle, ?_⟩
      rcases (by omega : steps = 0 ∨ steps = 2) with rfl | rfl
      -- the file is still the old one
      · show Holding _ s.flagFile
        have hold := h.holding
        cases hfile : s.flagFile with
        | none =>
          rw [hfile] at hold
          exact hold
        | some text =>
          rw [hfile] at hold
          obtain ⟨w, hw, hscan, hhas⟩ := hold
          exact ⟨w, hw, hscan, hhas.imp_right (List.mem_cons_of_mem _)⟩
      -- the file holds the new value already
      · exact ⟨v, hv, fscanfInt_decimal (by omega), .inr List.mem_cons_self⟩

/-- What is read from a file that holds a number of one byte. -/
theorem bootValue_of_scan (env : Env) {text : List Char} {v : Nat} (hv : v < 256)
    (h : fscanfInt text = some (v : Int)) :
    bootValue env (some text) = v ∧ readBack env (some text) = v := by
  have hboot : bootValue env (some text) = v := by simp [bootValue, h]
  exact ⟨hboot, by rw [readBack, hboot]; exact converted_of_lt hv⟩

/-- The files of a session are recorded again at its end. -/
theorem PoweredSession.fileAfter_recorded {session : PoweredSession} (hnt : session.NotTorn)
    {file : Option (List Char)} {ledger : Ledger} (h : Recorded file ledger) :
    Recorded (session.fileAfter file) (session.ledgerAfter file ledger) := by
  cases session with
  -- a boot without the CAN interface ends before it looks at the file
  | offline env config closed =>
    have hfile : (bootState env config file).flagFile = file := (main_failed closed _).1
    rw [PoweredSession.fileAfter, hfile]
    exact h
  | online env config canOpen course =>
    have hboot := bootState_keeps canOpen config file
    have halive : (bootState env config file).dead = false := (main_flag canOpen _).2.2
    have hserved : ∀ pushes : List (Push env), Keeps (initialState config file)
        (servePushes env (bootState env config file) pushes) := fun pushes =>
      hboot.trans ((Keeps.follows env).servePushes pushes halive).1
    cases course with
    | lostInBoot steps =>
      cases file with
      | none => exact h
      -- the boot writes back the value that it has read from the file
      | some text =>
        obtain ⟨v, hv, hscan, -⟩ := h.holding
        obtain ⟨-, hread⟩ := bootValue_of_scan env hv hscan
        have hstore : Keeps (initialState config (some text)) (bootStore env config (some text)) :=
          (configured_keeps env _).trans (read_keeps _)
        exact interruptedWrite_recorded (hstore.recorded h) (hread ▸ hv) hnt
    | served pushes => exact (hserved pushes).recorded h
    | lostInPush pushes push call steps =>
      have hreach := (hserved pushes).trans (call.reach_keeps _)
      exact interruptedWrite_recorded (hreach.recorded h) call.value_lt hnt

theorem flagRun_recorded (sessions : List PoweredSession)
    (hnt : ∀ session ∈ sessions, session.NotTorn) {file : Option (List Char)} {ledger : Ledger}
    (h : Recorded file ledger) :
    Recorded (flagRun file ledger sessions).1 (flagRun file ledger sessions).2 := by
  induction sessions generalizing file ledger with
  | nil => exact h
  | cons session sessions ih =>
    exact ih (fun session' h' => hnt session' (by simp [h']))
      (session.fileAfter_recorded (hnt session (by simp)) h)

/-! ## §6 Every boot reads a value of the ledger -/

theorem readsLedger_of_recorded {env : Env} (hopen : env.canOpen = true)
    (config : Option (List UInt8)) {file : Option (List Char)} {ledger : Ledger}
    (h : Recorded file ledger) : ReadsLedger env config file ledger where
  absent := by
    rintro rfl
    exact ⟨rfl, h.holding⟩
  present := by
    intro hsome
    obtain ⟨text, rfl⟩ := Option.isSome_iff_exists.mp hsome
    obtain ⟨v, hv, hscan, hledger⟩ := h.holding
    obtain ⟨hboot, hread⟩ := bootValue_of_scan env hv hscan
    refine ⟨v, hboot, hledger, ?_⟩
    have hparam := (main_flag hopen (initialState config (some text))).2.1
    exact hparam.trans hread
  decides := by
    have hevents := main_events env (initialState config file)
    rw [if_pos hopen] at hevents
    -- the suspend command is one of the events of a boot
    have hmem : Event.system "echo mem > /sys/power/state" ∈ (bootState env config file).trace ↔
        Event.system "echo mem > /sys/power/state" ∈
          bootEventsOf (main env (initialState config file)).trace := by
      simp [bootState, bootEventsOf, Event.isBoot]
    have hflag : (initialState config file).flagFile = file := rfl
    rw [hmem, hevents, hflag]
    have htrace : bootEventsOf (initialState config file).trace = [] := rfl
    rw [htrace]
    by_cases hone : 1 ≤ bootValue env file
    · simp [hone, suspendEvents, callbackIo]
    · simp [hone]

/-- The ledger of a file that nobody has written to yet. -/
def Ledger.initial (file : Option (List Char)) : Ledger :=
  ⟨(file.bind fscanfInt).map Int.toNat, [], none⟩

/-- The boot-suspend flag survives every history without a torn write: at each boot it is the
    last value whose write was completed, or one whose write was interrupted since then. -/
theorem flagSurvives {file : Option (List Char)}
    (hfile : ∀ text, file = some text → ∃ v : Nat, v < 256 ∧ fscanfInt text = some (v : Int))
    {history : List PoweredSession} (hnt : ∀ session ∈ history, session.NotTorn) :
    FlagSurvives file (Ledger.initial file) history := by
  have hstart : Recorded file (Ledger.initial file) := by
    refine ⟨rfl, ?_⟩
    cases file with
    | none => rfl
    | some text =>
      obtain ⟨v, hv, hscan⟩ := hfile text rfl
      exact ⟨v, hv, hscan, .inl (by simp [Ledger.initial, hscan])⟩
  intro earlier session later hsplit
  have hrec := flagRun_recorded earlier
    (fun session' h' => hnt session' (by simp [hsplit, h'])) hstart
  cases session with
  | offline env config closed => trivial
  | online env config canOpen course => exact readsLedger_of_recorded canOpen config hrec

/-- A V1 push of an array of 1 and 4 to `suspend_on_boot`. -/
def suspendPush : Push plainEnv where
  delivery := deliveryOf [2, 0, 23, 0x92, 1, 4] (by decide)
  push := .inl (by decide)
  numbers := by decide +kernel

/-- The second of its two setter calls. -/
def suspendCall : FlagCall suspendPush where
  before := []
  header := some ⟨23, some 0, 0, -1⟩
  start := ⟨3, 6, .ok, 3⟩
  earlier := [⟨0, .num 1, ⟨5, 6, .ok, 5⟩⟩]
  call := ⟨1, .num 4, ⟨6, 6, .ok, 6⟩⟩
  later := []
  after := []
  split := rfl
  value := 4
  assigned := by decide

/-- Power is lost after so many file steps of that call. -/
def lostSession (steps : Nat) : PoweredSession :=
  .online plainEnv none rfl (.lostInPush [] suspendPush suspendCall steps)

/-- The next boot, on which `param_val` happens to start as 7. -/
def nextSession : PoweredSession :=
  .online { plainEnv with paramVal := 7 } none rfl (.lostInBoot 0)

theorem flagSurvives_flushed :
    FlagSurvives (some ['0']) (Ledger.initial (some ['0']))
      [lostSession 2, nextSession, nextSession] := by
  refine flagSurvives ?_ ?_
  · intro text htext
    obtain rfl := Option.some.inj htext
    exact ⟨0, by decide, by decide⟩
  · intro session hmem
    simp only [List.mem_cons, List.not_mem_nil, or_false] at hmem
    rcases hmem with rfl | rfl | rfl
    · exact (by decide : (2 : Nat) ≠ 1)
    · exact (by decide : (0 : Nat) ≠ 1)
    · exact (by decide : (0 : Nat) ≠ 1)

/-- A write that is torn between truncation and flush makes the next boot read a value that
    nobody ever wrote. -/
theorem tornWrite_lost :
    ¬ FlagSurvives (some ['0']) (Ledger.initial (some ['0'])) [lostSession 1, nextSession] := by
  intro h
  have hreads := h [lostSession 1] nextSession [] rfl
  have hfile : (flagRun (some ['0']) (Ledger.initial (some ['0'])) [lostSession 1]).1 =
      some [] := by decide +kernel
  have hledger : (flagRun (some ['0']) (Ledger.initial (some ['0'])) [lostSession 1]).2 =
      ⟨some 1, [4], none⟩ := by decide +kernel
  rw [hfile, hledger] at hreads
  obtain ⟨v, hboot, hvalue, -⟩ := hreads.present rfl
  have hseven : bootValue { plainEnv with paramVal := 7 } (some []) = 7 := by decide
  have hv : v = 7 := by exact_mod_cast (hseven.symm.trans hboot).symm
  rw [hv] at hvalue
  rcases hvalue with hcompleted | hinterrupted
  · exact absurd hcompleted (by decide)
  · exact absurd hinterrupted (by decide)

end AppSysManager.Server
