import AppSysManager.Node.Main
import AppSysManager.Server.Encoding
import AppSysManager.Server.Malformed

/-!
# Sessions

The life of the node over several boots.  A session starts with `main` on a freshly loaded
program and goes on with the pushes it serves; what the next session finds of it are the
two files.

- `Push`: a push to number parameters as it arrives, of any form: with or without hwid, with
  either kind of acknowledgement, with indices, arrays, and ids that nobody has.
- `Push.assignments`: the numbers it leaves in parameters, one for each setter call that the
  index guard lets through.
- `Session`: a boot and the pushes after it, with all file operations succeeding.
- `Follows`: the rule by which a fact about single setter calls becomes a fact about a run of
  pushes.
- `boot_canOpen`, `boot_canConfig`: the network configuration of a boot.
- `networkKept_iff`: the network configuration survives exactly those histories in which
  nothing but the defaults was ever pushed.
-/

namespace AppSysManager.Server

open AppSysManager.Bytes AppSysManager.Mpack AppSysManager.Node

/-! ## §1 Histories -/

/-- A number that a setter call leaves in a parameter. -/
structure Assignment where
  name : ParamName
  value : Nat
  deriving DecidableEq, Repr

/-- The entry is for a number parameter, or for none. -/
def Item.ForNumber : Item → Prop
  | .known p _ _ _ => p.name ≠ .stdoutBuf
  | .unknown => True

instance : DecidablePred Item.ForNumber
  | .known p _ _ _ => inferInstanceAs (Decidable (p.name ≠ .stdoutBuf))
  | .unknown => inferInstanceAs (Decidable True)

/-- A push as it arrives, with entries for number parameters. -/
structure Push (env : Env) where
  delivery : Delivery
  push : IsPush delivery.packet
  numbers : ∀ item ∈ packetItems env delivery.packet delivery.uninit, item.ForNumber

/-- What a setter call assigns.  The index guard lets the indices 0 and 1 through, and both are
    the parameter itself. -/
def Elem.assignment (p : Param) (e : Elem) : Option Assignment :=
  match e.value with
  | .num x => if e.index ≤ p.arraySize then some ⟨p.name, converted p x⟩ else none
  | _ => none

/-- What an entry assigns. -/
def Item.assignments : Item → List Assignment
  | .known p _ _ elems => elems.filterMap (Elem.assignment p)
  | .unknown => []

/-- What a push assigns, in order. -/
def Push.assignments {env : Env} (push : Push env) : List Assignment :=
  (packetItems env push.delivery.packet push.delivery.uninit).flatMap Item.assignments

/-- Serve a number of pushes. -/
def servePushes (env : Env) (s : State) (pushes : List (Push env)) : State :=
  serveAll env s (pushes.map Push.delivery)

/-- What a number of pushes assign, in order. -/
def assignmentsOf {env : Env} (pushes : List (Push env)) : List Assignment :=
  pushes.flatMap Push.assignments

/-- The values assigned to a parameter, in order. -/
def valuesOf (name : ParamName) (as : List Assignment) : List Nat :=
  as.filterMap fun a => if a.name = name then some a.value else none

/-- The value assigned to a parameter in the end. -/
def lastValue (name : ParamName) (as : List Assignment) : Option Nat := (valuesOf name as).getLast?

/-- What outlives a session. -/
structure Files where
  config : Option (List UInt8)
  flag : Option (List Char)

/-- The program, loaded next to the files of an earlier session. -/
def Files.load (files : Files) : State := initialState files.config files.flag

/-- The files a node leaves behind. -/
def State.files (s : State) : Files := ⟨s.configFile, s.flagFile⟩

/-- A boot and the pushes that are served after it.  All file operations succeed, and a node
    without a CAN interface has ended before it could serve anything. -/
structure Session where
  env : Env
  fopen : ∀ n, env.fopen n = true
  pushes : List (Push env)
  online : env.canOpen = false → pushes = []

/-- The node right after `main`. -/
def Session.boot (session : Session) (files : Files) : State := main session.env files.load

/-- The node at the end of a session. -/
def Session.run (session : Session) (files : Files) : State :=
  servePushes session.env (session.boot files) session.pushes

/-- The files after a number of sessions. -/
def filesAfter (files : Files) (sessions : List Session) : Files :=
  sessions.foldl (fun files session => State.files (session.run files)) files

/-- Everything that was assigned by pushes in a number of sessions. -/
def historyAssignments (sessions : List Session) : List Assignment :=
  sessions.flatMap fun session => assignmentsOf session.pushes

/-- What an entry of a well-formed push is to assign. -/
def PushEntry.assignment (e : PushEntry) : Option Assignment :=
  match e.body with
  | .assign p v => some ⟨p.name, v⟩
  | .unknown .. => none

/-- A well-formed push assigns what its entries say. -/
theorem Encodes.assignments {env : Env} {kind : PushKind} {es : List PushEntry} (push : Push env)
    (h : Encodes env kind es push.delivery.packet) (hvalid : ∀ e ∈ es, e.Valid kind.version) :
    push.assignments = es.filterMap PushEntry.assignment := by
  obtain ⟨bs, hlayout⟩ := h.layout
  have hitems := hlayout.items hvalid push.delivery.uninit
  unfold Push.assignments
  generalize packetItems env push.delivery.packet push.delivery.uninit = items at hitems
  clear h hlayout
  induction hitems with
  | nil => rfl
  | @cons e item es items hd _ ih =>
    have hrest := ih (fun e' he' => hvalid e' (List.mem_cons_of_mem _ he'))
    have he := (hvalid e List.mem_cons_self).body
    obtain ⟨node, timestamp, body⟩ := e
    cases body with
    | assign p v =>
      obtain ⟨header, start, r, rfl, -⟩ := hd
      -- the value is in the range of the type, so it is stored as it is
      have hone : Elem.assignment p ⟨0, .num v, r⟩ = some ⟨p.name, v⟩ := by
        rw [Elem.assignment]
        simp [converted_of_lt he.2]
      rw [List.flatMap_cons, hrest, Item.assignments, List.filterMap_cons_some hone]
      rfl
    | unknown id value =>
      obtain rfl : item = .unknown := hd
      rw [List.flatMap_cons, hrest]
      rfl

/-! ## §2 From setter calls to runs of pushes -/

/-- A relation between the nodes before and after a list of assignments that can be put together
    from single setter calls, and that timestamps and answers do not affect. -/
structure Follows (env : Env) (R : List Assignment → State → State → Prop) : Prop where
  answers : ∀ s s', Answers ServerEvent s s' → R [] s s'
  append : ∀ as bs a b c, R as a b → R bs b c → R (as ++ bs) a c
  stamp : ∀ s p t, R [] s (stamp s p t)
  assign : ∀ p, Scalar p → ∀ s (x : Int), R [⟨p.name, converted p x⟩] s (paramSet env s p x)

section Follows

variable {env : Env} {R : List Assignment → State → State → Prop} (hR : Follows env R)

include hR

theorem Follows.execElems {p : Param} (hp : Scalar p) {elems : List Elem}
    (hfits : ∀ e ∈ elems, e.value.Fits p.type) (s : State) :
    R (elems.filterMap (Elem.assignment p)) s (execElems env p s elems) := by
  induction elems generalizing s with
  | nil => exact hR.answers s s (Answers.refl s)
  | cons e elems ih =>
    have hrest := ih (fun e' he' => hfits e' (List.mem_cons_of_mem _ he'))
      (storeValue env s p e.index e.value)
    obtain ⟨x, hx⟩ := (hfits e List.mem_cons_self).num hp
    obtain ⟨hsize, -⟩ := hp.layout
    rcases Nat.lt_or_ge e.index 2 with hi | hi
    · have hone : Elem.assignment p e = some ⟨p.name, converted p x⟩ := by
        rw [Elem.assignment, hx]
        exact if_pos (by omega)
      have hset : storeValue env s p e.index e.value = paramSet env s p x := by
        rw [hx]
        exact paramSetArray_eq_paramSet hp (by omega) env s x
      rw [List.filterMap_cons_some hone]
      refine hR.append [_] _ s _ _ ?_ hrest
      rw [hset]
      exact hR.assign p hp s x
    · -- the index guard drops this call
      have hnone : Elem.assignment p e = none := by
        rw [Elem.assignment, hx]
        exact if_neg (by omega)
      have hkeep : storeValue env s p e.index e.value = s := by
        rw [hx]
        exact paramSetArray_beyond hp hi env s x
      rw [List.filterMap_cons_none hnone]
      rw [hkeep] at hrest
      show R _ s (Server.execElems env p (storeValue env s p e.index e.value) elems)
      rw [hkeep]
      exact hrest

theorem Follows.execItems {items : List Item} (hnumbers : ∀ item ∈ items, item.ForNumber)
    (htyped : ∀ item ∈ items, item.WellTyped) (s : State) :
    R (items.flatMap Item.assignments) s (execItems env s items) := by
  induction items generalizing s with
  | nil => exact hR.answers s s (Answers.refl s)
  | cons item items ih =>
    have hrest := ih (fun i hi => hnumbers i (List.mem_cons_of_mem _ hi))
      (fun i hi => htyped i (List.mem_cons_of_mem _ hi)) (item.exec env s)
    refine hR.append _ _ s _ _ ?_ hrest
    cases item with
    | unknown => exact hR.answers s s (Answers.refl s)
    | known p header start elems =>
      obtain ⟨hmem, hfits⟩ := htyped _ List.mem_cons_self
      have hp : Scalar p := ⟨hmem, hnumbers _ List.mem_cons_self⟩
      exact hR.append [] _ _ _ _ (hR.stamp s p _) (hR.execElems hp hfits _)

/-- One push.  Numbers do not kill the process. -/
theorem Follows.paramServe (push : Push env) {s : State} (hs : s.dead = false) :
    R push.assignments s (paramServe env push.delivery.packet push.delivery.uninit s) ∧
      (paramServe env push.delivery.packet push.delivery.uninit s).dead = false := by
  have htyped := packetItems_wellTyped env push.delivery.packet push.delivery.uninit
  have hanswer := paramServe_applied env push.delivery.packet push.delivery.uninit hs
  -- taking the hwid off the packet assigns nothing
  have hpro : R [] s (prologue push.delivery.packet s) := by
    apply hR.answers
    unfold prologue
    split
    · exact Answers.emit (e := .fetch _ _ _) trivial
    · exact Answers.refl s
  have hexec := hR.execItems push.numbers htyped (prologue push.delivery.packet s)
  constructor
  · have h := hR.append _ _ _ _ _ (hR.append _ _ _ _ _ hpro hexec) (hR.answers _ _ hanswer)
    simpa [Push.assignments] using h
  · obtain ⟨buffers, evs, -, heq⟩ := hanswer
    rw [heq]
    show (Server.execItems env _ _).dead = false
    rw [execItems_dead, prologue_dead, hs, Bool.false_or, List.any_eq_false]
    -- no entry for a number parameter copies a string
    intro item hitem
    have hnumber := push.numbers item hitem
    obtain htype := htyped item hitem
    cases item with
    | unknown => exact Bool.false_ne_true
    | known p header start elems =>
      simp only [Item.isOverrun, overruns, List.any_eq_true, not_exists, not_and]
      intro e he
      obtain ⟨x, hx⟩ := (htype.2 e he).num ⟨htype.1, hnumber⟩
      rw [hx]
      exact Bool.false_ne_true

/-- A run of pushes. -/
theorem Follows.servePushes (pushes : List (Push env)) {s : State} (hs : s.dead = false) :
    R (assignmentsOf pushes) s (servePushes env s pushes) ∧
      (servePushes env s pushes).dead = false := by
  induction pushes generalizing s with
  | nil => exact ⟨hR.answers s s (Answers.refl s), hs⟩
  | cons push pushes ih =>
    obtain ⟨hone, hdead⟩ := hR.paramServe push hs
    have hstep : Server.servePushes env s (push :: pushes) = Server.servePushes env
        (Server.paramServe env push.delivery.packet push.delivery.uninit s) pushes := by
      simp [Server.servePushes, serveAll, deliver, hs]
    obtain ⟨hrest, hdead'⟩ := ih hdead
    rw [hstep]
    exact ⟨hR.append _ _ _ _ _ hone hrest, hdead'⟩

end Follows

@[simp] theorem valuesOf_append (name : ParamName) (as bs : List Assignment) :
    valuesOf name (as ++ bs) = valuesOf name as ++ valuesOf name bs :=
  List.filterMap_append

/-- Every number parameter holds what was assigned to it last. -/
def Values (as : List Assignment) (s s' : State) : Prop :=
  ∀ q, Scalar q → paramGet s' q = (lastValue q.name as).getD (paramGet s q)

theorem values_follows (env : Env) : Follows env Values where
  answers s s' h := by
    obtain ⟨buffers, evs, -, rfl⟩ := h
    exact fun q _ => rfl
  append as bs a b c h h' := by
    intro q hq
    rw [h' q hq, h q hq, lastValue, lastValue, lastValue, valuesOf_append, List.getLast?_append]
    cases (valuesOf q.name bs).getLast? <;> rfl
  stamp s p t := fun q _ => rfl
  assign p hp s x := by
    have hset := paramSet_spec hp env s x
    intro q hq
    by_cases hname : p.name = q.name
    · obtain rfl : q = p := by rw [hq.eq_param, ← hname, ← hp.eq_param]
      simp [hset.value, lastValue, valuesOf]
    · rw [hset.other q hq (Ne.symm hname)]
      simp [lastValue, valuesOf, hname]

/-! ## §3 The network configuration -/

/-- The node gives this address, and with it this netmask, to the CAN interface. -/
structure GivesCan (s : State) (addr netmask : Nat) : Prop where
  open_iff : ∀ a, Event.canOpen a ∈ s.trace ↔ a = addr
  config : ∀ a m, Event.canConfig a m ∈ s.trace → a = addr ∧ m = netmask

/-- At each boot of the history the CAN interface gets what was pushed last in an earlier
    session, and the defaults where this is nothing or zero. -/
def NetworkKept (files : Files) (history : List Session) : Prop :=
  ∀ earlier session later, history = earlier ++ session :: later →
    GivesCan (session.boot (filesAfter files earlier))
      (orDefault CAN_ADDR_DEFAULT ((lastValue .canAddr (historyAssignments earlier)).getD 0))
      (orDefault CAN_NETMASK_DEFAULT ((lastValue .canNetmask (historyAssignments earlier)).getD 0))

/-- Nothing is stored in the parameters of a program that has just been loaded. -/
theorem load_canConfig (files : Files) :
    paramGet files.load canAddr = 0 ∧ paramGet files.load canNetmask = 0 := by
  have hzero : ∀ p, Scalar p → paramGet files.load p = 0 := by
    intro p hp
    have hload : ∀ off n, loadLE (fun _ => (0 : UInt8)) off n = 0 := by
      intro off n
      induction n with
      | zero => rfl
      | succ n ih => simp [loadLE, ih]
    rw [paramGet_eq hp]
    simp only [Files.load, initialState, hload, ite_self]
  exact ⟨hzero _ scalar_canAddr, hzero _ scalar_canNetmask⟩

/-- The commands of `main` at a boot, whatever is in the files. -/
theorem boot_events (session : Session) (files : Files) :
    bootEventsOf (session.boot files).trace =
      .canOpen CAN_ADDR_DEFAULT :: if session.env.canOpen then
        .canConfig CAN_ADDR_DEFAULT CAN_NETMASK_DEFAULT ::
          if 1 ≤ bootValue session.env files.flag then suspendEvents else []
      else [] := by
  obtain ⟨haddr, hmask⟩ := load_canConfig files
  have h := main_events session.env files.load
  rw [haddr, hmask] at h
  exact h

theorem boot_canOpen (session : Session) (files : Files) (a : Nat) :
    Event.canOpen a ∈ (session.boot files).trace ↔ a = CAN_ADDR_DEFAULT := by
  have hmem : Event.canOpen a ∈ (session.boot files).trace ↔
      Event.canOpen a ∈ bootEventsOf (session.boot files).trace := by
    simp [bootEventsOf, Event.isBoot]
  rw [hmem, boot_events]
  split_ifs <;> simp [suspendEvents, callbackIo]

theorem boot_canConfig (session : Session) (files : Files) (a m : Nat) :
    Event.canConfig a m ∈ (session.boot files).trace ↔
      session.env.canOpen = true ∧ a = CAN_ADDR_DEFAULT ∧ m = CAN_NETMASK_DEFAULT := by
  have hmem : Event.canConfig a m ∈ (session.boot files).trace ↔
      Event.canConfig a m ∈ bootEventsOf (session.boot files).trace := by
    simp [bootEventsOf, Event.isBoot]
  rw [hmem, boot_events]
  split_ifs <;> simp_all [suspendEvents, callbackIo]

/-- What was pushed last stands for the default: nothing, zero, or the default itself. -/
def StandsFor (default : Nat) (pushed : Option Nat) : Prop :=
  pushed = none ∨ pushed = some 0 ∨ pushed = some default

theorem standsFor_iff {default : Nat} (pushed : Option Nat) :
    StandsFor default pushed ↔ orDefault default (pushed.getD 0) = default := by
  cases pushed with
  | none => simp [StandsFor, orDefault]
  | some v =>
    by_cases hv : v = 0
    · simp [StandsFor, orDefault, hv]
    · simp [StandsFor, orDefault, hv]

/-- The network configuration survives a history exactly when, at each of its boots, the
    last push of an earlier session stands for the default: for the address at every boot,
    for the netmask at every boot that gets as far as setting one. -/
theorem networkKept_iff (files : Files) (history : List Session) :
    NetworkKept files history ↔
      ∀ earlier session later, history = earlier ++ session :: later →
        StandsFor CAN_ADDR_DEFAULT (lastValue .canAddr (historyAssignments earlier)) ∧
        (session.env.canOpen = true →
          StandsFor CAN_NETMASK_DEFAULT (lastValue .canNetmask (historyAssignments earlier))) := by
  refine forall_congr' fun earlier => forall_congr' fun session => forall_congr' fun later =>
    forall_congr' fun _ => ?_
  rw [standsFor_iff, standsFor_iff]
  constructor
  · intro h
    refine ⟨((h.open_iff _).mp ((boot_canOpen _ _ _).mpr rfl)).symm, fun hopen => ?_⟩
    exact ((h.config _ _ ((boot_canConfig _ _ _ _).mpr ⟨hopen, rfl, rfl⟩)).2).symm
  · rintro ⟨haddr, hmask⟩
    refine ⟨fun a => ?_, fun a m hmem => ?_⟩
    · rw [boot_canOpen, haddr]
    · obtain ⟨hopen, ha, hm⟩ := (boot_canConfig _ _ _ _).mp hmem
      exact ⟨by rw [ha, haddr], by rw [hm, hmask hopen]⟩

/-- A V1 push of `can_addr = 30`. -/
def canAddrPush : Push plainEnv where
  delivery := deliveryOf [2, 0, 21, 30] (by decide)
  push := .inl (by decide)
  numbers := by decide +kernel

/-- A session in which an address is pushed. -/
def canAddrSession : Session := ⟨plainEnv, plainEnv_fopen, [canAddrPush], fun h => by cases h⟩

/-- An address that was pushed is forgotten at the next boot. -/
theorem canAddr_forgotten : ¬ NetworkKept ⟨none, none⟩ [canAddrSession, canAddrSession] := by
  intro h
  have hopen := (h [canAddrSession] canAddrSession [] rfl).open_iff CAN_ADDR_DEFAULT
  have hwrong := hopen.mp ((boot_canOpen _ _ _).mpr rfl)
  have hlast : lastValue .canAddr (historyAssignments [canAddrSession]) = some 30 := by
    decide +kernel
  rw [hlast] at hwrong
  exact absurd hwrong (by decide)

end AppSysManager.Server
