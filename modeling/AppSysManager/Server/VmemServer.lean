import Mathlib.Data.List.GetD
import AppSysManager.Server.Confined
import AppSysManager.Server.Runs

/-!
# Uploads to the Vmem Server

`vmem_memcpy` and the upload request of `vmem_server_handler`, which writes whatever it
receives to the address it was given.  The one vmem area of the program is `vmem_config`;
addresses are offsets from its start.  A packet that lies inside the area goes through
`vmem_file_write`, any other one through a plain `memcpy` that no file sees.

The vmem server has a thread of its own, beside that of the router, so that its packets and
those on the parameter port come in any order.  There is no lock between the two threads: a
step stands for a packet that is served while the other thread waits.

The byte at offset 0x100 is the value of `suspend_on_boot`.  Its second copy is the flag
file, which only the parameter's callback writes.

- `Step.exec`: what one packet does.
- `Step.Leaves`: what it may do if it writes behind the object it is for.
- `flagsAgree_iff`: over any run the two copies agree in every state exactly when no packet
  writes behind its object, and no upload changes the byte while there is a flag file.
- `uploadedFlag_differs`: a single byte of upload is enough to tell them apart.
-/

namespace AppSysManager.Server

open AppSysManager.Bytes AppSysManager.Mpack AppSysManager.Node

/-! ## §1 `vmem_memcpy` -/

/-- `memcpy` to an address that need not lie in the area: the bytes that hit it. -/
def patch (buf : Nat → UInt8) (off : Int) (data : List UInt8) : Nat → UInt8 := fun j =>
  if off ≤ j ∧ (j : Int) < off + data.length ∧ j < VMEM_CONFIG_SIZE then
    data.getD ((j : Int) - off).toNat 0
  else buf j

/-- `vmem_memcpy` from a packet to `off` behind the start of `vmem_config`. -/
def vmemMemcpy (env : Env) (s : State) (off : Int) (data : List UInt8) : State :=
  if 0 ≤ off ∧ off + data.length ≤ VMEM_CONFIG_SIZE then
    vmemFileWrite env s off.toNat data.length fun k => data.getD k 0
  else { s with vmemConfigBuf := patch s.vmemConfigBuf off data }.emit (.memcpy off data.length)

theorem vmemMemcpy_byte (env : Env) (s : State) (off : Int) (data : List UInt8) {j : Nat}
    (hj : j < VMEM_CONFIG_SIZE) :
    (vmemMemcpy env s off data).vmemConfigBuf j = patch s.vmemConfigBuf off data j := by
  unfold vmemMemcpy
  split
  · case isTrue h =>
    have hbuf : (vmemFileWrite env s off.toNat data.length fun k => data.getD k 0).vmemConfigBuf =
        overwrite VMEM_CONFIG_SIZE s.vmemConfigBuf off.toNat data.length
          fun k => data.getD k 0 := by
      unfold vmemFileWrite
      dsimp only
      split <;> rfl
    rw [hbuf, overwrite, patch]
    by_cases hin : off ≤ j ∧ (j : Int) < off + data.length
    · rw [if_pos (by omega), if_pos (by omega)]
      congr 1
      omega
    · rw [if_neg (by omega), if_neg (by omega)]
  · rfl

theorem vmemMemcpy_frame (env : Env) (s : State) (off : Int) (data : List UInt8) :
    (vmemMemcpy env s off data).flagFile = s.flagFile ∧
      (vmemMemcpy env s off data).dead = s.dead := by
  unfold vmemMemcpy vmemFileWrite
  dsimp only
  split_ifs <;> exact ⟨rfl, rfl⟩

/-! ## §2 Runs -/

/-- What the node is asked for, one packet at a time. -/
inductive Step where
  /-- A packet on `PARAM_PORT_SERVER`. -/
  | param (d : Delivery)
  /-- `VMEM_SERVER_UPLOAD` to an offset of the area. -/
  | upload (off : Nat)
  /-- The next data packet of the upload. -/
  | data (bytes : List UInt8)
  /-- `csp_read` has returned `NULL`: the upload is over. -/
  | done

/-- The node, and `address + count` of the upload in progress. -/
structure VmemNode where
  node : State
  conn : Option Int

/-- The upload in progress behind a step. -/
def Step.next (conn : Option Int) : Step → Option Int
  | .param _ => conn
  | .upload off => some (conn.getD off)
  | .data bytes => conn.map (· + bytes.length)
  | .done => none

/-- The node behind a step. -/
def Step.serve (env : Env) (conn : Option Int) (s : State) : Step → State
  | .param d => deliver env s d
  | .data bytes =>
    match conn with
    | some address => if s.dead then s else vmemMemcpy env s address bytes
    | none => s
  | _ => s

/-- One step: a packet is served as a whole. -/
def Step.exec (env : Env) (v : VmemNode) (step : Step) : VmemNode :=
  ⟨step.serve env v.conn v.node, step.next v.conn⟩

/-- A run of steps. -/
def runSteps (env : Env) (s : State) (steps : List Step) : VmemNode :=
  steps.foldl (Step.exec env) ⟨s, none⟩

/-- The bytes of a value fit into the parameter.  The terminator of a string that fills it is on
    the byte behind `_stdbuf`, where every print puts its own. -/
def Value.HasRoom (p : Param) : Value → Prop
  | .str _ len | .data _ len | .overrun len => len ≤ p.name.storage
  | .num _ | .emptyStr => True

instance (p : Param) : DecidablePred (Value.HasRoom p)
  | .str _ len | .data _ len | .overrun len => inferInstanceAs (Decidable (len ≤ p.name.storage))
  | .num _ | .emptyStr => inferInstanceAs (Decidable True)

/-- All values of an entry fit. -/
def Item.HasRoom : Item → Prop
  | .known p _ _ elems => ∀ e ∈ elems, e.value.HasRoom p
  | .unknown => True

instance : DecidablePred Item.HasRoom
  | .known p _ _ elems => inferInstanceAs (Decidable (∀ e ∈ elems, e.value.HasRoom p))
  | .unknown => inferInstanceAs (Decidable True)

/-- Does the packet write inside the object it is for?  The strings of a push have to fit into
    `_stdbuf`, and the bytes of an upload into the area. -/
def Step.Fitting (env : Env) (conn : Option Int) : Step → Prop
  | .param d => ∀ item ∈ packetItems env d.packet d.uninit, item.HasRoom
  | .data bytes =>
    ∀ address, conn = some address → bytes ≠ [] → address + bytes.length ≤ VMEM_CONFIG_SIZE
  | _ => True

/-- What a step may leave behind.  A packet that does not fit writes over whatever the linker
    has put there, and then anything may happen. -/
inductive Step.Leaves (env : Env) (v : VmemNode) (step : Step) : VmemNode → Prop where
  | served : Leaves env v step (step.exec env v)
  | spilled (alive : v.node.dead = false) (h : ¬ step.Fitting env v.conn) (v' : VmemNode) :
      Leaves env v step v'

/-- The nodes that a number of steps may lead to. -/
inductive Run (env : Env) : VmemNode → List Step → VmemNode → Prop where
  | nil (v : VmemNode) : Run env v [] v
  | cons {v w v' : VmemNode} {step : Step} {steps : List Step} (head : step.Leaves env v w)
      (tail : Run env w steps v') : Run env v (step :: steps) v'

/-- Where `suspend_on_boot` lives in the config area. -/
def FLAG_OFFSET : Nat := 0x100

/-- The number in the flag file is the byte in the config area, and that byte is what a pull
    of `suspend_on_boot` returns. -/
structure FlagsAgree (s : State) : Prop where
  file : ∀ text, s.flagFile = some text →
    fscanfInt text = some ((s.vmemConfigBuf FLAG_OFFSET).toNat : Int)
  pull : paramWireValue s suspendOnBoot (-1) = .num (.uint (s.vmemConfigBuf FLAG_OFFSET).toNat)

/-- The step is no data packet that changes the byte while there is a flag file. -/
def Step.KeepsFlag (v : VmemNode) : Step → Prop
  | .data bytes => v.node.flagFile = none ∨ ∀ address, v.conn = some address →
      patch v.node.vmemConfigBuf address bytes FLAG_OFFSET = v.node.vmemConfigBuf FLAG_OFFSET
  | _ => True

/-- The step fits and keeps the byte; a process that has ended serves nothing. -/
def Step.Harmless (env : Env) (v : VmemNode) (step : Step) : Prop :=
  v.node.dead = true ∨ step.Fitting env v.conn ∧ step.KeepsFlag v

/-- Every step of a run is harmless where it is taken. -/
def HarmlessRun (env : Env) (v : VmemNode) : List Step → Prop
  | [] => True
  | step :: steps => step.Harmless env v ∧ HarmlessRun env (step.exec env v) steps

/-! ## §3 Packets on the parameter port -/

theorem paramGet_suspendOnBoot (s : State) :
    paramGet s suspendOnBoot = (s.vmemConfigBuf FLAG_OFFSET).toNat := by
  rw [paramGet_eq scalar_suspendOnBoot]
  show 0 + (s.vmemConfigBuf FLAG_OFFSET).toNat * 256 ^ 0 = _
  omega

/-- The flag file holds the value of `suspend_on_boot`. -/
def FlagStored (s : State) : Prop :=
  ∀ text, s.flagFile = some text → text = decimal (paramGet s suspendOnBoot)

/-- The agreement of the two copies, for a file that was written by the callback. -/
theorem FlagStored.agree {s : State} (h : FlagStored s) : FlagsAgree s where
  file text htext := by
    have hlt := (s.vmemConfigBuf FLAG_OFFSET).toNat_lt
    rw [h text htext, paramGet_suspendOnBoot]
    exact fscanfInt_decimal (by omega)
  pull := by
    rw [← paramGet_suspendOnBoot]
    rfl

theorem storeValue_flagStored {env : Env} (hfiles : ∀ n, env.fopen n = true) {p : Param} {e : Elem}
    (hmem : p ∈ paramTable) (hfits : e.value.Fits p.type) {s : State} (h : FlagStored s) :
    FlagStored (storeValue env s p e.index e.value) := by
  by_cases hname : p.name = .stdoutBuf
  · -- the log lives in RAM and has no callback
    have hp : p = stdoutBuf := by rw [eq_param_of_mem hmem, hname]; rfl
    subst hp
    have hkeep : ∀ s' : State, s'.flagFile = s.flagFile →
        s'.vmemConfigBuf = s.vmemConfigBuf → FlagStored s' := by
      intro s' hfile hbuf text htext
      rw [h text (hfile ▸ htext), paramGet_suspendOnBoot, paramGet_suspendOnBoot, hbuf]
    have hwrite : ∀ (s : State) off len src,
        (paramWrite env s stdoutBuf off len src).flagFile = s.flagFile ∧
        (paramWrite env s stdoutBuf off len src).vmemConfigBuf = s.vmemConfigBuf := by
      intro s off len src
      exact ⟨(paramWrite_frame env s _ off len src).flagFile, by rw [paramWrite_eq]; rfl⟩
    have hstring : ∀ inbuf len, FlagStored (paramSetString env s stdoutBuf inbuf len) := by
      intro inbuf len
      refine hkeep _ ?_ ?_
      · exact (hwrite _ _ _ _).1.trans (hwrite _ _ _ _).1
      · exact (hwrite _ _ _ _).2.trans (hwrite _ _ _ _).2
    cases hv : e.value with
    | num x => rw [hv] at hfits; exact absurd rfl hfits.1
    | str inbuf len => exact hstring inbuf len
    | emptyStr => exact hstring _ 1
    | data inbuf len =>
      rw [hv] at hfits
      exact absurd (show stdoutBuf.type = .data from hfits) (by decide)
    | overrun len => exact hkeep _ rfl rfl
  · have hp : Scalar p := ⟨hmem, hname⟩
    -- a number parameter; the callback of `suspend_on_boot` writes the file behind the store
    obtain ⟨x, hx⟩ := hfits.num hp
    rw [hx]
    rcases Nat.lt_or_ge e.index 2 with hi | hi
    · have heq : storeValue env s p e.index (.num x) = paramSet env s p x :=
        paramSetArray_eq_paramSet hp (by omega) env s x
      rw [heq]
      intro text htext
      by_cases hflag : p.name = .suspendOnBoot
      · have hpf : p = suspendOnBoot := by rw [eq_param_of_mem hmem, hflag]; rfl
        subst hpf
        rw [paramSet_suspendOnBoot_flagFile, if_pos (hfiles _)] at htext
        rw [← Option.some.inj htext, (paramSet_spec hp env s x).value]
      · rw [paramSet_flagFile hp hflag] at htext
        rw [h text htext, (paramSet_spec hp env s x).other _ scalar_suspendOnBoot (Ne.symm hflag)]
    · have heq : storeValue env s p e.index (.num x) = s := paramSetArray_beyond hp hi env s x
      rw [heq]
      exact h

/-- No packet on the parameter port separates the two copies. -/
theorem deliver_flagStored {env : Env} (hfiles : ∀ n, env.fopen n = true) {s : State}
    (h : FlagStored s) (d : Delivery) : FlagStored (deliver env s d) := by
  unfold deliver
  split
  · exact h
  · case isFalse hdead =>
    -- what is left are the stamps, the events of the server and the setter calls
    refine paramServe_preserves (R := fun s s' => FlagStored s → FlagStored s') (fun _ h => h)
      (fun a b c hab hbc ha => hbc (hab ha)) (fun s p t h => h) ?_ ?_ (by simpa using hdead) h
    · rintro s s' ⟨buffers, evs, -, rfl⟩ h
      exact h
    · intro p header start elems hitem e he s' hs'
      obtain ⟨hmem, hfits⟩ := packetItems_wellTyped env _ _ _ hitem
      exact storeValue_flagStored hfiles hmem (hfits e he) hs'

/-! ## §4 The exact condition -/

theorem Step.serve_data {env : Env} {v : VmemNode} {address : Int} (hconn : v.conn = some address)
    (halive : v.node.dead = false) (bytes : List UInt8) :
    (Step.data bytes).serve env v.conn v.node = vmemMemcpy env v.node address bytes := by
  rw [hconn]
  show (if v.node.dead then _ else _) = _
  rw [halive]
  rfl

/-- A harmless step keeps the copies together. -/
theorem Step.Harmless.flagStored {env : Env} (hfiles : ∀ n, env.fopen n = true) {v : VmemNode}
    {step : Step} (hstep : step.Harmless env v) (h : FlagStored v.node) :
    FlagStored (step.exec env v).node := by
  cases step with
  | param d => exact deliver_flagStored hfiles h d
  | upload off => exact h
  | done => exact h
  | data bytes =>
    show FlagStored ((Step.data bytes).serve env v.conn v.node)
    cases hconn : v.conn with
    | none => exact h
    | some address =>
      cases hdead : v.node.dead with
      | true =>
        show FlagStored (if v.node.dead then _ else _)
        rw [if_pos hdead]
        exact h
      | false =>
        -- the one case that writes: the packet keeps the byte, or there is no file
        rw [← hconn, Step.serve_data hconn hdead]
        have hkeep : (Step.data bytes).KeepsFlag v := by
          rcases hstep with hd | ⟨-, hkeep⟩
          · rw [hdead] at hd
            cases hd
          · exact hkeep
        intro text htext
        rw [(vmemMemcpy_frame env v.node address bytes).1] at htext
        rcases hkeep with hnone | hsame
        · rw [hnone] at htext
          cases htext
        · rw [h text htext, paramGet_suspendOnBoot, paramGet_suspendOnBoot,
            vmemMemcpy_byte env v.node address bytes (by decide), hsame address hconn]

/-- A harmless step does what its packet says. -/
theorem Step.Harmless.eq_exec {env : Env} {v w : VmemNode} {step : Step}
    (hstep : step.Harmless env v) (hleaves : step.Leaves env v w) : w = step.exec env v := by
  cases hleaves with
  | served => rfl
  | spilled alive h _ =>
    rcases hstep with hdead | ⟨hfits, -⟩
    · rw [alive] at hdead
      cases hdead
    · exact absurd hfits h

/-- Any other step may separate the copies. -/
theorem harmless_of_agree {env : Env} {v : VmemNode} (h : FlagStored v.node) {step : Step}
    (hagree : ∀ w, step.Leaves env v w → FlagsAgree w.node) : step.Harmless env v := by
  cases hdead : v.node.dead with
  | true => exact .inl hdead
  | false =>
    refine .inr ⟨?_, ?_⟩
    -- behind a packet that does not fit, the flag file may hold no number
    · by_contra hspill
      have hempty := hagree ⟨{ v.node with flagFile := some [] }, none⟩
        (.spilled hdead hspill _)
      exact absurd (hempty.file [] rfl) (by simp [fscanfInt, scanDigits])
    · cases step with
      | data bytes =>
        cases hflag : v.node.flagFile with
        | none => exact .inl hflag
        | some text =>
          refine .inr fun address hconn => ?_
          have hserved := hagree _ .served
          change FlagsAgree ((Step.data bytes).serve env v.conn v.node) at hserved
          rw [Step.serve_data hconn hdead] at hserved
          -- both bytes are the number in the file
          have hscan := hserved.file text ((vmemMemcpy_frame env _ address bytes).1.trans hflag)
          rw [h.agree.file text hflag, vmemMemcpy_byte env _ address bytes (by decide)] at hscan
          have hnat : (v.node.vmemConfigBuf FLAG_OFFSET).toNat =
              (patch v.node.vmemConfigBuf address bytes FLAG_OFFSET).toNat := by
            exact_mod_cast Option.some.inj hscan
          exact (UInt8.toNat_inj.mp hnat).symm
      | _ => trivial

/-- A run from a node whose copies agree, by induction along the run. -/
theorem run_agree_iff {env : Env} (hfiles : ∀ n, env.fopen n = true) {v : VmemNode}
    (h : FlagStored v.node) (steps : List Step) :
    (∀ front, front <+: steps → ∀ v', Run env v front v' → FlagsAgree v'.node) ↔
      HarmlessRun env v steps := by
  induction steps generalizing v with
  | nil =>
    refine iff_of_true (fun front hfront v' hrun => ?_) trivial
    obtain rfl := List.prefix_nil.mp hfront
    cases hrun
    exact h.agree
  | cons step steps ih =>
    constructor
    · intro hall
      -- the copies agree behind the first step, so it was harmless
      have hharmless : step.Harmless env v := harmless_of_agree h fun w hw =>
        hall [step] ⟨steps, rfl⟩ w (.cons hw (.nil w))
      refine ⟨hharmless, (ih (hharmless.flagStored hfiles h)).mp fun front hfront v' hrun => ?_⟩
      exact hall (step :: front) (List.cons_prefix_cons.mpr ⟨rfl, hfront⟩) v' (.cons .served hrun)
    · rintro ⟨hharmless, hrest⟩ front hfront v' hrun
      -- a front of the run is empty, or it starts with the same step
      cases hrun with
      | nil => exact h.agree
      | cons head tail =>
        obtain ⟨rfl, htail⟩ := List.cons_prefix_cons.mp hfront
        rw [hharmless.eq_exec head] at tail
        exact (ih (hharmless.flagStored hfiles h)).mpr hrest _ htail v' tail

theorem main_flagStored {env : Env} (hopen : env.canOpen = true)
    (hfiles : ∀ n, env.fopen n = true) (config : Option (List UInt8))
    (file : Option (List Char)) : FlagStored (main env (initialState config file)) := by
  obtain ⟨hflag, hparam, -⟩ := main_flag hopen (initialState config file)
  intro text htext
  rw [hflag, bootWrites, hfiles] at htext
  rw [hparam]
  cases hfile : (initialState config file).flagFile with
  | none =>
    rw [hfile] at htext
    cases htext
  | some old =>
    rw [hfile] at htext
    exact (Option.some.inj htext).symm

/-- The node behind the start of the program, with no upload in progress. -/
def started (env : Env) (config : Option (List UInt8)) (file : Option (List Char)) : VmemNode :=
  ⟨main env (initialState config file), none⟩

/-- After the boot read, the two copies of the flag agree in every state of a run exactly
    when all of its packets fit and none of its uploads changes the byte of `suspend_on_boot`
    while there is a flag file. -/
theorem flagsAgree_iff {env : Env} (hopen : env.canOpen = true) (hfiles : ∀ n, env.fopen n = true)
    (config : Option (List UInt8)) (file : Option (List Char)) (steps : List Step) :
    (∀ front, front <+: steps →
        ∀ v, Run env (started env config file) front v → FlagsAgree v.node) ↔
      HarmlessRun env (started env config file) steps :=
  run_agree_iff hfiles (main_flagStored hopen hfiles config file) steps

/-- Packets that are served as they are make a run. -/
theorem Run.foldl (env : Env) (v : VmemNode) (steps : List Step) :
    Run env v steps (steps.foldl (Step.exec env) v) := by
  induction steps generalizing v with
  | nil => exact .nil v
  | cons step steps ih => exact .cons .served (ih _)

theorem flagPush_fits : ([2, 0, 23, 5] : List UInt8).length ≤ CSP_BUFFER_SIZE := by decide

/-- An upload around the byte, with a push of `suspend_on_boot = 5` between its two packets. -/
def harmlessSteps : List Step :=
  [.upload 0xfe, .data [1, 2], .param (deliveryOf [2, 0, 23, 5] flagPush_fits), .data [5, 3],
    .done]

theorem harmlessSteps_run : HarmlessRun plainEnv (started plainEnv none (some ['0']))
    harmlessSteps := by
  have hpush : ∀ item ∈ packetItems plainEnv (deliveryOf [2, 0, 23, 5] flagPush_fits).packet
      (deliveryOf [2, 0, 23, 5] flagPush_fits).uninit, item.HasRoom := by
    decide +kernel
  have hfits : ∀ (conn : Option Int) (bytes : List UInt8),
      (∀ address ∈ conn, address + bytes.length ≤ VMEM_CONFIG_SIZE) →
        (Step.data bytes).Fitting plainEnv conn := fun conn bytes h address hconn _ =>
    h address (Option.mem_def.mpr hconn)
  refine ⟨.inr ⟨trivial, trivial⟩, .inr ⟨hfits _ _ ?_, .inr ?_⟩, .inr ⟨hpush, trivial⟩,
    .inr ⟨hfits _ _ ?_, .inr ?_⟩, .inr ⟨trivial, trivial⟩, trivial⟩
  · rintro address ⟨rfl⟩
    decide
  · rintro address ⟨rfl⟩
    decide +kernel
  · rintro address ⟨rfl⟩
    decide
  · rintro address ⟨rfl⟩
    decide +kernel

theorem flagsAgree_iff_harmless :
    FlagsAgree (runSteps plainEnv (main plainEnv (initialState none (some ['0'])))
      harmlessSteps).node :=
  (flagsAgree_iff rfl (fun _ => rfl) none (some ['0']) harmlessSteps).mpr harmlessSteps_run
    harmlessSteps List.prefix_rfl _ (Run.foldl _ _ _)

/-- One byte of upload gives an operator a flag that the next boot does not know of. -/
theorem uploadedFlag_differs :
    ¬ FlagsAgree (runSteps plainEnv (main plainEnv (initialState none (some ['0'])))
      [.upload 0x100, .data [1], .done]).node := by
  intro h
  have hdead : (main plainEnv (initialState none (some ['0']))).dead = false :=
    (main_flag rfl (initialState none (some ['0']))).2.2
  have hflag : (main plainEnv (initialState none (some ['0']))).flagFile = some ['0'] := by
    decide +kernel
  generalize main plainEnv (initialState none (some ['0'])) = s at *
  have hrun : (runSteps plainEnv s [.upload 0x100, .data [1], .done]).node =
      vmemMemcpy plainEnv s 0x100 [1] :=
    Step.serve_data (v := ⟨s, some 0x100⟩) rfl hdead [1]
  rw [hrun] at h
  have hfile := h.file ['0'] ((vmemMemcpy_frame plainEnv s 0x100 [1]).1.trans hflag)
  rw [vmemMemcpy_byte plainEnv s 0x100 [1] (by decide)] at hfile
  have hone : patch s.vmemConfigBuf 0x100 [1] FLAG_OFFSET = 1 := by
    simp [patch, FLAG_OFFSET, VMEM_CONFIG_SIZE]
  rw [hone] at hfile
  exact absurd hfile (by decide)

end AppSysManager.Server
