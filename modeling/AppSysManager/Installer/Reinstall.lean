import AppSysManager.Installer.Passes

/-!
# Installing Again

Every completed installation puts `run m7boot; ` in front of the `bootcmd` it finds, while all
other variables of the final environment are set to values that do not depend on their old
ones.  So the saved environment after `k` installations is the one after the first if and only
if `k = 1` (`installs_saved_iff`).
-/

namespace AppSysManager.Installer

open Shell

/-! ## §1 Completed installations -/

/-- A command that did what it was asked to; `load` delivers no more bytes than that. -/
def Event.Done : Event → Prop
  | .load _ bytes _ (some n) => 0 < bytes → n ≤ bytes
  | .load _ _ _ none => False
  | .fsimageSave ok => ok = true
  | .mmcWrite _ _ ok => ok = true
  | _ => True

instance : DecidablePred Event.Done
  | .load _ _ _ (some _) => inferInstanceAs (Decidable (_ → _))
  | .load _ _ _ none => inferInstanceAs (Decidable False)
  | .fsimageSave _ => inferInstanceAs (Decidable (_ = _))
  | .mmcWrite _ _ _ => inferInstanceAs (Decidable (_ = _))
  | .echo _ => inferInstanceAs (Decidable True)
  | .nand _ => inferInstanceAs (Decidable True)

/-- All commands of a boot succeed. -/
def Succeeds (i : Inputs) (st : Storage) : Prop :=
  ∀ e ∈ (bootRun i st).final.trace, e.Done

/-- The variables that the macros of the boot loader leave alone. -/
def bootVars : List Var :=
  [.bootcmd, .m7image, .loadm7image, .m7boot]

/-- A macro that is idempotent and does not touch `bootcmd` or the variables of the Cortex-M7
    core. -/
structure Tame (f : Environment Var → Environment Var) : Prop where
  idempotent : ∀ env, f (f env) = f env
  keeps : ∀ env, ∀ v ∈ bootVars, f env v = env v

/-- All macros of the eMMC branch are. -/
structure TameMacros (i : Inputs) : Prop where
  kernelMmc : Tame i.kernelMmc
  fdtMmc : Tame i.fdtMmc
  rootfsMmc : Tame i.rootfsMmc

/-- One boot, without loss of power. -/
def pass (i : Inputs) (st : Storage) : Storage :=
  (bootRun i st).final.storage

/-- So many boots. -/
def passes (is : Nat → Inputs) (st : Storage) : Nat → Storage
  | 0 => st
  | n + 1 => pass (is n) (passes is st n)

/-- So many installations, of three boots each. -/
def installs (is : Nat → Inputs) (st : Storage) (k : Nat) : Storage :=
  passes is st (3 * k)

/-- No installation has begun, on a board that boots from eMMC. -/
structure Fresh (st : Storage) : Prop where
  state : st.saved.expand .updateState = []
  emmc : st.saved.expand .bdKernel ≠ "nand".toList

/-! ## §2 Three passes -/

/-- The variables that the passes `uboot` and `nboot` set. -/
def fsVars : List Var :=
  [.updateState, .doCheck, .doMessage, .doCleanup, .isError, .filesize, .updatedev]

/-- A pass that installs `uboot` or `nboot` saves the stage and little else. -/
theorem pass_fs {i : Inputs} {st : Storage} {stage : Stage}
    (hstage : stage = .uboot ∨ stage = .nboot) (hsucceeds : Succeeds i st)
    (hstate : nextState (st.saved.expand .updateState) = stage.text) :
    (pass i st).saved.expand .updateState = stage.text ∧
      Beside fsVars st.saved (pass i st).saved := by
  have hwp : wp (updateTxt i) (fun _ t => .fsimageSave false ∈ t.trace ∨
      t.saved.expand .updateState = stage.text ∧ Beside fsVars st.saved t.saved)
      (seen fun _ _ => True) (start i st) := by
    apply wp_prologue trivial
    intro env b henv hbeside
    rw [start_state, hstate] at henv
    apply wp_stages_fs hstage henv trivial
    intro b'
    apply wp_fsStage trivial trivial trivial (fun _ => trivial) (fun _ _ _ => trivial)
    · intro _ t hsaved _
      refine ⟨.inl rfl, .inr ⟨(hsaved.expand (by decide)).trans henv, ?_⟩⟩
      have hram : Beside fsVars st.saved (start i st).ram := beside_set _ (by decide) _
      exact (hram.trans (hbeside.mono (by decide))).trans (hsaved.mono (by decide))
    · intro _ t _ htrace
      refine ⟨.inr rfl, .inl ?_⟩
      rw [htrace]
      simp
  -- `fsimage save` is among the commands that succeed
  rcases hwp.2 with hfail | hdone
  · exact absurd (hsucceeds _ hfail) Bool.false_ne_true
  · exact hdone

theorem finalEnv_bootcmd (env : Environment Var) :
    (finalEnv env).expand .bootcmd = m7Call ++ env.expand .bootcmd := by
  have hdelete : ∀ a : Environment Var, (a.delete cleanupVars).expand .bootcmd =
      a.expand .bootcmd := by
    intro a
    rw [Environment.expand, Environment.delete_of_notMem _ _ (by decide), Environment.expand]
  unfold finalEnv
  rw [hdelete, Environment.expand_set_self, Environment.expand_set_of_ne _ _ _ _ (by decide),
    Environment.expand_set_of_ne _ _ _ _ (by decide),
    Environment.expand_set_of_ne _ _ _ _ (by decide)]

theorem mmcEnv_bootcmd {i : Inputs} (h : TameMacros i) (env : Environment Var) :
    (mmcEnv i env).expand .bootcmd = env.expand .bootcmd := by
  have hmem : Var.bootcmd ∈ bootVars := by decide
  unfold mmcEnv
  rw [Environment.expand, h.rootfsMmc.keeps _ _ hmem, h.fdtMmc.keeps _ _ hmem,
    h.kernelMmc.keeps _ _ hmem, Environment.set_of_ne _ _ _ _ (by decide),
    Environment.set_of_ne _ _ _ _ (by decide), Environment.expand]

theorem Event.BadChunk.not_done {e : Event} (h : e.BadChunk) : ¬ e.Done := by
  cases e with
  | load file bytes pos delivered =>
    obtain ⟨hbytes, hbad⟩ := h
    cases delivered with
    | none => exact id
    | some n => exact fun hdone => hbad ⟨n, hdone hbytes, rfl⟩
  | echo | fsimageSave | mmcWrite | nand => exact h.elim

/-- The last pass completes the installation, and puts a call in front of `bootcmd`. -/
theorem pass_rootfs {i : Inputs} {st : Storage} (hsucceeds : Succeeds i st)
    (hmacros : TameMacros i) (h : EmmcNext st) :
    complete ∈ (bootRun i st).final.trace ∧ (pass i st).saved.expand .updateState = [] ∧
      (pass i st).saved.expand .bootcmd = m7Call ++ st.saved.expand .bootcmd := by
  have hwp : wp (updateTxt i) (fun _ t => (∃ e ∈ t.trace, ¬ e.Done) ∨
      complete ∈ t.trace ∧ t.saved.expand .updateState = [] ∧
        t.saved.expand .bootcmd = m7Call ++ st.saved.expand .bootcmd) (seen fun _ _ => True)
      (start i st) := by
    apply wp_emmcBoot h (fun _ _ _ => trivial)
    · intro t env hbeside _ hram
      apply wp_finish trivial trivial trivial trivial
      intro t' hsaved htrace
      right
      rw [hsaved, htrace, finalEnv_state, finalEnv_bootcmd, hram, mmcEnv_bootcmd hmacros,
        hbeside.expand (by decide)]
      exact ⟨by simp, rfl, rfl⟩
    · rintro t ⟨-, -, es, bad, tail, htrace, -, hbad, -⟩
      left
      refine ⟨bad, ?_, hbad.not_done⟩
      rw [htrace]
      simp
  -- no chunk was rejected, since all loads succeed
  rcases hwp.2 with ⟨e, he, hbad⟩ | hdone
  · exact absurd (hsucceeds e he) hbad
  · exact hdone

/-- One installation: it leaves no stage behind, and one more call in `bootcmd`. -/
theorem install_once {a b c : Inputs} {st : Storage} (h : Fresh st) (ha : Succeeds a st)
    (hb : Succeeds b (pass a st)) (hc : Succeeds c (pass b (pass a st)))
    (hmacros : TameMacros c) :
    (pass c (pass b (pass a st))).saved.expand .updateState = [] ∧
      (pass c (pass b (pass a st))).saved.expand .bootcmd =
        m7Call ++ st.saved.expand .bootcmd := by
  have huboot : nextState (st.saved.expand .updateState) = Stage.uboot.text := by
    rw [h.state]
    rfl
  obtain ⟨hstate₁, hbeside₁⟩ := pass_fs (.inl rfl) ha huboot
  have hnboot : nextState ((pass a st).saved.expand .updateState) = Stage.nboot.text := by
    rw [hstate₁]
    decide
  obtain ⟨hstate₂, hbeside₂⟩ := pass_fs (.inr rfl) hb hnboot
  have hbeside := hbeside₁.trans hbeside₂
  have hnext : EmmcNext (pass b (pass a st)) := by
    refine ⟨?_, ?_⟩
    · rw [hstate₂]
      decide
    · rw [hbeside.expand (by decide)]
      exact h.emmc
  obtain ⟨-, hstate₃, hbootcmd⟩ := pass_rootfs hc hmacros hnext
  refine ⟨hstate₃, hbootcmd.trans ?_⟩
  rw [hbeside.expand (by decide)]

section Repeated

variable {is : Nat → Inputs} {st : Storage}

/-- The calls pile up in front of the first `bootcmd`. -/
theorem installs_bootcmd (hmacros : ∀ n, TameMacros (is n))
    (hstate : st.saved.expand .updateState = []) (k : Nat)
    (hsucceeds : ∀ n < 3 * k, Succeeds (is n) (passes is st n))
    (hemmc : ∀ j < k, (installs is st j).saved.expand .bdKernel ≠ "nand".toList) :
    (installs is st k).saved.expand .updateState = [] ∧
      (installs is st k).saved.expand .bootcmd =
        (List.replicate k m7Call).flatten ++ st.saved.expand .bootcmd := by
  induction k with
  | zero => exact ⟨hstate, rfl⟩
  | succ k ih =>
    obtain ⟨hfresh, hbootcmd⟩ := ih (fun n hn => hsucceeds n (by omega))
      fun j hj => hemmc j (Nat.lt_succ_of_lt hj)
    -- the three passes of the last installation
    have honce := install_once ⟨hfresh, hemmc k (Nat.lt_succ_self k)⟩
      (hsucceeds (3 * k) (by omega)) (hsucceeds (3 * k + 1) (by omega))
      (hsucceeds (3 * k + 2) (by omega)) (hmacros (3 * k + 2))
    refine ⟨honce.1, honce.2.trans ?_⟩
    rw [hbootcmd, List.replicate_succ, List.flatten_cons, List.append_assoc]

/-- How often a text occurs in another one. -/
def occurrences (pattern : Text) : Text → Nat
  | [] => 0
  | c :: cs => (if pattern.isPrefixOf (c :: cs) then 1 else 0) + occurrences pattern cs

/-- The call of the Cortex-M7 core. -/
def m7Run : Text :=
  "run m7boot".toList

theorem occurrences_m7Call (text : Text) :
    occurrences m7Run (m7Call ++ text) = 1 + occurrences m7Run text := by
  have hcall : m7Call = ['r', 'u', 'n', ' ', 'm', '7', 'b', 'o', 'o', 't', ';', ' '] := by decide
  have hrun : m7Run = ['r', 'u', 'n', ' ', 'm', '7', 'b', 'o', 'o', 't'] := by decide
  rw [hcall, hrun]
  simp [occurrences, List.isPrefixOf]

/-- The saved environment after `k` installations is the one after the first, with a single
    call of the Cortex-M7 core in its `bootcmd`, if and only if `k = 1`. -/
theorem installs_saved_iff (hmacros : ∀ n, TameMacros (is n))
    (hstate : st.saved.expand .updateState = []) {k : Nat} (hk : 1 ≤ k)
    (hsucceeds : ∀ n < 3 * k, Succeeds (is n) (passes is st n))
    (hemmc : ∀ j < k, (installs is st j).saved.expand .bdKernel ≠ "nand".toList) :
    ((installs is st k).saved = (installs is st 1).saved ∧
      (occurrences m7Run (st.saved.expand .bootcmd) = 0 →
        occurrences m7Run ((installs is st k).saved.expand .bootcmd) = 1)) ↔ k = 1 := by
  have hbootcmd := (installs_bootcmd hmacros hstate k hsucceeds hemmc).2
  have honce := (installs_bootcmd hmacros hstate 1 (fun n hn => hsucceeds n (by omega))
    fun j hj => hemmc j (Nat.lt_of_lt_of_le hj hk)).2
  constructor
  · rintro ⟨hsaved, -⟩
    rw [hsaved, honce] at hbootcmd
    have hlength := congrArg List.length hbootcmd
    have hcall : m7Call.length = 12 := by decide
    simp only [List.length_append, List.length_flatten, List.map_replicate, List.sum_replicate_nat,
      hcall] at hlength
    omega
  · rintro rfl
    refine ⟨rfl, fun hnone => ?_⟩
    rw [hbootcmd, List.replicate_one, List.flatten_singleton, occurrences_m7Call, hnone]

end Repeated

theorem plainInputs_tame (image : List UInt8) : TameMacros (plainInputs image) :=
  ⟨⟨fun _ => rfl, fun _ _ _ => rfl⟩, ⟨fun _ => rfl, fun _ _ _ => rfl⟩,
    ⟨fun _ => rfl, fun _ _ _ => rfl⟩⟩

/-- Every command of two installations of a small image succeeds. -/
theorem flashedTwice_succeeds : ∀ n < 3 * 2,
    Succeeds (plainInputs [1, 2, 3])
      (passes (fun _ => plainInputs [1, 2, 3]) (plainStorage []) n) := by
  unfold Succeeds
  decide +kernel

theorem installs_saved_iff_twice :
    ((installs (fun _ => plainInputs [1, 2, 3]) (plainStorage []) 2).saved =
        (installs (fun _ => plainInputs [1, 2, 3]) (plainStorage []) 1).saved ∧
      (occurrences m7Run ((plainStorage []).saved.expand .bootcmd) = 0 →
        occurrences m7Run ((installs (fun _ => plainInputs [1, 2, 3]) (plainStorage [])
          2).saved.expand .bootcmd) = 1)) ↔ 2 = 1 := by
  apply installs_saved_iff (fun _ => plainInputs_tame _) rfl (by decide) flashedTwice_succeeds
  intro j hj
  have hcases : j = 0 ∨ j = 1 := by omega
  rcases hcases with rfl | rfl
  · decide
  · decide +kernel

/-- A board that is flashed twice calls the Cortex-M7 core twice. -/
theorem flashedTwice_calls :
    (∀ n < 3 * 2, Succeeds (plainInputs [1, 2, 3])
        (passes (fun _ => plainInputs [1, 2, 3]) (plainStorage []) n)) ∧
      ¬ ((installs (fun _ => plainInputs [1, 2, 3]) (plainStorage []) 2).saved =
        (installs (fun _ => plainInputs [1, 2, 3]) (plainStorage []) 1).saved) := by
  refine ⟨flashedTwice_succeeds, fun h => ?_⟩
  have htwice : (installs (fun _ => plainInputs [1, 2, 3]) (plainStorage []) 2).saved.expand
      .bootcmd = "run m7boot; run m7boot; run mmcboot".toList := by decide +kernel
  have honce : (installs (fun _ => plainInputs [1, 2, 3]) (plainStorage []) 1).saved.expand
      .bootcmd = "run m7boot; run mmcboot".toList := by decide +kernel
  rw [h, honce] at htwice
  exact absurd htwice (by decide)

end AppSysManager.Installer
