import AppSysManager.Installer.Passes

/-!
# Stages over Many Boots

The stage of an installation lives in two copies of `update_state`: it is advanced in RAM
before the work of the stage and saved behind it.  `do_cleanup` deletes it in RAM only, so an
installation that is aborted after `uboot` goes on in the same stage at the next boot.

## Main statements

- `stopped_cases`: what a boot leaves behind, wherever power is cut.
- `installed_in_order`: in every sequence of boots none of which aborts a stage that was saved,
  a completed installation has been through all stages since the last message.
-/

namespace AppSysManager.Installer

open Shell

/-! ## §1 Sequences of boots -/

/-- A boot: its inputs, and the command at which power is cut, if it is. -/
structure Boot where
  inputs : Inputs
  cut : Option Nat

/-- The machine when a boot is over. -/
def Boot.stop (b : Boot) (st : Storage) : Machine :=
  stopped (bootRun b.inputs st) b.cut

/-- What is stored after some boots. -/
def storageAfter (st : Storage) : List Boot → Storage
  | [] => st
  | b :: bs => storageAfter (b.stop st).storage bs

/-- What could be seen at each of some boots. -/
def traces (st : Storage) : List Boot → List (List Event)
  | [] => []
  | b :: bs => (b.stop st).trace :: traces (b.stop st).storage bs

/-- The script printed that it aborts the installation. -/
def Aborts (es : List Event) : Prop :=
  ∃ dev, Event.echo (abortText dev) ∈ es

/-- The script printed that the installation is aborted or complete. -/
def Marked (es : List Event) : Prop :=
  Aborts es ∨ complete ∈ es

/-- A stage succeeded at a boot: all its loads and, for `uboot` and `nboot`, `fsimage save`. -/
def Succeeded : Stage → List Event → Prop
  | .rootfs, es =>
    complete ∈ es ∧ ∀ file bytes pos delivered, .load file bytes pos delivered ∈ es →
      delivered.isSome
  | stage, es =>
    (∃ arch n, .load (fsFile stage.text arch) 0 0 (some n) ∈ es) ∧ .fsimageSave true ∈ es

/-- The history may be cut in front of a run, and behind one that printed the end of an
    installation. -/
def AtMark (old : List (List Event)) : Prop :=
  old = [] ∨ ∃ older es, old = older ++ [es] ∧ Marked es

/-- Whenever the script prints on a board that boots from eMMC that the installation is
    complete, all stages have succeeded, in order, since the last boot that printed the end of
    an installation (or since the first boot). -/
def InOrder (st : Storage) (boots : List Boot) : Prop :=
  ∀ before b after, boots = before ++ b :: after →
    complete ∈ (b.stop (storageAfter st before)).trace →
    (storageAfter st before).saved.expand .bdKernel ≠ "nand".toList →
    ∀ old recent, traces st before = old ++ recent → AtMark old →
      ∃ u v, [u, v].Sublist recent ∧ Succeeded .uboot u ∧ Succeeded .nboot v ∧
        Succeeded .rootfs (b.stop (storageAfter st before)).trace

/-! ## §2 One boot -/

/-- The condition on a boot.  `fsimage save` does not succeed with an image that was not
    loaded, and no stage is aborted while an earlier one is saved. -/
structure Careful (st : Storage) (i : Inputs) : Prop where
  loaded : ∀ stage : Stage, nextState (st.saved.expand .updateState) = stage.text →
    stage ≠ .rootfs → i.fsimageSave = true →
    (i.load 0 (fsFile stage.text (st.saved.expand .arch)) 0 0).isSome
  nboot : st.saved.expand .updateState = Stage.uboot.text → i.fsimageSave = true
  rootfs : st.saved.expand .updateState = Stage.nboot.text →
    st.saved.expand .bdKernel ≠ "nand".toList → ChunksFit i (start i st)

/-- The boot saved nothing. -/
def Kept (st : Storage) (saved : Environment Var) (trace : List Event) : Prop :=
  saved = st.saved ∧ complete ∉ trace ∧ (Aborts trace → st.saved.expand .updateState = [])

/-- The boot saved the stage `uboot` or `nboot`. -/
def Advanced (stage : Stage) (saved : Environment Var) (trace : List Event) : Prop :=
  saved.expand .updateState = stage.text ∧ Succeeded stage trace ∧ ¬ Marked trace

/-- The boot saved the final environment. -/
def Finished (st : Storage) (saved : Environment Var) (trace : List Event) : Prop :=
  saved.expand .updateState = [] ∧
    (st.saved.expand .bdKernel ≠ "nand".toList → complete ∈ trace → Succeeded .rootfs trace)

/-- What a boot leaves behind. -/
def Leaves (st : Storage) (saved : Environment Var) (trace : List Event) : Prop :=
  Kept st saved trace ∨
    (st.saved.expand .updateState = [] ∧ Advanced .uboot saved trace) ∨
    (st.saved.expand .updateState = Stage.uboot.text ∧ Advanced .nboot saved trace) ∨
    (st.saved.expand .updateState = Stage.nboot.text ∧ Finished st saved trace)

/-- A text is not printed by a boot that prints nothing. -/
theorem echo_notMem {es : List Event} (h : ∀ e ∈ es, ∀ text, e ≠ .echo text) (text : Text) :
    Event.echo text ∉ es :=
  fun hmem => h _ hmem text rfl

theorem kept_of_silent {st : Storage} {es : List Event} (h : ∀ e ∈ es, ∀ text, e ≠ .echo text) :
    Kept st st.saved es :=
  ⟨rfl, echo_notMem h _, fun ⟨_, hdev⟩ => absurd hdev (echo_notMem h _)⟩

theorem not_marked_of_silent {es : List Event} (h : ∀ e ∈ es, ∀ text, e ≠ .echo text) :
    ¬ Marked es := by
  rintro (⟨_, hdev⟩ | hcomplete)
  · exact echo_notMem h _ hdev
  · exact echo_notMem h _ hcomplete

/-- A boot in the stage `uboot` or `nboot`. -/
theorem wp_fsBoot {i : Inputs} {st : Storage} (hcareful : Careful st i) {stage : Stage}
    (hstage : stage = .uboot ∨ stage = .nboot)
    (hnext : nextState (st.saved.expand .updateState) = stage.text)
    (hsaved : st.saved.expand .updateState ≠ [] → i.fsimageSave = true) :
    wp (updateTxt i)
      (fun _ t => Kept st t.saved t.trace ∨ Advanced stage t.saved t.trace)
      (seen fun saved trace => Kept st saved trace ∨ Advanced stage saved trace) (start i st) := by
  have hstart : Kept st st.saved [] := kept_of_silent (by simp)
  apply wp_prologue (.inl hstart)
  intro env b hstate hbeside
  rw [start_state, hnext] at hstate
  apply wp_stages_fs hstage hstate (.inl hstart)
  intro b'
  have harch : env.expand .arch = st.saved.expand .arch := by
    rw [hbeside.expand (by decide), start, Environment.expand_set_of_ne _ _ _ _ (by decide)]
  -- The machine in front of the stage, and what its load command shows.
  generalize hm : Machine.returning (Machine.returning { start i st with ram := env } b) b' = m
  have hram : m.ram = env := by rw [← hm]; rfl
  have hmsaved : m.saved = st.saved := by rw [← hm]; rfl
  have htrace : m.trace = [] := by rw [← hm]; rfl
  have hloads : m.loads = 0 := by rw [← hm]; rfl
  have hload : fsLoad i m = .load (fsFile stage.text (st.saved.expand .arch)) 0 0
      ((i.load 0 (fsFile stage.text (st.saved.expand .arch)) 0 0).map List.length) := by
    rw [fsLoad, hram, hloads, hstate, harch]
  have hsilent : ∀ ok, ∀ e ∈ [fsLoad i m, .fsimageSave ok], ∀ text, e ≠ .echo text := by
    intro ok e he text
    rw [hload] at he
    simp only [List.mem_cons, List.not_mem_nil, or_false] at he
    rcases he with rfl | rfl <;> simp
  have hadvanced : i.fsimageSave = true → ∀ env', Beside [.filesize] m.ram env' →
      Advanced stage env' [fsLoad i m, .fsimageSave true] := by
    intro hok env' hbeside'
    refine ⟨?_, ?_, not_marked_of_silent (hsilent true)⟩
    · rw [hbeside'.expand (by decide), hram, hstate]
    · have hrootfs : stage ≠ .rootfs := by rcases hstage with rfl | rfl <;> decide
      obtain ⟨bs, hbs⟩ := Option.isSome_iff_exists.mp (hcareful.loaded stage hnext hrootfs hok)
      rw [hbs] at hload
      have hevents : Succeeded stage [fsLoad i m, .fsimageSave true] ↔
          (∃ arch n, .load (fsFile stage.text arch) 0 0 (some n) ∈
            [fsLoad i m, .fsimageSave true]) ∧ .fsimageSave true ∈
            [fsLoad i m, .fsimageSave true] := by
        rcases hstage with rfl | rfl <;> exact Iff.rfl
      rw [hevents, hload]
      exact ⟨⟨_, bs.length, List.mem_cons_self⟩, by simp⟩
  have hkept : ∀ es, (∀ e ∈ es, ∀ text, e ≠ .echo text) → Kept st m.saved es := by
    intro es hes
    rw [hmsaved]
    exact kept_of_silent hes
  have habort : i.fsimageSave = false →
      Kept st m.saved [fsLoad i m, .fsimageSave false, abortEvent m] := by
    intro hfail
    refine ⟨hmsaved, ?_, fun _ => ?_⟩
    · intro hmem
      rw [hload] at hmem
      simp only [List.mem_cons, List.not_mem_nil, or_false] at hmem
      rcases hmem with hmem | hmem | hmem
      · cases hmem
      · cases hmem
      · exact abortText_ne_complete _ hmem.symm
    · by_contra hne
      exact absurd (hfail.symm.trans (hsaved hne)) (by decide)
  apply wp_fsStage <;> rw [htrace]
  · exact .inl (hkept [] (by simp))
  · exact .inl (hkept _ fun e he => hsilent true e (by simp at he; simp [he]))
  · exact .inl (hkept _ (hsilent _))
  · exact fun hfail => .inl (habort hfail)
  · exact fun hok env' hbeside' => .inr (hadvanced hok env' hbeside')
  · intro hok t hbeside' hes
    rw [hes]
    exact ⟨.inl rfl, .inr (hadvanced hok _ hbeside')⟩
  · intro hfail t hkeep hes
    rw [hkeep, hes]
    exact ⟨.inr rfl, .inl (habort hfail)⟩

/-- Nothing was printed and nothing saved. -/
def Quiet (st : Storage) (saved : Environment Var) (trace : List Event) : Prop :=
  saved = st.saved ∧ ∀ e ∈ trace, ∀ text, e ≠ .echo text

theorem Quiet.kept {st : Storage} {saved : Environment Var} {trace : List Event}
    (h : Quiet st saved trace) : Kept st saved trace := by
  obtain ⟨rfl, hsilent⟩ := h
  exact kept_of_silent hsilent

theorem Accepted.silent {e : Event} (h : e.Accepted) (text : Text) : e ≠ .echo text := by
  rintro rfl
  exact h

/-- The end of the script, in a machine that has been quiet. -/
theorem wp_finish_quiet {st : Storage} {m : Machine}
    (hquiet : Quiet st m.saved m.trace)
    (hloads : st.saved.expand .bdKernel ≠ "nand".toList →
      ∀ file bytes pos delivered, .load file bytes pos delivered ∈ m.trace → delivered.isSome) :
    wp (script finish) (fun _ t => Kept st t.saved t.trace ∨ Finished st t.saved t.trace)
      (seen fun saved trace => Kept st saved trace ∨ Finished st saved trace) m := by
  -- once the environment has been saved, only messages follow
  have hfinished : ∀ more, (∀ e ∈ more, ∃ text, e = .echo text) →
      Finished st (finalEnv m.ram) (m.trace ++ more) := by
    intro more hmore
    refine ⟨?_, fun hemmc hcomplete => ⟨hcomplete, ?_⟩⟩
    · exact finalEnv_state m.ram
    · intro file bytes pos delivered hload
      rcases List.mem_append.mp hload with hload | hload
      · exact hloads hemmc file bytes pos delivered hload
      · obtain ⟨text, htext⟩ := hmore _ hload
        cases htext
  apply wp_finish
  · exact .inl hquiet.kept
  -- the first message comes in front of the save
  · left
    refine ⟨hquiet.1, ?_, ?_⟩
    · intro hmem
      rcases List.mem_append.mp hmem with hmem | hmem
      · exact hquiet.2 _ hmem _ rfl
      · exact absurd (List.mem_singleton.mp hmem) (by decide)
    · rintro ⟨dev, hmem⟩
      rcases List.mem_append.mp hmem with hmem | hmem
      · exact absurd rfl (hquiet.2 _ hmem _)
      · exact absurd (List.mem_singleton.mp hmem) (abortText_ne_configuring dev)
  · exact .inr (hfinished _ (by simp [configuring]))
  · exact .inr (hfinished _ (by simp [configuring, complete]))
  · intro t hsaved htrace
    rw [hsaved, htrace]
    exact .inr (hfinished _ (by simp [configuring, complete]))

/-- A command that neither prints nor saves. -/
def Mute (f : Machine → Machine × Bool) : Prop :=
  ∀ m, (f m).1.saved = m.saved ∧
    ∃ es, (f m).1.trace = m.trace ++ es ∧ ∀ e ∈ es, ∀ text, e ≠ .echo text

theorem wp_mute {Q : Status → Machine → Prop} {C : Environment Var → List Event → Prop}
    {st : Storage} {cs : List (Cmd Machine)} (hcs : ∀ c ∈ cs, ∃ f, c = command f ∧ Mute f)
    (hC : ∀ saved trace, Quiet st saved trace → C saved trace)
    (hQ : ∀ t, Quiet st t.saved t.trace → Q .ok t) {m : Machine}
    (hm : Quiet st m.saved m.trace) : wp (script cs) Q (seen C) m := by
  induction cs generalizing m with
  | nil => exact (wp_script_nil).mpr (hQ m hm)
  | cons c cs ih =>
    obtain ⟨f, rfl, hf⟩ := hcs c List.mem_cons_self
    refine wp_line (hC _ _ hm) (ih (fun c hc => hcs c (List.mem_cons_of_mem _ hc)) ?_)
    obtain ⟨hsaved, es, hes, hsilent⟩ := hf m
    refine ⟨hsaved.trans hm.1, fun e he => ?_⟩
    rw [show ((f m).1.returning (f m).2).trace = m.trace ++ es from hes, List.mem_append] at he
    exact he.elim (hm.2 e) (hsilent e)

theorem load_mute (i : Inputs) (file : Environment Var → Text) (bytes pos : Environment Var → Nat) :
    ∃ f, load i file bytes pos = command f ∧ Mute f := by
  refine ⟨_, rfl, fun m => ?_⟩
  refine ⟨?_, [.load (file m.ram) (bytes m.ram) (pos m.ram)
    ((i.load m.loads (file m.ram) (bytes m.ram) (pos m.ram)).map List.length)], ?_, by simp⟩
  · cases i.load m.loads (file m.ram) (bytes m.ram) (pos m.ram) <;> rfl
  · cases i.load m.loads (file m.ram) (bytes m.ram) (pos m.ram) <;> rfl

theorem nand_mute (c : Environment Var → NandCommand) : ∃ f, nand c = command f ∧ Mute f :=
  ⟨_, rfl, fun m => ⟨rfl, [.nand (c m.ram)], rfl, by simp⟩⟩

theorem runMacro_mute (g : Environment Var → Environment Var) :
    ∃ f, runMacro g = command f ∧ Mute f :=
  ⟨_, rfl, fun m => ⟨rfl, [], (List.append_nil _).symm, by simp⟩⟩

/-- A boot in the stage `rootfs`. -/
theorem wp_rootfsBoot {i : Inputs} {st : Storage} (hcareful : Careful st i)
    (hstate : st.saved.expand .updateState = Stage.nboot.text) :
    wp (updateTxt i) (fun _ t => Kept st t.saved t.trace ∨ Finished st t.saved t.trace)
      (seen fun saved trace => Kept st saved trace ∨ Finished st saved trace) (start i st) := by
  have hnext : nextState (st.saved.expand .updateState) = Stage.rootfs.text := by
    rw [hstate]
    decide
  -- commands that were accepted print nothing
  have hgoing : ∀ saved trace, Going (start i st) saved trace → Quiet st saved trace := by
    rintro saved trace ⟨hsaved, es, rfl, hes⟩
    exact ⟨hsaved, fun e he text => Accepted.silent (hes e he) text⟩
  -- from NAND no command is checked; from eMMC a bad load would have ended the script
  by_cases hnand : st.saved.expand .bdKernel = "nand".toList
  · have hstart : Quiet st st.saved [] := ⟨rfl, by simp⟩
    apply wp_prologue (.inl hstart.kept)
    intro env b hrootfs hbeside
    rw [start_state, hnext] at hrootfs
    apply wp_stages_rootfs hrootfs
    · exact .inl hstart.kept
    intro b'
    have hkernel : env.expand .bdKernel = "nand".toList := by
      rw [hbeside.expand (by decide), start, Environment.expand_set_of_ne _ _ _ _ (by decide)]
      exact hnand
    refine wp_ite_pos (decide_eq_true hkernel) (.inl hstart.kept) ?_
    refine wp_mute ?_ (fun _ _ h => .inl h.kept) (fun t h => ?_) hstart
    · simp only [List.forall_mem_cons]
      exact ⟨load_mute _ _ _ _, nand_mute _, nand_mute _, load_mute _ _ _ _, nand_mute _,
        nand_mute _, load_mute _ _ _ _, nand_mute _, nand_mute _, nand_mute _, nand_mute _,
        runMacro_mute _, runMacro_mute _, runMacro_mute _, by simp⟩
    · rw [onStatus_ok]
      exact wp_finish_quiet h fun hemmc => absurd hnand hemmc
  -- a careful board rules out the aborted case
  · have hstopping : ∀ saved trace, ¬ Stopping i (start i st) saved trace := by
      rintro saved trace ⟨-, hchunks, -⟩
      exact hchunks (hcareful.rootfs hstate hnand)
    apply wp_emmcBoot ⟨hnext, hnand⟩
    · rintro saved trace (h | h)
      · exact .inl (hgoing saved trace h).kept
      · exact absurd h (hstopping saved trace)
    · intro t env _ h _
      apply wp_finish_quiet (hgoing _ _ h)
      rintro - file bytes pos delivered hload
      obtain ⟨-, es, hes, haccepted⟩ := h
      rw [hes] at hload
      obtain ⟨n, -, hn⟩ := haccepted _ hload
      rw [hn, Option.isSome_some]
    · exact fun t h => absurd h (hstopping _ _)

theorem stop_of_wp {C : Environment Var → List Event → Prop} {b : Boot} {st : Storage}
    (h : wp (updateTxt b.inputs) (fun _ t => C t.saved t.trace) (seen C) (start b.inputs st)) :
    C (b.stop st).saved (b.stop st).trace :=
  stopped_of_wp (P := seen C) h (fun _ _ ht => ht) (fun _ ht => ht) b.cut

/-- The stages in which an installation can be. -/
def Known (state : Text) : Prop :=
  state = [] ∨ state = Stage.uboot.text ∨ state = Stage.nboot.text

/-- What a boot leaves behind, wherever power is cut. -/
theorem stopped_cases {b : Boot} {st : Storage} (hcareful : Careful st b.inputs)
    (hknown : Known (st.saved.expand .updateState)) :
    Leaves st (b.stop st).saved (b.stop st).trace := by
  rcases hknown with hstate | hstate | hstate
  · have hnext : nextState (st.saved.expand .updateState) = Stage.uboot.text := by
      rw [hstate]
      decide
    rcases stop_of_wp (wp_fsBoot hcareful (.inl rfl) hnext fun h => absurd hstate h) with h | h
    · exact .inl h
    · exact .inr (.inl ⟨hstate, h⟩)
  · have hnext : nextState (st.saved.expand .updateState) = Stage.nboot.text := by
      rw [hstate]
      decide
    rcases stop_of_wp (wp_fsBoot hcareful (.inr rfl) hnext fun _ => hcareful.nboot hstate)
      with h | h
    · exact .inl h
    · exact .inr (.inr (.inl ⟨hstate, h⟩))
  · rcases stop_of_wp (wp_rootfsBoot hcareful hstate) with h | h
    · exact .inl h
    · exact .inr (.inr (.inr ⟨hstate, h⟩))

/-! ## §3 All boots -/

/-- Every boot meets the condition, in the state it starts from. -/
def CarefulRun (st : Storage) : List Boot → Prop
  | [] => True
  | b :: bs => Careful st b.inputs ∧ CarefulRun (b.stop st).storage bs

/-- What the saved stage says about the boots since a mark. -/
def StageDone (state : Text) (recent : List (List Event)) : Prop :=
  state = [] ∨
    (state = Stage.uboot.text ∧ ∃ u, [u].Sublist recent ∧ Succeeded .uboot u) ∨
    (state = Stage.nboot.text ∧
      ∃ u v, [u, v].Sublist recent ∧ Succeeded .uboot u ∧ Succeeded .nboot v)

/-- The invariant: the saved stage is accounted for by the boots since any mark. -/
def Accounted (st : Storage) (history : List (List Event)) : Prop :=
  ∀ old recent, history = old ++ recent → AtMark old →
    StageDone (st.saved.expand .updateState) recent

theorem StageDone.append {state : Text} {recent : List (List Event)} (h : StageDone state recent)
    (es : List Event) : StageDone state (recent ++ [es]) := by
  have hsub : recent.Sublist (recent ++ [es]) := List.sublist_append_left _ _
  rcases h with h | ⟨h, u, hu, hsucc⟩ | ⟨h, u, v, huv, hsucc⟩
  · exact .inl h
  · exact .inr (.inl ⟨h, u, hu.trans hsub, hsucc⟩)
  · exact .inr (.inr ⟨h, u, v, huv.trans hsub, hsucc⟩)

theorem StageDone.known {state : Text} {recent : List (List Event)} (h : StageDone state recent) :
    Known state := by
  rcases h with h | ⟨h, -⟩ | ⟨h, -⟩
  · exact .inl h
  · exact .inr (.inl h)
  · exact .inr (.inr h)

theorem StageDone.uboot {state : Text} {recent : List (List Event)} (h : StageDone state recent)
    (hstate : state = Stage.uboot.text) : ∃ u, [u].Sublist recent ∧ Succeeded .uboot u := by
  rcases h with h | ⟨-, h⟩ | ⟨h, -⟩
  · exact absurd (h.symm.trans hstate) (by decide)
  · exact h
  · exact absurd (h.symm.trans hstate) (by decide)

theorem StageDone.nboot {state : Text} {recent : List (List Event)} (h : StageDone state recent)
    (hstate : state = Stage.nboot.text) :
    ∃ u v, [u, v].Sublist recent ∧ Succeeded .uboot u ∧ Succeeded .nboot v := by
  rcases h with h | ⟨h, -⟩ | ⟨-, h⟩
  · exact absurd (h.symm.trans hstate) (by decide)
  · exact absurd (h.symm.trans hstate) (by decide)
  · exact h

/-- One boot more. -/
theorem Accounted.step {st st' : Storage} {history : List (List Event)} {es : List Event}
    (h : Accounted st history) (hleaves : Leaves st st'.saved es) :
    Accounted st' (history ++ [es]) := by
  intro old recent hsplit hmark
  rcases List.eq_nil_or_concat recent with rfl | ⟨recent, last, rfl⟩
  · -- The mark is this boot itself: it leaves no stage saved.
    left
    rw [List.append_nil] at hsplit
    have hmarked : Marked es := by
      rcases hmark with rfl | ⟨older, es', hold, hes'⟩
      · exact absurd hsplit (by simp)
      · obtain rfl : es = es' := by
          have hlast := congrArg List.getLast? (hsplit.trans hold)
          simpa using hlast
        exact hes'
    rcases hleaves with ⟨hsaved, hincomplete, habort⟩ | ⟨-, -, -, hun⟩ | ⟨-, -, -, hun⟩ | ⟨-, hfin⟩
    · rw [hsaved]
      exact habort (hmarked.resolve_right hincomplete)
    · exact absurd hmarked hun
    · exact absurd hmarked hun
    · exact hfin.1
  · have hboth : history = old ++ recent ∧ [es] = [last] := by
      rw [List.concat_eq_append, ← List.append_assoc] at hsplit
      exact List.append_inj' hsplit rfl
    obtain ⟨hhistory, hlast⟩ := hboth
    obtain rfl : es = last := by simpa using hlast
    have hdone := h old recent hhistory hmark
    rw [List.concat_eq_append]
    have hthis : ∀ {us : List (List Event)}, us.Sublist recent →
        (us ++ [es]).Sublist (recent ++ [es]) := fun hus => hus.append (List.Sublist.refl _)
    rcases hleaves with ⟨hsaved, -⟩ | ⟨-, hstate, hsucc, -⟩ | ⟨hstate₀, hstate, hsucc, -⟩ | ⟨-, hfin⟩
    · rw [hsaved]
      exact hdone.append es
    · exact .inr (.inl ⟨hstate, es, hthis (List.nil_sublist _), hsucc⟩)
    · obtain ⟨u, hu, husucc⟩ := hdone.uboot hstate₀
      exact .inr (.inr ⟨hstate, u, es, hthis hu, husucc, hsucc⟩)
    · exact .inl hfin.1

theorem Accounted.known {st : Storage} {history : List (List Event)} (h : Accounted st history) :
    Known (st.saved.expand .updateState) :=
  (h [] history rfl (.inl rfl)).known

/-- The invariant holds after every run of boots that meet the condition. -/
theorem accounted_run {st : Storage} {history : List (List Event)} {boots : List Boot}
    (h : Accounted st history) (hcareful : CarefulRun st boots) :
    Accounted (storageAfter st boots) (history ++ traces st boots) := by
  induction boots generalizing st history with
  | nil => simpa [traces, storageAfter] using h
  | cons b bs ih =>
    have hstep : Accounted (b.stop st).storage (history ++ [(b.stop st).trace]) :=
      h.step (stopped_cases hcareful.1 h.known)
    have hrun := ih hstep hcareful.2
    rw [List.append_assoc] at hrun
    exact hrun

theorem carefulRun_append {st : Storage} {before after : List Boot} :
    CarefulRun st (before ++ after) ↔
      CarefulRun st before ∧ CarefulRun (storageAfter st before) after := by
  induction before generalizing st with
  | nil => simp [CarefulRun, storageAfter]
  | cons b bs ih => simp only [List.cons_append, CarefulRun, storageAfter, ih, and_assoc]

/-- No installation has begun before the first boot, and every boot meets the condition: then a
    completed installation has been through all its stages, in order, since the last message
    about the end of one. -/
theorem installed_in_order (st : Storage) (boots : List Boot)
    (hstart : st.saved.expand .updateState = []) (hcareful : CarefulRun st boots) :
    InOrder st boots := by
  intro before b after hboots hcomplete hemmc old recent hsplit hmark
  rw [hboots, carefulRun_append] at hcareful
  have hempty : Accounted st [] := fun _ _ _ _ => .inl hstart
  have haccounted := accounted_run hempty hcareful.1
  rw [List.nil_append] at haccounted
  have hdone := haccounted old recent hsplit hmark
  -- A boot that prints the message has saved the final environment.
  rcases stopped_cases hcareful.2.1 haccounted.known with
    ⟨-, hincomplete, -⟩ | ⟨-, -, -, hun⟩ | ⟨-, -, -, hun⟩ | ⟨hstate, -, hfin⟩
  · exact absurd hcomplete hincomplete
  · exact absurd (.inr hcomplete) hun
  · exact absurd (.inr hcomplete) hun
  · obtain ⟨u, v, huv, hu, hv⟩ := hdone.nboot hstate
    exact ⟨u, v, huv, hu, hv, hfin hemmc hcomplete⟩

/-- A boot on which every command does what it is asked to. -/
def plainBoot : Boot :=
  ⟨plainInputs [1, 2, 3], none⟩

/-- A boot on which power is cut behind `fsimage save`. -/
def cutBoot : Boot :=
  ⟨plainInputs [1, 2, 3], some 11⟩

/-- A boot on which `fsimage save` fails. -/
def failedBoot : Boot :=
  ⟨{ plainInputs [1, 2, 3] with fsimageSave := false }, none⟩

theorem careful_plainInputs {st : Storage} (image : List UInt8)
    (harch : st.saved.expand .arch = "mx8mp".toList) : Careful st (plainInputs image) where
  loaded := by
    intro stage _ hstage _
    rw [harch]
    cases stage with
    | uboot => rfl
    | nboot => rfl
    | rootfs => exact absurd rfl hstage
  nboot := fun _ => rfl
  rootfs := fun _ _ => plainInputs_chunksFit
    ((Environment.expand_set_of_ne _ _ _ _ (by decide)).trans harch)

theorem installed_in_order_cut :
    InOrder (plainStorage []) [plainBoot, cutBoot, plainBoot, plainBoot] :=
  installed_in_order _ _ rfl
    ⟨careful_plainInputs _ rfl, careful_plainInputs _ (by decide +kernel),
      careful_plainInputs _ (by decide +kernel), careful_plainInputs _ (by decide +kernel), trivial⟩

/-- After an installation was aborted in the stage `nboot`, the next two boots complete it
    without the stage `uboot`. -/
theorem abortedStage_skipped :
    ¬ InOrder (plainStorage []) [plainBoot, failedBoot, plainBoot, plainBoot] := by
  intro h
  have hcomplete : complete ∈
      (plainBoot.stop (storageAfter (plainStorage []) [plainBoot, failedBoot, plainBoot])).trace := by
    decide +kernel
  have hemmc : (storageAfter (plainStorage []) [plainBoot, failedBoot, plainBoot]).saved.expand
      .bdKernel ≠ "nand".toList := by
    decide +kernel
  have hmarked : Event.echo (abortText "mmc 1".toList) ∈
      (failedBoot.stop (plainBoot.stop (plainStorage [])).storage).trace := by
    decide +kernel
  obtain ⟨u, v, huv, -⟩ := h [plainBoot, failedBoot, plainBoot] plainBoot [] rfl hcomplete hemmc
    [_, _] [_] rfl (.inr ⟨[_], _, rfl, .inl ⟨_, hmarked⟩⟩)
  exact absurd huv.length_le (by simp)

end AppSysManager.Installer
