import AppSysManager.Installer.Chunks

/-!
# Passes of the Script

What a boot of `update.txt` can do, command by command and wherever power is cut.

## Main statements

- `wp_copyImage`: the copying part of the eMMC branch always ends, with all chunks accepted or
  by `exit` behind the first one that `is_error` rejects.
- `wp_prologue`, `wp_finish`: the lines in front of the stages and behind them.
-/

namespace AppSysManager.Installer

open Shell

/-! ## §1 The loop, whatever its commands answer -/

/-- The events of rounds that are not aborted. -/
def Event.Accepted : Event → Prop
  | .load _ bytes _ delivered => ∃ n ≤ bytes, delivered = some n
  | .mmcWrite _ _ _ => True
  | _ => False

/-- A load of some bytes that failed, or that delivered more than these. -/
def Event.BadChunk : Event → Prop
  | .load _ bytes _ delivered => 0 < bytes ∧ ¬ ∃ n ≤ bytes, delivered = some n
  | _ => False

/-- No round was aborted so far. -/
def Going (m : Machine) (saved : Environment Var) (trace : List Event) : Prop :=
  saved = m.saved ∧ ∃ es, trace = m.trace ++ es ∧ ∀ e ∈ es, e.Accepted

/-- A chunk was rejected, and the script prints no more than the message about it. -/
def Stopping (i : Inputs) (m : Machine) (saved : Environment Var) (trace : List Event) : Prop :=
  saved = m.saved ∧ ¬ ChunksFit i m ∧
    ∃ es bad tail, trace = m.trace ++ es ++ bad :: tail ∧ (∀ e ∈ es, e.Accepted) ∧
      bad.BadChunk ∧ (tail = [] ∨ ∃ dev, tail = [.echo (abortText dev)])

section Loop

variable {i : Inputs} {m₀ m : Machine} {size pos : Nat}

theorem going_refl : Going m m.saved m.trace :=
  ⟨rfl, [], (List.append_nil _).symm, by simp⟩

theorem Going.append {saved : Environment Var} {trace : List Event} (h : Going m saved trace)
    {more : List Event} (hmore : ∀ e ∈ more, e.Accepted) : Going m saved (trace ++ more) := by
  obtain ⟨hsaved, es, rfl, hes⟩ := h
  refine ⟨hsaved, es ++ more, List.append_assoc _ _ _, ?_⟩
  intro e he
  rcases List.mem_append.mp he with he | he
  · exact hes e he
  · exact hmore e he

theorem loadEvent_accepted (h : Fits size (content i m size pos)) :
    (loadEvent i m size pos).Accepted := by
  obtain ⟨bs, hbs, hle⟩ := h
  exact ⟨bs.length, hle, by rw [hbs, Option.map_some]⟩

theorem loadEvent_badChunk (hsize : 0 < size) (h : ¬ Fits size (content i m size pos)) :
    (loadEvent i m size pos).BadChunk := by
  refine ⟨hsize, ?_⟩
  rintro ⟨n, hn, hdelivered⟩
  obtain ⟨bs, hbs, rfl⟩ := Option.map_eq_some_iff.mp hdelivered
  exact h ⟨bs, hbs, hn⟩

theorem Going.stopping (h : Going m₀ m.saved m.trace) (hchunks : ¬ ChunksFit i m₀)
    (hsize : 0 < size) (hfits : ¬ Fits size (content i m size pos)) {tail : List Event}
    (htail : tail = [] ∨ ∃ dev, tail = [.echo (abortText dev)]) :
    Stopping i m₀ m.saved (m.trace ++ loadEvent i m size pos :: tail) := by
  obtain ⟨hsaved, es, htrace, hes⟩ := h
  exact ⟨hsaved, hchunks, es, _, tail, by rw [htrace], hes, loadEvent_badChunk hsize hfits, htail⟩

/-- It does not matter for this what other variables the lines in front of the loop have set. -/
theorem Stopping.beside {vs : List Var} {saved : Environment Var} {trace : List Event}
    (h : Stopping i m saved trace) (hsaved : m.saved = m₀.saved) (htrace : m.trace = m₀.trace)
    (hloads : m.loads = m₀.loads) (hbeside : Beside vs m₀.ram m.ram) (harch : .arch ∉ vs)
    (hsize : .filesize ∉ vs) : Stopping i m₀ saved trace := by
  obtain ⟨hkept, hchunks, hes⟩ := h
  refine ⟨hkept.trans hsaved, fun hall => hchunks ?_, by rwa [htrace] at hes⟩
  exact hall.beside hloads hbeside harch hsize

/-- The invariant of the loop, with `rest` bytes to go: as long as there are any, the chunks in
    front of the next one were full ones, with one load each. -/
structure Running (i : Inputs) (m₀ : Machine) (rest : Nat) (m : Machine) : Prop where
  counters : ∃ size pos, Counters m.ram rest size pos ∧
    (rest = 0 ∨ ∃ n k, imageSize i m₀.ram = some n ∧ pos + rest = n ∧ size = CHUNK ∧
      pos = k * CHUNK ∧ m.loads = m₀.loads + k)
  beside : Beside chunkVars m₀.ram m.ram
  going : Going m₀ m.saved m.trace

/-- How the copying part ends: with all chunks accepted, or by `exit`. -/
def CopyEnds (i : Inputs) (m₀ : Machine) (st : Status) (m : Machine) : Prop :=
  (st = .ok ∧ Beside chunkVars m₀.ram m.ram ∧ Going m₀ m.saved m.trace) ∨
    (st = .exited ∧ Stopping i m₀ m.saved m.trace)

theorem round_running (rest : Nat) (h : Running i m₀ rest m) :
    Round (Running i m₀) (CopyEnds i m₀)
      (seen fun saved trace => Going m₀ saved trace ∨ Stopping i m₀ saved trace)
      restLeft (chunk i) rest m := by
  obtain ⟨⟨size, pos, hcounters, hnext⟩, hbeside, hgoing⟩ := h
  apply wp_restLeft hcounters (.inl hgoing)
  · intro _
    exact .inl ⟨rfl, hbeside, hgoing⟩
  · intro hrest
    obtain ⟨n, k, hn, rfl, rfl, rfl, hloads⟩ := hnext.resolve_left hrest
    -- what is loaded now is the `k`-th chunk of the image
    have hbytes : min CHUNK rest = chunkBytes (k * CHUNK + rest) k := by
      rw [chunkBytes, Nat.add_sub_cancel_left]
    have hchunks : ¬ Fits (min CHUNK rest)
        (content i (m.returning true) (min CHUNK rest) (k * CHUNK)) → ¬ ChunksFit i m₀ := by
      intro hfits hall
      apply hfits
      have hfit := hall _ hn k (Nat.lt_add_of_pos_right (Nat.pos_of_ne_zero hrest))
      rw [← hbytes, ← hloads, ← hbeside.expand (by decide)] at hfit
      exact hfit
    have hchunk : 0 < CHUNK := by decide
    have hpositive : 0 < min CHUNK rest := by omega
    show wp (chunk i) _ _ (m.returning true)
    have hwrite : (writeEvent i m (min CHUNK rest) (k * CHUNK)).Accepted := trivial
    apply wp_chunk (m := m.returning true) hcounters (.inl hgoing)
    · -- The load command alone: it depends on what it delivered.
      by_cases hfits : Fits (min CHUNK rest)
          (content i (m.returning true) (min CHUNK rest) (k * CHUNK))
      · left
        apply hgoing.append
        simpa using loadEvent_accepted hfits
      · exact .inr (hgoing.stopping (hchunks hfits) hpositive hfits (.inl rfl))
    · intro hfits
      left
      apply hgoing.append
      simpa using ⟨loadEvent_accepted hfits, hwrite⟩
    · intro hfits
      exact .inr (hgoing.stopping (hchunks hfits) hpositive hfits (.inr ⟨_, rfl⟩))
    · intro bs env hbs hle hcounters' hbeside'
      refine ⟨rest - min CHUNK rest, by omega, ⟨_, _, hcounters', ?_⟩,
        hbeside.trans hbeside', ?_⟩
      -- after a short chunk nothing is left
      · by_cases hlast : rest ≤ CHUNK
        · exact .inl (by omega)
        · have hfull : min CHUNK rest = CHUNK := min_eq_left (by omega)
          refine .inr ⟨_, k + 1, hn, by omega, hfull, ?_, ?_⟩
          · rw [hfull, Nat.succ_mul]
          · show m.loads + 1 = _
            rw [hloads, Nat.add_assoc]
      · apply hgoing.append
        simpa using ⟨loadEvent_accepted ⟨bs, hbs, hle⟩, hwrite⟩
    · intro t hfits hsaved htrace
      right
      refine ⟨rfl, ?_⟩
      rw [hsaved, htrace]
      exact hgoing.stopping (hchunks hfits) hpositive hfits (.inr ⟨_, rfl⟩)

/-- The copying part of the eMMC branch always ends, and ends in one of two ways. -/
theorem wp_copyImage (i : Inputs) (m : Machine) :
    wp (copyImage i) (CopyEnds i m)
      (seen fun saved trace => Going m saved trace ∨ Stopping i m saved trace) m := by
  apply wp_beforeChunks (.inl going_refl)
  intro env hrest hsize hpos hbeside
  rw [wp_script_cons]
  apply wp_mono (Q := CopyEnds i m) _ _ (fun _ ht => ht)
  · cases hn : imageSize i m.ram with
    | some n =>
      have hcounters : Counters env n CHUNK 0 := ⟨hrest.trans hn, hsize, hpos⟩
      apply wp_whileDo (n := n) (I := Running i m)
      · have hbound : (env.number .updateImageSizeRest).getD 0 = n := by
          rw [hcounters.rest, Option.getD_some]
        exact hbound.ge
      · have hfirst : (0 : Nat) = 0 * CHUNK := (Nat.zero_mul CHUNK).symm
        exact ⟨⟨CHUNK, 0, hcounters, .inr ⟨n, 0, hn, Nat.zero_add n, rfl, hfirst, rfl⟩⟩, hbeside,
          going_refl⟩
      · exact fun rest t => round_running rest
    | none =>
      -- `filesize` is not set, so the test has no number to compare and the loop is skipped.
      apply wp_whileDo (n := 0) (I := fun _ t => t.ram.number .updateImageSizeRest = none ∧
        Beside chunkVars m.ram t.ram ∧ Going m t.saved t.trace) (Nat.zero_le _)
      · exact ⟨hrest.trans hn, hbeside, going_refl⟩
      · rintro _ t ⟨hnone, hbeside', hgoing⟩
        show wp restLeft _ _ t
        rw [restLeft, itest, wp_test, hnone]
        exact ⟨.inl hgoing, .inl ⟨rfl, hbeside', hgoing⟩⟩
  · rintro st t (⟨rfl, hends⟩ | ⟨rfl, hends⟩)
    · rw [onStatus_ok, wp_script_nil]
      exact .inl ⟨rfl, hends⟩
    · exact .inr ⟨rfl, hends⟩

end Loop

/-- What is printed before the environment is saved. -/
def configuring : Event :=
  .echo "Configuring Cortex-M7 core boot".toList

/-- The message at the end of an installation. -/
def complete : Event :=
  .echo "Installation complete".toList

theorem abortText_head (dev : Text) : (abortText dev).head? = some 'L' := by
  have hfirst : "Loading from ".toList = 'L' :: "oading from ".toList := by simp
  unfold abortText
  rw [hfirst]
  exact List.head?_cons

theorem abortText_ne_complete (dev : Text) : Event.echo (abortText dev) ≠ complete := by
  intro h
  have hhead := congrArg List.head? (Event.echo.inj h)
  rw [abortText_head] at hhead
  exact absurd hhead (by decide)

theorem abortText_ne_configuring (dev : Text) : Event.echo (abortText dev) ≠ configuring := by
  intro h
  have hhead := congrArg List.head? (Event.echo.inj h)
  rw [abortText_head] at hhead
  exact absurd hhead (by decide)

theorem Going.no_complete {m : Machine} {saved : Environment Var} {trace : List Event}
    (h : Going m saved trace) (hm : complete ∉ m.trace) : complete ∉ trace := by
  obtain ⟨-, es, rfl, hes⟩ := h
  intro hmem
  rcases List.mem_append.mp hmem with hmem | hmem
  · exact hm hmem
  · exact hes _ hmem

theorem Stopping.no_complete {i : Inputs} {m : Machine} {saved : Environment Var}
    {trace : List Event} (h : Stopping i m saved trace) (hm : complete ∉ m.trace) :
    complete ∉ trace := by
  obtain ⟨-, -, es, bad, tail, rfl, hes, hbad, htail⟩ := h
  intro hmem
  rw [List.mem_append, List.mem_append, List.mem_cons] at hmem
  rcases hmem with (hmem | hmem) | rfl | hmem
  · exact hm hmem
  · exact hes _ hmem
  · exact hbad
  · rcases htail with rfl | ⟨dev, rfl⟩
    · exact absurd hmem List.not_mem_nil
    · exact abortText_ne_complete dev (List.mem_singleton.mp hmem).symm

/-! ## §2 The lines around the stages -/

/-- The variables that the first lines set. -/
def setupVars : List Var :=
  [.updateState, .doCheck, .doMessage, .doCleanup, .isError]

/-- The stage that follows a value of `update_state`. -/
def nextState (state : Text) : Text :=
  if state = [] then Stage.uboot.text
  else if state = Stage.uboot.text then Stage.nboot.text
  else if state = Stage.nboot.text then Stage.rootfs.text
  else state

section Lines

variable {Q : Status → Machine → Prop} {C : Environment Var → List Event → Prop} {i : Inputs}
  {m : Machine}

theorem wp_setup (hC : C m.saved m.trace) (cs : List (Cmd Machine))
    (hQ : ∀ env, Beside setupVars m.ram env → env.expand .updateState = m.ram.expand .updateState →
      wp (script cs) Q (seen C) ({ m with ram := env }.returning true)) :
    wp (script (setup ++ cs)) Q (seen C) m := by
  refine wp_line hC (wp_line hC (wp_line hC (wp_line hC ?_)))
  apply hQ
  · refine Beside.trans ?_ (beside_set _ (by decide) _)
    refine Beside.trans ?_ (beside_set _ (by decide) _)
    refine Beside.trans ?_ (beside_set _ (by decide) _)
    exact beside_set _ (by decide) _
  · simp only [Machine.returning]
    rw [Environment.expand_set_of_ne _ _ _ _ (by decide),
      Environment.expand_set_of_ne _ _ _ _ (by decide),
      Environment.expand_set_of_ne _ _ _ _ (by decide),
      Environment.expand_set_of_ne _ _ _ _ (by decide)]

theorem wp_advance (hC : C m.saved m.trace)
    (hQ : ∀ env b, env.expand .updateState = nextState (m.ram.expand .updateState) →
      Beside setupVars m.ram env → Q .ok ({ m with ram := env }.returning b)) :
    wp advance Q (seen C) m := by
  -- whichever branch is taken, it assigns the next stage and nothing else
  have hset : ∀ stage b, nextState (m.ram.expand .updateState) = stage.text →
      wp (setStage stage) Q (seen C) (m.returning b) := by
    intro stage b hnext
    rw [setStage, wp_setenv]
    refine ⟨hC, hQ _ true ?_ (beside_set _ (by decide) _)⟩
    rw [hnext]
    exact Environment.expand_set_self _ _ _
  by_cases hempty : m.ram.expand .updateState = []
  · apply wp_ite_pos (decide_eq_true hempty) hC
    exact hset .uboot _ (by rw [nextState, if_pos hempty])
  apply wp_ite_neg (decide_eq_false hempty) hC
  by_cases huboot : m.ram.expand .updateState = Stage.uboot.text
  · refine wp_ite_pos (decide_eq_true huboot) hC ?_
    exact hset .nboot _ (by rw [nextState, if_neg hempty, if_pos huboot])
  refine wp_ite_neg (decide_eq_false huboot) hC ?_
  by_cases hnboot : m.ram.expand .updateState = Stage.nboot.text
  · refine wp_ite_pos (decide_eq_true hnboot) hC ?_
    exact hset .rootfs _ (by rw [nextState, if_neg hempty, if_neg huboot, if_pos hnboot])
  refine wp_ite_neg (decide_eq_false hnboot) hC ?_
  -- any other stage stays as it is
  rw [wp_done]
  refine hQ m.ram false ?_ (Beside.refl _)
  rw [nextState, if_neg hempty, if_neg huboot, if_neg hnboot]

/-- The lines in front of the stages. -/
theorem wp_prologue (hC : C m.saved m.trace)
    (hQ : ∀ env b, env.expand .updateState = nextState (m.ram.expand .updateState) →
      Beside setupVars m.ram env →
      wp (script (stages i ++ finish)) Q (seen C) ({ m with ram := env }.returning b)) :
    wp (updateTxt i) Q (seen C) m := by
  rw [updateTxt, List.append_assoc, List.append_assoc]
  apply wp_setup hC
  intro env hbeside hstate
  show wp (script (advance :: (stages i ++ finish))) _ _ _
  rw [wp_script_cons]
  refine wp_advance hC (fun env' b hstate' hbeside' => ?_)
  refine hQ env' b (hstate'.trans ?_) (hbeside.trans hbeside')
  rw [← hstate]
  rfl

/-- The environment that is saved in the end. -/
def finalEnv (env : Environment Var) : Environment Var :=
  let env := env.set .m7image "/home/root/disco_scheduler.bin".toList
  let env := env.set .loadm7image
    ("ext4load mmc 2:2 ".toList ++ env.expand .loadaddr ++ " ".toList ++ env.expand .m7image)
  let env := env.set .m7boot (env.expand .loadm7image ++ "; cp.b ".toList ++ env.expand .loadaddr ++
    " 0x7e0000 0x1fc00; dcache flush; bootaux 0x7e0000".toList)
  let env := env.set .bootcmd (m7Call ++ env.expand .bootcmd)
  env.delete cleanupVars

theorem finalEnv_state (env : Environment Var) : (finalEnv env).expand .updateState = [] := by
  unfold finalEnv
  rw [Environment.expand, Environment.delete_of_mem _ _ (by decide), Option.getD_none]

/-- The end of the script.  Power may be cut in front of `saveenv`, between it and the message,
    and behind the message. -/
theorem wp_finish (hC : C m.saved m.trace) (hconfig : C m.saved (m.trace ++ [configuring]))
    (hsaved : C (finalEnv m.ram) (m.trace ++ [configuring]))
    (hcomplete : C (finalEnv m.ram) (m.trace ++ [configuring, complete]))
    (hQ : ∀ t, t.saved = finalEnv m.ram →
      t.trace = m.trace ++ [configuring, complete, .echo []] → Q .ok t) :
    wp (script finish) Q (seen C) m := by
  refine wp_line hC (wp_line hconfig (wp_line hconfig (wp_line hconfig (wp_line hconfig ?_))))
  rw [wp_script_cons, wp_doCleanup]
  refine ⟨hconfig, hconfig, ?_⟩
  show wp (script _) _ _ _
  refine wp_line hconfig (wp_line hsaved ?_)
  have htrace : ∀ more : List Event, m.trace ++ [configuring] ++ [complete] ++ more =
      m.trace ++ configuring :: complete :: more := by simp
  apply wp_line
  · show C (finalEnv m.ram) (m.trace ++ [configuring] ++ [complete])
    rw [← List.append_nil (_ ++ [complete]), htrace]
    exact hcomplete
  · rw [wp_script_nil]
    apply hQ _ rfl
    exact htrace _

/-- In the stage `rootfs` the other stages are passed over. -/
theorem wp_stages_rootfs (hstate : m.ram.expand .updateState = Stage.rootfs.text)
    (hC : C m.saved m.trace) (cs : List (Cmd Machine))
    (hQ : ∀ b, wp (rootfsStage i)
      (onStatus (wp (script cs) Q (seen C)) (wp (script cs) Q (seen C)) Q) (seen C)
      (m.returning b)) :
    wp (script (stages i ++ cs)) Q (seen C) m := by
  have hno : ∀ stage : Stage, stage ≠ .rootfs →
      decide (m.ram.expand .updateState = stage.text) = false := by
    intro stage hstage
    rw [hstate]
    cases stage <;> first | exact absurd rfl hstage | decide
  show wp (script (_ :: _)) _ _ _
  rw [wp_script_cons, wp_when, wp_either, testStage, wp_test, hno .uboot (by decide)]
  refine ⟨hC, ?_⟩
  show wp (testStage .nboot) _ _ (m.returning false)
  refine (wp_test _).mpr ⟨hC, ?_⟩
  rw [show decide ((m.returning false).ram.expand .updateState = Stage.nboot.text) = false from
    hno .nboot (by decide)]
  show wp (script (_ :: cs)) _ _ _
  rw [wp_script_cons]
  exact wp_ite_pos (decide_eq_true hstate) hC (hQ true)

/-- The load command of the stages `uboot` and `nboot`. -/
def fsLoad (i : Inputs) (m : Machine) : Event :=
  .load (fsFile (m.ram.expand .updateState) (m.ram.expand .arch)) 0 0
    ((i.load m.loads (fsFile (m.ram.expand .updateState) (m.ram.expand .arch)) 0 0).map List.length)

/-- The stages `uboot` and `nboot`.  The status of the load command is looked at by nobody;
    `fsimage save` decides. -/
theorem wp_fsStage (hC : C m.saved m.trace) (hload : C m.saved (m.trace ++ [fsLoad i m]))
    (hsave : C m.saved (m.trace ++ [fsLoad i m, .fsimageSave i.fsimageSave]))
    (habort : i.fsimageSave = false →
      C m.saved (m.trace ++ [fsLoad i m, .fsimageSave false, abortEvent m]))
    (hdone : i.fsimageSave = true → ∀ env, Beside [.filesize] m.ram env →
      C env (m.trace ++ [fsLoad i m, .fsimageSave true]))
    (hgood : i.fsimageSave = true → ∀ t, Beside [.filesize] m.ram t.saved →
      t.trace = m.trace ++ [fsLoad i m, .fsimageSave true] → Q .reset t)
    (hbad : i.fsimageSave = false → ∀ t, t.saved = m.saved →
      t.trace = m.trace ++ [fsLoad i m, .fsimageSave false, abortEvent m] → Q .exited t) :
    wp (fsStage i) Q (seen C) m := by
  -- Whatever `load` answers, the rest of the stage starts in a machine like this.
  have hrest : ∀ t : Machine, t.saved = m.saved → t.trace = m.trace ++ [fsLoad i m] →
      Beside [.filesize] m.ram t.ram →
      wp (script [either (fsimageSave i) (both doMessage (both doCleanup exit)), saveenv, reset])
        Q (seen C) t := by
    intro t hsaved htrace hbeside
    have hmessage : abortEvent t = abortEvent m := by
      rw [abortEvent, abortEvent, hbeside.expand (by decide)]
    have htrace' : ∀ more : List Event, t.trace ++ more = m.trace ++ fsLoad i m :: more := by
      intro more
      rw [htrace, List.append_assoc]
      rfl
    rw [wp_script_cons, wp_either, fsimageSave, wp_command]
    refine ⟨by rw [seen, hsaved, htrace]; exact hload, ?_⟩
    cases hok : i.fsimageSave with
    | true =>
      rw [hok] at hsave
      -- `||` skips the rest of its line.
      show wp (script (saveenv :: _)) _ _ _
      have hlog : t.trace ++ [.fsimageSave true] = m.trace ++ [fsLoad i m, .fsimageSave true] :=
        htrace' _
      refine wp_line ?_ ?_
      · show C t.saved (t.trace ++ [.fsimageSave true])
        rw [hsaved, hlog]
        exact hsave
      rw [wp_script_cons, wp_reset]
      constructor
      · show C t.ram (t.trace ++ [.fsimageSave true])
        rw [hlog]
        exact hdone hok t.ram hbeside
      · exact hgood hok _ hbeside hlog
    | false =>
      rw [hok] at hsave
      have hlog : t.trace ++ [.fsimageSave false] = m.trace ++ [fsLoad i m, .fsimageSave false] :=
        htrace' _
      have hlog' : t.trace ++ [.fsimageSave false] ++ [abortEvent t] =
          m.trace ++ [fsLoad i m, .fsimageSave false, abortEvent m] := by
        rw [hmessage, hlog, List.append_assoc]
        rfl
      have hseen : C t.saved (t.trace ++ [.fsimageSave false] ++ [abortEvent t]) := by
        rw [hsaved, hlog']
        exact habort hok
      show wp (both doMessage _) _ _ _
      rw [wp_both, doMessage, wp_echo]
      refine ⟨?_, ?_⟩
      · show C t.saved (t.trace ++ [.fsimageSave false])
        rw [hsaved, hlog]
        exact hsave
      rw [onStatus_ok, wp_both, wp_doCleanup]
      refine ⟨hseen, hseen, ?_⟩
      rw [onStatus_ok, wp_exit]
      exact ⟨hseen, hbad hok _ hsaved hlog'⟩
  show wp (script (load i _ _ _ :: _)) _ _ _
  rw [wp_script_cons, wp_load]
  refine ⟨hC, fun bs hbs => ?_, fun hnone => ?_⟩
  · refine hrest _ rfl ?_ (beside_set _ (by decide) _)
    rw [fsLoad, hbs]
    rfl
  · refine hrest _ rfl ?_ (Beside.refl _)
    rw [fsLoad, hnone]
    rfl

/-- In the stages `uboot` and `nboot` the rest of the script is not reached. -/
theorem wp_stages_fs {stage : Stage} (hstage : stage = .uboot ∨ stage = .nboot)
    (hstate : m.ram.expand .updateState = stage.text) (hC : C m.saved m.trace)
    (cs : List (Cmd Machine))
    (hQ : ∀ b, wp (fsStage i) (fun status t => (status = .reset ∨ status = .exited) ∧ Q status t)
      (seen C) (m.returning b)) :
    wp (script (stages i ++ cs)) Q (seen C) m := by
  -- a status other than success and failure is not looked at by `if`
  have hend : ∀ yes no b, wp (fsStage i) (onStatus yes no Q) (seen C) (m.returning b) := by
    intro yes no b
    apply wp_mono (hQ b) _ (fun _ ht => ht)
    rintro status t ⟨rfl | rfl, h⟩
    · exact h
    · exact h
  show wp (script (_ :: _)) _ _ _
  rw [wp_script_cons, wp_when, wp_either, testStage, wp_test]
  refine ⟨hC, ?_⟩
  rcases hstage with rfl | rfl
  · rw [decide_eq_true hstate]
    exact hend _ _ true
  -- the first test fails and the second one is made
  · have huboot : ¬ m.ram.expand .updateState = Stage.uboot.text := by
      rw [hstate]
      decide
    rw [decide_eq_false huboot]
    show wp (testStage .nboot) _ _ (m.returning false)
    refine (wp_test _).mpr ⟨hC, ?_⟩
    rw [show decide ((m.returning false).ram.expand .updateState = Stage.nboot.text) = true from
      decide_eq_true hstate]
    exact hend _ _ true

/-- The environment behind the eMMC branch. -/
def mmcEnv (i : Inputs) (env : Environment Var) : Environment Var :=
  i.rootfsMmc (i.fdtMmc (i.kernelMmc
    ((env.set .bootfdt "picocoremx8mp.dtb".toList).set .platform "picocoremx8mp".toList)))

/-- The eMMC branch: what happens behind the copying part, if it is passed. -/
theorem wp_mmcBoot (hC : ∀ saved trace, Going m saved trace ∨ Stopping i m saved trace →
      C saved trace)
    (hgood : ∀ t env, Beside chunkVars m.ram env → Going m t.saved t.trace →
      t.ram = mmcEnv i env → Q .ok t)
    (hbad : ∀ t, Stopping i m t.saved t.trace → Q .exited t) :
    wp (mmcBoot i) Q (seen C) m := by
  rw [mmcBoot, wp_script_cons]
  apply wp_mono (wp_copyImage i m) _ (fun t ht => hC _ _ ht)
  rintro st t (⟨rfl, hbeside, hgoing⟩ | ⟨rfl, hstopping⟩)
  · have hseen : C t.saved t.trace := hC _ _ (.inl hgoing)
    show wp (script _) _ _ _
    refine wp_line hseen (wp_line hseen (wp_line hseen (wp_line hseen (wp_line hseen ?_))))
    rw [wp_script_nil]
    exact hgood _ t.ram hbeside hgoing rfl
  · exact hbad t hstopping

end Lines

/-! ## §3 The eMMC branch as a boot -/

/-- The next boot is in the stage `rootfs`, on a board that boots from eMMC. -/
structure EmmcNext (st : Storage) : Prop where
  rootfs : nextState (st.saved.expand .updateState) = Stage.rootfs.text
  emmc : st.saved.expand .bdKernel ≠ "nand".toList

/-- The variables that are set in front of the chunk loop and in it. -/
def emmcVars : List Var :=
  .updatedev :: setupVars ++ chunkVars

/-- What is beside few variables is beside more of them. -/
theorem Beside.mono {vs ws : List Var} {a b : Environment Var} (h : Beside vs a b)
    (hsub : ∀ v ∈ vs, v ∈ ws) : Beside ws a b :=
  fun v hv => h v fun hmem => hv (hsub v hmem)

theorem start_state (i : Inputs) (st : Storage) :
    (start i st).ram.expand .updateState = st.saved.expand .updateState :=
  Environment.expand_set_of_ne _ _ _ _ (by decide)

/-- A boot in the stage `rootfs`, on a board that boots from eMMC. -/
theorem wp_emmcBoot {Q : Status → Machine → Prop} {C : Environment Var → List Event → Prop}
    {i : Inputs} {st : Storage} (h : EmmcNext st)
    (hC : ∀ saved trace, Going (start i st) saved trace ∨ Stopping i (start i st) saved trace →
      C saved trace)
    (hgood : ∀ t env, Beside emmcVars st.saved env → Going (start i st) t.saved t.trace →
      t.ram = mmcEnv i env → wp (script finish) Q (seen C) t)
    (hbad : ∀ t, Stopping i (start i st) t.saved t.trace → Q .exited t) :
    wp (updateTxt i) Q (seen C) (start i st) := by
  have hseen : C (start i st).saved (start i st).trace := hC _ _ (.inl going_refl)
  apply wp_prologue hseen
  intro env b hstate hbeside
  rw [start_state, h.rootfs] at hstate
  apply wp_stages_rootfs hstate
  · exact hseen
  intro b'
  -- no line in front of this test changes the kernel device
  have hkernel : env.expand .bdKernel ≠ "nand".toList := by
    rw [hbeside.expand (by decide), start, Environment.expand_set_of_ne _ _ _ _ (by decide)]
    exact h.emmc
  refine wp_ite_neg (decide_eq_false hkernel) hseen ?_
  have hstopping : ∀ saved trace,
      Stopping i ({ start i st with ram := env }.returning b |>.returning b' |>.returning false)
        saved trace → Stopping i (start i st) saved trace :=
    fun saved trace h => h.beside rfl rfl rfl hbeside (by decide) (by decide)
  apply wp_mmcBoot
  · rintro saved trace (h | h)
    · exact hC _ _ (.inl h)
    · exact hC _ _ (.inr (hstopping _ _ h))
  -- the variables that changed are the ones the script sets on the way
  · intro t env' hbeside' hgoing hram
    have hstart : Beside emmcVars st.saved (start i st).ram := beside_set _ (by decide) _
    refine hgood t env' ?_ hgoing hram
    exact (hstart.trans (hbeside.mono (by decide))).trans (hbeside'.mono (by decide))
  · exact fun t h => hbad t (hstopping _ _ h)

end AppSysManager.Installer
