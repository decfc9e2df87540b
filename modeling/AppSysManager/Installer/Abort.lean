import AppSysManager.Installer.Passes

/-!
# Aborted Installations

What a chunk that cannot be loaded does to an installation.  `is_error` looks at the status of
`load` and at `filesize`, as the comment on it says, so it stops the script after a load that
fails and after one that delivers more than was asked for (`rejected_withdrawn`).  A load that
delivers less passes, and so does a failing `mmc write`, whose status is looked at by nobody
(`incomplete_installed`).
-/

namespace AppSysManager.Installer

open Shell

/-- A load that failed, or that delivered more than was asked for. -/
def Event.Rejected : Event → Prop
  | .load _ bytes _ delivered => ¬ ∃ n ≤ bytes, delivered = some n
  | _ => False

theorem Event.Accepted.not_rejected {e : Event} (h : e.Accepted) : ¬ e.Rejected := by
  cases e with
  | load file bytes pos delivered => exact fun hrejected => hrejected h
  | echo | fsimageSave | mmcWrite | nand => exact id

/-- The script ends early and leaves the saved environment as it was. -/
structure Withdrawn (i : Inputs) (st : Storage) : Prop where
  exited : (bootRun i st).status = .exited
  unprinted : complete ∉ (bootRun i st).final.trace
  saved : (bootRun i st).final.saved = st.saved

/-- A pass of the stage `rootfs` on a board that boots from eMMC: it is withdrawn, or no chunk
    was rejected. -/
theorem wp_emmcPass {i : Inputs} {st : Storage} (h : EmmcNext st) :
    wp (updateTxt i) (fun status t => (status = .exited ∧ complete ∉ t.trace ∧ t.saved = st.saved) ∨
      ∀ e ∈ t.trace, ¬ e.Rejected) (seen fun _ _ => True) (start i st) := by
  apply wp_emmcBoot h (fun _ _ _ => trivial)
  · intro t env _ hgoing _
    apply wp_finish trivial trivial trivial trivial
    intro t' _ htrace
    right
    obtain ⟨-, es, hes, haccepted⟩ := hgoing
    intro e he
    rw [htrace, hes, List.mem_append] at he
    rcases he with he | he
    · exact Event.Accepted.not_rejected (haccepted e he)
    · -- What is printed in the end is no load.
      simp only [List.mem_cons, List.not_mem_nil, or_false] at he
      rcases he with rfl | rfl | rfl <;> exact id
  · intro t hstopping
    left
    exact ⟨rfl, hstopping.no_complete List.not_mem_nil, hstopping.1⟩

/-- If the load command fails, or delivers more bytes than the chunk has, in any round of the
    loop, the script ends without its final message and the saved environment stays. -/
theorem rejected_withdrawn (i : Inputs) (st : Storage) (h : EmmcNext st)
    (hrejected : ∃ e ∈ (bootRun i st).final.trace, e.Rejected) : Withdrawn i st := by
  obtain ⟨-, ⟨hexited, hunprinted, hsaved⟩ | hnone⟩ := wp_emmcPass (i := i) h
  · exact ⟨hexited, hunprinted, hsaved⟩
  · obtain ⟨e, he, hbad⟩ := hrejected
    exact absurd hbad (hnone e he)

/-- A command of the loop that did not do all it was asked to. -/
def Event.Incomplete : Event → Prop
  | .load _ bytes _ delivered => delivered ≠ some bytes
  | .mmcWrite _ _ ok => ok = false
  | _ => False

/-- A board whose boot loader and `nboot` are installed. -/
def lastStage : Storage :=
  plainStorage Stage.nboot.text

/-- The first load fails. -/
def noLoad : Inputs :=
  { plainInputs [1, 2, 3] with load := fun _ _ _ _ => none }

/-- Every load ends early. -/
def shortLoad : Inputs :=
  { plainInputs [1, 2, 3] with load := fun _ _ _ _ => some [1] }

/-- No block can be written. -/
def noWrite : Inputs :=
  { plainInputs [1, 2, 3] with mmcWrite := fun _ => false }

theorem lastStage_emmcNext : EmmcNext lastStage :=
  ⟨by decide, by decide⟩

theorem rejected_withdrawn_noLoad :
    (bootRun noLoad lastStage).final.trace.length = 2 ∧ Withdrawn noLoad lastStage := by
  have htrace : (bootRun noLoad lastStage).final.trace =
      [.load (imageFile "mx8mp".toList) 3 0 none, .echo (abortText "mmc 1".toList)] := by
    decide +kernel
  refine ⟨by rw [htrace]; rfl, rejected_withdrawn _ _ lastStage_emmcNext
    ⟨.load (imageFile "mx8mp".toList) 3 0 none, ?_, ?_⟩⟩
  · rw [htrace]
    exact List.mem_cons_self
  · rintro ⟨n, -, hn⟩
    exact absurd hn (by simp)

/-- A load that delivers one byte of three, and writes that all fail, end in a message that
    the installation is complete. -/
theorem incomplete_installed :
    ¬ ((∃ e ∈ (bootRun shortLoad lastStage).final.trace, e.Incomplete) →
        Withdrawn shortLoad lastStage) ∧
      ¬ ((∃ e ∈ (bootRun noWrite lastStage).final.trace, e.Incomplete) →
        Withdrawn noWrite lastStage) := by
  have hshort : (bootRun shortLoad lastStage).final.trace =
      [.load (imageFile "mx8mp".toList) 3 0 (some 1), .mmcWrite 0 1 true, configuring, complete,
        .echo []] := by
    decide +kernel
  have hwrite : (bootRun noWrite lastStage).final.trace =
      [.load (imageFile "mx8mp".toList) 3 0 (some 3), .mmcWrite 0 1 false, configuring, complete,
        .echo []] := by
    decide +kernel
  -- both traces hold an incomplete chunk and the message of a finished installation
  constructor
  · intro h
    apply (h ⟨.load (imageFile "mx8mp".toList) 3 0 (some 1), ?_, ?_⟩).unprinted
    · rw [hshort]
      simp
    · rw [hshort]
      exact List.mem_cons_self
    · exact (by decide : some 1 ≠ some 3)
  · intro h
    apply (h ⟨.mmcWrite 0 1 false, ?_, rfl⟩).unprinted
    · rw [hwrite]
      simp
    · rw [hwrite]
      simp

end AppSysManager.Installer
