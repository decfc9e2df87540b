import Mathlib.Algebra.Order.Floor.Div
import Mathlib.Data.List.GetD
import Mathlib.GroupTheory.GroupAction.Ring
import AppSysManager.Installer.Update

/-!
# The Chunk Loop

What the eMMC branch of `update.txt` writes.  The loop counts bytes in `update_chunk_pos` and
`update_image_size_rest` and writes blocks; the last chunk is smaller than the others.

## Main statements

- `wp_chunk`: one round of the loop, whatever the commands answer.
- `copyImage_complete`: when every `load` and every `mmc write` does what it is asked to, the
  loop ends after `ceil (n / 0xE00000)` rounds with the image on the eMMC, and has written the
  blocks `0 .. ceil (n / 0x200) - 1`, each of them once and in this order.
-/

namespace AppSysManager.Installer

open Shell

/-! ## §1 Rules for the commands -/

section Commands

variable {Q : Status → Machine → Prop} {R : Machine → Prop} {m : Machine}

theorem wp_command (f : Machine → Machine × Bool) :
    wp (command f) Q R m ↔ R m ∧ Q (.ofBool (f m).2) ((f m).1.returning (f m).2) :=
  wp_simple _

/-- A line of a script that is a simple command: the status is looked at by nobody. -/
theorem wp_line {f : Machine → Machine × Bool} {cs : List (Cmd Machine)} (hR : R m)
    (h : wp (script cs) Q R ((f m).1.returning (f m).2)) :
    wp (script (command f :: cs)) Q R m := by
  rw [wp_script_cons, wp_command]
  refine ⟨hR, ?_⟩
  rw [onStatus_ofBool, ite_self]
  exact h

theorem wp_setenv (v : Var) (text : Environment Var → Text) :
    wp (setenv v text) Q R m ↔
      R m ∧ Q .ok ({ m with ram := m.ram.set v (text m.ram) }.returning true) :=
  wp_command _

theorem wp_test (condition : Environment Var → Bool) :
    wp (test condition) Q R m ↔
      R m ∧ Q (.ofBool (condition m.ram)) (m.returning (condition m.ram)) :=
  wp_command _

theorem wp_ite_pos {condition : Environment Var → Bool} {a b : Cmd Machine}
    (h : condition m.ram = true) (hR : R m) (ha : wp a Q R (m.returning true)) :
    wp (ite (test condition) a b) Q R m := by
  rw [wp_ite, wp_test, h]
  exact ⟨hR, ha⟩

theorem wp_ite_neg {condition : Environment Var → Bool} {a b : Cmd Machine}
    (h : condition m.ram = false) (hR : R m) (hb : wp b Q R (m.returning false)) :
    wp (ite (test condition) a b) Q R m := by
  rw [wp_ite, wp_test, h]
  exact ⟨hR, hb⟩

theorem wp_itest {v : Var} {relation : Nat → Nat → Bool} {w : Environment Var → Option Nat}
    {a b : Nat} (ha : m.ram.number v = some a) (hb : w m.ram = some b) :
    wp (itest v relation w) Q R m ↔
      R m ∧ Q (.ofBool (relation a b)) (m.returning (relation a b)) := by
  rw [itest, wp_test, ha, hb]

theorem wp_setexpr {v a : Var} {op : Nat → Nat → Nat} {b : Environment Var → Option Nat}
    {x y : Nat} (hx : m.ram.number a = some x) (hy : b m.ram = some y) :
    wp (setexpr v a op b) Q R m ↔
      R m ∧ Q .ok ({ m with ram := m.ram.set v (hexText (op x y)) }.returning true) := by
  rw [setexpr, wp_command, hx, hy]
  rfl

theorem wp_echo (text : Environment Var → Text) :
    wp (echo text) Q R m ↔
      R m ∧ Q .ok ({ m with trace := m.trace ++ [Event.echo (text m.ram)] }.returning true) :=
  wp_command _

theorem wp_doCleanup :
    wp doCleanup Q R m ↔
      R m ∧ R ({ m with ram := m.ram.delete cleanupVars }.returning true) ∧
        Q .ok ({ m with ram := m.ram.delete cleanupVars }.returning true) := by
  rw [doCleanup, wp_seq, envDelete, wp_command]
  simp only [onStatus_ofBool, if_true, wp_test]
  rfl

/-- The machine after a file was loaded. -/
def afterLoad (m : Machine) (file : Text) (bytes pos : Nat) (bs : List UInt8) : Machine :=
  { m with
    ram := m.ram.set .filesize (hexText bs.length)
    memory := loaded bs m.memory
    loads := m.loads + 1
    trace := m.trace ++ [.load file bytes pos (some bs.length)] }

/-- The machine after a file could not be loaded. -/
def afterNoLoad (m : Machine) (file : Text) (bytes pos : Nat) : Machine :=
  { m with
    loads := m.loads + 1
    trace := m.trace ++ [.load file bytes pos none] }

theorem wp_load {i : Inputs} {file : Environment Var → Text} {bytes pos : Environment Var → Nat} :
    wp (load i file bytes pos) Q R m ↔
      R m ∧
        (∀ bs, i.load m.loads (file m.ram) (bytes m.ram) (pos m.ram) = some bs →
          Q .ok ((afterLoad m (file m.ram) (bytes m.ram) (pos m.ram) bs).returning true)) ∧
        (i.load m.loads (file m.ram) (bytes m.ram) (pos m.ram) = none →
          Q .failed ((afterNoLoad m (file m.ram) (bytes m.ram) (pos m.ram)).returning false)) := by
  rw [load, wp_command]
  cases hload : i.load m.loads (file m.ram) (bytes m.ram) (pos m.ram) with
  | none => simp [Status.ofBool, afterNoLoad]
  | some bs => simp [Status.ofBool, afterLoad]

theorem wp_mmcWrite {i : Inputs} {blk cnt : Var} {b n : Nat} (hblk : m.ram.number blk = some b)
    (hcnt : m.ram.number cnt = some n) :
    wp (mmcWrite i blk cnt) Q R m ↔
      R m ∧ Q (.ofBool (i.mmcWrite m.writes)) (Machine.returning { m with
        writes := m.writes + 1
        trace := m.trace ++ [Event.mmcWrite b n (i.mmcWrite m.writes)]
        emmc := bif i.mmcWrite m.writes then written m.memory b n m.emmc else m.emmc }
        (i.mmcWrite m.writes)) := by
  rw [mmcWrite, wp_command, hblk, hcnt]

end Commands

/-- All variables but the given ones stay as they are. -/
def Beside (vs : List Var) (env env' : Environment Var) : Prop :=
  ∀ v ∉ vs, env' v = env v

section Beside

variable {vs : List Var} {a b c : Environment Var}

theorem Beside.refl (env : Environment Var) : Beside vs env env :=
  fun _ _ => rfl

theorem Beside.trans (hab : Beside vs a b) (hbc : Beside vs b c) : Beside vs a c :=
  fun v hv => (hbc v hv).trans (hab v hv)

theorem beside_set (env : Environment Var) {v : Var} (hv : v ∈ vs) (text : Text) :
    Beside vs env (env.set v text) := by
  intro w hw
  apply Environment.set_of_ne
  rintro rfl
  exact hw hv

theorem Beside.expand (h : Beside vs a b) {v : Var} (hv : v ∉ vs) : b.expand v = a.expand v := by
  rw [Environment.expand, Environment.expand, h v hv]

theorem Beside.number (h : Beside vs a b) {v : Var} (hv : v ∉ vs) : b.number v = a.number v := by
  rw [Environment.number, Environment.number, h.expand hv]

end Beside

theorem number_set (env : Environment Var) (v w : Var) (n : Nat) :
    (env.set v (hexText n)).number w = if w = v then some n else env.number w := by
  by_cases h : w = v
  · rw [if_pos h, h, Environment.number_set_self]
  · rw [if_neg h, Environment.number_set_of_ne env v w _ h]

/-! ## §2 One round -/

/-- The numbers in front of a round: bytes that are left, bytes in a chunk, position. -/
structure Counters (env : Environment Var) (rest size pos : Nat) : Prop where
  rest : env.number .updateImageSizeRest = some rest
  size : env.number .updateChunkSize = some size
  pos : env.number .updateChunkPos = some pos

/-- They do not depend on other variables. -/
theorem Counters.set {env env' : Environment Var} {rest size pos : Nat}
    (h : Counters env rest size pos) {v : Var} {text : Text} (hrest : .updateImageSizeRest ≠ v)
    (hsize : .updateChunkSize ≠ v) (hpos : .updateChunkPos ≠ v) (henv : env' = env.set v text) :
    Counters env' rest size pos where
  rest := by rw [henv, Environment.number_set_of_ne _ _ _ _ hrest, h.rest]
  size := by rw [henv, Environment.number_set_of_ne _ _ _ _ hsize, h.size]
  pos := by rw [henv, Environment.number_set_of_ne _ _ _ _ hpos, h.pos]

/-- The variables that a round sets. -/
def chunkVars : List Var :=
  [.updateImageSizeRest, .updateChunkSize, .updateChunkPos, .uCSizeBlk, .uCPosBlk, .filesize]

/-- What the load command of a round delivers. -/
def content (i : Inputs) (m : Machine) (size pos : Nat) : Option (List UInt8) :=
  i.load m.loads (imageFile (m.ram.expand .arch)) size pos

/-- `load` delivers no more than it was asked for. -/
def Fits (bytes : Nat) (content : Option (List UInt8)) : Prop :=
  ∃ bs, content = some bs ∧ bs.length ≤ bytes

/-- The load command of a round. -/
def loadEvent (i : Inputs) (m : Machine) (size pos : Nat) : Event :=
  .load (imageFile (m.ram.expand .arch)) size pos ((content i m size pos).map List.length)

/-- The write command of a round. -/
def writeEvent (i : Inputs) (m : Machine) (size pos : Nat) : Event :=
  .mmcWrite (pos / 0x200) ((size + 0x1ff) / 0x200) (i.mmcWrite m.writes)

/-- `do_message`. -/
def abortEvent (m : Machine) : Event :=
  .echo (abortText (m.ram.expand .updatedev))

/-- A crash condition on what is left of a machine: its saved environment and what could be
    seen of it. -/
def seen (C : Environment Var → List Event → Prop) (m : Machine) : Prop :=
  C m.saved m.trace

section Round

variable {Q : Status → Machine → Prop} {C : Environment Var → List Event → Prop} {i : Inputs}
  {m : Machine} {rest size pos : Nat}

/-- Afterwards the chunk is not larger than what is left. -/
theorem wp_shrinkChunk (h : Counters m.ram rest size pos) (hC : C m.saved m.trace)
    (hQ : ∀ env b, Counters env rest (min size rest) pos → Beside chunkVars m.ram env →
      Q .ok ({ m with ram := env }.returning b)) :
    wp shrinkChunk Q (seen C) m := by
  rw [shrinkChunk, wp_when, wp_itest h.rest h.size]
  refine ⟨hC, ?_⟩
  rw [onStatus_ofBool]
  by_cases hlt : rest < size
  · simp only [hlt, decide_true, if_true]
    rw [wp_setenv]
    refine ⟨hC, hQ _ _ ⟨?_, ?_, ?_⟩ (beside_set _ (by decide) _)⟩
    · rw [Environment.number_set_of_ne _ _ _ _ (by decide)]
      exact h.rest
    · rw [Environment.number_set_expand, min_eq_right hlt.le]
      exact h.rest
    · rw [Environment.number_set_of_ne _ _ _ _ (by decide)]
      exact h.pos
  · simp only [hlt, decide_false, Bool.false_eq_true, if_false]
    have hmin : min size rest = size := min_eq_left (Nat.le_of_not_lt hlt)
    exact hQ m.ram false ⟨h.rest, by rw [hmin]; exact h.size, h.pos⟩ (Beside.refl _)

/-- The check behind a load command that failed, or that delivered more than a chunk. -/
theorem wp_isError_exit (hbad : m.returned = false ∨ ∃ a b, m.ram.number .filesize = some a ∧
      m.ram.number .updateChunkSize = some b ∧ b < a)
    (hC : C m.saved m.trace) (habort : C m.saved (m.trace ++ [abortEvent m]))
    (hQ : ∀ t, t.saved = m.saved → t.trace = m.trace ++ [abortEvent m] → Q .exited t) :
    wp (both isError exit) Q (seen C) m := by
  -- the message and the cleanup, which end the script
  have hmessage : wp (both doMessage doCleanup)
      (onStatus (wp exit Q (seen C)) (Q .failed) Q) (seen C) (m.returning true) := by
    rw [wp_both, doMessage, wp_echo]
    refine ⟨hC, ?_⟩
    show wp doCleanup _ _ _
    rw [wp_doCleanup]
    refine ⟨habort, habort, ?_⟩
    show wp exit _ _ _
    rw [wp_exit]
    exact ⟨habort, hQ _ rfl rfl⟩
  rw [wp_both, isError, wp_both, doCheck, wp_either, wp_command]
  refine ⟨hC, ?_⟩
  rw [onStatus_ofBool]
  cases hret : m.returned with
  | false => exact hmessage
  | true =>
    obtain ⟨a, b, ha, hb, hlt⟩ := hbad.resolve_left (by simp [hret])
    refine (wp_itest (m := m.returning false) (w := (·.number .updateChunkSize)) ha hb).mpr ?_
    simp only [hlt, decide_true]
    exact ⟨hC, hmessage⟩

/-- The check behind a load command that did neither. -/
theorem wp_isError_pass {a b : Nat} (hret : m.returned = true)
    (ha : m.ram.number .filesize = some a) (hb : m.ram.number .updateChunkSize = some b)
    (hle : a ≤ b) (hC : C m.saved m.trace) (hQ : Q .failed (m.returning false)) :
    wp (both isError exit) Q (seen C) m := by
  rw [wp_both, isError, wp_both, doCheck, wp_either, wp_command]
  refine ⟨hC, ?_⟩
  rw [onStatus_ofBool]
  simp only [hret, Bool.not_true, Bool.false_eq_true, if_false]
  refine (wp_itest (m := m.returning false) (w := (·.number .updateChunkSize)) ha hb).mpr ?_
  simp only [Nat.not_lt.mpr hle, decide_false]
  exact ⟨hC, hQ⟩

/-- `run is_error && exit 1` right behind a load command tells a failed load, and one that
    delivers more than a chunk, from all others. -/
theorem wp_loadChunk (h : Counters m.ram rest size pos) (hC : C m.saved m.trace)
    (hload : C m.saved (m.trace ++ [loadEvent i m size pos]))
    (hgood : ∀ bs, content i m size pos = some bs → bs.length ≤ size →
      Q .failed ((afterLoad m (imageFile (m.ram.expand .arch)) size pos bs).returning false))
    (habort : ¬ Fits size (content i m size pos) →
      C m.saved (m.trace ++ [loadEvent i m size pos, abortEvent m]))
    (hbad : ∀ t, ¬ Fits size (content i m size pos) → t.saved = m.saved →
      t.trace = m.trace ++ [loadEvent i m size pos, abortEvent m] → Q .exited t) :
    wp (loadChunk i) Q (seen C) m := by
  rw [loadChunk, wp_seq, wp_load]
  simp only [h.size, h.pos, Option.getD_some]
  refine ⟨hC, fun bs hbs => ?_, fun hnone => ?_⟩
  -- something was delivered; `is_error` compares its length with the chunk
  · have hevent : loadEvent i m size pos =
        .load (imageFile (m.ram.expand .arch)) size pos (some bs.length) := by
      rw [loadEvent, content, hbs, Option.map_some]
    rw [hevent] at hload habort hbad
    have hfile : (m.ram.set .filesize (hexText bs.length)).number .filesize = some bs.length :=
      Environment.number_set_self _ _ _
    have hsize : (m.ram.set .filesize (hexText bs.length)).number .updateChunkSize = some size :=
      (Environment.number_set_of_ne _ _ _ _ (by decide)).trans h.size
    by_cases hle : bs.length ≤ size
    · exact wp_isError_pass rfl hfile hsize hle hload (hgood bs hbs hle)
    · have hfits : ¬ Fits size (content i m size pos) := by
        rintro ⟨bs', hbs', hle'⟩
        obtain rfl := Option.some.inj (hbs.symm.trans hbs')
        exact hle hle'
      -- the message names the device, which a load does not change
      have habort' : abortEvent ((afterLoad m (imageFile (m.ram.expand .arch)) size pos bs).returning
          true) = abortEvent m := by
        have hdev := Environment.expand_set_of_ne m.ram .filesize .updatedev
          (hexText bs.length) (by decide)
        simp only [abortEvent, afterLoad, Machine.returning, hdev]
      apply wp_isError_exit
      · exact .inr ⟨_, _, hfile, hsize, Nat.lt_of_not_le hle⟩
      · exact hload
      · rw [habort']
        simpa [afterLoad, Machine.returning] using habort hfits
      · intro t hsaved htrace
        refine hbad t hfits hsaved ?_
        rw [htrace, habort']
        simp [afterLoad, Machine.returning]
  -- nothing was delivered: `is_error` sees the failure of the command itself
  · have hevent : loadEvent i m size pos =
        .load (imageFile (m.ram.expand .arch)) size pos none := by
      rw [loadEvent, content, hnone, Option.map_none]
    rw [hevent] at hload habort hbad
    have hfits : ¬ Fits size (content i m size pos) := by
      rintro ⟨bs', hbs', -⟩
      exact absurd (hnone.symm.trans hbs') (by simp)
    apply wp_isError_exit (.inl rfl)
    · exact hload
    · simpa [afterNoLoad, Machine.returning, abortEvent] using habort hfits
    · intro t hsaved htrace
      refine hbad t hfits hsaved ?_
      simpa [afterNoLoad, Machine.returning, abortEvent] using htrace

/-- The numbers of blocks are counted behind every chunk. -/
theorem wp_countBlocks (h : Counters m.ram rest size pos) (hC : C m.saved m.trace)
    (cs : List (Cmd Machine))
    (hQ : ∀ env, Counters env (rest - size) size pos →
      env.number .uCPosBlk = some (pos / 0x200) →
      env.number .uCSizeBlk = some ((size + 0x1ff) / 0x200) → Beside chunkVars m.ram env →
      wp (script cs) Q (seen C) ({ m with ram := env }.returning true)) :
    wp (script (countBlocks ++ cs)) Q (seen C) m := by
  obtain ⟨hrest, hsize, hpos⟩ := h
  simp only [countBlocks, List.cons_append, List.nil_append]
  -- `rest - size`, the rounding up, the division, and the first block: one `setexpr` each
  rw [wp_script_cons, wp_setexpr hrest hsize]
  refine ⟨hC, ?_⟩
  show wp (script _) _ _ _
  rw [wp_script_cons, wp_setexpr (x := size) (y := 0x1ff)
    (by simp [Machine.returning, number_set, hsize]) rfl]
  refine ⟨hC, ?_⟩
  show wp (script _) _ _ _
  rw [wp_script_cons, wp_setexpr (x := size + 0x1ff) (y := 0x200)
    (by simp [Machine.returning]) rfl]
  refine ⟨hC, ?_⟩
  show wp (script _) _ _ _
  rw [wp_script_cons, wp_setexpr (x := pos) (y := 0x200)
    (by simp [Machine.returning, number_set, hpos]) rfl]
  -- later commands set other variables than the ones that were counted before
  refine ⟨hC, hQ _ ⟨?_, ?_, ?_⟩ ?_ ?_ ?_⟩
  · simp [Machine.returning, number_set]
  · simp [Machine.returning, number_set, hsize]
  · simp [Machine.returning, number_set, hpos]
  · simp [Machine.returning]
  · simp [Machine.returning, number_set]
  · refine Beside.trans ?_ (beside_set _ (by decide) _)
    refine Beside.trans ?_ (beside_set _ (by decide) _)
    refine Beside.trans ?_ (beside_set _ (by decide) _)
    exact beside_set _ (by decide) _

/-- The machine after a round that was not aborted. -/
def afterChunk (i : Inputs) (m : Machine) (size pos : Nat) (bs : List UInt8)
    (env : Environment Var) : Machine :=
  { m with
    ram := env
    memory := loaded bs m.memory
    loads := m.loads + 1
    writes := m.writes + 1
    trace := m.trace ++ [loadEvent i m size pos, writeEvent i m size pos]
    emmc := bif i.mmcWrite m.writes then
        written (loaded bs m.memory) (pos / 0x200) ((size + 0x1ff) / 0x200) m.emmc
      else m.emmc
    returned := true }

/-- One round of the loop, whatever `load` and `mmc write` answer. -/
theorem wp_chunk (h : Counters m.ram rest size pos) (hC : C m.saved m.trace)
    (hload : C m.saved (m.trace ++ [loadEvent i m (min size rest) pos]))
    (hwrite : Fits (min size rest) (content i m (min size rest) pos) →
      C m.saved (m.trace ++ [loadEvent i m (min size rest) pos,
        writeEvent i m (min size rest) pos]))
    (habort : ¬ Fits (min size rest) (content i m (min size rest) pos) →
      C m.saved (m.trace ++ [loadEvent i m (min size rest) pos, abortEvent m]))
    (hgood : ∀ bs env, content i m (min size rest) pos = some bs → bs.length ≤ min size rest →
      Counters env (rest - min size rest) (min size rest) (pos + min size rest) →
      Beside chunkVars m.ram env → Q .ok (afterChunk i m (min size rest) pos bs env))
    (hbad : ∀ t, ¬ Fits (min size rest) (content i m (min size rest) pos) → t.saved = m.saved →
      t.trace = m.trace ++ [loadEvent i m (min size rest) pos, abortEvent m] → Q .exited t) :
    wp (chunk i) Q (seen C) m := by
  simp only [chunk, List.cons_append, List.nil_append]
  rw [wp_script_cons]
  apply wp_shrinkChunk h hC
  intro env b hcounters hbeside
  show wp (script _) _ _ _
  rw [wp_script_cons]
  -- Changing the size of the chunk leaves alone what the load command and the message use.
  have harch : env.expand .arch = m.ram.expand .arch := hbeside.expand (by decide)
  have hdev : env.expand .updatedev = m.ram.expand .updatedev := hbeside.expand (by decide)
  have hcontent : content i ({ m with ram := env }.returning b) (min size rest) pos =
      content i m (min size rest) pos := by
    simp only [content, Machine.returning, harch]
  have hevent : loadEvent i ({ m with ram := env }.returning b) (min size rest) pos =
      loadEvent i m (min size rest) pos := by
    rw [loadEvent, hcontent]
    simp only [Machine.returning, harch, loadEvent]
  have hmessage : abortEvent ({ m with ram := env }.returning b) = abortEvent m := by
    simp only [abortEvent, Machine.returning, hdev]
  apply wp_loadChunk hcounters
  · exact hC
  · rw [hevent]
    exact hload
  · intro bs hbs hle
    rw [hcontent] at hbs
    have hloaded : loadEvent i m (min size rest) pos =
        .load (imageFile (env.expand .arch)) (min size rest) pos (some bs.length) := by
      rw [loadEvent, hbs, harch, Option.map_some]
    show wp (script _) _ _ _
    apply wp_countBlocks (hcounters.set (by decide) (by decide) (by decide) rfl)
    · rw [hloaded] at hload
      exact hload
    intro env' hcounters' hposBlk hsizeBlk hbeside'
    rw [wp_script_cons, wp_mmcWrite hposBlk hsizeBlk]
    refine ⟨by rw [hloaded] at hload; exact hload, ?_⟩
    -- The status of `mmc write` is looked at by nobody.
    rw [onStatus_ofBool, ite_self, wp_script_cons]
    refine (wp_setexpr (b := (·.number .updateChunkSize)) hcounters'.pos hcounters'.size).mpr ?_
    refine ⟨?_, (wp_script_nil).mpr ?_⟩
    · have hseen := hwrite ⟨bs, hbs, hle⟩
      rw [hloaded] at hseen
      simpa [seen, afterLoad, Machine.returning, writeEvent] using hseen
    have hbeside'' : Beside chunkVars m.ram (env'.set .updateChunkPos (hexText (pos + min size rest))) :=
      ((hbeside.trans (beside_set _ (by decide) _)).trans hbeside').trans
        (beside_set _ (by decide) _)
    have hround := hgood bs _ hbs hle ⟨?_, ?_, ?_⟩ hbeside''
    · simpa [afterChunk, afterLoad, Machine.returning, writeEvent, hloaded] using hround
    · rw [Environment.number_set_of_ne _ _ _ _ (by decide)]
      exact hcounters'.rest
    · rw [Environment.number_set_of_ne _ _ _ _ (by decide)]
      exact hcounters'.size
    · exact Environment.number_set_self _ _ _
  · intro hfits
    rw [hcontent] at hfits
    rw [hevent, hmessage]
    exact habort hfits
  · intro t hfits hsaved htrace
    rw [hcontent] at hfits
    rw [hevent, hmessage] at htrace
    exact hbad t hfits hsaved htrace

/-- The test in front of a round. -/
theorem wp_restLeft (h : Counters m.ram rest size pos) (hC : C m.saved m.trace)
    (hzero : rest = 0 → Q .failed (m.returning false))
    (hleft : rest ≠ 0 → Q .ok (m.returning true)) : wp restLeft Q (seen C) m := by
  refine (wp_itest (w := fun _ => some 0) h.rest rfl).mpr ⟨hC, ?_⟩
  by_cases hrest : rest = 0
  · simpa [hrest, Status.ofBool] using hzero hrest
  · simpa [hrest, Status.ofBool] using hleft hrest

end Round

/-! ## §3 The whole image -/

/-- Bytes in a chunk. -/
def CHUNK : Nat := 0xE00000

/-- The number that the loop starts with: the size of the file, or whatever `filesize` holds
    when `size` fails. -/
def imageSize (i : Inputs) (env : Environment Var) : Option Nat :=
  match i.size with
  | some n => some n
  | none => env.number .filesize

/-- The bytes of the `k`-th chunk of an image of `n` bytes. -/
def chunkBytes (n k : Nat) : Nat :=
  min CHUNK (n - k * CHUNK)

/-- Every load of the copying part succeeds with at most the bytes it asks for.  There is one
    for each chunk, in the order of the chunks. -/
def ChunksFit (i : Inputs) (m : Machine) : Prop :=
  ∀ n, imageSize i m.ram = some n → ∀ k, k * CHUNK < n →
    Fits (chunkBytes n k)
      (i.load (m.loads + k) (imageFile (m.ram.expand .arch)) (chunkBytes n k) (k * CHUNK))

/-- They depend on the size of the image and the architecture only. -/
theorem ChunksFit.beside {i : Inputs} {m m' : Machine} {vs : List Var} (h : ChunksFit i m)
    (hloads : m'.loads = m.loads) (hbeside : Beside vs m.ram m'.ram) (harch : .arch ∉ vs)
    (hsize : .filesize ∉ vs) : ChunksFit i m' := by
  intro n hn k hk
  have hsame : imageSize i m'.ram = imageSize i m.ram := by
    rw [imageSize, imageSize, hbeside.number hsize]
  rw [hloads, hbeside.expand harch]
  exact h n (hsame ▸ hn) k hk

/-- The commands of the eMMC branch do what they are asked to, with the given image in the
    file. -/
structure Obeys (i : Inputs) (arch : Text) (image : List UInt8) : Prop where
  size : i.size = some image.length
  load : ∀ k bytes pos, 0 < bytes → pos + bytes ≤ image.length →
    i.load k (imageFile arch) bytes pos = some ((image.drop pos).take bytes)
  mmcWrite : ∀ k, i.mmcWrite k = true

/-- The positions of all load commands. -/
def loadPositions (es : List Event) : List Nat :=
  es.filterMap fun e => match e with
    | .load _ _ pos _ => some pos
    | _ => none

/-- First block and number of blocks of all writes. -/
def writesOf (es : List Event) : List (Nat × Nat) :=
  es.filterMap fun e => match e with
    | .mmcWrite blk cnt _ => some (blk, cnt)
    | _ => none

/-- The first range starts at block `a`, each other one where the one in front of it ends, and
    the last one ends at `b`. -/
def Contiguous (a : Nat) : List (Nat × Nat) → Nat → Prop
  | [], b => a = b
  | w :: ws, b => w.1 = a ∧ Contiguous (a + w.2) ws b

/-- All blocks of some ranges. -/
def blocksOf (ws : List (Nat × Nat)) : List Nat :=
  ws.flatMap fun w => List.range' w.1 w.2

theorem Contiguous.concat {a b : Nat} {ws : List (Nat × Nat)} (h : Contiguous a ws b) (n : Nat) :
    Contiguous a (ws ++ [(b, n)]) (b + n) := by
  induction ws generalizing a with
  | nil =>
    obtain rfl : a = b := h
    exact ⟨rfl, rfl⟩
  | cons w ws ih => exact ⟨h.1, ih h.2⟩

/-- Contiguous ranges hold every block between their ends once. -/
theorem Contiguous.blocks {a b : Nat} {ws : List (Nat × Nat)} (h : Contiguous a ws b) :
    a ≤ b ∧ blocksOf ws = List.range' a (b - a) := by
  induction ws generalizing a with
  | nil =>
    obtain rfl : a = b := h
    simp [blocksOf]
  | cons w ws ih =>
    obtain ⟨hfirst, hrest⟩ := h
    obtain ⟨hle, hblocks⟩ := ih hrest
    refine ⟨by omega, ?_⟩
    show List.range' w.1 w.2 ++ blocksOf ws = _
    rw [hblocks, hfirst, List.range'_append_1]
    congr 1
    omega

/-- How far the image was copied: `pos` bytes of it. -/
structure Progress (image : List UInt8) (m₀ m : Machine) (pos : Nat) : Prop where
  trace : ∃ es, m.trace = m₀.trace ++ es ∧ (loadPositions es).length = pos ⌈/⌉ CHUNK ∧
    (∀ p ∈ loadPositions es, BLOCK ∣ p) ∧ Contiguous 0 (writesOf es) (pos ⌈/⌉ BLOCK)
  inside : ∀ k < pos, m.emmc k = image.getD k 0
  outside : ∀ k, (pos ⌈/⌉ BLOCK) * BLOCK ≤ k → m.emmc k = m₀.emmc k

theorem progress_zero (image : List UInt8) (m₀ m : Machine) (htrace : m.trace = m₀.trace)
    (hemmc : m.emmc = m₀.emmc) : Progress image m₀ m 0 where
  trace := ⟨[], by rw [htrace, List.append_nil], rfl, by simp [loadPositions], rfl⟩
  inside := fun k hk => absurd hk (Nat.not_lt_zero k)
  outside := fun k _ => by rw [hemmc]

theorem Progress.of_eq {image : List UInt8} {m₀ m m' : Machine} {pos : Nat}
    (h : Progress image m₀ m pos) (htrace : m'.trace = m.trace) (hemmc : m'.emmc = m.emmc) :
    Progress image m₀ m' pos where
  trace := by rw [htrace]; exact h.trace
  inside := by rw [hemmc]; exact h.inside
  outside := by rw [hemmc]; exact h.outside

/-- Positions are multiples of the chunk size, so a chunk starts at the block behind the
    blocks of the chunks in front of it. -/
theorem blocks_add {pos : Nat} (size : Nat) (hpos : CHUNK ∣ pos) :
    pos ⌈/⌉ BLOCK = pos / 0x200 ∧
      (pos + size) ⌈/⌉ BLOCK = pos / 0x200 + (size + 0x1ff) / 0x200 := by
  obtain ⟨j, rfl⟩ := hpos
  simp only [Nat.ceilDiv_eq_add_pred_div, CHUNK, BLOCK]
  omega

theorem chunks_add {pos size : Nat} (hpos : CHUNK ∣ pos) (hsize : 0 < size) (hle : size ≤ CHUNK) :
    (pos + size) ⌈/⌉ CHUNK = pos ⌈/⌉ CHUNK + 1 := by
  obtain ⟨j, rfl⟩ := hpos
  simp only [Nat.ceilDiv_eq_add_pred_div, CHUNK] at *
  omega

/-- A round copies one more chunk. -/
theorem Progress.step {image : List UInt8} {m₀ m m' : Machine} {pos size : Nat}
    {file : Text} (h : Progress image m₀ m pos) (hpos : CHUNK ∣ pos) (hsize : 0 < size) (hle : size ≤ CHUNK)
    (hend : pos + size ≤ image.length)
    (htrace : m'.trace = m.trace ++ [.load file size pos (some size),
      .mmcWrite (pos / 0x200) ((size + 0x1ff) / 0x200) true])
    (hemmc : m'.emmc = written (loaded ((image.drop pos).take size) m.memory) (pos / 0x200)
      ((size + 0x1ff) / 0x200) m.emmc) :
    Progress image m₀ m' (pos + size) := by
  obtain ⟨hblk, hblks⟩ := blocks_add size hpos
  -- positions are multiples of a chunk, so the first block starts exactly at `pos`
  have hposBlock : pos / 0x200 * BLOCK = pos := by
    obtain ⟨j, rfl⟩ := hpos
    simp only [CHUNK, BLOCK]
    omega
  -- only the last block can reach behind the image
  have hlast : pos + size ≤ (pos / 0x200 + (size + 0x1ff) / 0x200) * BLOCK := by
    simp only [BLOCK] at *
    omega
  constructor
  · obtain ⟨es, hes, hloads, haligned, hcontiguous⟩ := h.trace
    refine ⟨es ++ _, by rw [htrace, hes, List.append_assoc], ?_, ?_, ?_⟩
    -- the loads: one more
    · simp only [loadPositions, List.filterMap_append, List.length_append] at hloads ⊢
      rw [hloads, chunks_add hpos hsize hle]
      rfl
    -- their positions: the new one is the start of a block
    · simp only [loadPositions, List.filterMap_append, List.mem_append] at haligned ⊢
      rintro p (hp | hp)
      · exact haligned p hp
      · obtain rfl : p = pos := by simpa using hp
        exact ⟨p / 0x200, by rw [Nat.mul_comm]; exact hposBlock.symm⟩
    -- the writes: the new range starts where the last one ended
    · rw [hblk] at hcontiguous
      rw [hblks]
      simp only [writesOf, List.filterMap_append] at hcontiguous ⊢
      exact hcontiguous.concat _
  · intro k hk
    rw [hemmc, written, hposBlock]
    -- a byte in front of `pos` was copied by an earlier round, any other one by this round
    by_cases hold : k < pos
    · rw [if_neg (by omega)]
      exact h.inside k hold
    · rw [if_pos (by omega), loaded]
      have hin : k - pos < size := by omega
      have hk' : pos + (k - pos) = k := by omega
      have hlen : k < image.length := by omega
      simp [List.getD, List.getElem?_drop, hin, hk', hlen]
  · intro k hk
    -- blocks behind the new range lie behind the old one as well
    rw [hblks] at hk
    rw [hemmc, written, if_neg (by omega)]
    apply h.outside k
    rw [hblk, hposBlock]
    omega

/-- The invariant of the loop, with `rest` bytes to go.  Every chunk but the last has the full
    size, which keeps positions aligned. -/
structure Copying (image : List UInt8) (m₀ : Machine) (rest : Nat) (m : Machine) : Prop where
  counters : ∃ size pos, Counters m.ram rest size pos ∧ pos + rest = image.length ∧
    (rest = 0 ∨ size = CHUNK ∧ CHUNK ∣ pos) ∧ Progress image m₀ m pos
  arch : m.ram.expand .arch = m₀.ram.expand .arch

theorem round_copying {i : Inputs} {image : List UInt8} {m₀ : Machine}
    (hobeys : Obeys i (m₀.ram.expand .arch) image) (rest : Nat) (m : Machine)
    (h : Copying image m₀ rest m) :
    Round (Copying image m₀) (fun st t => st = .ok ∧ Copying image m₀ 0 t)
      (seen fun _ _ => True) restLeft (chunk i) rest m := by
  obtain ⟨⟨size, pos, hcounters, hend, hsize, hprogress⟩, harch⟩ := h
  apply wp_restLeft hcounters trivial
  -- nothing is left: the loop ends here
  · rintro rfl
    exact ⟨rfl, ⟨size, pos, hcounters, hend, hsize, hprogress.of_eq rfl rfl⟩, harch⟩
  -- the chunk that is loaded is a full one, or all that is left
  · intro hrest
    obtain ⟨rfl, hpos⟩ := hsize.resolve_left hrest
    have hcontent : content i m (min CHUNK rest) pos =
        some ((image.drop pos).take (min CHUNK rest)) := by
      rw [content, harch]
      exact hobeys.load _ _ _ (by simp only [CHUNK]; omega) (by omega)
    have hlength : ((image.drop pos).take (min CHUNK rest)).length = min CHUNK rest := by
      rw [List.length_take, List.length_drop]
      omega
    show wp (chunk i) _ _ (m.returning true)
    apply wp_chunk (m := m.returning true) hcounters trivial trivial (fun _ => trivial)
      (fun _ => trivial)
    · intro bs env hbs hle hcounters' hbeside
      obtain rfl := Option.some.inj (hcontent.symm.trans hbs)
      refine ⟨rest - min CHUNK rest, by simp only [CHUNK]; omega,
        ⟨_, _, hcounters', ?_, ?_, ?_⟩, ?_⟩
      · omega
      -- after a short chunk nothing is left; after a full one the position is aligned again
      · by_cases hlast : rest ≤ CHUNK
        · exact .inl (by omega)
        · refine .inr ⟨by omega, ?_⟩
          rw [min_eq_left (by omega)]
          exact Nat.dvd_add hpos (Nat.dvd_refl _)
      · have hpositive : 0 < min CHUNK rest := by
          simp only [CHUNK]
          omega
        apply hprogress.step hpos hpositive (min_le_left _ _) (by omega)
        · have hloaded : loadEvent i (m.returning true) (min CHUNK rest) pos =
              .load (imageFile (m.ram.expand .arch)) (min CHUNK rest) pos
                (some (min CHUNK rest)) := by
            rw [loadEvent, hbs, Option.map_some, hlength]
            rfl
          show m.trace ++ _ = _
          rw [hloaded, writeEvent, hobeys.mmcWrite]
        · simp [afterChunk, Machine.returning, hobeys.mmcWrite]
      · exact (hbeside.expand (by decide)).trans harch
    -- the file delivers what it is asked for, so the round is not aborted
    · intro t hfits
      exact absurd ⟨_, hcontent, hlength.le⟩ hfits

/-- The lines in front of the loop. -/
theorem wp_beforeChunks {Q : Status → Machine → Prop} {C : Environment Var → List Event → Prop}
    {i : Inputs} {m : Machine} (hC : C m.saved m.trace) (cs : List (Cmd Machine))
    (hQ : ∀ env, env.number .updateImageSizeRest = imageSize i m.ram →
      env.number .updateChunkSize = some CHUNK → env.number .updateChunkPos = some 0 →
      Beside chunkVars m.ram env → wp (script cs) Q (seen C) ({ m with ram := env }.returning true)) :
    wp (script (beforeChunks i ++ cs)) Q (seen C) m := by
  simp only [beforeChunks, List.cons_append, List.nil_append]
  -- the first lines set the size and the position, and ask for the size of the file
  rw [wp_script_cons, wp_setenv]
  refine ⟨hC, ?_⟩
  show wp (script _) _ _ _
  rw [wp_script_cons, wp_setenv]
  refine ⟨hC, ?_⟩
  show wp (script _) _ _ _
  rw [wp_script_cons, wp_test]
  refine ⟨hC, ?_⟩
  show wp (script _) _ _ _
  rw [wp_script_cons, size, wp_command]
  refine ⟨hC, ?_⟩
  rw [onStatus_ofBool, ite_self, wp_script_cons, wp_setenv]
  have hsize : ∀ env : Environment Var, Environment.number
      ((env.set .updateChunkSize "E00000".toList).set .updateChunkPos "0".toList)
      .updateChunkSize = some CHUNK := by
    intro env
    rw [Environment.number_set_of_ne _ _ _ _ (by decide),
      Environment.number_of_expand _ _ (Environment.expand_set_self _ _ _) (by decide)]
    rfl
  have hpos : ∀ env : Environment Var, Environment.number
      ((env.set .updateChunkSize "E00000".toList).set .updateChunkPos "0".toList)
      .updateChunkPos = some 0 := by
    intro env
    rw [Environment.number_of_expand _ _ (Environment.expand_set_self _ _ _) (by decide)]
    rfl
  have hbeside : ∀ env : Environment Var, Beside chunkVars env
      ((env.set .updateChunkSize "E00000".toList).set .updateChunkPos "0".toList) :=
    fun env => (beside_set _ (by decide) _).trans (beside_set _ (by decide) _)
  -- `size` sets `filesize` only when it succeeds
  cases hi : i.size with
  | some n =>
    refine ⟨hC, hQ _ ?_ ?_ ?_ ?_⟩
    · rw [imageSize, hi, Environment.number_set_expand]
      exact Environment.number_set_self _ _ _
    · rw [Environment.number_set_of_ne _ _ _ _ (by decide)]
      exact (Environment.number_set_of_ne _ _ _ _ (by decide)).trans (hsize _)
    · rw [Environment.number_set_of_ne _ _ _ _ (by decide)]
      exact (Environment.number_set_of_ne _ _ _ _ (by decide)).trans (hpos _)
    · exact ((hbeside _).trans (beside_set _ (by decide) _)).trans (beside_set _ (by decide) _)
  | none =>
    refine ⟨hC, hQ _ ?_ ?_ ?_ ?_⟩
    · rw [imageSize, hi, Environment.number_set_expand]
      exact (Environment.number_set_of_ne _ _ _ _ (by decide)).trans
        (Environment.number_set_of_ne _ _ _ _ (by decide))
    · rw [Environment.number_set_of_ne _ _ _ _ (by decide)]
      exact hsize _
    · rw [Environment.number_set_of_ne _ _ _ _ (by decide)]
      exact hpos _
    · exact (hbeside _).trans (beside_set _ (by decide) _)

/-- The image is copied as a whole: the loop ends, after one round for each chunk; every
    position is a multiple of the block size, every range of blocks starts where the one in
    front of it ends, and the blocks of the image are the ones that are written, once each. -/
theorem copyImage_complete (i : Inputs) (m : Machine) (image : List UInt8)
    (h : Obeys i (m.ram.expand .arch) image) :
    (copyImage i m).status = .ok ∧
      (∃ es, (copyImage i m).final.trace = m.trace ++ es ∧
        (loadPositions es).length = image.length ⌈/⌉ 0xE00000 ∧
        (∀ pos ∈ loadPositions es, 0x200 ∣ pos) ∧
        Contiguous 0 (writesOf es) (image.length ⌈/⌉ 0x200) ∧
        blocksOf (writesOf es) = List.range (image.length ⌈/⌉ 0x200)) ∧
      (∀ k < image.length, (copyImage i m).final.emmc k = image.getD k 0) ∧
      ∀ k, (image.length ⌈/⌉ 0x200) * 0x200 ≤ k → (copyImage i m).final.emmc k = m.emmc k := by
  -- the loop rule, with the bytes left as the measure
  have hwp : wp (copyImage i) (fun st t => st = .ok ∧ Copying image m 0 t)
      (seen fun _ _ => True) m := by
    apply wp_beforeChunks trivial
    intro env hrest hsize hpos hbeside
    have hcounters : Counters env image.length CHUNK 0 :=
      ⟨by rw [hrest, imageSize, h.size], hsize, hpos⟩
    rw [wp_script_cons]
    apply wp_mono (Q := fun st t => st = .ok ∧ Copying image m 0 t)
    · apply wp_whileDo (n := image.length) (I := Copying image m)
      · have hbound : (env.number .updateImageSizeRest).getD 0 = image.length := by
          rw [hcounters.rest, Option.getD_some]
        exact hbound.ge
      · exact ⟨⟨CHUNK, 0, hcounters, by omega, .inr ⟨rfl, Nat.dvd_zero _⟩,
          progress_zero image m _ rfl rfl⟩, hbeside.expand (by decide)⟩
      · exact fun rest t => round_copying h rest t
    · rintro st t ⟨rfl, hcopying⟩
      rw [onStatus_ok, wp_script_nil]
      exact ⟨rfl, hcopying⟩
    · exact fun _ ht => ht
  -- what the invariant says when nothing is left
  obtain ⟨-, hstatus, ⟨size, pos, -, hend, -, hprogress⟩, -⟩ := hwp
  obtain rfl : pos = image.length := by omega
  obtain ⟨es, htrace, hloads, haligned, hcontiguous⟩ := hprogress.trace
  refine ⟨hstatus, ⟨es, htrace, hloads, haligned, hcontiguous, ?_⟩, hprogress.inside,
    hprogress.outside⟩
  rw [hcontiguous.blocks.2, Nat.sub_zero, List.range_eq_range']
  rfl

theorem plainInputs_obeys (image : List UInt8) :
    Obeys (plainInputs image) "mx8mp".toList image where
  size := rfl
  load := by
    intro k bytes pos _ hend
    show mediumLoad image (imageFile "mx8mp".toList) bytes pos = _
    rw [mediumLoad, if_pos rfl, if_pos hend]
  mmcWrite := fun _ => rfl

theorem plainInputs_chunksFit {image : List UInt8} {m : Machine}
    (harch : m.ram.expand .arch = "mx8mp".toList) : ChunksFit (plainInputs image) m := by
  intro n hn k hk
  obtain rfl : image.length = n := Option.some.inj hn
  have hpositive : 0 < chunkBytes image.length k := by
    simp only [chunkBytes, CHUNK] at *
    omega
  have hend : k * CHUNK + chunkBytes image.length k ≤ image.length := by
    rw [chunkBytes]
    omega
  rw [harch]
  exact ⟨_, (plainInputs_obeys image).load _ _ _ hpositive hend, List.length_take_le _ _⟩

/-- An image of one chunk and one byte more. -/
def largeImage : List UInt8 :=
  List.replicate (0xE00000 + 1) 0xa5

theorem copyImage_complete_two :
    Obeys (plainInputs largeImage) "mx8mp".toList largeImage ∧
      (∃ es, (copyImage (plainInputs largeImage)
          (start (plainInputs largeImage) (plainStorage []))).final.trace = es ∧
        (loadPositions es).length = 2 ∧ blocksOf (writesOf es) = List.range 0x7001) ∧
      ∀ k < 0xE00000 + 1, (copyImage (plainInputs largeImage)
        (start (plainInputs largeImage) (plainStorage []))).final.emmc k = 0xa5 := by
  have hlength : largeImage.length = 0xE00000 + 1 := List.length_replicate
  obtain ⟨-, ⟨es, htrace, hloads, -, -, hblocks⟩, hinside, -⟩ := copyImage_complete _
    (start (plainInputs largeImage) (plainStorage [])) largeImage (plainInputs_obeys _)
  rw [hlength, Nat.ceilDiv_eq_add_pred_div] at hloads hblocks
  refine ⟨plainInputs_obeys _, ⟨es, htrace, hloads, hblocks⟩, fun k hk => ?_⟩
  rw [hinside k (hlength ▸ hk), largeImage, List.getD_replicate _ hk]

end AppSysManager.Installer
