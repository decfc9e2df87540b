import Mathlib.Data.List.Basic

/-!
# Shell Commands under Power Loss

A small theory of boot-loader scripts, independent of any particular script.

- `Cmd σ` is a command over the machine states `σ`.  Running it gives an `Outcome`: the
  states it passes through, the state it ends in and how it ends.
- `simple`, `seq`, `both`, `either`, `ite`, `when`, `whileDo` and `script` are the
  constructs of the shell: simple commands, `a; b`, `a && b`, `a || b`, `if` with and
  without `else`, `while` and a list of lines.
- Power may be cut in every state that is passed through (`stopped`).
- `wp c Q R s` says that `c`, started in `s`, ends as `Q` says, and that `R` holds in every
  state in which power may be cut on the way.

A `while` loop runs for at most as many rounds as a bound that is computed when it is
entered; with `wp_whileDo` a proof shows that the bound is never reached, which is
termination.
-/

namespace AppSysManager.Shell

universe u

/-- How a command ends.  `ok` and `failed` are the exit statuses zero and non-zero, `exited`
    ends the script, `reset` restarts the machine; `stuck` is a loop that was cut off by its
    bound. -/
inductive Status where
  | ok
  | failed
  | exited
  | reset
  | stuck
  deriving DecidableEq, Repr

/-- The exit status as a `Bool` for success. -/
def Status.ofBool : Bool → Status
  | true => .ok
  | false => .failed

/-- What running a command does. -/
structure Outcome (σ : Type u) where
  visited : List σ
  final : σ
  status : Status

/-- A command. -/
def Cmd (σ : Type u) : Type u := σ → Outcome σ

variable {σ : Type u}

/-! ## §1 Constructs of the shell -/

/-- The outcome of a command that runs after the given states were passed through. -/
def Outcome.after (r : Outcome σ) (before : List σ) : Outcome σ :=
  { r with visited := before ++ r.visited }

/-- Go on with `yes` after success, with `no` after failure, and not at all otherwise. -/
def Outcome.branch (r : Outcome σ) (yes no : Cmd σ) : Outcome σ :=
  match r.status with
  | .ok => (yes r.final).after r.visited
  | .failed => (no r.final).after r.visited
  | _ => r

/-- A simple command: one step, with an exit status. -/
def simple (f : σ → σ × Bool) : Cmd σ :=
  fun s => ⟨[s], (f s).1, .ofBool (f s).2⟩

/-- A command that takes no step. -/
def done (st : Status) : Cmd σ :=
  fun s => ⟨[], s, st⟩

/-- `exit`. -/
def exit : Cmd σ :=
  fun s => ⟨[s], s, .exited⟩

/-- `reset`. -/
def reset : Cmd σ :=
  fun s => ⟨[s], s, .reset⟩

/-- `a; b`. -/
def seq (a b : Cmd σ) : Cmd σ :=
  fun s => (a s).branch b b

/-- `a && b`. -/
def both (a b : Cmd σ) : Cmd σ :=
  fun s => (a s).branch b (done .failed)

/-- `a || b`. -/
def either (a b : Cmd σ) : Cmd σ :=
  fun s => (a s).branch (done .ok) b

/-- `if c; then a; else b; fi`. -/
def ite (c a b : Cmd σ) : Cmd σ :=
  fun s => (c s).branch a b

/-- `if c; then a; fi`. -/
def when (c a : Cmd σ) : Cmd σ :=
  ite c a (done .ok)

/-- The lines of a script, one after another. -/
def script : List (Cmd σ) → Cmd σ
  | [] => done .ok
  | c :: cs => seq c (script cs)

/-- At most `n` rounds of a loop. -/
def rounds (c body : Cmd σ) : Nat → Cmd σ
  | 0 => done .stuck
  | n + 1 => ite c (seq body (rounds c body n)) (done .ok)

/-- `while c; do body; done`, for at most `bound` rounds. -/
def whileDo (bound : σ → Nat) (c body : Cmd σ) : Cmd σ :=
  fun s => rounds c body (bound s + 1) s

/-- The state in which a machine stops: the last one, or the one in which power is cut. -/
def stopped (r : Outcome σ) : Option Nat → σ
  | none => r.final
  | some n => (r.visited[n]?).getD r.final

/-! ## §2 Preconditions with a crash condition -/

/-- `c`, started in `s`, ends in a status and a state that `Q` allows, and passes through
    states in which `R` holds. -/
def wp (c : Cmd σ) (Q : Status → σ → Prop) (R : σ → Prop) (s : σ) : Prop :=
  (∀ t ∈ (c s).visited, R t) ∧ Q (c s).status (c s).final

/-- The postcondition of the first part of a composite command: what has to hold after
    success, after failure, and when the command does not pass control on. -/
def onStatus (yes no : σ → Prop) (Q : Status → σ → Prop) : Status → σ → Prop
  | .ok => yes
  | .failed => no
  | .exited => Q .exited
  | .reset => Q .reset
  | .stuck => Q .stuck

section Rules

variable {Q Q' : Status → σ → Prop} {R R' : σ → Prop} {s : σ} {a b c : Cmd σ}

@[simp] theorem onStatus_ok {yes no : σ → Prop} : onStatus yes no Q .ok s ↔ yes s :=
  Iff.rfl

@[simp] theorem onStatus_ofBool {yes no : σ → Prop} (x : Bool) :
    onStatus yes no Q (.ofBool x) s ↔ if x then yes s else no s := by
  cases x <;> rfl

theorem wp_mono (h : wp c Q R s) (hQ : ∀ st t, Q st t → Q' st t) (hR : ∀ t, R t → R' t) :
    wp c Q' R' s :=
  ⟨fun t ht => hR t (h.1 t ht), hQ _ _ h.2⟩

/-- Wherever power is cut, the machine stops in a state that the crash condition or the
    postcondition describes. -/
theorem stopped_of_wp {P : σ → Prop} (h : wp c Q R s) (hQ : ∀ st t, Q st t → P t)
    (hR : ∀ t, R t → P t) (cut : Option Nat) : P (stopped (c s) cut) := by
  have hfinal : P (c s).final := hQ _ _ h.2
  cases cut with
  | none => exact hfinal
  | some n =>
    show P (((c s).visited[n]?).getD (c s).final)
    cases hn : (c s).visited[n]? with
    | none => exact hfinal
    | some t => exact hR t (h.1 t (List.mem_of_getElem? hn))

@[simp] theorem wp_simple (f : σ → σ × Bool) :
    wp (simple f) Q R s ↔ R s ∧ Q (.ofBool (f s).2) (f s).1 := by
  simp [wp, simple]

@[simp] theorem wp_done (st : Status) : wp (done st) Q R s ↔ Q st s := by
  simp [wp, done]

@[simp] theorem wp_exit : wp exit Q R s ↔ R s ∧ Q .exited s := by
  simp [wp, exit]

@[simp] theorem wp_reset : wp reset Q R s ↔ R s ∧ Q .reset s := by
  simp [wp, reset]

theorem wp_after {f : Cmd σ} {t : σ} {before : List σ} (h : c s = (f t).after before) :
    wp c Q R s ↔ (∀ t ∈ before, R t) ∧ wp f Q R t := by
  simp only [wp, h, Outcome.after, List.forall_mem_append, and_assoc]

/-- The rule behind all composite commands: what the first part has to establish. -/
theorem wp_branch :
    wp (fun s => (c s).branch a b) Q R s ↔ wp c (onStatus (wp a Q R) (wp b Q R) Q) R s := by
  cases hst : (c s).status with
  | ok =>
    have hrun : (c s).branch a b = (a (c s).final).after (c s).visited := by
      simp only [Outcome.branch, hst]
    rw [wp_after (c := fun s => (c s).branch a b) hrun]
    simp only [wp, hst, onStatus]
  | failed =>
    have hrun : (c s).branch a b = (b (c s).final).after (c s).visited := by
      simp only [Outcome.branch, hst]
    rw [wp_after (c := fun s => (c s).branch a b) hrun]
    simp only [wp, hst, onStatus]
  | exited | reset | stuck =>
    simp only [wp, Outcome.branch, hst, onStatus]

theorem wp_seq : wp (seq a b) Q R s ↔ wp a (onStatus (wp b Q R) (wp b Q R) Q) R s :=
  wp_branch

theorem wp_ite : wp (ite c a b) Q R s ↔ wp c (onStatus (wp a Q R) (wp b Q R) Q) R s :=
  wp_branch

theorem wp_both : wp (both a b) Q R s ↔ wp a (onStatus (wp b Q R) (Q .failed) Q) R s := by
  have hfail : wp (done .failed) Q R = Q .failed := funext fun t => propext (wp_done _)
  rw [← hfail]
  exact wp_branch

theorem wp_either : wp (either a b) Q R s ↔ wp a (onStatus (Q .ok) (wp b Q R) Q) R s := by
  have hok : wp (done .ok) Q R = Q .ok := funext fun t => propext (wp_done _)
  rw [← hok]
  exact wp_branch

theorem wp_when : wp (when c a) Q R s ↔ wp c (onStatus (wp a Q R) (Q .ok) Q) R s := by
  have hok : wp (done .ok) Q R = Q .ok := funext fun t => propext (wp_done _)
  rw [when, wp_ite, hok]

@[simp] theorem wp_script_nil : wp (script []) Q R s ↔ Q .ok s :=
  wp_done _

theorem wp_script_cons (cs : List (Cmd σ)) :
    wp (script (c :: cs)) Q R s ↔
      wp c (onStatus (wp (script cs) Q R) (wp (script cs) Q R) Q) R s :=
  wp_seq

/-! ## §3 Loops -/

/-- What a round of a loop has to do: the test fails in a state in which the loop may end, or
    the body leaves the invariant `I m` for some `m < n`. -/
def Round (I : Nat → σ → Prop) (Q : Status → σ → Prop) (R : σ → Prop) (c body : Cmd σ)
    (n : Nat) : σ → Prop :=
  wp c (onStatus
    (wp body (onStatus (fun t => ∃ m < n, I m t) (fun t => ∃ m < n, I m t) Q) R) (Q .ok) Q) R

theorem onStatus_mono {yes no yes' no' : σ → Prop} (hyes : ∀ t, yes t → yes' t)
    (hno : ∀ t, no t → no' t) : ∀ st t, onStatus yes no Q st t → onStatus yes' no' Q st t
  | .ok => hyes
  | .failed => hno
  | .exited | .reset | .stuck => fun _ h => h

/-- The rule for loops.  `I n` is the invariant in front of the test, with at most `n` rounds
    to go. -/
theorem wp_rounds {I : Nat → σ → Prop} {body : Cmd σ}
    (hround : ∀ n t, I n t → Round I Q R c body n t) :
    ∀ k n s, n < k → I n s → wp (rounds c body k) Q R s := by
  intro k
  -- Induction on the rounds that the bound still allows: there is always one more of them
  -- than the invariant needs.
  induction k with
  | zero => exact fun n s hn => absurd hn (Nat.not_lt_zero n)
  | succ k ih =>
    intro n s hn hI
    have hgo : ∀ t, (∃ m < n, I m t) → wp (rounds c body k) Q R t := by
      rintro t ⟨m, hm, hIm⟩
      exact ih m t (Nat.lt_of_lt_of_le hm (Nat.le_of_lt_succ hn)) hIm
    rw [rounds, wp_ite]
    apply wp_mono (hround n s hI) _ (fun _ ht => ht)
    apply onStatus_mono
    · intro t ht
      rw [wp_seq]
      exact wp_mono ht (onStatus_mono hgo hgo) (fun _ ht => ht)
    · exact fun t ht => (wp_done _).mpr ht

theorem wp_whileDo {I : Nat → σ → Prop} {bound : σ → Nat} {body : Cmd σ} {n : Nat}
    (hbound : n ≤ bound s) (hstart : I n s)
    (hround : ∀ n t, I n t → Round I Q R c body n t) : wp (whileDo bound c body) Q R s :=
  wp_rounds hround (bound s + 1) n s (Nat.lt_succ_of_le hbound) hstart

end Rules

end AppSysManager.Shell
