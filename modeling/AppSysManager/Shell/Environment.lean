import Mathlib.Data.List.Basic
import Mathlib.Data.List.TakeWhile

/-!
# Shell Environments

The environment of a boot loader: variables with a text each, over any type of names.

- `set` is `setenv` (an empty text deletes the variable), `delete` is `env delete`, and
  `expand` is `$name`, which is empty for a variable that is not there.
- Numbers are texts of hexadecimal digits: `hexValue` reads one, `hexText` writes one, and
  `number` is the argument that `$name` gives to a command, if it gives one at all.
-/

namespace AppSysManager.Shell

universe u

/-- A text of the shell. -/
abbrev Text := List Char

/-! ## §1 Hexadecimal numbers -/

/-- The value of a hexadecimal digit, in either case. -/
def hexDigit (c : Char) : Option Nat :=
  if '0' ≤ c ∧ c ≤ '9' then some (c.toNat - '0'.toNat)
  else if 'a' ≤ c ∧ c ≤ 'f' then some (c.toNat - 'a'.toNat + 10)
  else if 'A' ≤ c ∧ c ≤ 'F' then some (c.toNat - 'A'.toNat + 10)
  else none

/-- Read digits up to the first character that is none. -/
def hexValue (text : Text) : Nat :=
  (text.takeWhile fun c => (hexDigit c).isSome).foldl
    (fun n c => 16 * n + (hexDigit c).getD 0) 0

/-- Write a number. -/
def hexText (n : Nat) : Text :=
  Nat.toDigits 16 n

theorem hexDigit_digitChar : ∀ d < 16, hexDigit d.digitChar = some d := by
  decide

theorem hexText_of_lt {n : Nat} (h : n < 16) : hexText n = [n.digitChar] :=
  Nat.toDigits_of_lt_base h

theorem hexText_of_le {n : Nat} (h : 16 ≤ n) :
    hexText n = hexText (n / 16) ++ [(n % 16).digitChar] :=
  Nat.toDigits_of_base_le (by decide) h

theorem hexText_ne_nil (n : Nat) : hexText n ≠ [] :=
  Nat.toDigits_ne_nil

/-- Only digits are written. -/
theorem hexDigit_hexText (n : Nat) : ∀ c ∈ hexText n, (hexDigit c).isSome := by
  induction n using Nat.strongRecOn with
  | _ n ih =>
    intro c hc
    by_cases hn : n < 16
    · rw [hexText_of_lt hn, List.mem_singleton] at hc
      rw [hc, hexDigit_digitChar n hn]
      rfl
    · rw [hexText_of_le (by omega), List.mem_append, List.mem_singleton] at hc
      rcases hc with hc | hc
      · exact ih (n / 16) (by omega) c hc
      · rw [hc, hexDigit_digitChar _ (Nat.mod_lt n (by decide))]
        rfl

/-- What is written is read back. -/
@[simp] theorem hexValue_hexText (n : Nat) : hexValue (hexText n) = n := by
  rw [hexValue, List.takeWhile_eq_self_iff.mpr (hexDigit_hexText n)]
  induction n using Nat.strongRecOn with
  | _ n ih =>
    by_cases hn : n < 16
    · rw [hexText_of_lt hn]
      simp only [List.foldl_cons, List.foldl_nil, hexDigit_digitChar n hn, Option.getD_some]
      omega
    · rw [hexText_of_le (by omega), List.foldl_append, ih (n / 16) (by omega)]
      simp only [List.foldl_cons, List.foldl_nil,
        hexDigit_digitChar _ (Nat.mod_lt n (by decide)), Option.getD_some]
      omega

/-! ## §2 Variables -/

/-- An environment. -/
def Environment (V : Type u) : Type u := V → Option Text

namespace Environment

variable {V : Type u} [DecidableEq V]

/-- `$v`. -/
def expand (env : Environment V) (v : V) : Text :=
  (env v).getD []

/-- `setenv v text`. -/
def set (env : Environment V) (v : V) (text : Text) : Environment V :=
  fun w => if w = v then (if text = [] then none else some text) else env w

/-- `env delete`. -/
def delete (env : Environment V) (vs : List V) : Environment V :=
  fun w => if w ∈ vs then none else env w

/-- The number that `$v` gives to a command, unless it gives no argument. -/
def number (env : Environment V) (v : V) : Option Nat :=
  match env.expand v with
  | [] => none
  | text => some (hexValue text)

variable (env : Environment V) (v w : V) (text : Text)

@[simp] theorem expand_set_self : (env.set v text).expand v = text := by
  by_cases htext : text = [] <;> simp [expand, set, htext]

theorem set_of_ne (h : w ≠ v) : env.set v text w = env w := by
  simp [set, h]

theorem expand_set_of_ne (h : w ≠ v) : (env.set v text).expand w = env.expand w := by
  rw [expand, expand, set_of_ne env v w text h]

theorem delete_of_mem {vs : List V} (h : w ∈ vs) : env.delete vs w = none := by
  simp [delete, h]

theorem delete_of_notMem {vs : List V} (h : w ∉ vs) : env.delete vs w = env w := by
  simp [delete, h]

omit [DecidableEq V] in
theorem number_of_expand {text : Text} (h : env.expand v = text) (hne : text ≠ []) :
    env.number v = some (hexValue text) := by
  unfold number
  rw [h]
  cases text with
  | nil => exact absurd rfl hne
  | cons c cs => rfl

@[simp] theorem number_set_self (n : Nat) : (env.set v (hexText n)).number v = some n := by
  rw [number_of_expand _ v (expand_set_self env v _) (hexText_ne_nil n), hexValue_hexText]

theorem number_set_of_ne (h : w ≠ v) : (env.set v text).number w = env.number w := by
  unfold number
  rw [expand_set_of_ne env v w text h]

/-- Copying a variable copies its number. -/
theorem number_set_expand : (env.set v (env.expand w)).number v = env.number w := by
  unfold number
  rw [expand_set_self]

end Environment

end AppSysManager.Shell
