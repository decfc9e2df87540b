import AppSysManager.Node.Log
import AppSysManager.Server.Serializer

/-!
# The Log as an Operator Sees It

A pull of `stdout_buf` sends `_stdbuf` up to its first NUL.  The copy of the ring starts at
its oldest cell, and until 110 characters have been printed that cell still holds the NUL
it was initialised with: the operator sees nothing at all.
-/

namespace AppSysManager.Server

open AppSysManager.Bytes AppSysManager.Mpack AppSysManager.Node

/-- The value a pull sends for `stdout_buf`. -/
theorem paramWireValue_stdoutBuf (s : State) :
    paramWireValue s stdoutBuf (-1) = .str (stdoutString s) := rfl

theorem initialState_freshLog (configFile : Option (List UInt8)) (flagFile : Option (List Char)) :
    FreshLog (initialState configFile flagFile) :=
  ⟨fun _ => rfl, rfl, fun _ => rfl⟩

/-- What the operator should see after the prints: the end of the log, as far as it fits. -/
def ShowsEndOfLog (env : Env) (s : State) (texts : List (List UInt8)) : Prop :=
  paramWireValue (cspPrintAll env s texts) stdoutBuf (-1) =
    .str (lastChars (min STDBUF_SIZE texts.flatten.length) texts.flatten)

/-- The operator sees the end of the log exactly if nothing has been printed, or at least as
    much as the ring holds. -/
theorem showsEndOfLog_iff (env : Env) (configFile : Option (List UInt8))
    (flagFile : Option (List Char)) (texts : List (List UInt8)) (h : ∀ t ∈ texts, Printable t) :
    ShowsEndOfLog env (initialState configFile flagFile) texts ↔
      texts.flatten.length = 0 ∨ STDBUF_SIZE ≤ texts.flatten.length := by
  have hfresh := initialState_freshLog configFile flagFile
  rw [ShowsEndOfLog, paramWireValue_stdoutBuf, stdoutString_cspPrintAll hfresh h,
    WireValue.str.injEq]
  by_cases hfull : STDBUF_SIZE ≤ texts.flatten.length
  · rw [if_pos hfull, min_eq_left hfull]
    exact ⟨fun _ => .inr hfull, fun _ => rfl⟩
  · rw [if_neg hfull]
    have hmin : min STDBUF_SIZE texts.flatten.length = texts.flatten.length := by omega
    rw [hmin, lastChars, Nat.sub_self, List.drop_zero]
    constructor
    · intro hnil
      rw [← hnil]
      exact .inl rfl
    · rintro (hzero | hge)
      · exact (List.length_eq_zero_iff.mp hzero).symm
      · exact absurd hge hfull

/-- A full ring is shown. -/
theorem showsEndOfLog_full :
    (∀ t ∈ [List.replicate 120 (65 : UInt8)], Printable t) ∧
      ShowsEndOfLog plainEnv (initialState none none) [List.replicate 120 65] := by
  have hprintable : ∀ t ∈ [List.replicate 120 (65 : UInt8)], Printable t := by
    intro t ht
    rw [List.mem_singleton.mp ht]
    refine ⟨fun c hc => ?_, by simp⟩
    rw [List.eq_of_mem_replicate hc]
    decide
  exact ⟨hprintable,
    (showsEndOfLog_iff _ none none _ hprintable).mpr (.inr (by simp [STDBUF_SIZE]))⟩

/-- After one short print the operator sees nothing. -/
theorem showsEndOfLog_short :
    ¬ ShowsEndOfLog plainEnv (initialState none none) [[72, 105]] := by
  intro h
  have hlen := congrArg (fun v => match v with | .str bs => bs.length | _ => 0) h
  exact absurd hlen (by decide +kernel)

end AppSysManager.Server
