import AppSysManager.Node.LastChars
import AppSysManager.Node.Main
import AppSysManager.Server.LogDownlink
import AppSysManager.Server.ReadOnly

/-!
# The Log over Whole Runs

Any push can write over `_stdbuf`, but only `csp_print_func` writes to the ring.  So the ring
follows what the node prints, from its start on and through every packet it serves, and the
next print puts the end of the log back into `_stdbuf`.

- `Logged s`: the ring is the end of everything that the trace of `s` says was printed.
- `serveAll_logged`: every state of every run is such a state.
- `print_restores`: what `_stdbuf` holds after the next print, whatever was pushed before.
-/

namespace AppSysManager.Server

open AppSysManager.Bytes AppSysManager.Mpack AppSysManager.Node

/-! ## §1 Steps -/

/-- The ring is the end of everything printed so far. -/
def Logged (s : State) : Prop := Remembers s.log.ring (printsOf s.trace).flatten

/-- A step whose events account for the log. -/
theorem logged_of_extends {s s' : State} {evs : List Event} (h : Extends s s' evs)
    (hs : Logged s) : Logged s' := by
  unfold Logged
  rw [h.log, foldl_print_ring, h.trace, printsOf_append, List.flatten_append]
  exact hs.putAll _

/-- A step that prints nothing and leaves the ring alone; it may change `_stdbuf`. -/
theorem logged_of_ring {s s' : State} {evs : List Event} (htrace : s'.trace = s.trace ++ evs)
    (hprints : printsOf evs = []) (hring : s'.log.ring = s.log.ring) (hs : Logged s) :
    Logged s' := by
  unfold Logged
  rw [hring, htrace, printsOf_append, hprints, List.append_nil]
  exact hs

theorem logged_emit {s : State} (hs : Logged s) {e : Event} (he : printsOf [e] = []) :
    Logged (s.emit e) :=
  logged_of_ring rfl he rfl hs

/-- The process has ended. -/
theorem logged_of_end {s : State} (hs : Logged s) : Logged { s with dead := true } := hs

theorem paramWrite_logged (env : Env) {s : State} (p : Param) (off len : Nat)
    (src : Nat → UInt8) (hs : Logged s) : Logged (paramWrite env s p off len src) :=
  logged_of_ring (paramWrite_trace env s p off len src) (printsOf_writeEvents p _ off len)
    (paramWrite_frame env s p off len src).ring hs

theorem runCallback_logged (env : Env) {s : State} (p : Param) (hs : Logged s) :
    Logged (runCallback env s p) := by
  obtain ⟨⟨evs, hext⟩, -⟩ := runCallback_spec env s p
  exact logged_of_extends hext hs

/-- A setter call of any kind, on any parameter. -/
theorem storeValue_logged (env : Env) {s : State} (p : Param) (i : Nat) (v : Value)
    (hs : Logged s) : Logged (storeValue env s p i v) := by
  refine storeValue_preserves (R := fun s s' => Logged s → Logged s') (fun _ h => h)
    (fun _ _ _ h h' hs => h' (h hs)) ?_ ?_ ?_ s i v hs
  · exact fun s off len src hs => paramWrite_logged env p off len src hs
  · exact fun s hs => runCallback_logged env p hs
  · -- the process dies in the middle of this store; nobody reads its ring again
    exact fun s len hs => logged_of_end (logged_emit hs rfl)

/-! ## §2 Starts -/

theorem initialState_logged (configFile : Option (List UInt8)) (flagFile : Option (List Char)) :
    Logged (initialState configFile flagFile) :=
  (initialState_freshLog configFile flagFile).emptyRing.remembers

/-- The globals of `main` are no part of the log. -/
theorem loadCanConfig_logged (env : Env) {s : State} (hs : Logged s) :
    Logged (loadCanConfig env s) := by
  have haddr : ∀ s, Logged s → Logged (defaultCanAddr env s) := by
    intro s hs
    unfold defaultCanAddr
    split
    · exact storeValue_logged env canAddr 0 (.num _) hs
    · exact hs
  have hnetmask : ∀ s, Logged s → Logged (defaultCanNetmask env s) := by
    intro s hs
    unfold defaultCanNetmask
    split
    · exact storeValue_logged env canNetmask 0 (.num _) hs
    · exact hs
  exact hnetmask _ (haddr _ hs)

theorem suspendOnBootRead_logged (env : Env) {s : State} (hs : Logged s) :
    Logged (suspendOnBootRead env s).1 := by
  unfold suspendOnBootRead
  dsimp only
  split
  · exact storeValue_logged env suspendOnBoot 0 (.num _) (logged_emit (logged_emit hs rfl) rfl)
  · exact logged_emit hs rfl

theorem bootDecision_logged (env : Env) {s : State} (hs : Logged s) :
    Logged (bootDecision env s) := by
  have hread := suspendOnBootRead_logged env hs
  unfold bootDecision
  rcases hr : suspendOnBootRead env s with ⟨s', paramVal⟩
  rw [hr] at hread
  dsimp only at hread ⊢
  split
  · exact logged_emit (logged_emit hread rfl) rfl
  · exact hread

/-- A start, whether it reaches the endless loop or ends with a message. -/
theorem main_logged (env : Env) {s : State} (hs : Logged s) : Logged (main env s) := by
  have hopened : Logged (canOpened (loadCanConfig env s)) :=
    logged_emit (loadCanConfig_logged env hs) rfl
  unfold main
  dsimp only
  split
  · exact bootDecision_logged env (logged_emit hopened rfl)
  · exact logged_of_end (logged_of_extends (cspPrintFunc_extends env _ _) hopened)

/-! ## §3 Runs -/

/-- The ring of a node that has been started and has served any packets is the end of everything
    it has printed. -/
theorem serveAll_logged (env : Env) (configFile : Option (List UInt8))
    (flagFile : Option (List Char)) (ds : List Delivery) :
    Logged (serveAll env (main env (initialState configFile flagFile)) ds) := by
  have hkeeps : ∀ s, Logged s → Logged (serveAll env s ds) := by
    refine serveAll_preserves (R := fun s s' => Logged s → Logged s') (fun _ h => h)
      (fun _ _ _ h h' hs => h' (h hs)) ?_ ?_ ?_
    · exact fun s p t hs => hs
    · intro s s' hanswers hs
      obtain ⟨evs, hext⟩ := hanswers.extends
      exact logged_of_extends hext hs
    · exact fun d _ p _ _ _ _ e _ s hs => storeValue_logged env p e.index e.value hs
  exact hkeeps _ (main_logged env (initialState_logged configFile flagFile))

/-- Whatever has been pushed, the next print leaves the end of the log in `_stdbuf`. -/
theorem print_restores (env : Env) {s : State} (hs : Logged s) {text : List UInt8}
    (htext : Printable text) :
    HoldsLast (cspPrintFunc env s text) (printsOf (cspPrintFunc env s text).trace).flatten := by
  have hprintable : ∀ t ∈ [text], Printable t := by
    intro t ht
    rw [List.mem_singleton.mp ht]
    exact htext
  have hlast := hs.holdsLast env hprintable (List.cons_ne_nil _ _)
  rw [(cspPrintFunc_extends env s text).trace, printsOf_append, printsOf_printEvents,
    printed_of_printable htext, List.flatten_append]
  exact hlast

end AppSysManager.Server
