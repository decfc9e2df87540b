import AppSysManager.Server.Runs

/-!
# Read-only Parameters

`main.c` declares `switch_m7_bin` and `stdout_buf` with `PM_READONLY`, "Readonly by any".
No handler of the parameter server looks at that flag: whoever names the parameter in a
push can write it.

- `serveAll_readOnlyKept`: over any run in which no entry stores to a read-only parameter,
  the switch keeps its value and `_stdbuf` is what the prints of the run made of it.
- `switchM7Bin_pushed`: a four-byte push is enough to break this.
-/

namespace AppSysManager.Server

open AppSysManager.Bytes AppSysManager.Mpack AppSysManager.Node

/-! ## §1 The property -/

/-- Between `s` and `s'` the read-only parameters have changed through prints only. -/
structure ReadOnlyKept (s s' : State) : Prop where
  switchM7Bin : paramGet s' Node.switchM7Bin = paramGet s Node.switchM7Bin
  stdbuf : ∀ evs, s'.trace = s.trace ++ evs →
    s'.ram .stdoutBuf = ((printsOf evs).foldl Log.print s.log).stdbuf

/-- The entry makes a setter call on a read-only parameter that the index guard lets
    through; the string setter has no such guard. -/
def Item.WritesReadOnly : Item → Prop
  | .known p _ _ elems =>
    p.mask &&& PM_READONLY ≠ 0 ∧ ∃ e ∈ elems, p.type = .string ∨ e.index ≤ p.arraySize
  | .unknown => False

instance : DecidablePred Item.WritesReadOnly
  | .known p _ _ elems => inferInstanceAs (Decidable
      (p.mask &&& PM_READONLY ≠ 0 ∧ ∃ e ∈ elems, p.type = .string ∨ e.index ≤ p.arraySize))
  | .unknown => inferInstanceAs (Decidable False)

/-- Some entry of the packet is stored to a read-only parameter. -/
def Delivery.WritesReadOnly (env : Env) (d : Delivery) : Prop :=
  ∃ item ∈ packetItems env d.packet d.uninit, item.WritesReadOnly

instance (env : Env) : DecidablePred (Delivery.WritesReadOnly env) := fun d =>
  inferInstanceAs (Decidable (∃ item ∈ packetItems env d.packet d.uninit, item.WritesReadOnly))

/-! ## §2 One setter call -/

/-- The preorder behind `ReadOnlyKept`: every event is accounted for, and the switch stays. -/
def KeepsReadOnly (s s' : State) : Prop :=
  (∃ evs, Extends s s' evs) ∧ paramGet s' switchM7Bin = paramGet s switchM7Bin

theorem KeepsReadOnly.refl (s : State) : KeepsReadOnly s s := ⟨⟨[], Extends.refl s⟩, rfl⟩

theorem KeepsReadOnly.trans (a b c : State) (h : KeepsReadOnly a b) (h' : KeepsReadOnly b c) :
    KeepsReadOnly a c := by
  obtain ⟨⟨evs, hevs⟩, hswitch⟩ := h
  obtain ⟨⟨evs', hevs'⟩, hswitch'⟩ := h'
  exact ⟨⟨_, hevs.trans hevs'⟩, hswitch'.trans hswitch⟩

theorem KeepsReadOnly.stamp (s : State) (p : Param) (t : Nat) : KeepsReadOnly s (stamp s p t) :=
  ⟨⟨[], by simp [Server.stamp], rfl, rfl⟩, rfl⟩

theorem printsOf_of_server {evs : List Event} (h : ∀ e ∈ evs, ServerEvent e) :
    printsOf evs = [] ∧ commandsOf evs = [] := by
  constructor
  · refine List.filterMap_eq_nil_iff.mpr fun e he => ?_
    cases e with
    | print text => exact (h _ he).elim
    | _ => rfl
  · refine List.filterMap_eq_nil_iff.mpr fun e he => ?_
    cases e with
    | popen cmd ok => exact (h _ he).elim
    | _ => rfl

/-- Fetches and replies leave the log alone. -/
theorem Answers.extends {s s' : State} (h : Answers ServerEvent s s') :
    ∃ evs, Extends s s' evs := by
  obtain ⟨buffers, evs, hevs, rfl⟩ := h
  obtain ⟨hprints, hcmds⟩ := printsOf_of_server hevs
  exact ⟨evs, ⟨rfl, by rw [hprints]; rfl, by rw [hcmds]; rfl⟩⟩

theorem KeepsReadOnly.answers (s s' : State) (h : Answers ServerEvent s s') :
    KeepsReadOnly s s' := by
  refine ⟨h.extends, ?_⟩
  obtain ⟨buffers, evs, -, rfl⟩ := h
  rfl

theorem scalar_switchM7Bin : Scalar switchM7Bin := ⟨by decide, by decide⟩

/-- A setter call that does not store to a read-only parameter keeps them. -/
theorem KeepsReadOnly.storeValue {p : Param} {header : Option Header} {start : MpackReader}
    {elems : List Elem} (htyped : (Item.known p header start elems).WellTyped)
    (hwrites : ¬ (Item.known p header start elems).WritesReadOnly) (env : Env) {e : Elem}
    (he : e ∈ elems) (s : State) : KeepsReadOnly s (storeValue env s p e.index e.value) := by
  obtain ⟨hmem, hfits⟩ := htyped
  by_cases hname : p.name = .stdoutBuf
  · -- the string setter ignores the index: any call stores
    have hp : p = stdoutBuf := by rw [eq_param_of_mem hmem, hname]; rfl
    exact absurd ⟨by rw [hp]; decide, e, he, .inl (by rw [hp]; rfl)⟩ hwrites
  · have hscalar : Scalar p := ⟨hmem, hname⟩
    rcases storeValue_scalar hscalar (hfits e he) env s with ⟨-, heq⟩ | ⟨hidx, x, -, hset⟩
    · rw [heq]
      exact KeepsReadOnly.refl s
    · refine ⟨⟨_, hset.events⟩, hset.other _ scalar_switchM7Bin ?_⟩
      intro hne
      have hp : p = Node.switchM7Bin := by rw [eq_param_of_mem hmem, ← hne]; rfl
      refine hwrites ⟨by rw [hp]; decide, e, he, .inr ?_⟩
      rw [hp]
      exact hidx

/-! ## §3 Runs -/

/-- Read-only parameters are read-only over every run whose packets store to none of them,
    in every state the run goes through. -/
theorem serveAll_readOnlyKept (env : Env) (s : State) (ds : List Delivery)
    (h : ∀ d ∈ ds, ¬ d.WritesReadOnly env) {ds' : List Delivery} (hfront : ds' <+: ds) :
    ReadOnlyKept s (serveAll env s ds') := by
  have hkeeps : KeepsReadOnly s (serveAll env s ds') := by
    refine serveAll_preserves KeepsReadOnly.refl KeepsReadOnly.trans KeepsReadOnly.stamp
      KeepsReadOnly.answers ?_ s
    intro d hd p header start elems hitem e he s'
    refine KeepsReadOnly.storeValue (packetItems_wellTyped env _ _ _ hitem) ?_ env he s'
    exact fun hw => h d (hfront.subset hd) ⟨_, hitem, hw⟩
  obtain ⟨⟨evs, hext⟩, hswitch⟩ := hkeeps
  refine ⟨hswitch, fun evs' htrace => ?_⟩
  have hevs : evs' = evs := List.append_cancel_left (htrace.symm.trans hext.trace)
  rw [hevs]
  exact congrArg Log.stdbuf hext.log

/-- A V1 push of `mng_camera_control = 5`. -/
def cameraPush : Delivery := deliveryOf [2, 0, 33, 5] (by decide)

theorem serveAll_readOnlyKept_camera :
    (∀ d ∈ [cameraPush], ¬ d.WritesReadOnly plainEnv) ∧
      ReadOnlyKept (initialState none none)
        (serveAll plainEnv (initialState none none) [cameraPush]) :=
  ⟨by decide +kernel,
    serveAll_readOnlyKept plainEnv _ [cameraPush] (by decide +kernel) (List.prefix_refl _)⟩

/-- A V1 push of `switch_m7_bin = 7`. -/
def switchPush : Delivery := deliveryOf [2, 0, 35, 7] (by decide)

/-- The server stores to a parameter that is declared read-only. -/
theorem switchM7Bin_pushed :
    ¬ ReadOnlyKept (initialState none none)
      (serveAll plainEnv (initialState none none) [switchPush]) := by
  intro h
  have hvalue : paramGet (serveAll plainEnv (initialState none none) [switchPush])
      switchM7Bin = 7 := by decide +kernel
  have hzero : paramGet (initialState none none) switchM7Bin = 0 := by decide
  have hkept := h.switchM7Bin
  rw [hvalue, hzero] at hkept
  exact absurd hkept (by decide)

end AppSysManager.Server
