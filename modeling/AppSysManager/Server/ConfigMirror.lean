import AppSysManager.Server.VmemServer

/-!
# The Config Area and its File

Two servers write `vmem_config_buf`: pushes to the parameters that live in it, and uploads on
the vmem port.  The packets of an upload and those on the parameter port interleave, and each
of them is served as a whole: `vmem_file_write` takes no lock, so nothing is said about two
writes that overlap in time.  One upload is served at a time.

`vmem_memcpy` takes the writer that keeps the file only if the packet as a whole lies inside the
area.  A packet that straddles the end is copied like ordinary memory: its front half reaches
the area behind the file's back, and its rest whatever lies behind the area.

## Main statements

- `Tracks.run`: after any run the area holds the last bytes written to it, by whichever route.
- `configMirrored_iff`: the file mirrors the area, and nothing else is written, whenever no
  upload is in progress, if and only if no upload that is over went beyond the end.
-/

namespace AppSysManager.Server

open AppSysManager.Bytes AppSysManager.Mpack AppSysManager.Node

/-! ## §1 The download request -/

/-- `VMEM_SERVER_MTU`. -/
def VMEM_SERVER_MTU : Nat := 192

/-- What a copy from memory reads: the area, or whatever lies around it. -/
def loadByte (around : Int → UInt8) (s : State) (address : Int) : UInt8 :=
  if 0 ≤ address ∧ address < VMEM_CONFIG_SIZE then s.vmemConfigBuf address.toNat
  else around address

/-- `vmem_memcpy` to a packet: `vmem_file_read` inside the area, else `memcpy`. -/
def vmemRead (around : Int → UInt8) (s : State) (address : Int) (length : Nat) : List UInt8 :=
  if 0 ≤ address ∧ address + length ≤ VMEM_CONFIG_SIZE then
    (List.range length).map fun k => s.vmemConfigBuf (address.toNat + k)
  else (List.range length).map fun k => loadByte around s (address + k)

/-- The loop of `VMEM_SERVER_DOWNLOAD`: the packets it sends.  `active` is
    `csp_conn_is_active` in each round; every round sends a byte, so `fuel` is the length. -/
def downloadLoop (env : Env) (active : Nat → Bool) (around : Int → UInt8) (s : State)
    (address : Int) (length : Nat) : Nat → Nat → Nat → List (List UInt8)
  | 0, _, _ => []
  | fuel + 1, round, count =>
    if count < length ∧ active round then
      if env.cspBufferGet (s.buffers + round) then
        let size := min VMEM_SERVER_MTU (length - count)
        vmemRead around s (address + count) size ::
          downloadLoop env active around s address length fuel (round + 1) (count + size)
      else []
    else []

/-- `VMEM_SERVER_DOWNLOAD`. -/
def vmemDownload (env : Env) (active : Nat → Bool) (around : Int → UInt8) (s : State)
    (address : Int) (length : Nat) : List (List UInt8) :=
  downloadLoop env active around s address length length 0 0

/-! ## §2 Writes in order -/

/-- Some bytes written to an address, relative to the start of the area. -/
structure Access where
  off : Int
  bytes : List UInt8
  deriving DecidableEq, Repr

/-- What a write puts at an address. -/
def Access.byteAt (a : Access) (j : Int) : Option UInt8 :=
  if a.off ≤ j ∧ j < a.off + a.bytes.length then some (a.bytes.getD (j - a.off).toNat 0) else none

/-- The last byte written to an address. -/
def lastWritten (as : List Access) (j : Int) : Option UInt8 :=
  as.foldl (fun last a => (a.byteAt j).or last) none

theorem lastWritten_append (as bs : List Access) (j : Int) :
    lastWritten (as ++ bs) j = (lastWritten bs j).or (lastWritten as j) := by
  induction bs using List.reverseRecOn with
  | nil => simp [lastWritten]
  | append_singleton bs b ih =>
    rw [← List.append_assoc]
    simp only [lastWritten, List.foldl_append, List.foldl_cons, List.foldl_nil] at ih ⊢
    rw [ih, Option.or_assoc]

/-- The write of one setter call to a parameter in the area. -/
def Elem.accesses (p : Param) (e : Elem) : List Access :=
  match e.value with
  | .num x =>
    if p.vmem ∧ e.index ≤ p.arraySize then
      [⟨p.addr, (List.range p.type.size).map (byteLE (converted p x))⟩]
    else []
  | _ => []

/-- The writes of an entry. -/
def Item.accesses : Item → List Access
  | .known p _ _ elems => elems.flatMap (Elem.accesses p)
  | .unknown => []

/-- The data packet of an upload, as a write. -/
def Step.uploaded (conn : Option Int) : Step → List Access
  | .data bytes => conn.toList.map fun address => ⟨address, bytes⟩
  | _ => []

/-- The writes of a step, by either route. -/
def Step.accesses (env : Env) (conn : Option Int) : Step → List Access
  | .param d => (packetItems env d.packet d.uninit).flatMap Item.accesses
  | step => step.uploaded conn

/-- The writes of a run, by either route. -/
def accesses (env : Env) : Option Int → List Step → List Access
  | _, [] => []
  | conn, step :: steps => step.accesses env conn ++ accesses env (step.next conn) steps

/-- The writes of the uploads of a run. -/
def uploads : Option Int → List Step → List Access
  | _, [] => []
  | conn, step :: steps => step.uploaded conn ++ uploads (step.next conn) steps

/-! ## §3 The property and the condition -/

/-- The entry is for a parameter in the config area, or for none. -/
def Item.ForConfig : Item → Prop
  | .known p _ _ _ => p.vmem = true
  | .unknown => True

instance : DecidablePred Item.ForConfig
  | .known p _ _ _ => inferInstanceAs (Decidable (p.vmem = true))
  | .unknown => inferInstanceAs (Decidable True)

/-- Packets with entries for `can_addr`, `can_netmask` and `suspend_on_boot`, and uploads that
    start in the area. -/
def Step.ToConfig (env : Env) : Step → Prop
  | .param d => ∀ item ∈ packetItems env d.packet d.uninit, item.ForConfig
  | .upload off => off < VMEM_CONFIG_SIZE
  | _ => True

/-- The file holds the bytes of the area. -/
def FileMirrors (s : State) : Prop :=
  s.configFile = some ((List.range VMEM_CONFIG_SIZE).map s.vmemConfigBuf)

/-- After a run from `s`: the file holds the bytes of the area, no plain copy has written a byte
    outside of it, and a download inside of it, on a connection that stays open and with buffers
    at hand, returns the last bytes written. -/
structure Mirrored (env : Env) (s : State) (steps : List Step) : Prop where
  file : FileMirrors (runSteps env s steps).node
  outside : ∀ evs, (runSteps env s steps).node.trace = s.trace ++ evs →
    ∀ (off : Int) (len : Nat), .memcpy off len ∈ evs →
      ∀ j : Int, off ≤ j → j < off + len → 0 ≤ j ∧ j < VMEM_CONFIG_SIZE
  download : ∀ active around (off len : Nat), (∀ n, active n = true) →
    (∀ n, env.cspBufferGet n = true) → off + len ≤ VMEM_CONFIG_SIZE →
    (vmemDownload env active around (runSteps env s steps).node off len).flatten =
      (List.range len).map fun k =>
        (lastWritten (accesses env none steps) (off + k : Nat)).getD (s.vmemConfigBuf (off + k))

/-- The write lies inside the area. -/
def Access.Fits (a : Access) : Prop :=
  a.bytes ≠ [] → a.off + a.bytes.length ≤ VMEM_CONFIG_SIZE

theorem FileMirrors.of_eq {s s' : State} (h : FileMirrors s) (hfile : s'.configFile = s.configFile)
    (hbuf : s'.vmemConfigBuf = s.vmemConfigBuf) : FileMirrors s' := by
  unfold FileMirrors
  rw [hfile, hbuf]
  exact h

theorem FileMirrors.emit {s : State} (h : FileMirrors s) (e : Event) : FileMirrors (s.emit e) :=
  h.of_eq rfl rfl

/-! ## §4 Setter calls -/

section Setters

variable {env : Env} (hfiles : ∀ n, env.fopen n = true)

include hfiles

theorem vmemFileWrite_mirrors (s : State) (addr len : Nat) (src : Nat → UInt8) :
    FileMirrors (vmemFileWrite env s addr len src) := by
  unfold FileMirrors vmemFileWrite
  dsimp only
  rw [if_pos (hfiles _)]
  rfl

theorem paramWrite_mirrors {s : State} {p : Param} (h : p.vmem = true ∨ FileMirrors s)
    (off len : Nat) (src : Nat → UInt8) : FileMirrors (paramWrite env s p off len src) := by
  cases hvmem : p.vmem with
  | true =>
    rw [paramWrite, if_pos hvmem]
    exact vmemFileWrite_mirrors hfiles _ _ _ _
  | false =>
    have hkept : FileMirrors s := h.resolve_left (by rw [hvmem]; decide)
    unfold FileMirrors
    rw [paramWrite_vmemConfigBuf, paramWrite_eq, hvmem]
    exact hkept

omit hfiles in
theorem runCallback_mirrors {s : State} (h : FileMirrors s) (p : Param) :
    FileMirrors (runCallback env s p) := by
  have hframe := (runCallback_spec env s p).2
  exact h.of_eq hframe.configFile hframe.vmemConfigBuf

theorem paramSetArray_mirrors {s : State} {p : Param} {i : Nat} (value : Int)
    (h : FileMirrors s ∨ p.vmem = true ∧ i ≤ p.arraySize) :
    FileMirrors (paramSetArray env s p i value) := by
  unfold paramSetArray
  by_cases hi : i > p.arraySize
  · rw [if_pos hi]
    exact h.resolve_right fun hin => absurd hin.2 (not_le.mpr hi)
  · rw [if_neg hi]
    apply runCallback_mirrors
    exact paramWrite_mirrors hfiles (h.symm.imp_left And.left) _ _ _

/-- No setter call separates the file from the area. -/
theorem storeValue_mirrors {s : State} (h : FileMirrors s) (p : Param) (i : Nat) (v : Value) :
    FileMirrors (storeValue env s p i v) := by
  refine storeValue_preserves (R := fun s s' => FileMirrors s → FileMirrors s') (fun _ h => h)
    (fun _ _ _ h h' hs => h' (h hs)) ?_ ?_ ?_ s i v h
  · exact fun s off len src hs => paramWrite_mirrors hfiles (.inr hs) off len src
  · exact fun s hs => runCallback_mirrors hs p
  · exact fun s len hs => hs

end Setters

/-! ## §5 Packets on the parameter port -/

/-- No plain copy to memory. -/
def NoMemcpy (e : Event) : Prop :=
  ∀ off len, e ≠ .memcpy off len

/-- `s'` is `s` after some writes to the area, all of them through its writer. -/
structure Written (s s' : State) (as : List Access) : Prop where
  bytes : ∀ j : Nat, j < VMEM_CONFIG_SIZE →
    s'.vmemConfigBuf j = (lastWritten as j).getD (s.vmemConfigBuf j)
  alive : s'.dead = s.dead
  events : Grows NoMemcpy s s'

theorem Written.refl (s : State) : Written s s [] :=
  ⟨fun _ _ => rfl, rfl, Grows.refl s⟩

theorem Written.trans {s s' s'' : State} {as bs : List Access} (h : Written s s' as)
    (h' : Written s' s'' bs) : Written s s'' (as ++ bs) where
  bytes j hj := by
    rw [h'.bytes j hj, h.bytes j hj, lastWritten_append]
    cases lastWritten bs j <;> rfl
  alive := h'.alive.trans h.alive
  events := h.events.trans h'.events

/-- A change of the node that neither server sees as a write. -/
theorem Written.of_answers {s s' : State} (h : Answers ServerEvent s s') : Written s s' [] := by
  obtain ⟨buffers, evs, hevs, rfl⟩ := h
  refine ⟨fun _ _ => rfl, rfl, evs, rfl, fun e he off len heq => ?_⟩
  rw [heq] at he
  exact hevs _ he

theorem noMemcpy_setEvents {env : Env} {s : State} {p : Param} {v : Nat} {e : Event}
    (h : e ∈ setEvents env s p v) : NoMemcpy e := by
  intro off len heq
  subst heq
  rcases mem_setEvents h with ⟨ok, hmem⟩ | hmem | ⟨ok, callback, -, hmem⟩
  · rcases mem_writeEvents hmem with h | h | h <;> cases h
  · cases hmem
  · rcases mem_callbackEvents hmem with hmem | ⟨cmd, heq⟩ | ⟨text, -, hmem⟩
    · unfold callbackIo at hmem
      cases callback <;> cases ok <;> simp at hmem
    · cases heq
    · simp [printEvents] at hmem

theorem byteAt_scalar {p : Param} {v : Nat} (buf : Nat → UInt8) {j : Nat}
    (hj : j < VMEM_CONFIG_SIZE) :
    overwrite VMEM_CONFIG_SIZE buf p.addr p.type.size (byteLE v) j =
      (Access.byteAt ⟨p.addr, (List.range p.type.size).map (byteLE v)⟩ j).getD (buf j) := by
  unfold overwrite Access.byteAt
  simp only [List.length_map, List.length_range]
  by_cases hin : p.addr ≤ j ∧ j < p.addr + p.type.size
  · have hlt : j - p.addr < p.type.size := by omega
    have hindex : ((j : Int) - p.addr).toNat = j - p.addr := by omega
    rw [if_pos (by omega), if_pos (by omega), Option.getD_some, hindex]
    simp [List.getD, hlt]
  · rw [if_neg (by omega), if_neg (by omega), Option.getD_none]

/-- One setter call on a parameter in the area. -/
theorem storeValue_written {p : Param} (hp : Scalar p) (hvmem : p.vmem = true) {e : Elem}
    (hfits : e.value.Fits p.type) (env : Env) (s : State) :
    Written s (storeValue env s p e.index e.value) (e.accesses p) := by
  obtain ⟨x, hx⟩ := hfits.num hp
  have hsize := hp.layout.1
  rw [Elem.accesses, hx]
  dsimp only
  rcases Nat.lt_or_ge e.index 2 with hi | hi
  · have hset := paramSetArray_spec hp (Nat.le_of_lt_succ hi) env s x
    rw [if_pos ⟨hvmem, by omega⟩]
    refine ⟨fun j hj => ?_, hset.dead, _, hset.events.trace, fun e he => noMemcpy_setEvents he⟩
    -- the callback behind the write leaves the area alone
    have hbuf : (paramSetArray env s p e.index x).vmemConfigBuf =
        overwrite VMEM_CONFIG_SIZE s.vmemConfigBuf p.addr p.type.size (byteLE (converted p x)) := by
      rw [paramSetArray_eq hp (Nat.le_of_lt_succ hi)]
      have hwrite := paramWrite_vmemConfigBuf env s p 0 p.type.size (byteLE (converted p x))
      rw [if_pos hvmem] at hwrite
      exact (runCallback_spec env _ p).2.vmemConfigBuf.trans hwrite
    show (paramSetArray env s p e.index x).vmemConfigBuf j = _
    rw [hbuf, byteAt_scalar _ hj]
    simp [lastWritten]
  · have hbeyond : ¬ (p.vmem = true ∧ e.index ≤ p.arraySize) := by omega
    rw [if_neg hbeyond]
    show Written s (paramSetArray env s p e.index x) []
    rw [paramSetArray_beyond hp hi]
    exact Written.refl s

theorem execElems_written {p : Param} (hp : Scalar p) (hvmem : p.vmem = true) (env : Env)
    {elems : List Elem} (hfits : ∀ e ∈ elems, e.value.Fits p.type) (s : State) :
    Written s (execElems env p s elems) (elems.flatMap (Elem.accesses p)) := by
  induction elems generalizing s with
  | nil => exact Written.refl s
  | cons e elems ih =>
    have hfirst := storeValue_written hp hvmem (hfits e List.mem_cons_self) env s
    exact hfirst.trans (ih (fun e' he' => hfits e' (List.mem_cons_of_mem _ he')) _)

theorem scalar_of_vmem {p : Param} (hmem : p ∈ paramTable) (hvmem : p.vmem = true) : Scalar p := by
  refine ⟨hmem, fun hname => ?_⟩
  have hp : p = stdoutBuf := by rw [eq_param_of_mem hmem, hname]; rfl
  rw [hp] at hvmem
  exact absurd hvmem (by decide)

theorem execItems_written (env : Env) {items : List Item}
    (htyped : ∀ item ∈ items, item.WellTyped) (hconfig : ∀ item ∈ items, item.ForConfig)
    (s : State) : Written s (execItems env s items) (items.flatMap Item.accesses) := by
  induction items generalizing s with
  | nil => exact Written.refl s
  | cons item items ih =>
    have hrest := fun s => ih (fun i hi => htyped i (List.mem_cons_of_mem _ hi))
      (fun i hi => hconfig i (List.mem_cons_of_mem _ hi)) s
    rw [execItems_cons, List.flatMap_cons]
    cases item with
    | unknown => exact hrest s
    | known p header start elems =>
      obtain ⟨hmem, hfits⟩ := htyped _ List.mem_cons_self
      have hvmem : p.vmem = true := hconfig _ List.mem_cons_self
      have hstamp : Written s (stamp s p (headerTimestamp header)) [] :=
        ⟨fun _ _ => rfl, rfl, [], by simp [stamp], by simp⟩
      exact (hstamp.trans (execElems_written (scalar_of_vmem hmem hvmem) hvmem env hfits _)).trans
        (hrest _)

theorem prologue_serverEvents (packet : CspPacket) (s : State) :
    Answers ServerEvent s (prologue packet s) := by
  unfold prologue
  split
  · exact Answers.emit (e := .fetch _ _ _) trivial
  · exact Answers.refl s

/-- A packet on the parameter port. -/
theorem deliver_written {env : Env} {s : State} (hs : s.dead = false) {d : Delivery}
    (hconfig : ∀ item ∈ packetItems env d.packet d.uninit, item.ForConfig) :
    Written s (deliver env s d) ((packetItems env d.packet d.uninit).flatMap Item.accesses) := by
  have hserve : deliver env s d = paramServe env d.packet d.uninit s := by
    rw [deliver, hs]
    rfl
  have hprologue := Written.of_answers (prologue_serverEvents d.packet s)
  have hexec := execItems_written env (packetItems_wellTyped env d.packet d.uninit) hconfig
    (prologue d.packet s)
  have hanswer := Written.of_answers (paramServe_applied env d.packet d.uninit hs)
  rw [hserve]
  simpa using (hprologue.trans hexec).trans hanswer

theorem deliver_mirrors {env : Env} (hfiles : ∀ n, env.fopen n = true) {s : State}
    (h : FileMirrors s) (d : Delivery) : FileMirrors (deliver env s d) := by
  unfold deliver
  split
  · exact h
  · case isFalse hdead =>
    refine paramServe_preserves (R := fun s s' => FileMirrors s → FileMirrors s') (fun _ h => h)
      (fun a b c hab hbc ha => hbc (hab ha)) (fun s p t h => h) ?_ ?_ (by simpa using hdead) h
    · rintro s s' ⟨buffers, evs, -, rfl⟩ h
      exact h
    · intro p header start elems _ e _ s' hs'
      exact storeValue_mirrors hfiles hs' p e.index e.value

/-! ## §6 Uploads -/

theorem patch_nil (buf : Nat → UInt8) (off : Int) : patch buf off [] = buf := by
  funext j
  rw [patch, if_neg]
  simp only [List.length_nil, Nat.cast_zero]
  omega

theorem vmemMemcpy_byteAt (env : Env) (s : State) (address : Int) (bytes : List UInt8) {j : Nat}
    (hj : j < VMEM_CONFIG_SIZE) :
    (vmemMemcpy env s address bytes).vmemConfigBuf j =
      (Access.byteAt ⟨address, bytes⟩ j).getD (s.vmemConfigBuf j) := by
  rw [vmemMemcpy_byte env s address bytes hj, patch, Access.byteAt]
  by_cases hin : address ≤ j ∧ (j : Int) < address + bytes.length
  · rw [if_pos ⟨hin.1, hin.2, hj⟩, if_pos hin]
    rfl
  · have hout : ¬ (address ≤ j ∧ (j : Int) < address + bytes.length ∧ j < VMEM_CONFIG_SIZE) :=
      fun h => hin ⟨h.1, h.2.1⟩
    rw [if_neg hout, if_neg hin]
    rfl

/-- A packet inside the area goes through its writer; any other one leaves a plain copy. -/
theorem vmemMemcpy_events (env : Env) (s : State) {address : Int} (haddress : 0 ≤ address)
    (bytes : List UInt8) :
    ∃ evs, (vmemMemcpy env s address bytes).trace = s.trace ++ evs ∧
      ∀ off len, .memcpy off len ∈ evs ↔ off = address ∧ len = bytes.length ∧
        VMEM_CONFIG_SIZE < address + bytes.length := by
  unfold vmemMemcpy
  by_cases hfits : address + bytes.length ≤ VMEM_CONFIG_SIZE
  -- the file may not open; either way there is no plain copy
  · rw [if_pos ⟨haddress, hfits⟩]
    unfold vmemFileWrite
    dsimp only
    split
    · refine ⟨[.fopen .config true, .fclose .config], by simp_all [State.emit], ?_⟩
      intro off len
      simp only [List.mem_cons, reduceCtorEq, List.not_mem_nil, or_self, false_iff]
      omega
    · refine ⟨[.fopen .config false], by simp_all [State.emit], ?_⟩
      intro off len
      simp only [List.mem_cons, reduceCtorEq, List.not_mem_nil, or_self, false_iff]
      omega
  -- the packet is not inside the area as a whole
  · rw [if_neg fun h => hfits h.2]
    refine ⟨[.memcpy address bytes.length], rfl, ?_⟩
    intro off len
    simp only [List.mem_singleton, Event.memcpy.injEq]
    constructor
    · rintro ⟨rfl, rfl⟩
      exact ⟨rfl, rfl, not_le.mp hfits⟩
    · rintro ⟨rfl, rfl, -⟩
      exact ⟨rfl, rfl⟩

theorem vmemMemcpy_mirrors {env : Env} (hfiles : ∀ n, env.fopen n = true) {s : State}
    (h : FileMirrors s) {address : Int} (haddress : 0 ≤ address) {bytes : List UInt8}
    (hfits : Access.Fits ⟨address, bytes⟩) : FileMirrors (vmemMemcpy env s address bytes) := by
  unfold vmemMemcpy
  split
  · exact vmemFileWrite_mirrors hfiles _ _ _ _
  · case isFalse hout =>
    -- only an empty packet can lie outside
    have hempty : bytes = [] := by
      by_contra hne
      exact hout ⟨haddress, hfits hne⟩
    subst hempty
    unfold FileMirrors
    rw [patch_nil]
    exact h

/-! ## §7 Runs -/

theorem runSteps_concat (env : Env) (s : State) (steps : List Step) (step : Step) :
    runSteps env s (steps ++ [step]) = step.exec env (runSteps env s steps) := by
  rw [runSteps, List.foldl_append]
  rfl

theorem runSteps_conn (env : Env) (s : State) (steps : List Step) :
    (runSteps env s steps).conn = steps.foldl Step.next none := by
  induction steps using List.reverseRecOn with
  | nil => rfl
  | append_singleton steps step ih =>
    rw [runSteps_concat, List.foldl_append, ← ih]
    rfl

theorem accesses_concat (env : Env) (conn : Option Int) (steps : List Step) (step : Step) :
    accesses env conn (steps ++ [step]) =
      accesses env conn steps ++ step.accesses env (steps.foldl Step.next conn) := by
  induction steps generalizing conn with
  | nil => simp [accesses]
  | cons first steps ih =>
    rw [List.cons_append, accesses, ih, accesses, List.append_assoc]
    rfl

theorem uploads_concat (conn : Option Int) (steps : List Step) (step : Step) :
    uploads conn (steps ++ [step]) =
      uploads conn steps ++ step.uploaded (steps.foldl Step.next conn) := by
  induction steps generalizing conn with
  | nil => simp [uploads]
  | cons first steps ih =>
    rw [List.cons_append, uploads, ih, uploads, List.append_assoc]
    rfl

/-- What a run keeps track of. -/
structure Tracks (env : Env) (s : State) (steps : List Step) : Prop where
  conn_nonneg : ∀ address, (runSteps env s steps).conn = some address → 0 ≤ address
  alive : (runSteps env s steps).node.dead = false
  bytes : ∀ j : Nat, j < VMEM_CONFIG_SIZE → (runSteps env s steps).node.vmemConfigBuf j =
    (lastWritten (accesses env none steps) j).getD (s.vmemConfigBuf j)
  memcpys : ∃ evs, (runSteps env s steps).node.trace = s.trace ++ evs ∧
    ∀ off len, .memcpy off len ∈ evs ↔ ∃ a ∈ uploads none steps, off = a.off ∧
      len = a.bytes.length ∧ VMEM_CONFIG_SIZE < a.off + a.bytes.length
  mirrors : (∀ a ∈ uploads none steps, a.Fits) → FileMirrors (runSteps env s steps).node

section Concat

variable {env : Env} {s : State} {steps : List Step}

/-- A step that writes nothing. -/
theorem Tracks.quiet (h : Tracks env s steps) {step : Step} (hupload : step.uploaded
    (runSteps env s steps).conn = []) (haccess : step.accesses env (runSteps env s steps).conn = [])
    (hnode : step.serve env (runSteps env s steps).conn (runSteps env s steps).node =
      (runSteps env s steps).node)
    (hconn : ∀ address, step.next (runSteps env s steps).conn = some address → 0 ≤ address) :
    Tracks env s (steps ++ [step]) := by
  have huploads : uploads none (steps ++ [step]) = uploads none steps := by
    rw [uploads_concat, ← runSteps_conn env s, hupload, List.append_nil]
  have haccesses : accesses env none (steps ++ [step]) = accesses env none steps := by
    rw [accesses_concat, ← runSteps_conn env s, haccess, List.append_nil]
  have hrun : (runSteps env s (steps ++ [step])).node = (runSteps env s steps).node := by
    rw [runSteps_concat]
    exact hnode
  constructor
  · intro address haddress
    rw [runSteps_concat] at haddress
    exact hconn address haddress
  · rw [hrun]
    exact h.alive
  · rw [hrun, haccesses]
    exact h.bytes
  · rw [hrun, huploads]
    exact h.memcpys
  · rw [hrun, huploads]
    exact h.mirrors

/-- A packet on the parameter port. -/
theorem Tracks.param (hfiles : ∀ n, env.fopen n = true) (h : Tracks env s steps) {d : Delivery}
    (hconfig : (Step.param d).ToConfig env) : Tracks env s (steps ++ [.param d]) := by
  -- the packet writes to the area through its writer only
  have hwritten := deliver_written h.alive hconfig
  have huploads : uploads none (steps ++ [.param d]) = uploads none steps := by
    rw [uploads_concat]
    exact List.append_nil _
  have hrun : (runSteps env s (steps ++ [.param d])).node =
      deliver env (runSteps env s steps).node d := by
    rw [runSteps_concat]
    rfl
  constructor
  · intro address haddress
    rw [runSteps_concat] at haddress
    exact h.conn_nonneg address haddress
  · rw [hrun]
    exact hwritten.alive.trans h.alive
  -- the byte comes from this packet, or it is still the one from before
  · intro j hj
    rw [hrun, hwritten.bytes j hj, h.bytes j hj, accesses_concat, lastWritten_append]
    show _ = (Option.or (lastWritten ((packetItems env d.packet d.uninit).flatMap Item.accesses) j)
      _).getD _
    cases lastWritten ((packetItems env d.packet d.uninit).flatMap Item.accesses) j <;> rfl
  -- this packet leaves no plain copy behind
  · obtain ⟨evs, htrace, hmemcpy⟩ := h.memcpys
    obtain ⟨evs', htrace', hno⟩ := hwritten.events
    refine ⟨evs ++ evs', by rw [hrun, htrace', htrace, List.append_assoc], fun off len => ?_⟩
    rw [List.mem_append, huploads, ← hmemcpy]
    exact or_iff_left fun hmem => hno _ hmem off len rfl
  · intro hfits
    rw [huploads] at hfits
    rw [hrun]
    exact deliver_mirrors hfiles (h.mirrors hfits) d

/-- A data packet of an upload. -/
theorem Tracks.data (hfiles : ∀ n, env.fopen n = true) (h : Tracks env s steps) {address : Int}
    (hconn : (runSteps env s steps).conn = some address) (bytes : List UInt8) :
    Tracks env s (steps ++ [.data bytes]) := by
  have haddress := h.conn_nonneg address hconn
  have hfold : steps.foldl Step.next none = some address := by
    rw [← runSteps_conn env s, hconn]
  have huploads : uploads none (steps ++ [.data bytes]) =
      uploads none steps ++ [⟨address, bytes⟩] := by
    rw [uploads_concat, hfold]
    rfl
  have haccesses : accesses env none (steps ++ [.data bytes]) =
      accesses env none steps ++ [⟨address, bytes⟩] := by
    rw [accesses_concat, hfold]
    rfl
  -- the connection is open and the process alive: the bytes are copied
  have hrun : (runSteps env s (steps ++ [.data bytes])).node =
      vmemMemcpy env (runSteps env s steps).node address bytes := by
    rw [runSteps_concat]
    show Step.serve env (runSteps env s steps).conn _ (.data bytes) = _
    rw [hconn]
    show (if (runSteps env s steps).node.dead then _ else _) = _
    rw [h.alive]
    rfl
  constructor
  -- the next packet goes behind this one
  · intro address' haddress'
    rw [runSteps_concat, Step.exec, hconn] at haddress'
    obtain rfl : address + bytes.length = address' := Option.some.inj haddress'
    omega
  · rw [hrun, (vmemMemcpy_frame env _ address bytes).2]
    exact h.alive
  · intro j hj
    rw [hrun, vmemMemcpy_byteAt env _ address bytes hj, h.bytes j hj, haccesses,
      lastWritten_append]
    have hlast : lastWritten [⟨address, bytes⟩] j = Access.byteAt ⟨address, bytes⟩ j := by
      simp [lastWritten]
    rw [hlast]
    cases Access.byteAt ⟨address, bytes⟩ j <;> rfl
  -- a plain copy exactly when the packet is not inside the area
  · obtain ⟨evs, htrace, hmemcpy⟩ := h.memcpys
    obtain ⟨evs', htrace', hcopy⟩ :=
      vmemMemcpy_events env (runSteps env s steps).node haddress bytes
    refine ⟨evs ++ evs', by rw [hrun, htrace', htrace, List.append_assoc], fun off len => ?_⟩
    rw [List.mem_append, huploads, hmemcpy, hcopy]
    simp only [List.mem_append, List.mem_singleton, or_and_right, exists_or, exists_eq_left]
  -- all packets were inside the area, this one and those before it
  · intro hfits
    rw [huploads] at hfits
    rw [hrun]
    apply vmemMemcpy_mirrors hfiles _ haddress
    · exact hfits _ (List.mem_append_right _ List.mem_cons_self)
    · exact h.mirrors fun a ha => hfits a (List.mem_append_left _ ha)

end Concat

/-- The area after any run: a step lemma for each kind of step, by induction along the run. -/
theorem Tracks.run {env : Env} (hfiles : ∀ n, env.fopen n = true) {s : State}
    (hs : s.dead = false) (hmirrors : FileMirrors s) {steps : List Step}
    (hconfig : ∀ step ∈ steps, step.ToConfig env) : Tracks env s steps := by
  induction steps using List.reverseRecOn with
  | nil =>
    constructor
    · intro address haddress
      cases haddress
    · exact hs
    · exact fun _ _ => rfl
    · exact ⟨[], (List.append_nil _).symm, by simp [uploads]⟩
    · exact fun _ => hmirrors
  | append_singleton steps step ih =>
    have h := ih fun st hst => hconfig st (List.mem_append_left _ hst)
    have hstep := hconfig step (List.mem_append_right _ List.mem_cons_self)
    cases step with
    | param d => exact h.param hfiles hstep
    | upload off =>
      -- an open connection keeps the address it has reached
      apply h.quiet rfl rfl rfl
      intro address haddress
      obtain rfl := Option.some.inj haddress
      cases hconn : (runSteps env s steps).conn with
      | none => exact Int.natCast_nonneg off
      | some a => exact h.conn_nonneg a hconn
    | data bytes =>
      cases hconn : (runSteps env s steps).conn with
      | none =>
        -- data without a request is not looked at
        apply h.quiet
        · rw [hconn]
          rfl
        · rw [hconn]
          rfl
        · rw [hconn]
          rfl
        · rw [hconn]
          intro address haddress
          cases haddress
      | some address => exact h.data hfiles hconn bytes
    | done =>
      apply h.quiet rfl rfl rfl
      intro address haddress
      cases haddress

/-! ## §8 Downloads -/

/-- A download inside the area reads it byte by byte. -/
theorem downloadLoop_flatten {env : Env} (hbuffers : ∀ n, env.cspBufferGet n = true)
    {active : Nat → Bool} (hactive : ∀ n, active n = true) (around : Int → UInt8) (s : State)
    {off len : Nat} (hin : off + len ≤ VMEM_CONFIG_SIZE) (fuel round : Nat) {count : Nat}
    (hcount : count ≤ len) (hfuel : len - count ≤ fuel) :
    (downloadLoop env active around s off len fuel round count).flatten =
      (List.range (len - count)).map fun k => s.vmemConfigBuf (off + count + k) := by
  induction fuel generalizing round count with
  | zero =>
    have hzero : len - count = 0 := Nat.le_zero.mp hfuel
    rw [hzero]
    rfl
  | succ fuel ih =>
    rw [downloadLoop]
    by_cases hmore : count < len
    · rw [if_pos ⟨hmore, hactive round⟩, if_pos (hbuffers _)]
      dsimp only
      generalize hsize : min VMEM_SERVER_MTU (len - count) = size
      have hpos : 0 < size := by
        rw [← hsize, VMEM_SERVER_MTU]
        omega
      have hle : size ≤ len - count := by
        rw [← hsize]
        exact min_le_right _ _
      have hread : vmemRead around s (off + count : Int) size =
          (List.range size).map fun k => s.vmemConfigBuf (off + count + k) := by
        have hstart : ((off + count : Int)).toNat = off + count := by omega
        rw [vmemRead, if_pos (by omega), hstart]
      -- The packet and the rest of the loop are two parts of the range.
      have hsplit : len - count = size + (len - (count + size)) := by omega
      rw [List.flatten_cons, hread, ih _ (by omega) (by omega), hsplit, List.range_add,
        List.map_append, List.map_map]
      congr 1
      apply List.map_congr_left
      intro k _
      show s.vmemConfigBuf (off + (count + size) + k) = s.vmemConfigBuf (off + count + (size + k))
      congr 1
      omega
    · have hzero : len - count = 0 := by omega
      rw [if_neg fun h => hmore h.1, hzero]
      rfl

theorem vmemDownload_flatten {env : Env} (hbuffers : ∀ n, env.cspBufferGet n = true)
    {active : Nat → Bool} (hactive : ∀ n, active n = true) (around : Int → UInt8) (s : State)
    {off len : Nat} (hin : off + len ≤ VMEM_CONFIG_SIZE) :
    (vmemDownload env active around s off len).flatten =
      (List.range len).map fun k => s.vmemConfigBuf (off + k) := by
  have h := downloadLoop_flatten hbuffers hactive around s hin len 0 (Nat.zero_le len)
    (Nat.sub_le len 0)
  rw [vmemDownload]
  simpa using h

/-! ## §9 The exact condition -/

/-- After a run, the file mirrors the area and nothing else was written if and only if the
    uploads of the run lie inside the area. -/
theorem Tracks.mirrored_iff {env : Env} {s : State} {steps : List Step}
    (h : Tracks env s steps) : Mirrored env s steps ↔ ∀ a ∈ uploads none steps, a.Fits := by
  obtain ⟨evs, htrace, hmemcpy⟩ := h.memcpys
  constructor
  · intro hmirrored a ha hne
    by_contra hout
    have hout : (VMEM_CONFIG_SIZE : Int) < a.off + a.bytes.length := not_le.mp hout
    have hcopied := (hmemcpy a.off a.bytes.length).mpr ⟨a, ha, rfl, rfl, hout⟩
    -- its last byte lies behind the area
    have hpos := List.length_pos_iff.mpr hne
    have hlast := hmirrored.outside evs htrace _ _ hcopied (a.off + a.bytes.length - 1)
      (by omega) (by omega)
    omega
  · intro hfits
    refine ⟨h.mirrors hfits, fun evs' htrace' off len hmem j hlo hhi => ?_, ?_⟩
    · obtain rfl := List.append_cancel_left (htrace.symm.trans htrace')
      obtain ⟨a, ha, rfl, rfl, hout⟩ := (hmemcpy off len).mp hmem
      have hne : a.bytes ≠ [] := by
        intro hempty
        rw [hempty] at hhi
        simp only [List.length_nil, Nat.cast_zero] at hhi
        omega
      exact absurd (hfits a ha hne) (not_le.mpr hout)
    · intro active around off len hactive hbuffers hin
      rw [vmemDownload_flatten hbuffers hactive around _ hin]
      apply List.map_congr_left
      intro k hk
      exact h.bytes (off + k) (by have := List.mem_range.mp hk; omega)

theorem paramSet_mirrors {env : Env} (hfiles : ∀ n, env.fopen n = true) {s : State} {p : Param}
    (value : Int) (h : FileMirrors s ∨ p.vmem = true) : FileMirrors (paramSet env s p value) :=
  paramSetArray_mirrors hfiles value (h.imp_right fun hvmem => ⟨hvmem, Nat.zero_le _⟩)

theorem suspendOnBootRead_mirrors {env : Env} (hfiles : ∀ n, env.fopen n = true) {s : State}
    (h : FileMirrors s) : FileMirrors (suspendOnBootRead env s).1 := by
  cases hflag : s.flagFile with
  | none =>
    simp only [suspendOnBootRead, State.emit, hflag, Option.isSome_none, Bool.false_eq_true,
      if_false]
    exact h.of_eq rfl rfl
  | some text =>
    simp only [suspendOnBootRead, State.emit, hflag, Option.isSome_some, if_true]
    exact paramSet_mirrors hfiles _ (.inr rfl)

theorem bootDecision_mirrors {env : Env} (hfiles : ∀ n, env.fopen n = true) {s : State}
    (h : FileMirrors s) : FileMirrors (bootDecision env s) := by
  have hread := suspendOnBootRead_mirrors hfiles h
  unfold bootDecision
  rcases hboot : suspendOnBootRead env s with ⟨s', paramVal⟩
  rw [hboot] at hread
  dsimp only
  split
  · exact hread.of_eq rfl rfl
  · exact hread

/-- `main` stores the default address, and with it the file. -/
theorem main_mirrors {env : Env} (hopen : env.canOpen = true) (hfiles : ∀ n, env.fopen n = true)
    (config : Option (List UInt8)) (file : Option (List Char)) :
    FileMirrors (main env (initialState config file)) := by
  generalize hs : initialState config file = s
  have hzero : paramGet s canAddr = 0 := by
    rw [← hs, paramGet_eq scalar_canAddr]
    show loadLE (fun _ => 0) 0x10 2 = 0
    decide
  have haddr : FileMirrors (defaultCanAddr env
      { s with canAddrVar := paramGet s canAddr, canNetmaskVar := paramGet s canNetmask }) := by
    rw [defaultCanAddr, if_pos hzero]
    exact paramSet_mirrors hfiles _ (.inr rfl)
  have hload : FileMirrors (loadCanConfig env s) := by
    rw [loadCanConfig, defaultCanNetmask]
    split
    · exact paramSet_mirrors hfiles _ (.inr rfl)
    · exact haddr
  have hopened : FileMirrors (canConfigured (canOpened (loadCanConfig env s))) := by
    rw [canConfigured, canOpened]
    exact (hload.emit _).emit _
  rw [main, if_pos hopen]
  exact bootDecision_mirrors hfiles hopened

/-- After the start of the program, the file mirrors the area and nothing else is written,
    whenever no upload is in progress, if and only if no upload that is over went beyond the
    end of the area. -/
theorem configMirrored_iff {env : Env} (hopen : env.canOpen = true)
    (hfiles : ∀ n, env.fopen n = true) (config : Option (List UInt8)) (file : Option (List Char))
    {steps : List Step} (hconfig : ∀ step ∈ steps, step.ToConfig env) :
    (∀ front, front <+: steps →
      (runSteps env (main env (initialState config file)) front).conn = none →
        Mirrored env (main env (initialState config file)) front) ↔
      ∀ front, front <+: steps → front.foldl Step.next none = none →
        ∀ a ∈ uploads none front, a.Fits := by
  have hdead := (main_flag hopen (initialState config file)).2.2
  have htracks : ∀ front, front <+: steps →
      Tracks env (main env (initialState config file)) front := fun front hfront =>
    Tracks.run hfiles hdead (main_mirrors hopen hfiles config file) fun step hstep =>
      hconfig step (hfront.subset hstep)
  constructor
  · intro h front hfront hidle
    rw [← runSteps_conn env (main env (initialState config file))] at hidle
    exact (htracks front hfront).mirrored_iff.mp (h front hfront hidle)
  · intro h front hfront hidle
    rw [runSteps_conn] at hidle
    exact (htracks front hfront).mirrored_iff.mpr (h front hfront hidle)

theorem netmaskPush_fits : ([2, 0, 22, 9] : List UInt8).length ≤ CSP_BUFFER_SIZE := by
  decide

/-- An upload of four bytes in two packets, with a push of `can_netmask = 9` between them. -/
def fittingUpload : List Step :=
  [.upload 996, .data [1, 2], .param (deliveryOf [2, 0, 22, 9] netmaskPush_fits), .data [3, 4],
    .done]

theorem fittingUpload_toConfig : ∀ step ∈ fittingUpload, step.ToConfig plainEnv := by
  have hpush : ∀ item ∈ packetItems plainEnv (deliveryOf [2, 0, 22, 9] netmaskPush_fits).packet
      (deliveryOf [2, 0, 22, 9] netmaskPush_fits).uninit, item.ForConfig := by
    decide +kernel
  intro step hstep
  simp only [fittingUpload, List.mem_cons, List.not_mem_nil, or_false] at hstep
  rcases hstep with rfl | rfl | rfl | rfl | rfl
  · exact (by decide : 996 < VMEM_CONFIG_SIZE)
  · trivial
  · exact hpush
  · trivial
  · trivial

theorem configMirrored_iff_fitting :
    Mirrored plainEnv (main plainEnv (initialState none none)) fittingUpload := by
  apply (configMirrored_iff rfl plainEnv_fopen none none fittingUpload_toConfig).mpr
  · intro front hfront _ a ha _
    have hall : ∀ front ∈ fittingUpload.inits, ∀ a ∈ uploads none front,
        a.off + a.bytes.length ≤ VMEM_CONFIG_SIZE := by
      simp [fittingUpload, uploads, Step.uploaded, Step.next, VMEM_CONFIG_SIZE]
    exact hall front ((List.mem_inits _ _).mpr hfront) a ha
  · exact List.prefix_refl _
  · rw [runSteps_conn]
    rfl

/-- A single packet that straddles the end of the area: its first byte is in the area and not in
    the file. -/
theorem straddlingUpload_differs :
    ¬ Mirrored plainEnv (main plainEnv (initialState none none))
      [.upload 999, .data [1, 2], .done] := by
  intro h
  have halive : (main plainEnv (initialState none none)).dead = false :=
    (main_flag rfl (initialState none none)).2.2
  have hbefore : FileMirrors (main plainEnv (initialState none none)) :=
    main_mirrors rfl plainEnv_fopen none none
  have hzero : (main plainEnv (initialState none none)).vmemConfigBuf 999 = 0 := by
    decide +kernel
  have hfile := h.file
  generalize main plainEnv (initialState none none) = s at *
  have hrun : (runSteps plainEnv s [.upload 999, .data [1, 2], .done]).node =
      vmemMemcpy plainEnv s 999 [1, 2] := by
    show (if s.dead then s else vmemMemcpy plainEnv s 999 [1, 2]) = _
    rw [halive]
    rfl
  -- the packet goes past the writer of the area
  have hcopy : vmemMemcpy plainEnv s 999 [1, 2] =
      { s with vmemConfigBuf := patch s.vmemConfigBuf 999 [1, 2] }.emit (.memcpy 999 2) := by
    rw [vmemMemcpy, if_neg (by decide)]
    rfl
  rw [hrun, hcopy] at hfile
  have hlists := Option.some.inj (hbefore.symm.trans hfile)
  have hbyte := List.map_inj_left.mp hlists 999 (by simp [VMEM_CONFIG_SIZE])
  have hone : patch s.vmemConfigBuf 999 [1, 2] 999 = 1 := by
    simp [patch, VMEM_CONFIG_SIZE]
  have hsame : (0 : UInt8) = 1 := hzero.symm.trans (hbyte.trans hone)
  exact absurd hsame (by decide)

end AppSysManager.Server
