import AppSysManager.Node.Log

/-!
# The Last Characters Printed

However a text is cut into calls of `csp_print_func`, the ring keeps the end of it.

- `Remembers ring history`: the write position is the length of the history modulo the size
  of the ring, and the ring, oldest cell first, is the end of the history.  Any number of
  writes keeps this (`Remembers.putAll`).
- `HoldsLast s history`: `_stdbuf` is the terminated copy of that.
- `fgetsLines` is how the callbacks cut the output of a command; `flatten_fgetsLines` says that
  nothing is lost at the cuts.
- `stdbuf_lastChars` is the result for any number of prints.
-/

namespace AppSysManager.Node

open AppSysManager.Bytes

/-! ## §1 The ring and what has been printed -/

/-- The cells a program starts with, and everything printed since. -/
def logHistory (history : List UInt8) : List UInt8 := List.replicate STDBUF_SIZE 0 ++ history

theorem logHistory_append (history text : List UInt8) :
    logHistory (history ++ text) = logHistory history ++ text := by
  unfold logHistory
  rw [List.append_assoc]

/-- The end of a text that grows: new characters push the oldest ones out. -/
theorem lastChars_append {k : Nat} {text : List UInt8} (h : k ≤ text.length)
    (more : List UInt8) :
    lastChars k (text ++ more) = (lastChars k text ++ more).drop more.length := by
  have hle : text.length - k ≤ text.length := Nat.sub_le _ _
  unfold lastChars
  rw [← List.drop_append_of_le_length hle, List.drop_drop, List.length_append]
  congr 1
  omega

/-- The ring holds the end of the history, and is next written where the history's length
    leads to. -/
structure Remembers (ring : RingBuffer UInt8) (history : List UInt8) : Prop where
  pos : ring.pos = history.length % STDBUF_SIZE
  cells : ring.toList STDBUF_SIZE = lastChars STDBUF_SIZE (logHistory history)

theorem Remembers.pos_lt {ring : RingBuffer UInt8} {history : List UInt8}
    (h : Remembers ring history) : ring.pos < STDBUF_SIZE := by
  rw [h.pos]
  exact Nat.mod_lt _ (by decide)

/-- A text of any length: the ring may be overwritten several times. -/
theorem Remembers.putAll {ring : RingBuffer UInt8} {history : List UInt8}
    (h : Remembers ring history) (text : List UInt8) :
    Remembers (ring.putAll STDBUF_SIZE text) (history ++ text) where
  pos := by
    rw [RingBuffer.putAll_pos h.pos_lt, h.pos, Nat.mod_add_mod, List.length_append]
  cells := by
    have hlong : STDBUF_SIZE ≤ (logHistory history).length := by simp [logHistory]
    rw [RingBuffer.toList_putAll (by decide) h.pos_lt, h.cells, logHistory_append,
      lastChars_append hlong]

theorem EmptyRing.remembers {s : State} (h : EmptyRing s) : Remembers s.log.ring [] where
  pos := h.stdbufPos
  cells := by
    rw [h.toList, logHistory, List.append_nil, lastChars, List.length_replicate, Nat.sub_self,
      List.drop_zero]

/-! ## §2 Prints -/

/-- A number of rounds of the copy loop. -/
theorem Remembers.copyLoop {s : State} {history : List UInt8}
    (h : Remembers s.log.ring history) (text : List UInt8) :
    Remembers (text.foldl stdbufPut s).log.ring (history ++ text) := by
  rw [foldl_stdbufPut]
  exact h.putAll text

/-- A number of prints. -/
theorem Remembers.printAll {s : State} {history : List UInt8} (h : Remembers s.log.ring history)
    (env : Env) {texts : List (List UInt8)} (htexts : ∀ t ∈ texts, Printable t) :
    Remembers (cspPrintAll env s texts).log.ring (history ++ texts.flatten) := by
  rw [cspPrintAll_ring env s htexts]
  exact h.putAll texts.flatten

/-- The node in the middle of the prints: `k` calls are over, and the copy loop of the next one
    has made `c` rounds. -/
def printing (env : Env) (s : State) (texts : List (List UInt8)) (k c : Nat) : State :=
  ((printed (texts.getD k [])).take c).foldl stdbufPut (cspPrintAll env s (texts.take k))

/-- The write position never leaves the ring. -/
theorem printing_stdbufPos_lt (env : Env) {s : State} (hs : EmptyRing s)
    {texts : List (List UInt8)} (h : ∀ t ∈ texts, Printable t) (k c : Nat) :
    (printing env s texts k c).stdbufPos < STDBUF_SIZE := by
  have htaken : ∀ t ∈ texts.take k, Printable t := fun t ht => h t (List.mem_of_mem_take ht)
  have hcalls := hs.remembers.printAll env htaken
  exact (hcalls.copyLoop _).pos_lt

/-! ## §3 The copy -/

/-- `_stdbuf` holds the last characters of the history, and a terminator behind them. -/
structure HoldsLast (s : State) (history : List UInt8) : Prop where
  chars : (List.range STDBUF_SIZE).map (s.ram .stdoutBuf) =
    lastChars STDBUF_SIZE (logHistory history)
  terminator : s.ram .stdoutBuf STDBUF_SIZE = 0

/-- The history alone decides what `_stdbuf` holds. -/
theorem HoldsLast.unique {s s' : State} {history : List UInt8} (h : HoldsLast s history)
    (h' : HoldsLast s' history) {j : Nat} (hj : j ≤ STDBUF_SIZE) :
    s.ram .stdoutBuf j = s'.ram .stdoutBuf j := by
  rcases Nat.lt_or_eq_of_le hj with hlt | rfl
  · have hsame := h.chars.trans h'.chars.symm
    exact List.map_inj_left.mp hsame j (List.mem_range.mpr hlt)
  · rw [h.terminator, h'.terminator]

/-- After any number of prints but none, `_stdbuf` holds the end of what was printed. -/
theorem Remembers.holdsLast {s : State} {history : List UInt8}
    (h : Remembers s.log.ring history) (env : Env) {texts : List (List UInt8)}
    (htexts : ∀ t ∈ texts, Printable t) (hne : texts ≠ []) :
    HoldsLast (cspPrintAll env s texts) (history ++ texts.flatten) := by
  have hdata := paramGetData_cspPrintAll env s hne
  have hsize : stdoutBuf.arraySize = STDBUF_SIZE + 1 := rfl
  rw [(h.printAll env htexts).cells, paramGetData, hsize, List.range_succ, List.map_append] at hdata
  -- the last of the bytes is the terminator
  obtain ⟨hchars, hterminator⟩ := List.append_inj' hdata rfl
  exact ⟨hchars, List.singleton_inj.mp hterminator⟩

/-! ## §4 The output of a command -/

/-- The characters `fgets` takes from a stream when there is room for `room` of them, and what
    is left of the stream.  It stops behind a newline. -/
def fgetsChars : Nat → List UInt8 → List UInt8 × List UInt8
  | 0, stream => ([], stream)
  | _ + 1, [] => ([], [])
  | room + 1, c :: stream =>
    if c = 10 then ([c], stream)
    else (c :: (fgetsChars room stream).1, (fgetsChars room stream).2)

/-- `fgets` with a buffer of `size` bytes, one of them for the terminator; `none` is the `NULL`
    at the end of the stream. -/
def fgets (size : Nat) (stream : List UInt8) : Option (List UInt8 × List UInt8) :=
  if stream = [] then none else some (fgetsChars (size - 1) stream)

/-- `while (fgets(buffer, size, fp) != NULL)`: the lines, in the order in which they come. -/
def fgetsLoop (size : Nat) : Nat → List UInt8 → List (List UInt8)
  | 0, _ => []
  | fuel + 1, stream =>
    match fgets size stream with
    | none => []
    | some (line, rest) => line :: fgetsLoop size fuel rest

/-- All lines of a stream: no more of them than it has characters. -/
def fgetsLines (size : Nat) (stream : List UInt8) : List (List UInt8) :=
  fgetsLoop size stream.length stream

/-- `sizeof(buffer)-1` in `vimba_install_callback` and its siblings. -/
def LINE_SIZE : Nat := 127

theorem fgetsChars_append (room : Nat) (stream : List UInt8) :
    (fgetsChars room stream).1 ++ (fgetsChars room stream).2 = stream := by
  fun_induction fgetsChars room stream with
  | case1 stream => rfl
  | case2 room => rfl
  | case3 room stream => rfl
  | case4 room c stream hc ih => rw [List.cons_append, ih]

theorem fgetsChars_length_le (room : Nat) (stream : List UInt8) :
    (fgetsChars room stream).1.length ≤ room := by
  fun_induction fgetsChars room stream with
  | case1 stream => exact Nat.le_refl 0
  | case2 room => exact Nat.zero_le _
  | case3 room stream => exact Nat.succ_le_succ (Nat.zero_le room)
  | case4 room c stream hc ih => exact Nat.succ_le_succ ih

/-- A line is not empty unless the stream is. -/
theorem fgetsChars_length_pos {room : Nat} (hroom : 0 < room) {stream : List UInt8}
    (hstream : stream ≠ []) : 0 < (fgetsChars room stream).1.length := by
  obtain ⟨room, rfl⟩ := Nat.exists_eq_succ_of_ne_zero hroom.ne'
  cases stream with
  | nil => exact absurd rfl hstream
  | cons c stream =>
    unfold fgetsChars
    split
    · exact Nat.one_pos
    · exact Nat.succ_pos _

/-- What each call of the loop leaves behind. -/
theorem fgetsLoop_cons {size : Nat} {stream : List UInt8} (hstream : stream ≠ []) (fuel : Nat) :
    fgetsLoop size (fuel + 1) stream =
      (fgetsChars (size - 1) stream).1 :: fgetsLoop size fuel (fgetsChars (size - 1) stream).2 := by
  simp only [fgetsLoop, fgets, if_neg hstream]

/-- The loop loses no character and makes none up. -/
theorem flatten_fgetsLoop {size : Nat} (hsize : 2 ≤ size) (fuel : Nat) {stream : List UInt8}
    (hfuel : stream.length ≤ fuel) : (fgetsLoop size fuel stream).flatten = stream := by
  induction fuel generalizing stream with
  | zero => exact (List.length_eq_zero_iff.mp (Nat.le_zero.mp hfuel)).symm
  | succ fuel ih =>
    by_cases hstream : stream = []
    · subst hstream
      rfl
    · have happend := fgetsChars_append (size - 1) stream
      have hpos := fgetsChars_length_pos (by omega : 0 < size - 1) hstream
      -- at least one character has been consumed
      have hrest : (fgetsChars (size - 1) stream).2.length ≤ fuel := by
        have hlength := congrArg List.length happend
        rw [List.length_append] at hlength
        omega
      rw [fgetsLoop_cons hstream, List.flatten_cons, ih hrest, happend]

/-- No line is longer than the buffer has room for. -/
theorem length_le_of_mem_fgetsLoop {size : Nat} (fuel : Nat) {stream line : List UInt8}
    (h : line ∈ fgetsLoop size fuel stream) : line.length ≤ size - 1 := by
  induction fuel generalizing stream with
  | zero => exact absurd h List.not_mem_nil
  | succ fuel ih =>
    by_cases hstream : stream = []
    · subst hstream
      exact absurd h List.not_mem_nil
    · rw [fgetsLoop_cons hstream] at h
      rcases List.mem_cons.mp h with rfl | hrest
      · exact fgetsChars_length_le _ _
      · exact ih hrest

/-- The lines put together again are the stream. -/
theorem flatten_fgetsLines {size : Nat} (hsize : 2 ≤ size) (stream : List UInt8) :
    (fgetsLines size stream).flatten = stream :=
  flatten_fgetsLoop hsize _ (Nat.le_refl _)

/-- Each line of a text without NULs can be printed. -/
theorem fgetsLines_printable {stream : List UInt8} (h : ∀ c ∈ stream, c ≠ 0) :
    ∀ line ∈ fgetsLines LINE_SIZE stream, Printable line := by
  intro line hline
  refine ⟨?_, ?_⟩
  · intro c hc
    have hmem : c ∈ (fgetsLines LINE_SIZE stream).flatten :=
      List.mem_flatten.mpr ⟨line, hline, hc⟩
    rw [flatten_fgetsLines (by decide)] at hmem
    exact h c hmem
  · have hle := length_le_of_mem_fgetsLoop _ hline
    exact hle.trans (by decide)

/-- Lines without NULs are printed as they are. -/
theorem printLines_eq (env : Env) (s : State) {lines : List (List UInt8)}
    (h : ∀ line ∈ lines, Printable line) : printLines env s lines = cspPrintAll env s lines := by
  unfold printLines cspPrintAll
  apply List.foldl_ext
  intro s line hline
  rw [cString_of_printable (h line hline)]

theorem cspPrintAll_popens (env : Env) (s : State) (texts : List (List UInt8)) :
    (cspPrintAll env s texts).popens = s.popens := by
  induction texts generalizing s with
  | nil => rfl
  | cons t texts ih =>
    show (cspPrintAll env (cspPrintFunc env s t) texts).popens = s.popens
    rw [ih, cspPrintFunc_eq]

/-- The output of the installer is printed behind what was printed before. -/
theorem vimbaInstallCallback_eq {env : Env} {s : State} {output : List UInt8}
    (hpopen : env.popen s.popens = some (fgetsLines LINE_SIZE output))
    (h : ∀ c ∈ output, c ≠ 0) :
    vimbaInstallCallback env s =
      cspPrintAll env (popen env s .vimbaInstall).1 (fgetsLines LINE_SIZE output) := by
  rw [← printLines_eq env _ (fgetsLines_printable h)]
  unfold vimbaInstallCallback
  simp only [popen, hpopen]

/-! ## §5 Any number of prints -/

/-- There is a copy to look at: something was printed, or `_stdbuf` is as the program was
    loaded. -/
def HasCopy (s : State) (texts : List (List UInt8)) : Prop := texts ≠ [] ∨ HoldsLast s []

theorem cspPrintAll_holdsLast (env : Env) {s : State} (hs : EmptyRing s)
    {texts : List (List UInt8)} (h : ∀ t ∈ texts, Printable t) (hcopy : HasCopy s texts) :
    HoldsLast (cspPrintAll env s texts) texts.flatten := by
  by_cases hne : texts = []
  · subst hne
    exact hcopy.resolve_left (fun h => h rfl)
  · exact hs.remembers.holdsLast env h hne

/-- The write position stays inside the ring at every moment; `_stdbuf` holds the last characters
    of everything printed, with a terminator behind them; how the text was cut into calls makes
    no difference to it, and in particular not how `fgets` cuts the output of the installer. -/
theorem stdbuf_lastChars (env : Env) {s : State} (hs : EmptyRing s)
    {texts : List (List UInt8)} (h : ∀ t ∈ texts, Printable t) :
    (∀ k c, (printing env s texts k c).stdbufPos < STDBUF_SIZE) ∧
    (HasCopy s texts → HoldsLast (cspPrintAll env s texts) texts.flatten) ∧
    (∀ env' s' texts', EmptyRing s' → (∀ t ∈ texts', Printable t) → HasCopy s texts →
      HasCopy s' texts' → texts'.flatten = texts.flatten → ∀ j ≤ STDBUF_SIZE,
        (cspPrintAll env' s' texts').ram .stdoutBuf j =
          (cspPrintAll env s texts).ram .stdoutBuf j) ∧
    (∀ output, (∀ c ∈ output, c ≠ 0) → output ≠ [] →
      env.popen s.popens = some (fgetsLines LINE_SIZE output) →
        HoldsLast (vimbaInstallCallback env (cspPrintAll env s texts))
          (texts.flatten ++ output)) := by
  refine ⟨printing_stdbufPos_lt env hs h, cspPrintAll_holdsLast env hs h, ?_, ?_⟩
  · intro env' s' texts' hs' h' hcopy hcopy' hflatten j hj
    have hlast := cspPrintAll_holdsLast env hs h hcopy
    have hlast' := cspPrintAll_holdsLast env' hs' h' hcopy'
    rw [hflatten] at hlast'
    exact hlast'.unique hlast hj
  · intro output houtput hne hpopen
    have hbefore : Remembers (cspPrintAll env s texts).log.ring texts.flatten :=
      hs.remembers.printAll env h
    have hlines : fgetsLines LINE_SIZE output ≠ [] := by
      intro hnil
      apply hne
      rw [← flatten_fgetsLines (by decide : 2 ≤ LINE_SIZE) output, hnil]
      rfl
    rw [← cspPrintAll_popens env s texts] at hpopen
    rw [vimbaInstallCallback_eq hpopen houtput]
    -- `popen` itself leaves the ring alone
    have hopened : Remembers (popen env (cspPrintAll env s texts) .vimbaInstall).1.log.ring
        texts.flatten := hbefore
    have hlast := hopened.holdsLast env (fgetsLines_printable houtput) hlines
    rwa [flatten_fgetsLines (by decide)] at hlast

/-- The installer says two lines. -/
def talkingEnv : Env :=
  { plainEnv with popen := fun _ => some (fgetsLines LINE_SIZE [104, 105, 10, 111, 107, 10]) }

/-- Two texts, the second one longer than the ring, and then the installer. -/
theorem stdbuf_lastChars_wrapped :
    EmptyRing (initialState none none) ∧
    (∀ t ∈ [[72, 105], List.replicate 200 (65 : UInt8)], Printable t) ∧
    HoldsLast
      (cspPrintAll talkingEnv (initialState none none) [[72, 105], List.replicate 200 65])
      (72 :: 105 :: List.replicate 200 65) ∧
    HoldsLast
      (vimbaInstallCallback talkingEnv
        (cspPrintAll talkingEnv (initialState none none) [[72, 105], List.replicate 200 65]))
      (72 :: 105 :: List.replicate 200 65 ++ [104, 105, 10, 111, 107, 10]) := by
  have hfresh : EmptyRing (initialState none none) := ⟨fun _ _ => rfl, rfl⟩
  have htexts : ∀ t ∈ [[72, 105], List.replicate 200 (65 : UInt8)], Printable t := by
    intro t ht
    rcases List.mem_pair.mp ht with rfl | rfl
    · exact ⟨by simp, by decide⟩
    · refine ⟨fun c hc => ?_, ?_⟩
      · rw [List.eq_of_mem_replicate hc]
        decide
      · rw [List.length_replicate]
        decide
  have hflatten : [[72, 105], List.replicate 200 (65 : UInt8)].flatten =
      72 :: 105 :: List.replicate 200 65 := by simp
  obtain ⟨-, hlast, -, hinstall⟩ := stdbuf_lastChars talkingEnv hfresh htexts
  rw [hflatten] at hlast hinstall
  exact ⟨hfresh, htexts, hlast (.inl (List.cons_ne_nil _ _)),
    hinstall _ (by simp) (List.cons_ne_nil _ _) rfl⟩

end AppSysManager.Node
