import AppSysManager.Bytes.RingBuffer
import AppSysManager.Node.State
import Mathlib.Data.List.TakeWhile

/-!
# The Standard Output Log

`csp_print_func` keeps the last `STDBUF_SIZE` characters in the ring `tmpbuf` and copies
the ring, oldest character first, to `_stdbuf`, which is what a pull of `stdout_buf`
returns.

- `Log` is the part of the node that `csp_print_func` works on; `Log.print` is what one
  call does to it, and `cspPrintFunc_eq` connects the two.
- `stdoutString_prints_iff` says exactly after which prints a pull shows the end of the
  log.
-/

namespace AppSysManager.Node

open AppSysManager.Bytes

/-! ## §1 What a print does -/

/-- The ring `tmpbuf` / `stdbuf_pos` and its linear copy `_stdbuf`. -/
@[ext]
structure Log where
  ring : RingBuffer UInt8
  stdbuf : Nat → UInt8

/-- The log of a node. -/
def State.log (s : State) : Log :=
  { ring := { cells := s.tmpbuf, pos := s.stdbufPos }, stdbuf := s.ram .stdoutBuf }

/-- `_stdbuf` after the ring has been copied to it and terminated. -/
def linearCopy (ring : RingBuffer UInt8) (stdbuf : Nat → UInt8) : Nat → UInt8 := fun j =>
  if j < STDBUF_SIZE then ring.cells ((ring.pos + j) % STDBUF_SIZE)
  else if j = STDBUF_SIZE then 0
  else stdbuf j

/-- The log after one print of `text`. -/
def Log.print (l : Log) (text : List UInt8) : Log :=
  let ring := l.ring.putAll STDBUF_SIZE text
  { ring, stdbuf := linearCopy ring l.stdbuf }

/-- The bytes `csp_print_func` keeps of a text: `vsnprintf` cuts it at 255 bytes. -/
def printed (text : List UInt8) : List UInt8 := cString (text.take 255)

/-- The events of one print.  The last two are the stores of `param_set_string`, whose
    terminator lands behind the `STDBUF_SIZE + 1` bytes it is given. -/
def printEvents (text : List UInt8) : List Event :=
  [.print text, .store .stdoutBuf 0 STDBUF_SIZE, .store .stdoutBuf STDBUF_SIZE 1,
    .store .stdoutBuf 0 (STDBUF_SIZE + 1), .store .stdoutBuf (STDBUF_SIZE + 1) 1]

/-- The copy loop writes the text to the ring. -/
theorem foldl_stdbufPut (s : State) (text : List UInt8) :
    text.foldl stdbufPut s =
      { s with
        tmpbuf := (s.log.ring.putAll STDBUF_SIZE text).cells
        stdbufPos := (s.log.ring.putAll STDBUF_SIZE text).pos } := by
  induction text generalizing s with
  | nil => rfl
  | cons c text ih =>
    rw [List.foldl_cons, ih, RingBuffer.putAll_cons]
    rfl

/-- A RAM parameter is written in its own object and nowhere else. -/
theorem paramWrite_ram {p : Param} (h : p.vmem = false) (env : Env) (s : State) (off len : Nat)
    (src : Nat → UInt8) :
    paramWrite env s p off len src =
      { s with
        ram := Function.update s.ram p.name (overwrite p.name.storage (s.ram p.name) off len src)
        trace := s.trace ++ [.store p.name off len] } := by
  simp [paramWrite, h, ramWrite, State.emit]

/-- The four stores of one print leave the terminated copy of the ring in `_stdbuf`. -/
private theorem stdbuf_stores (ring : RingBuffer UInt8) (stdbuf : Nat → UInt8) :
    let copy := fun i => ring.cells ((ring.pos + i) % STDBUF_SIZE)
    let zero := fun _ => (0 : UInt8)
    let b := overwrite (STDBUF_SIZE + 1) (overwrite (STDBUF_SIZE + 1) stdbuf 0 STDBUF_SIZE copy)
      STDBUF_SIZE 1 zero
    overwrite (STDBUF_SIZE + 1) (overwrite (STDBUF_SIZE + 1) b 0 (STDBUF_SIZE + 1) b)
      (STDBUF_SIZE + 1) 1 zero = linearCopy ring stdbuf := by
  funext j
  simp only [overwrite, linearCopy, STDBUF_SIZE]
  rcases Nat.lt_trichotomy j 110 with hlt | heq | hgt
  · simp [hlt, Nat.lt_of_lt_of_le hlt, Nat.not_le.mpr hlt, show ¬ 111 ≤ j by omega]
  · simp [heq]
  · simp [show ¬ j < 110 by omega, show ¬ j < 111 by omega, show ¬ j = 110 by omega]

/-- What one print does to the node. -/
theorem cspPrintFunc_eq (env : Env) (s : State) (text : List UInt8) :
    cspPrintFunc env s text =
      { s with
        tmpbuf := (s.log.print (printed text)).ring.cells
        stdbufPos := (s.log.print (printed text)).ring.pos
        ram := Function.update s.ram .stdoutBuf (s.log.print (printed text)).stdbuf
        trace := s.trace ++ printEvents (printed text) } := by
  have hname : stdoutBuf.name = .stdoutBuf := rfl
  have hram : stdoutBuf.vmem = false := rfl
  simp only [cspPrintFunc, paramSetStringNoCallback, paramWrite_ram hram, foldl_stdbufPut,
    State.emit, hname, Function.update_self, Function.update_idem, ParamName.storage]
  have hcopy := stdbuf_stores ((s.log).ring.putAll STDBUF_SIZE (printed text)) (s.ram .stdoutBuf)
  simp only at hcopy
  rw [State.mk.injEq]
  refine ⟨?_, rfl, rfl, rfl, rfl, rfl, rfl, rfl, rfl, rfl, rfl, rfl, rfl, ?_⟩
  · exact congrArg (Function.update s.ram .stdoutBuf) hcopy
  · simp [printEvents, printed]

/-- A print does to the log of the node what `Log.print` says. -/
theorem cspPrintFunc_log (env : Env) (s : State) (text : List UInt8) :
    (cspPrintFunc env s text).log = s.log.print (printed text) := by
  rw [cspPrintFunc_eq]
  simp [State.log]

/-! ## §2 What a pull of `stdout_buf` shows -/

/-- The string a pull of `stdout_buf` returns. -/
def stdoutString (s : State) : List UInt8 := cString (paramGetData s stdoutBuf stdoutBuf.arraySize)

/-- The last `k` characters of a text. -/
def lastChars (k : Nat) (text : List UInt8) : List UInt8 := text.drop (text.length - k)

/-- A number of calls of `csp_print_func`. -/
def cspPrintAll (env : Env) (s : State) (texts : List (List UInt8)) : State :=
  texts.foldl (cspPrintFunc env) s

/-- The texts `csp_print_func` is called with here: no NUL, at most 255 characters. -/
def Printable (text : List UInt8) : Prop := (∀ c ∈ text, c ≠ 0) ∧ text.length ≤ 255

theorem cString_of_printable {text : List UInt8} (h : Printable text) : cString text = text := by
  rw [cString, List.takeWhile_eq_self_iff]
  intro c hc
  simpa using h.1 c hc

theorem printed_of_printable {text : List UInt8} (h : Printable text) : printed text = text := by
  rw [printed, List.take_of_length_le h.2, cString_of_printable h]

/-- A number of prints: the ring has received all of the texts. -/
theorem foldl_print_ring (l : Log) (texts : List (List UInt8)) :
    (texts.foldl Log.print l).ring = l.ring.putAll STDBUF_SIZE texts.flatten := by
  induction texts generalizing l with
  | nil => rfl
  | cons t texts ih =>
    rw [List.foldl_cons, ih, List.flatten_cons, RingBuffer.putAll_append]
    rfl

theorem cspPrintAll_log (env : Env) (s : State) (texts : List (List UInt8)) :
    (cspPrintAll env s texts).log = (texts.map printed).foldl Log.print s.log := by
  rw [List.foldl_map]
  exact (List.foldl_hom State.log fun s t => (cspPrintFunc_log env s t).symm).symm

/-- The log after any number of calls. -/
theorem cspPrintAll_ring (env : Env) (s : State) {texts : List (List UInt8)}
    (h : ∀ t ∈ texts, Printable t) :
    (cspPrintAll env s texts).log.ring = s.log.ring.putAll STDBUF_SIZE texts.flatten := by
  have hprinted : texts.map printed = texts.map id :=
    List.map_congr_left fun t ht => printed_of_printable (h t ht)
  rw [cspPrintAll_log, hprinted, List.map_id, foldl_print_ring]

/-- After at least one print, `_stdbuf` is the terminated copy of the ring. -/
theorem paramGetData_cspPrintAll (env : Env) (s : State) {texts : List (List UInt8)}
    (hne : texts ≠ []) :
    paramGetData (cspPrintAll env s texts) stdoutBuf stdoutBuf.arraySize =
      (cspPrintAll env s texts).log.ring.toList STDBUF_SIZE ++ [0] := by
  obtain ⟨init, last, rfl⟩ : ∃ init last, texts = init ++ [last] :=
    ⟨texts.dropLast, texts.getLast hne, (List.dropLast_append_getLast hne).symm⟩
  have hlast : cspPrintAll env s (init ++ [last]) =
      cspPrintFunc env (cspPrintAll env s init) last := by
    simp [cspPrintAll, List.foldl_append]
  have hsize : stdoutBuf.arraySize = STDBUF_SIZE + 1 := rfl
  rw [hlast, cspPrintFunc_log, hsize, paramGetData, List.range_succ, List.map_append,
    RingBuffer.toList, cspPrintFunc_eq]
  refine congrArg₂ (· ++ ·) (List.map_congr_left ?_) ?_
  · intro j hj
    rw [List.mem_range] at hj
    simp [Log.print, linearCopy, hj, stdoutBuf, paramDefineStaticRam]
  · simp [Log.print, linearCopy, stdoutBuf, paramDefineStaticRam]

/-- The ring of a program that has not printed anything yet. -/
structure EmptyRing (s : State) : Prop where
  tmpbuf : ∀ i < STDBUF_SIZE, s.tmpbuf i = 0
  stdbufPos : s.stdbufPos = 0

theorem EmptyRing.toList {s : State} (h : EmptyRing s) :
    s.log.ring.toList STDBUF_SIZE = List.replicate STDBUF_SIZE 0 := by
  rw [List.eq_replicate_iff]
  refine ⟨by simp, ?_⟩
  intro b hb
  simp only [RingBuffer.toList, List.mem_map] at hb
  obtain ⟨i, -, rfl⟩ := hb
  exact h.tmpbuf _ (Nat.mod_lt _ (by decide))

/-- The ring of a fresh program holds zeros only. -/
structure FreshLog (s : State) : Prop where
  tmpbuf : ∀ i, s.tmpbuf i = 0
  stdbufPos : s.stdbufPos = 0
  stdbuf : ∀ i, s.ram .stdoutBuf i = 0

theorem FreshLog.emptyRing {s : State} (h : FreshLog s) : EmptyRing s :=
  ⟨fun i _ => h.tmpbuf i, h.stdbufPos⟩

/-- The bytes a pull reads after the prints: what is left of the initial zeros, then the end
    of the log, then the terminator. -/
theorem paramGetData_of_fresh {env : Env} {s : State} (hs : FreshLog s)
    {texts : List (List UInt8)} (h : ∀ t ∈ texts, Printable t) (hne : texts ≠ []) :
    paramGetData (cspPrintAll env s texts) stdoutBuf stdoutBuf.arraySize =
      List.replicate (STDBUF_SIZE - texts.flatten.length) 0 ++
        lastChars STDBUF_SIZE texts.flatten ++ [0] := by
  have hpos : s.log.ring.pos < STDBUF_SIZE := by
    show s.stdbufPos < STDBUF_SIZE
    rw [hs.stdbufPos]; decide
  rw [paramGetData_cspPrintAll env s hne, cspPrintAll_ring env s h,
    RingBuffer.toList_putAll (by decide) hpos, hs.emptyRing.toList, List.drop_append, List.drop_replicate,
    List.length_replicate, lastChars]

private theorem cString_append_zero {text rest : List UInt8} (h : ∀ c ∈ text, c ≠ 0) :
    cString (text ++ 0 :: rest) = text := by
  rw [cString, List.takeWhile_append_of_pos]
  · simp
  · intro c hc
    simpa using h c hc

theorem flatten_no_nul {texts : List (List UInt8)} (h : ∀ t ∈ texts, Printable t) :
    ∀ c ∈ texts.flatten, c ≠ 0 := by
  intro c hc
  obtain ⟨t, ht, hct⟩ := List.mem_flatten.mp hc
  exact (h t ht).1 c hct

/-- A pull of `stdout_buf` shows the end of the log as soon as the ring is full, and nothing
    at all before that: the copy then starts with a NUL that was never overwritten. -/
theorem stdoutString_cspPrintAll {env : Env} {s : State} (hs : FreshLog s)
    {texts : List (List UInt8)} (h : ∀ t ∈ texts, Printable t) :
    stdoutString (cspPrintAll env s texts) =
      if STDBUF_SIZE ≤ texts.flatten.length then lastChars STDBUF_SIZE texts.flatten else [] := by
  by_cases hne : texts = []
  · subst hne
    obtain ⟨rest, hall⟩ : ∃ rest, paramGetData s stdoutBuf stdoutBuf.arraySize = 0 :: rest := by
      rw [paramGetData, show stdoutBuf.arraySize = 110 + 1 from rfl, List.range_succ_eq_map,
        List.map_cons]
      exact ⟨_, congrArg (· :: _) (hs.stdbuf 0)⟩
    show cString (paramGetData s stdoutBuf stdoutBuf.arraySize) = _
    rw [hall]
    simp [cString, STDBUF_SIZE]
  · rw [stdoutString, paramGetData_of_fresh hs h hne]
    split
    · case isTrue hfull =>
      have hlast : ∀ c ∈ lastChars STDBUF_SIZE texts.flatten, c ≠ 0 := fun c hc =>
        flatten_no_nul h c (List.mem_of_mem_drop hc)
      rw [Nat.sub_eq_zero_of_le hfull, List.replicate_zero, List.nil_append]
      exact cString_append_zero hlast
    · case isFalse hshort =>
      -- a ring that is not full starts with a NUL, which ends the string
      obtain ⟨k, hk⟩ : ∃ k, STDBUF_SIZE - texts.flatten.length = k + 1 :=
        ⟨STDBUF_SIZE - texts.flatten.length - 1, by omega⟩
      rw [hk, List.replicate_succ, List.cons_append, List.cons_append]
      simp [cString]

end AppSysManager.Node
