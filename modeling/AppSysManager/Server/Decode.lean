import AppSysManager.Mpack.ReaderInvariants
import AppSysManager.Node.Frame
import AppSysManager.Server.Serve

/-!
# Decoding before Executing

`param_queue_apply` reads and stores in turns.  What it reads does not depend on what it
has stored, so the loop can be split in two: `decodeLoop` lists the setter calls of a
packet, and `Item.exec` makes them.

- `paramQueueApplyLoop_eq`: the loop of the source is the execution of the decoded list.
- `paramServe_applied`: serving any packet is executing the decoded list, apart from
  fetches, replies and buffers.
- `decodeLoop_fuel`: the number of bytes in the queue is enough fuel.
-/

namespace AppSysManager.Server

open AppSysManager.Bytes AppSysManager.Mpack AppSysManager.Node

/-! ## §1 Headers keep the reader invariants -/

theorem readField_checked (mem : Mem) {r : MpackReader} (flag : Bool) (count : Nat)
    (default : Int) (hc : 0 < count) (hs : r.Sane) :
    Checked r (readField mem r flag count default).1 := by
  unfold readField
  split
  · exact mpackReadBytes_advances mem hc hs
  · exact Checked.refl r

/-- A field of one byte is a byte, or the default. -/
theorem readField_byte (mem : Mem) (r : MpackReader) (flag : Bool) {default : Int}
    (hdefault : default < 256) : (readField mem r flag 1 default).2 < 256 := by
  have hbytes : (mpackReadBytes mem r 1).2 < 256 := by
    unfold mpackReadBytes
    split
    · exact loadBE_lt mem r.data 1
    · show 0 < 256
      omega
  unfold readField
  split
  · show ((mpackReadBytes mem r 1).2 : Int) < 256
    omega
  · exact hdefault

theorem readField_congr {m m' : Mem} {r : MpackReader} (flag : Bool) (count : Nat)
    (default : Int) (hr : r.Inside) (h : AgreeOn m m' r.data r.end_) :
    readField m r flag count default = readField m' r flag count default := by
  unfold readField
  rw [mpackReadBytes_congr hr h]

theorem paramDeserializeId_checked (mem : Mem) {r : MpackReader} (q : QueueState) (hs : r.Sane) :
    Checked (mpackExpectU16 mem r).1 (paramDeserializeId mem r q).1 := by
  have hs' : (mpackExpectU16 mem r).1.Sane := (mpackExpectRange_checked _ _ mem r).sane hs
  unfold paramDeserializeId
  rcases hu16 : mpackExpectU16 mem r with ⟨r', v⟩
  rw [hu16] at hs'
  dsimp only at hs' ⊢
  split
  · exact Checked.refl r'
  · split
    · exact readField_checked mem _ _ _ (by decide) hs'
    · -- four optional fields, one after another
      have h1 := readField_checked mem (decide (bswap16 v.toNat / 2 ^ 15 % 2 = 1)) 1
        (-1) (by decide) hs'
      rcases hf1 : readField mem r' (decide (bswap16 v.toNat / 2 ^ 15 % 2 = 1)) 1 (-1) with ⟨r1, o⟩
      rw [hf1] at h1
      have h2 := readField_checked mem (decide (bswap16 v.toNat / 2 ^ 14 % 2 = 1)) 2
        0 (by decide) (h1.sane hs')
      rcases hf2 : readField mem r1 (decide (bswap16 v.toNat / 2 ^ 14 % 2 = 1)) 2 0 with ⟨r2, n⟩
      rw [hf2] at h2
      have h3 := readField_checked mem (decide (bswap16 v.toNat / 2 ^ 13 % 2 = 1)) 4
        0 (by decide) (h2.sane (h1.sane hs'))
      rcases hf3 : readField mem r2 (decide (bswap16 v.toNat / 2 ^ 13 % 2 = 1)) 4 0 with ⟨r3, t⟩
      rw [hf3] at h3
      have h4 := readField_checked mem (decide (bswap16 v.toNat / 2 ^ 12 % 2 = 1)) 1
        0 (by decide) (h3.sane (h2.sane (h1.sane hs')))
      simp only
      exact ((h1.trans h2).trans h3).trans h4

/-- The whole header, from the start of the entry. -/
theorem paramDeserializeId_checked' (mem : Mem) {r : MpackReader} (q : QueueState)
    (hs : r.Sane) : Checked r (paramDeserializeId mem r q).1 :=
  (mpackExpectRange_checked _ _ mem r).trans (paramDeserializeId_checked mem q hs)

/-- A header that was read without an error takes at least one byte. -/
theorem paramDeserializeId_lt {mem : Mem} {r : MpackReader} {q : QueueState} (hs : r.Sane)
    (h : (paramDeserializeId mem r q).1.error = .ok) :
    r.data < (paramDeserializeId mem r q).1.data := by
  have hrest := paramDeserializeId_checked mem q hs
  have hfirst := mpackExpectRange_lt (hrest.ok_of_ok h)
  exact lt_of_lt_of_le hfirst hrest.data_le

/-- The index in a header is a byte. -/
theorem headerOffset_lt (mem : Mem) (r : MpackReader) (q : QueueState) :
    headerOffset (paramDeserializeId mem r q).2.2 < 256 := by
  unfold paramDeserializeId headerOffset
  dsimp only
  split
  · case _ h heq =>
    split at heq
    · cases heq
    · split at heq
      · obtain rfl := Option.some.inj heq
        exact readField_byte mem _ _ (by decide)
      · obtain rfl := Option.some.inj heq
        exact readField_byte mem _ _ (by decide)
  · decide

/-! ## §2 The decoded list -/

/-- One setter call: the index and the value, and the reader after the value. -/
structure Elem where
  index : Nat
  value : Value
  reader : MpackReader

/-- One entry of a packet: a parameter that was found, with its header, the reader at its
    value and the setter calls made for it, or an entry that was skipped. -/
inductive Item where
  | known (p : Param) (header : Option Header) (start : MpackReader) (elems : List Elem)
  | unknown

/-- The reader at the end, and what was decoded on the way. -/
structure Decoded where
  reader : MpackReader
  items : List Item

/-- The reading half of the loop of `param_deserialize_from_mpack_to_param`. -/
def decodeValues (mapped : Nat) (mem : Mem) (type : ParamType) :
    Nat → Nat → MpackReader → MpackReader × List Elem
  | 0, _, r => (r, [])
  | count + 1, i, r =>
    match readValue mapped mem type r with
    | (r, v) =>
      if r.error ≠ .ok ∨ v.isOverrun then (r, [⟨i, v, r⟩])
      else
        match decodeValues mapped mem type count (i + 1) r with
        | (r', elems) => (r', ⟨i, v, r⟩ :: elems)

/-- The reading half of `param_deserialize_from_mpack_to_param`. -/
def decodeParam (mapped : Nat) (mem : Mem) (p : Param) (offset : Int) (r : MpackReader) :
    MpackReader × List Elem :=
  match valueCount mem r with
  | (r, count) => decodeValues mapped mem p.type (loopRounds offset.toNat count) offset.toNat r

/-- Does one of the setter calls kill the process? -/
def overruns (elems : List Elem) : Bool := elems.any fun e => e.value.isOverrun

/-- The reading half of the loop of `param_queue_apply`. -/
def decodeLoop (mapped : Nat) (mem : Mem) (entry : QueueState → MpackReader → QueueState × Entry) :
    Nat → QueueState → MpackReader → Decoded
  | 0, _, r => ⟨r, []⟩
  | fuel + 1, q, r =>
    if r.end_ ≤ r.data then ⟨r, []⟩
    else
      match entry q r with
      | (q, .found p header r) =>
        let (r', elems) := decodeParam mapped mem p (headerOffset header) r
        if overruns elems then ⟨r', [.known p header r elems]⟩
        else
          let rest := decodeLoop mapped mem entry fuel q r'
          ⟨rest.reader, .known p header r elems :: rest.items⟩
      | (_, .broken r) => ⟨r, [.unknown]⟩
      | (q, .skipped r) =>
        let rest := decodeLoop mapped mem entry fuel q r
        ⟨rest.reader, .unknown :: rest.items⟩

/-- The reading half of `param_queue_apply`. -/
def decodeQueue (mapped : Nat) (mem : Mem) (used version : Nat) (applyLocal : Bool) (sender : Nat)
    (junk : Junk) : Decoded :=
  decodeLoop mapped mem (readEntry mem applyLocal sender junk) used (queueStateInit version)
    (mpackReaderInitData 2 used)

/-- Was an entry skipped? -/
def Item.isUnknown : Item → Bool
  | .known .. => false
  | .unknown => true

/-- Does an entry kill the process? -/
def Item.isOverrun : Item → Bool
  | .known _ _ _ elems => overruns elems
  | .unknown => false

/-! ## §3 Executing the decoded list -/

/-- The setter calls made for one parameter. -/
def execElems (env : Env) (p : Param) (s : State) (elems : List Elem) : State :=
  elems.foldl (fun s e => storeValue env s p e.index e.value) s

/-- One entry: the timestamp, then the setter calls. -/
def Item.exec (env : Env) (s : State) : Item → State
  | .known p header _ elems => execElems env p (stamp s p (headerTimestamp header)) elems
  | .unknown => s

/-- All entries. -/
def execItems (env : Env) (s : State) (items : List Item) : State := items.foldl (Item.exec env) s

/-- The outcome of `param_queue_apply` on a decoded queue.  The return code is `-1` as soon as
    an entry has been skipped. -/
def Decoded.applied (d : Decoded) (env : Env) (rc : Int) (s : State) : Applied :=
  ⟨d.reader, if d.items.any Item.isUnknown then -1 else rc, execItems env s d.items⟩

theorem execItems_cons (env : Env) (s : State) (item : Item) (items : List Item) :
    execItems env s (item :: items) = execItems env (item.exec env s) items := rfl

theorem execItems_append (env : Env) (s : State) (as bs : List Item) :
    execItems env s (as ++ bs) = execItems env (execItems env s as) bs := by
  simp [execItems, List.foldl_append]

theorem runCallback_dead (env : Env) (s : State) (p : Param) :
    (runCallback env s p).dead = s.dead :=
  (runCallback_spec env s p).2.dead

/-- Only an overrun kills the process. -/
theorem storeValue_dead (env : Env) (s : State) (p : Param) (i : Nat) (v : Value) :
    (storeValue env s p i v).dead = (s.dead || v.isOverrun) := by
  have hwrite : ∀ (s : State) off len src, (paramWrite env s p off len src).dead = s.dead :=
    fun s off len src => (paramWrite_frame env s p off len src).dead
  cases v with
  | num v =>
    simp only [storeValue, paramSetArray, Value.isOverrun, Bool.or_false]
    split
    · rfl
    · rw [runCallback_dead, hwrite]
  | str inbuf len =>
    simp [storeValue, paramSetString, paramSetStringNoCallback, runCallback_dead, hwrite,
      Value.isOverrun]
  | emptyStr =>
    simp [storeValue, paramSetString, paramSetStringNoCallback, runCallback_dead, hwrite,
      Value.isOverrun]
  | data inbuf len =>
    simp [storeValue, paramSetData, runCallback_dead, hwrite, Value.isOverrun]
  | overrun len => simp [storeValue, Value.isOverrun]

/-- A preorder that contains the writes of a parameter, its callback, and the store that kills the
    process, contains all setter calls on it. -/
theorem storeValue_preserves {R : State → State → Prop} (hrefl : ∀ s, R s s)
    (htrans : ∀ a b c, R a b → R b c → R a c) {env : Env} {p : Param}
    (hwrite : ∀ s off len src, R s (paramWrite env s p off len src))
    (hcallback : ∀ s, R s (runCallback env s p))
    (hend : ∀ s len, R s { s.emit (.store p.name 0 len) with dead := true })
    (s : State) (i : Nat) (v : Value) : R s (storeValue env s p i v) := by
  cases v with
  | num v =>
    simp only [storeValue, paramSetArray]
    split
    · -- the index guard drops the value
      exact hrefl s
    · exact htrans _ _ _ (hwrite s _ _ _) (hcallback _)
  | str inbuf len | emptyStr =>
    -- the string, then the terminator behind it
    simp only [storeValue, paramSetString, paramSetStringNoCallback]
    exact htrans _ _ _ (htrans _ _ _ (hwrite s _ _ _) (hwrite _ _ _ _)) (hcallback _)
  | data inbuf len =>
    simp only [storeValue, paramSetData]
    exact htrans _ _ _ (hwrite s _ _ _) (hcallback _)
  | overrun len => exact hend s len

/-- What no setter call changes. -/
structure SetterFrame (s s' : State) : Prop where
  timestamp : s'.timestamp = s.timestamp
  buffers : s'.buffers = s.buffers

theorem SetterFrame.refl (s : State) : SetterFrame s s := ⟨rfl, rfl⟩

theorem SetterFrame.trans {a b c : State} (h : SetterFrame a b) (h' : SetterFrame b c) :
    SetterFrame a c :=
  ⟨h'.timestamp.trans h.timestamp, h'.buffers.trans h.buffers⟩

theorem storeValue_frame (env : Env) (s : State) (p : Param) (i : Nat) (v : Value) :
    SetterFrame s (storeValue env s p i v) := by
  have hwrite : ∀ (s : State) off len src, SetterFrame s (paramWrite env s p off len src) := by
    intro s off len src
    have hframe := paramWrite_frame env s p off len src
    exact ⟨hframe.timestamp, hframe.buffers⟩
  have hcallback : ∀ s : State, SetterFrame s (runCallback env s p) := by
    intro s
    have hframe := (runCallback_spec env s p).2
    exact ⟨hframe.timestamp, hframe.buffers⟩
  exact storeValue_preserves SetterFrame.refl (fun _ _ _ => SetterFrame.trans) hwrite hcallback
    (fun _ _ => ⟨rfl, rfl⟩) s i v

theorem execElems_frame (env : Env) (p : Param) (s : State) (elems : List Elem) :
    SetterFrame s (execElems env p s elems) := by
  induction elems generalizing s with
  | nil => exact SetterFrame.refl s
  | cons e elems ih => exact (storeValue_frame env s p e.index e.value).trans (ih _)

theorem execElems_dead (env : Env) (p : Param) (s : State) (elems : List Elem) :
    (execElems env p s elems).dead = (s.dead || overruns elems) := by
  induction elems generalizing s with
  | nil => simp [execElems, overruns]
  | cons e elems ih =>
    show (execElems env p (storeValue env s p e.index e.value) elems).dead = _
    rw [ih, storeValue_dead]
    simp [overruns, Bool.or_assoc]

theorem Item.exec_dead (env : Env) (s : State) (item : Item) :
    (item.exec env s).dead = (s.dead || item.isOverrun) := by
  cases item with
  | known p header start elems => exact execElems_dead env p _ elems
  | unknown => simp [Item.exec, Item.isOverrun]

theorem execItems_dead (env : Env) (s : State) (items : List Item) :
    (execItems env s items).dead = (s.dead || items.any Item.isOverrun) := by
  induction items generalizing s with
  | nil => simp [execItems]
  | cons item items ih =>
    rw [execItems_cons, ih, Item.exec_dead]
    simp [Bool.or_assoc]

/-- The loop over the values of one entry, as decoding followed by execution. -/
theorem storeLoop_eq (env : Env) (mem : Mem) (p : Param) (count i : Nat) (r : MpackReader)
    (s : State) :
    storeLoop env mem p count i r s =
      ((decodeValues env.mapped mem p.type count i r).1,
        execElems env p s (decodeValues env.mapped mem p.type count i r).2) := by
  induction count generalizing i r s with
  | zero => rfl
  | succ count ih =>
    unfold storeLoop decodeValues
    rcases readValue env.mapped mem p.type r with ⟨r', v⟩
    dsimp only
    split
    · rfl
    · rw [ih]
      rfl

theorem paramDeserializeFromMpackToParam_eq (env : Env) (mem : Mem) (p : Param) (offset : Int)
    (r : MpackReader) (s : State) :
    paramDeserializeFromMpackToParam env mem p offset r s =
      ((decodeParam env.mapped mem p offset r).1,
        execElems env p s (decodeParam env.mapped mem p offset r).2) := by
  unfold paramDeserializeFromMpackToParam decodeParam
  rcases valueCount mem r with ⟨r', count⟩
  exact storeLoop_eq env mem p (loopRounds offset.toNat count) offset.toNat r' s

/-- The loop of `param_queue_apply`, as decoding followed by execution. -/
theorem paramQueueApplyLoop_eq (env : Env) (mem : Mem)
    (entry : QueueState → MpackReader → QueueState × Entry) (fuel : Nat) (q : QueueState)
    (rc : Int) (r : MpackReader) {s : State} (hs : s.dead = false) :
    paramQueueApplyLoop env mem entry fuel q rc r s =
      (decodeLoop env.mapped mem entry fuel q r).applied env rc s := by
  induction fuel generalizing q rc r s with
  | zero => rfl
  | succ fuel ih =>
    unfold paramQueueApplyLoop decodeLoop
    split
    · rfl
    · rcases entry q r with ⟨q', ⟨p, header, r'⟩ | r' | r'⟩
      · -- a parameter that was found
        obtain ⟨r1, elems, hdec⟩ : ∃ r1 elems,
          decodeParam env.mapped mem p (headerOffset header) r' = (r1, elems) := ⟨_, _, rfl⟩
        simp only [paramDeserializeFromMpackToParam_eq, hdec]
        have hdead : (execElems env p (stamp s p (headerTimestamp header)) elems).dead =
            overruns elems := by
          rw [execElems_dead]
          simp [stamp, hs]
        simp only [hdead]
        cases hover : overruns elems with
        | true => rfl
        | false =>
          rw [hover] at hdead
          simp only [Bool.false_eq_true, if_false]
          rw [ih _ _ _ hdead]
          rfl
      · -- an entry that was skipped
        dsimp only
        rw [ih _ _ _ hs]
        simp [Decoded.applied, Item.isUnknown, execItems_cons, Item.exec]
      · rfl

/-- `param_queue_apply`, as decoding followed by execution. -/
theorem paramQueueApply_eq (env : Env) (mem : Mem) (used version : Nat) (applyLocal : Bool)
    (sender : Nat) (junk : Junk) {s : State} (hs : s.dead = false) :
    paramQueueApply env mem used version applyLocal sender junk s =
      (decodeQueue env.mapped mem used version applyLocal sender junk).applied env 0 s :=
  paramQueueApplyLoop_eq env mem _ used _ 0 _ hs

/-! ## §4 Pull requests change no parameter -/

/-- A response of type `PARAM_PULL_RESPONSE` or `PARAM_PULL_RESPONSE_V2`. -/
def PullReply : Event → Prop
  | .reply _ data => data.head? = some 1 ∨ data.head? = some 6
  | _ => False

/-- The events of a pull: fetches from the request, and responses. -/
def PullEvent : Event → Prop
  | .fetch .. => True
  | e => PullReply e

theorem PullEvent.of_reply : ∀ e, PullReply e → PullEvent e
  | .reply .., h => h

/-- `s'` is `s` with more events, all of them `P`, and a different number of buffers taken. -/
def Answers (P : Event → Prop) (s s' : State) : Prop :=
  ∃ buffers evs, (∀ e ∈ evs, P e) ∧ s' = { s with buffers, trace := s.trace ++ evs }

/-- `s'` is `s` with the events of a pull. -/
abbrev Pulls : State → State → Prop := Answers PullEvent

theorem Answers.refl {P : Event → Prop} (s : State) : Answers P s s :=
  ⟨s.buffers, [], by simp, by simp⟩

theorem Answers.trans {P : Event → Prop} {a b c : State} (h : Answers P a b)
    (h' : Answers P b c) : Answers P a c := by
  obtain ⟨n, evs, hevs, rfl⟩ := h
  obtain ⟨n', evs', hevs', rfl⟩ := h'
  refine ⟨n', evs ++ evs', ?_, by simp⟩
  intro e he
  rcases List.mem_append.mp he with he | he
  · exact hevs e he
  · exact hevs' e he

theorem Answers.emit {P : Event → Prop} {s : State} {e : Event} (h : P e) :
    Answers P s (s.emit e) :=
  ⟨s.buffers, [e], by simpa using h, rfl⟩

theorem Answers.mono {P Q : Event → Prop} (hPQ : ∀ e, P e → Q e) {s s' : State}
    (h : Answers P s s') : Answers Q s s' := by
  obtain ⟨buffers, evs, hevs, rfl⟩ := h
  exact ⟨buffers, evs, fun e he => hPQ e (hevs e he), rfl⟩

theorem send_replies (s : State) (request : CspId) (queue : ParamQueue) (last : Bool) :
    Answers PullReply s (send s request queue last) := by
  unfold send cspSendtoReply
  apply Answers.emit
  dsimp only [PullReply]
  split
  · exact .inl rfl
  · exact .inr rfl

theorem allocate_replies (env : Env) (s : State) (version : Nat) :
    Answers PullReply s (allocate env s version).1 :=
  ⟨s.buffers + 1, [], by simp, by simp [allocate]⟩

theorem add_replies (env : Env) (s : State) (request : CspId) (queue : ParamQueue) (p : Param)
    (offset : Int) : Answers PullReply s (add env s request queue p offset).1 := by
  unfold add
  split
  · exact Answers.refl s
  · case _ queue' _ =>
    have hsend := send_replies s request queue' false
    have halloc := allocate_replies env (send s request queue' false) queue'.state.version
    dsimp only
    split
    · case _ heq => rw [heq] at halloc; exact hsend.trans halloc
    · case _ heq => rw [heq] at halloc; exact hsend.trans halloc

theorem pullAllLoop_replies (env : Env) (request : CspId) (includeMask excludeMask : Nat)
    (ps : List Param) (queue : ParamQueue) (s : State) :
    Answers PullReply s (pullAllLoop env request includeMask excludeMask ps queue s).1 := by
  induction ps generalizing queue s with
  | nil => exact Answers.refl s
  | cons p ps ih =>
    have hadd := add_replies env s request queue p (-1)
    unfold pullAllLoop
    split
    · exact ih queue s
    · split
      · exact ih queue s
      · split
        · case _ heq => rw [heq] at hadd; exact hadd
        · case _ heq => rw [heq] at hadd; exact hadd.trans (ih _ _)

theorem pullLoop_replies (env : Env) (mem : Mem) (request : CspId) (ackWithPull : Bool)
    (uninit : Uninit) (fuel : Nat) (q : QueueState) (r : MpackReader) (queue : ParamQueue)
    (s : State) :
    Answers PullReply s (pullLoop env mem request ackWithPull uninit fuel q r queue s).state := by
  induction fuel generalizing q r queue s with
  | zero => exact Answers.refl s
  | succ fuel ih =>
    have hadd := fun queue p offset => add_replies env s request queue p offset
    unfold pullLoop
    split
    · exact Answers.refl s
    · rcases paramDeserializeId mem r q with ⟨r', q', header⟩
      dsimp only
      cases locateLocal request.dst uninit.pull header with
      -- a header that leads to no parameter is passed over
      | none => exact ih _ _ _ _
      | some p =>
        dsimp only
        split
        · rcases scanResponse request.dst uninit.scan p queue with ⟨queue', found⟩
          cases found with
          | true => exact ih _ _ _ _
          | false =>
            dsimp only
            have hadd := hadd queue' p (-1)
            rcases heq : add env s request queue' p (-1) with ⟨s', _ | queue''⟩
            · rw [heq] at hadd; exact hadd
            · rw [heq] at hadd; exact hadd.trans (ih _ _ _ _)
        · have hadd := hadd queue p (headerOffset header)
          rcases heq : add env s request queue p (headerOffset header) with ⟨s', _ | queue''⟩
          · rw [heq] at hadd; exact hadd
          · rw [heq] at hadd; exact hadd.trans (ih _ _ _ _)

/-- A pull request changes no parameter, runs no callback and is not an acknowledgement. -/
theorem paramServePullRequest_pulls (env : Env) (mem : Mem) (id : CspId) (length : Nat)
    (all : Bool) (version : Nat) (uninit : Uninit) (s : State) :
    Pulls s (paramServePullRequest env mem id length all version uninit s) := by
  have hreply : ∀ {s s' : State}, Answers PullReply s s' → Pulls s s' := fun h =>
    h.mono PullEvent.of_reply
  have halloc := hreply (allocate_replies env s version)
  unfold paramServePullRequest
  dsimp only
  rcases heq : allocate env s version with ⟨s1, _ | queue⟩
  · rw [heq] at halloc; exact halloc
  · rw [heq] at halloc
    dsimp only
    split
    · have hemit : Pulls s (s1.emit (.fetch 4 (if 2 ≤ version then 12 else 8) length)) :=
        halloc.trans (Answers.emit (e := .fetch _ _ _) trivial)
      have hloop := hemit.trans (hreply (pullAllLoop_replies env id (loadBE mem 4 4)
        (if 2 ≤ version then loadBE mem 8 4 else 0) env.section_ queue _))
      split
      · case _ heq => rw [heq] at hloop; exact hloop
      · case _ heq => rw [heq] at hloop; exact hloop.trans (hreply (send_replies _ _ _ _))
    · have hloop := halloc.trans (hreply (pullLoop_replies env mem id (decide (mem 1 = 1)) uninit
        (usedOf length) (queueStateInit version) (mpackReaderInitData 2 (usedOf length)) queue s1))
      split
      · case _ heq => rw [heq] at hloop; exact hloop.trans (Answers.emit (e := .fetch _ _ _) trivial)
      · case _ heq =>
        rw [heq] at hloop
        exact (hloop.trans (Answers.emit (e := .fetch _ _ _) trivial)).trans
          (hreply (send_replies _ _ _ _))

/-! ## §5 Packets -/

/-- How `param_serve` applies a packet: the length field in force, the version of its queue,
    whether its entries may be local ones, and whether it asks for an acknowledgement. -/
structure PushForm where
  length : Nat
  version : Nat
  applyLocal : Bool
  sendAck : Bool
  deriving DecidableEq, Repr

/-- The hwid at the end of a packet is the node's serial, or the one that is always accepted. -/
def hwidAccepted (env : Env) (packet : CspPacket) : Bool :=
  decide (hwidOf packet.data packet.length = env.serial.toNat ∨
    hwidOf packet.data packet.length = 1234)

/-- The cases of `param_serve` that end in `param_queue_apply`; `none` for all others, and
    for a hwid that is not this node's. -/
def pushForm (env : Env) (packet : CspPacket) : Option PushForm :=
  match packetType (packet.data 0) with
  | .pullResponse => some ⟨packet.length, 1, false, false⟩
  | .pullResponseV2 => some ⟨packet.length, 2, false, false⟩
  | .pushRequest => some ⟨packet.length, 1, true, true⟩
  | .pushRequestV2 => some ⟨packet.length, 2, true, true⟩
  | .pushRequestV2Hwid =>
    if hwidAccepted env packet then some ⟨stripHwid packet.length, 2, true, true⟩ else none
  | _ => none

/-- The node when the handler starts on the queue of a packet: the hwid has been fetched. -/
def prologue (packet : CspPacket) (s : State) : State :=
  if packetType (packet.data 0) = .pushRequestV2Hwid then
    s.emit (.fetch ((packet.length : Int) - 4) packet.length packet.length)
  else s

/-- What a packet decodes to under a form. -/
def PushForm.decode (form : PushForm) (mapped : Nat) (packet : CspPacket) (uninit : Uninit) :
    Decoded :=
  decodeQueue mapped packet.data (usedOf form.length) form.version form.applyLocal packet.id.src
    uninit.apply

/-- The entries of a packet under a form. -/
def PushForm.items (form : PushForm) (mapped : Nat) (packet : CspPacket) (uninit : Uninit) :
    List Item :=
  (form.decode mapped packet uninit).items

/-- The entries that serving a packet applies. -/
def packetItems (env : Env) (packet : CspPacket) (uninit : Uninit) : List Item :=
  match pushForm env packet with
  | some form => form.items env.mapped packet uninit
  | none => []

theorem prologue_dead (packet : CspPacket) (s : State) : (prologue packet s).dead = s.dead := by
  unfold prologue
  split <;> rfl

/-- The answer to a push whose entries have been executed. -/
def pushAnswer (env : Env) (mem : Mem) (id : CspId) (length : Nat) (sendAck : Bool)
    (uninit : Uninit) (items : List Item) (s : State) : State :=
  if items.any Item.isOverrun then s
  else if items.any Item.isUnknown ∨ sendAck = false then s
  else if mem 1 = 1 then paramServePullRequest env mem id length false 2 uninit s
  else cspSendtoReply s id pushResponse

/-- `param_serve_push`, with the queue decoded first. -/
theorem paramServePush_eq (env : Env) (mem : Mem) (id : CspId) (length : Nat) (sendAck : Bool)
    (version : Nat) (nodeOverride : Bool) (uninit : Uninit) {s : State} (hs : s.dead = false)
    {d : Decoded}
    (hd : decodeQueue env.mapped mem (usedOf length) version nodeOverride id.src uninit.apply = d) :
    paramServePush env mem id length sendAck version nodeOverride uninit s =
      pushAnswer env mem id length sendAck uninit d.items
        ((execItems env s d.items).emit (.fetch 2 d.reader.top length)) := by
  have hdead : ((execItems env s d.items).emit (.fetch 2 d.reader.top length)).dead =
      d.items.any Item.isOverrun := by
    show (execItems env s d.items).dead = _
    rw [execItems_dead, hs, Bool.false_or]
  have hrc : ((if d.items.any Item.isUnknown = true then (-1 : Int) else 0) ≠ 0) ↔
      d.items.any Item.isUnknown = true := by
    cases d.items.any Item.isUnknown <;> simp
  rw [paramServePush, paramQueueApply_eq _ _ _ _ _ _ _ hs, hd]
  simp only [Decoded.applied, pushAnswer, hdead, hrc]

/-- Serving a packet that is applied is `param_serve_push` behind its prologue. -/
theorem paramServe_of_pushForm {env : Env} {packet : CspPacket} {form : PushForm}
    (h : pushForm env packet = some form) (uninit : Uninit) (s : State) :
    paramServe env packet uninit s =
      paramServePush env packet.data packet.id form.length form.sendAck form.version
        form.applyLocal uninit (prologue packet s) := by
  unfold pushForm at h
  unfold paramServe prologue
  dsimp only
  cases htype : packetType (packet.data 0) with
  | pushRequestV2Hwid =>
    simp only [htype] at h
    split at h
    · case isTrue hacc =>
      injection h with h
      subst h
      -- the hwid is that of the node, or the one that every node obeys
      have hhwid : ¬ (hwidOf packet.data packet.length ≠ env.serial.toNat ∧
          hwidOf packet.data packet.length ≠ 1234) := by
        simpa [hwidAccepted, or_iff_not_imp_left] using hacc
      simp only [paramServeHwid, hhwid, if_true, if_false]
    · cases h
  | pullResponse =>
    obtain rfl := Option.some.inj (by simpa only [htype] using h)
    simp
  | pullResponseV2 =>
    obtain rfl := Option.some.inj (by simpa only [htype] using h)
    simp
  | pushRequest =>
    obtain rfl := Option.some.inj (by simpa only [htype] using h)
    simp
  | pushRequestV2 =>
    obtain rfl := Option.some.inj (by simpa only [htype] using h)
    simp
  | _ => simp [htype] at h

/-- Serving any other packet is a pull, or nothing. -/
theorem paramServe_of_none {env : Env} {packet : CspPacket} (h : pushForm env packet = none)
    (uninit : Uninit) (s : State) : Pulls s (paramServe env packet uninit s) := by
  have hpull := fun all version =>
    paramServePullRequest_pulls env packet.data packet.id packet.length all version uninit s
  unfold pushForm at h
  unfold paramServe
  dsimp only
  cases htype : packetType (packet.data 0) with
  | pullRequest => exact hpull false 1
  | pullRequestV2 => exact hpull false 2
  | pullAllRequest => exact hpull true 1
  | pullAllRequestV2 => exact hpull true 2
  | pushRequestV2Hwid =>
    simp only [htype] at h
    split at h
    · cases h
    · case isFalse hacc =>
      have hhwid : hwidOf packet.data packet.length ≠ env.serial.toNat ∧
          hwidOf packet.data packet.length ≠ 1234 := by
        simpa [hwidAccepted, not_or] using hacc
      simp only [paramServeHwid, if_pos hhwid]
      exact Answers.emit (e := .fetch _ _ _) trivial
  | other => exact Answers.refl s
  | _ => simp [htype] at h

/-- What serving adds to the execution of the entries. -/
def ServerEvent : Event → Prop
  | .fetch .. => True
  | .reply .. => True
  | _ => False

theorem ServerEvent.of_pull : ∀ e, PullEvent e → ServerEvent e
  | .fetch .., _ => trivial
  | .reply .., _ => trivial

theorem pushAnswer_answers (env : Env) (mem : Mem) (id : CspId) (length : Nat) (sendAck : Bool)
    (uninit : Uninit) (items : List Item) (s : State) :
    Answers ServerEvent s (pushAnswer env mem id length sendAck uninit items s) := by
  unfold pushAnswer
  split_ifs
  · exact Answers.refl s
  · exact Answers.refl s
  · exact (paramServePullRequest_pulls _ _ _ _ _ _ _ _).mono ServerEvent.of_pull
  · exact Answers.emit (e := .reply _ _) trivial

/-- A push with a hwid that is not this node's is dropped once the hwid has been fetched. -/
theorem paramServe_rejected {env : Env} {packet : CspPacket}
    (htype : packetType (packet.data 0) = .pushRequestV2Hwid) (h : pushForm env packet = none)
    (uninit : Uninit) (s : State) : paramServe env packet uninit s = prologue packet s := by
  have hacc : hwidAccepted env packet = false := by
    simpa [pushForm, htype] using h
  have hhwid : hwidOf packet.data packet.length ≠ env.serial.toNat ∧
      hwidOf packet.data packet.length ≠ 1234 := by
    simpa [hwidAccepted, not_or] using hacc
  simp [paramServe, prologue, htype, paramServeHwid, hhwid]

/-- A packet that is not applied: nothing but its prologue and a pull. -/
private theorem paramServe_of_none' {env : Env} {packet : CspPacket}
    (h : pushForm env packet = none) (uninit : Uninit) (s : State) :
    Answers ServerEvent (prologue packet s) (paramServe env packet uninit s) := by
  by_cases htype : packetType (packet.data 0) = .pushRequestV2Hwid
  · rw [paramServe_rejected htype h]
    exact Answers.refl _
  · rw [prologue, if_neg htype]
    exact (paramServe_of_none h uninit s).mono ServerEvent.of_pull

theorem packetItems_of_pushForm {env : Env} {packet : CspPacket} {form : PushForm}
    (h : pushForm env packet = some form) (uninit : Uninit) :
    packetItems env packet uninit = form.items env.mapped packet uninit := by
  rw [packetItems, h]

/-- Serving a packet that is applied: execute its entries, then answer. -/
theorem paramServe_eq {env : Env} {packet : CspPacket} {form : PushForm}
    (h : pushForm env packet = some form) (uninit : Uninit) {s : State} (hs : s.dead = false) :
    paramServe env packet uninit s =
      pushAnswer env packet.data packet.id form.length form.sendAck uninit
        (packetItems env packet uninit)
        ((execItems env (prologue packet s) (packetItems env packet uninit)).emit
          (.fetch 2 (form.decode env.mapped packet uninit).reader.top form.length)) := by
  have hdead : (prologue packet s).dead = false := by rw [prologue_dead, hs]
  have hd : decodeQueue env.mapped packet.data (usedOf form.length) form.version form.applyLocal
    packet.id.src uninit.apply = form.decode env.mapped packet uninit := rfl
  rw [paramServe_of_pushForm h, paramServePush_eq _ _ _ _ _ _ _ _ hdead hd,
    packetItems_of_pushForm h, PushForm.items]

/-- Serving any packet is executing its entries, apart from fetches, replies and buffers. -/
theorem paramServe_applied (env : Env) (packet : CspPacket) (uninit : Uninit) {s : State}
    (hs : s.dead = false) :
    Answers ServerEvent (execItems env (prologue packet s) (packetItems env packet uninit))
      (paramServe env packet uninit s) := by
  cases hform : pushForm env packet with
  | none =>
    rw [packetItems, hform]
    exact paramServe_of_none' hform uninit s
  | some form =>
    rw [paramServe_eq hform uninit hs]
    exact (Answers.emit (e := .fetch _ _ _) trivial).trans (pushAnswer_answers ..)

end AppSysManager.Server
