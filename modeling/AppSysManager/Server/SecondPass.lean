import AppSysManager.Server.ArrayIndex
import AppSysManager.Server.ReadBack

/-!
# The Second Pass over a Push

The pass that reads a push back is not the one that applied it.  It reads every packet in
version 2; it looks a node up as it is, where `param_queue_apply` takes any node for the local
one; and it skips a value only behind a header that led to a parameter.

- `LocalPush`: a push in version 2 with entries for node 0 or the own address only.
- `decodeLoop_set`, `pulledFrom_set`: both passes come across the parameters of its entries.
- `readBack_iff_buffer`: such a push is read back as soon as there is a buffer for the reply.
- `foreignPush_unread`: a V1 push, and a push with an entry for another node, that are not.
-/

namespace AppSysManager.Server

open AppSysManager.Bytes AppSysManager.Mpack AppSysManager.Node

variable {mapped : Nat}

/-! ## §1 Well-formed pushes in version 2 -/

/-- A value that a parameter of a type can be set to: a number, an array of numbers that fits
    into a packet, or a string that fits into `_stdbuf`. -/
def WireValue.Suits (type : ParamType) : WireValue → Prop
  | .num (.uint v) => type ≠ .string ∧ v < 2 ^ 32
  | .array xs => type ≠ .string ∧ xs.length ≤ CSP_BUFFER_SIZE ∧ ∀ x ∈ xs, ∃ v < 2 ^ 32, x = .uint v
  | .str bs => type = .string ∧ bs.length ≤ STDBUF_SIZE + 1
  | _ => False

/-- An entry of a push, with or without an index. -/
structure SetEntry where
  ref : ParamRef
  offset : Int
  value : WireValue

/-- The parameter an entry is for. -/
def SetEntry.param (e : SetEntry) : Option Param := knownParam e.ref.id

/-- An entry for a parameter of this node, by the node 0 or the own address. -/
structure SetEntry.Local (own : Nat) (e : SetEntry) : Prop where
  node : e.ref.node = 0 ∨ e.ref.node = own
  suits : ∃ p, e.param = some p ∧ WireValue.Suits p.type e.value

/-- Append all entries to a queue; `none` as soon as `param_queue_add` fails. -/
def addSet (queue : ParamQueue) : List SetEntry → Option ParamQueue
  | [] => some queue
  | e :: es =>
    match paramQueueAdd queue e.ref e.offset e.value with
    | (true, queue) => addSet queue es
    | (false, _) => none

/-- A push in version 2, put together with `param_queue_add` on a SET queue, all of whose
    entries are for the node 0 or the own address. -/
def LocalPush (form : PushForm) (packet : CspPacket) : Prop :=
  form.version = 2 ∧ packet.id.dst ≤ maxNodeid ∧ ∃ entries bufferSize queue,
    addSet (paramQueueInit bufferSize .set 2) entries = some queue ∧
    form.length = 2 + queue.buffer.length ∧ Holds packet.data 2 queue.buffer ∧
    ∀ e ∈ entries, e.Local packet.id.dst

/-- The bytes of a list of entries behind a serializer state. -/
def setBytes (q : QueueState) : List SetEntry → List UInt8
  | [] => []
  | e :: es =>
    indexedHeader q e.ref e.offset ++ (e.value.bytes ++ setBytes (headerState q e.ref) es)

theorem indexedHeader_ne_nil (q : QueueState) (ref : ParamRef) (offset : Int) :
    indexedHeader q ref offset ≠ [] := by
  apply List.length_pos_iff.mp
  rw [indexedHeader, List.length_append]
  exact Nat.add_pos_left (uintBytes_length_pos _) _

/-- What `addSet` has written. -/
theorem addSet_ok {queue queue' : ParamQueue} {es : List SetEntry} (htype : queue.type = .set)
    (hv : queue.state.version = 2) (h : addSet queue es = some queue') :
    queue'.buffer = queue.buffer ++ setBytes (addState queue) es := by
  induction es generalizing queue with
  | nil =>
    obtain rfl := Option.some.inj h
    simp [setBytes]
  | cons e es ih =>
    rw [addSet] at h
    rcases hadd : paramQueueAdd queue e.ref e.offset e.value with ⟨_ | _, queue₁⟩
    · rw [hadd] at h
      cases h
    · rw [hadd] at h
      have hversion : (addState queue).version = 2 := (addState_version queue).trans hv
      have hq := paramQueueAdd_indexed htype (by rw [hversion]; decide) hadd
      have hne : queue₁.buffer ≠ [] := by
        rw [hq]
        simp [indexedHeader_ne_nil]
      -- the next header is packed behind the node and timestamp of this one
      have hstate : addState queue₁ = headerState (addState queue) e.ref := by
        rw [addState, if_neg hne, hq]
      have hversion₁ : queue₁.state.version = 2 := by
        rw [hq]
        exact (headerState_version _ _).trans hversion
      rw [ih (by rw [hq]; exact htype) hversion₁ h, hstate, hq, setBytes]
      simp [List.append_assoc]

/-! ## §2 Both passes over a value -/

/-- The setter calls for a list of numbers. -/
theorem decodeValues_numbers (mapped : Nat) {mem : Mem} {p : Param} (hp : Scalar p)
    {xs : List WireNum}
    (hxs : ∀ x ∈ xs, ∃ v < 2 ^ 32, x = .uint v) (i : Nat) {r : MpackReader}
    (h : Sees mem r (xs.flatMap WireNum.bytes)) :
    ∃ r' elems, decodeValues mapped mem p.type xs.length i r = (r', elems) ∧
      overruns elems = false ∧
      Moved r r' (xs.flatMap WireNum.bytes).length := by
  induction xs generalizing r i with
  | nil => exact ⟨r, [], rfl, rfl, ⟨by simp, rfl, h.error⟩⟩
  | cons x xs ih =>
    obtain ⟨v, hv, rfl⟩ := hxs x List.mem_cons_self
    rw [List.flatMap_cons] at h ⊢
    obtain ⟨r₁, hread, hmoved⟩ := expectRange_uint 0 0xffffffff h.take (by omega) (by omega)
      (by omega)
    have hvalue : readValue mapped mem p.type r = (r₁, .num v) := by
      rw [readValue_scalar hp, mpackExpectUint, hread]
    obtain ⟨r', elems, hrest, hover, hmoved'⟩ := ih
      (fun x hx => hxs x (List.mem_cons_of_mem _ hx)) (i + 1) (h.drop hmoved)
    refine ⟨r', ⟨i, .num v, r₁⟩ :: elems, ?_, ?_, ?_⟩
    · rw [List.length_cons, decodeValues, hvalue]
      simp [hmoved.error, Value.isOverrun, hrest]
    · simpa [overruns, Value.isOverrun] using hover
    · rw [List.length_append]
      exact hmoved.trans hmoved'

/-- The setter call for a string. -/
theorem readValue_string {mem : Mem} {bs : List UInt8} {r : MpackReader}
    (h : Sees mem r (strHeader bs.length ++ bs)) (hlength : bs.length ≤ STDBUF_SIZE + 1)
    (hmapped : CSP_BUFFER_SIZE < mapped) :
    ∃ r' v, readValue mapped mem .string r = (r', v) ∧ v.isOverrun = false ∧
      Moved r r' (strHeader bs.length ++ bs).length := by
  have hsize : CSP_BUFFER_SIZE = 2048 := rfl
  have hstdbuf : STDBUF_SIZE = 110 := rfl
  obtain ⟨r₁, hexpect, hmoved⟩ := expectStr_str h.take (by omega)
  rw [List.length_append]
  simp only [readValue, hexpect]
  by_cases hempty : bs.length = 0
  · rw [if_pos hempty, hempty]
    exact ⟨r₁, .emptyStr, rfl, rfl, by simpa [hempty] using hmoved⟩
  · rw [if_neg hempty, takeBytes, if_neg (by omega)]
    exact ⟨_, _, rfl, rfl, hmoved.trans ⟨rfl, rfl, hmoved.error⟩⟩

/-- The first pass consumes the value of an entry as a whole. -/
theorem decodeParam_suits {mem : Mem} {p : Param} (hp : p ∈ paramTable) {value : WireValue}
    (hsuits : WireValue.Suits p.type value) (hmapped : CSP_BUFFER_SIZE < mapped) {offset : Int}
    (hoffset : offset < 256) {r : MpackReader} (h : Sees mem r value.bytes) :
    ∃ r' elems, decodeParam mapped mem p offset r = (r', elems) ∧ overruns elems = false ∧
      Moved r r' value.bytes.length := by
  have hsize : CSP_BUFFER_SIZE = 2048 := rfl
  have hone : loopRounds offset.toNat 1 = 1 := by
    rw [loopRounds_of_lt (by omega) (by omega)]
    rfl
  -- numbers and arrays are for the scalar parameters
  have hscalar : p.type ≠ .string → Scalar p := by
    intro htype
    refine ⟨hp, fun hname => htype ?_⟩
    rw [eq_param_of_mem hp, hname]
    rfl
  unfold decodeParam valueCount
  cases value with
  | num x =>
    cases x with
    | uint v =>
      obtain ⟨htype, hv⟩ := hsuits
      -- a single number: peek at its tag, then read it
      obtain ⟨r₀, hpeek, hm₀⟩ := peekTag_uint h (by omega)
      have hs₀ : Sees mem r₀ (([.uint v] : List WireNum).flatMap WireNum.bytes) := by
        rw [List.flatMap_singleton]
        exact (show Sees mem r ([] ++ uintBytes v) from h).drop hm₀
      obtain ⟨r', elems, hread, hover, hmoved⟩ := decodeValues_numbers mapped (hscalar htype)
        (by simpa using hv) offset.toNat hs₀
      refine ⟨r', elems, ?_, hover, ?_⟩
      · rw [hpeek]
        simp only [hone]
        exact hread
      · simpa [WireValue.bytes] using hm₀.trans hmoved
    | int v => exact hsuits.elim
    | float bits => exact hsuits.elim
    | double bits => exact hsuits.elim
  | str bs =>
    obtain ⟨htype, hlength⟩ := hsuits
    have hstdbuf : STDBUF_SIZE = 110 := rfl
    simp only [WireValue.bytes] at h
    obtain ⟨r₁, hread, hm₁⟩ := readTag_str h.take (by omega)
    obtain ⟨r₀, hpeek, hm₀⟩ := peekTag_of_readTag h.error hread hm₁
    have hs₀ : Sees mem r₀ (strHeader bs.length ++ bs) :=
      (show Sees mem r ([] ++ (strHeader bs.length ++ bs)) from h).drop hm₀
    obtain ⟨r₂, v, hvalue, hover, hm₂⟩ := readValue_string hs₀ hlength
      hmapped
    refine ⟨r₂, [⟨offset.toNat, v, r₂⟩], ?_, ?_, ?_⟩
    · rw [hpeek, htype]
      simp [hone, decodeValues, hvalue, hm₂.error, hover]
    · simpa [overruns] using hover
    · simpa [WireValue.bytes] using hm₀.trans hm₂
  | bin bs => exact hsuits.elim
  | array xs =>
    obtain ⟨htype, hlength, hxs⟩ := hsuits
    simp only [WireValue.bytes] at h
    obtain ⟨r₁, hread, hm₁⟩ := readTag_array h.take (by omega)
    obtain ⟨r₀, hpeek, hm₀⟩ := peekTag_of_readTag h.error hread hm₁
    have hs₀ : Sees mem r₀ (arrayHeader xs.length ++ xs.flatMap WireNum.bytes) :=
      (show Sees mem r ([] ++ (arrayHeader xs.length ++ xs.flatMap WireNum.bytes)) from h).drop hm₀
    -- the tag of the array is read again for its count
    obtain ⟨r₂, hread₂, hm₂⟩ := readTag_array hs₀.take (by omega)
    obtain ⟨r', elems, hvalues, hover, hmoved⟩ := decodeValues_numbers mapped (hscalar htype) hxs
      offset.toNat (hs₀.drop hm₂)
    refine ⟨r', elems, ?_, hover, ?_⟩
    -- the count fits an `int`, and so does the bound of the loop
    · have hcount : toSigned 32 xs.length = xs.length := if_pos (by omega)
      have hrounds : loopRounds offset.toNat xs.length = xs.length :=
        loopRounds_of_lt (by omega) (by omega)
      rw [hpeek]
      simp only [mpackExpectArray, hread₂, hcount, hrounds, hvalues]
    · simpa [WireValue.bytes] using hm₀.trans (hm₂.trans hmoved)

/-- `mpack_discard` skips the numbers of an array. -/
theorem discardRounds_numbers {mem : Mem} {fuel : Nat} {xs : List WireNum}
    (hxs : ∀ x ∈ xs, ∃ v < 2 ^ 32, x = .uint v) {r : MpackReader}
    (h : Sees mem r (xs.flatMap WireNum.bytes)) :
    Moved r (discardRounds (mpackDiscard mem (fuel + 1)) xs.length r)
      (xs.flatMap WireNum.bytes).length := by
  induction xs generalizing r with
  | nil => exact ⟨by simp [discardRounds], rfl, h.error⟩
  | cons x xs ih =>
    obtain ⟨v, hv, rfl⟩ := hxs x List.mem_cons_self
    rw [List.flatMap_cons] at h ⊢
    obtain ⟨r₁, hread, hmoved⟩ := readTag_uint h.take (by omega)
    have hone : mpackDiscard mem (fuel + 1) r = r₁ := by
      simp [mpackDiscard, hread, hmoved.error]
    rw [List.length_cons, discardRounds, hone, List.length_append]
    simp only [hmoved.error, ne_eq, not_true_eq_false, if_false]
    exact hmoved.trans (ih (fun x hx => hxs x (List.mem_cons_of_mem _ hx)) (h.drop hmoved))

theorem arrayHeader_length_pos (count : Nat) : 0 < (arrayHeader count).length := by
  unfold arrayHeader
  split_ifs
  all_goals simp

/-- The second pass skips the value of an entry as a whole. -/
theorem discard_suits {mem : Mem} {type : ParamType} {value : WireValue}
    (hsuits : WireValue.Suits type value) {r : MpackReader} (h : Sees mem r value.bytes) :
    Moved r (discard mem r) value.bytes.length := by
  cases value with
  | num x =>
    cases x with
    | uint v =>
      have hv := hsuits.2
      exact discard_value h (show v < 2 ^ 64 by omega)
    | int v => exact hsuits.elim
    | float bits => exact hsuits.elim
    | double bits => exact hsuits.elim
  | str bs =>
    have hstdbuf : STDBUF_SIZE = 110 := rfl
    have hlength := hsuits.2
    exact discard_value h (show bs.length < 2 ^ 32 by omega)
  | bin bs => exact hsuits.elim
  | array xs =>
    obtain ⟨-, hlength, hxs⟩ := hsuits
    have hsize : CSP_BUFFER_SIZE = 2048 := rfl
    simp only [WireValue.bytes] at h ⊢
    obtain ⟨r₁, hread, hmoved⟩ := readTag_array h.take (by omega)
    -- The tag takes a byte, so there is fuel for the elements.
    obtain ⟨fuel, hfuel⟩ : ∃ fuel, (r.end_ - r.data).toNat = fuel + 1 := by
      have hpos := arrayHeader_length_pos xs.length
      have hfits := h.take.fits
      exact ⟨(r.end_ - r.data).toNat - 1, by omega⟩
    unfold discard
    rw [hfuel, mpackDiscard, hread]
    simp only [hmoved.error, ne_eq, not_true_eq_false, if_false]
    rw [List.length_append]
    exact hmoved.trans (discardRounds_numbers hxs (h.drop hmoved))

/-! ## §3 Both passes over the entries -/

theorem knownParam_mem {id : Nat} {p : Param} (h : knownParam id = some p) : p ∈ paramTable :=
  List.mem_of_find?_eq_some h

/-- `param_queue_apply` takes any node for the local one. -/
theorem locate_push (sender : Nat) (junk : Junk) (header : Header) :
    locate true sender junk (some header) = knownParam header.id := by
  have hany : ∀ node : Int, 0 ≤ node →
      paramListFindId node header.id = none ∨
        paramListFindId node header.id = knownParam header.id := by
    intro node hnode
    rcases hnode.lt_or_eq with hpos | hzero
    · exact .inl (paramListFindId_remote _ hpos)
    · rw [← hzero]
      exact .inr (paramListFindId_zero header.id)
  unfold locate
  simp only [if_true, paramListFindId_zero]
  split
  · case _ p hfind =>
    have hnonneg : 0 ≤ if ((header.node.getD junk.lastNode : Nat) : Int) = 0 then (sender : Int)
        else (header.node.getD junk.lastNode : Nat) := by
      split <;> omega
    rcases hany _ hnonneg with hnone | hsome
    · rw [hnone] at hfind
      cases hfind
    · rw [← hsome, hfind]
  · rfl

/-- The header of an entry as both passes read it. -/
theorem SetEntry.Local.header {own : Nat} (hown : own ≤ maxNodeid) {e : SetEntry}
    (he : e.Local own) {mem : Mem} {r : MpackReader} {wq rq : QueueState}
    (hv : wq.version = 2) (hsame : SameNode wq rq)
    (h : Sees mem r (indexedHeader wq e.ref e.offset)) :
    ∃ r' rq' header, paramDeserializeId mem r rq = (r', rq', some header) ∧
      header.id = e.ref.id ∧ header.node = some e.ref.node ∧
      SameNode (headerState wq e.ref) rq' ∧
      Moved r r' (indexedHeader wq e.ref e.offset).length := by
  obtain ⟨p, hp, -⟩ := he.suits
  have hmem := knownParam_mem hp
  have hid : e.ref.id < 65536 := by
    have := paramTable_id_lt hmem
    have := (knownParam_eq_some_iff hmem _).mp hp
    omega
  have hnode : e.ref.node < 0xffff := by
    have hmax : maxNodeid < 0xffff := by decide
    have := he.node
    omega
  have hv' : wq.version ≠ 1 := by
    rw [hv]
    decide
  obtain ⟨r', hread, hmoved⟩ := paramDeserializeId_indexed hid hv' h hsame.1
  exact ⟨r', _, _, hread, rfl, hsame.lastNode hv' hnode, hsame.next hv' hnode, hmoved⟩

section Passes

variable {mem : Mem} {own : Nat} (hown : own ≤ maxNodeid) {es : List SetEntry}
  (hes : ∀ e ∈ es, e.Local own) {wq rq : QueueState} (hv : wq.version = 2)
  (hsame : SameNode wq rq) {r : MpackReader} (hsees : Sees mem r (setBytes wq es))
  (hend : r.end_ = r.data + (setBytes wq es).length) {fuel : Nat} (hfuel : es.length ≤ fuel)

include hown hes hv hsame hsees hend hfuel

/-- The first pass applies every entry to its parameter. -/
theorem decodeLoop_set (hmapped : CSP_BUFFER_SIZE < mapped) (sender : Nat) (junk : Junk) :
    (decodeLoop mapped mem (readEntry mem true sender junk) fuel rq r).items.filterMap Item.param =
      es.filterMap SetEntry.param := by
  induction es generalizing wq rq r fuel with
  | nil =>
    -- the end of the queue is the end of the buffer
    have hdone : r.end_ ≤ r.data := by
      rw [hend]
      simp [setBytes]
    cases fuel <;> simp [decodeLoop, hdone]
  | cons e es ih =>
    obtain ⟨fuel, rfl⟩ : ∃ n, fuel = n + 1 := ⟨fuel - 1, by simp at hfuel; omega⟩
    have he := hes e List.mem_cons_self
    rw [setBytes] at hsees hend
    have hmore := not_done_of_left hend (indexedHeader_ne_nil wq e.ref e.offset)
    -- the header, then the value, each consumed as a whole
    obtain ⟨r₁, rq₁, header, hread, hid, -, hsame₁, hmoved₁⟩ := he.header hown hv hsame hsees.take
    obtain ⟨p, hp, hsuits⟩ := he.suits
    have hvalue := hsees.drop hmoved₁
    have hoffset : headerOffset (some header) < 256 := by
      have hbyte := headerOffset_lt mem r rq
      rwa [hread] at hbyte
    obtain ⟨r₂, elems, hdecode, hover, hmoved₂⟩ := decodeParam_suits (knownParam_mem hp) hsuits
      hmapped hoffset hvalue.take
    have hend₂ := hmoved₂.left (hmoved₁.left hend)
    -- a push is applied whatever node the header names
    have hlocate : locate true sender junk (some header) = some p := by
      rw [locate_push, hid]
      exact hp
    have hentry : readEntry mem true sender junk rq r = (rq₁, .found p (some header) r₁) := by
      unfold readEntry
      rw [hread]
      dsimp only
      rw [hlocate]
    have hrest := ih (fun e hmem => hes e (List.mem_cons_of_mem _ hmem))
      ((headerState_version wq e.ref).trans hv) hsame₁ (hvalue.drop hmoved₂) hend₂
      (by simpa using hfuel)
    rw [decodeLoop, if_neg hmore, hentry]
    simp only [hdecode, hover, Bool.false_eq_true, if_false]
    have hitem : Item.param (.known p (some header) r₁ elems) = some p := rfl
    rw [List.filterMap_cons_some hitem, List.filterMap_cons_some hp, hrest]

/-- The second pass comes across the same parameters. -/
theorem pulledFrom_set (junk : Junk) :
    pulledFrom mem own junk fuel rq r = es.filterMap SetEntry.param := by
  induction es generalizing wq rq r fuel with
  | nil =>
    have hdone : r.end_ ≤ r.data := by
      rw [hend]
      simp [setBytes]
    cases fuel <;> simp [pulledFrom, hdone]
  | cons e es ih =>
    obtain ⟨fuel, rfl⟩ : ∃ n, fuel = n + 1 := ⟨fuel - 1, by simp at hfuel; omega⟩
    have he := hes e List.mem_cons_self
    rw [setBytes] at hsees hend
    have hmore := not_done_of_left hend (indexedHeader_ne_nil wq e.ref e.offset)
    -- the same header; its value is skipped instead of stored
    obtain ⟨r₁, rq₁, header, hread, hid, hnode, hsame₁, hmoved₁⟩ :=
      he.header hown hv hsame hsees.take
    obtain ⟨p, hp, hsuits⟩ := he.suits
    have hvalue := hsees.drop hmoved₁
    have hmoved₂ := discard_suits hsuits hvalue.take
    have hend₂ := hmoved₂.left (hmoved₁.left hend)
    -- this lookup does look at the node, which is 0 or the own address
    have hlocate : locateLocal own junk (some header) = some p := by
      rw [locateLocal_node own junk hnode, if_pos he.node, hid]
      exact hp
    have hrest := ih (fun e hmem => hes e (List.mem_cons_of_mem _ hmem))
      ((headerState_version wq e.ref).trans hv) hsame₁ (hvalue.drop hmoved₂) hend₂
      (by simpa using hfuel)
    rw [pulledFrom, if_neg hmore, hread]
    dsimp only
    rw [hlocate, List.filterMap_cons_some hp, hrest]

end Passes

theorem length_le_setBytes (q : QueueState) (es : List SetEntry) :
    es.length ≤ (setBytes q es).length := by
  induction es generalizing q with
  | nil => simp
  | cons e es ih =>
    have := List.length_pos_iff.mpr (indexedHeader_ne_nil q e.ref e.offset)
    have := ih (headerState q e.ref)
    rw [setBytes, List.length_cons]
    simp only [List.length_append]
    omega

/-- The passes agree on a push in version 2 that is meant for this node. -/
theorem LocalPush.agree {env : Env} {packet : CspPacket} (hpush : IsPush packet) {form : PushForm}
    (hform : pushForm env packet = some form) (h : LocalPush form packet) (uninit : Uninit) :
    PassesAgree env form packet uninit := by
  obtain ⟨hversion, hown, es, bufferSize, queue, hadd, hlength, hholds, hes⟩ := h
  -- the bytes of the packet are those of the entries
  have hbuffer : queue.buffer = setBytes ⟨2, some 0xffff, 0⟩ es :=
    addSet_ok (by rfl) (by rfl) hadd
  obtain ⟨hlocal, -, hle⟩ := hpush.form hform
  rw [hlength] at hle
  have hused : usedOf form.length = queue.buffer.length := by
    rw [hlength]
    unfold usedOf
    omega
  have hsees : Sees packet.data (mpackReaderInitData 2 queue.buffer.length)
      (setBytes ⟨2, some 0xffff, 0⟩ es) := by
    rw [← hbuffer]
    exact sees_init hholds (by omega)
  have hend : (mpackReaderInitData 2 queue.buffer.length).end_ =
      (mpackReaderInitData 2 queue.buffer.length).data +
        (setBytes ⟨2, some 0xffff, 0⟩ es).length := by
    rw [← hbuffer]
    rfl
  have hfuel : es.length ≤ queue.buffer.length := by
    rw [hbuffer]
    exact length_le_setBytes _ es
  have hsame : SameNode ⟨2, some 0xffff, 0⟩ (queueStateInit 2) := ⟨rfl, .inr rfl⟩
  -- both passes find the parameters of the entries
  have hpushed : pushedParams env packet uninit = es.filterMap SetEntry.param := by
    rw [pushedParams, packetItems_of_pushForm hform, PushForm.items, PushForm.decode, decodeQueue,
      hlocal, hversion, hused]
    exact decodeLoop_set hown hes rfl hsame hsees hend hfuel env.mapped_ge _ _
  have hpulled : pulledParams form packet uninit = es.filterMap SetEntry.param := by
    rw [pulledParams, hused]
    exact pulledFrom_set hown hes rfl hsame hsees hend hfuel _
  rw [PassesAgree, hpushed, hpulled]

/-- A push in version 2, all of whose entries are for node 0 or the own address, is read back
    as soon as there is a buffer for the reply. -/
theorem readBack_iff_buffer {env : Env} {packet : CspPacket} (hpush : IsPush packet)
    (hflag : packet.data 1 = 1) {form : PushForm} (hform : pushForm env packet = some form)
    (hlocal : LocalPush form packet) (uninit : Uninit) {s : State} (hs : s.dead = false)
    (happlied : AllApplied env packet uninit) :
    ReadBack env packet uninit s ↔ env.cspBufferGet s.buffers = true := by
  rw [readBack_iff_agree hpush hflag hform uninit hs happlied]
  exact and_iff_left (hlocal.agree hpush hform uninit)

/-- `mng_camera_control` twice, and `mng_dipp` by the own address and with an index. -/
def cameraAndDipp : List SetEntry :=
  [⟨⟨33, 0, 0⟩, -1, .num (.uint 5)⟩, ⟨⟨34, 21, 9⟩, 0, .num (.uint 7)⟩,
    ⟨⟨33, 0, 9⟩, -1, .num (.uint 6)⟩]

/-- Their entries in version 2. -/
def cameraAndDippQueue : List UInt8 :=
  [0xcd, 0x21, 0x40, 0, 0, 5, 0xcd, 0x22, 0xe0, 0, 0, 21, 0, 0, 0, 9, 7, 0xcd, 0x21, 0x40, 0, 0, 6]

theorem cameraAndDippPush_fits : ([7, 1] ++ cameraAndDippQueue).length ≤ CSP_BUFFER_SIZE := by
  decide

/-- The push of these entries. -/
def cameraAndDippPush : Delivery := deliveryOf ([7, 1] ++ cameraAndDippQueue) cameraAndDippPush_fits

/-- The reply to it holds each of the two parameters once. -/
theorem readBack_iff_buffer_camera :
    LocalPush ⟨25, 2, true, true⟩ cameraAndDippPush.packet ∧
      ReadBack plainEnv cameraAndDippPush.packet cameraAndDippPush.uninit
        (initialState none none) := by
  have hadd : addSet (paramQueueInit 200 .set 2) cameraAndDipp =
      some ⟨cameraAndDippQueue, 200, .set, ⟨2, some 0, 9⟩⟩ := by
    decide +kernel
  have hentries : ∀ e ∈ cameraAndDipp, e.Local 21 := by
    simp only [cameraAndDipp, List.forall_mem_cons, List.not_mem_nil, false_implies,
      implies_true, and_true]
    exact ⟨⟨.inl rfl, mngCameraControl, rfl, by decide, by decide⟩,
      ⟨.inr rfl, mngDipp, rfl, by decide, by decide⟩,
      ⟨.inl rfl, mngCameraControl, rfl, by decide, by decide⟩⟩
  have hholds : Holds cameraAndDippPush.packet.data 2 cameraAndDippQueue :=
    ((holds_append _ 0 [7, 1] _).mp (holds_ofList 0 ([7, 1] ++ cameraAndDippQueue))).2
  have hlocal : LocalPush ⟨25, 2, true, true⟩ cameraAndDippPush.packet :=
    ⟨rfl, by decide, cameraAndDipp, 200, _, hadd, rfl, hholds, hentries⟩
  have happlied : AllApplied plainEnv cameraAndDippPush.packet cameraAndDippPush.uninit := by
    have hall : ((packetItems plainEnv cameraAndDippPush.packet cameraAndDippPush.uninit).all
        fun item => !item.isUnknown && !item.isOverrun) = true := by
      decide +kernel
    intro item hitem
    simpa using List.all_eq_true.mp hall item hitem
  have hform : pushForm plainEnv cameraAndDippPush.packet = some ⟨25, 2, true, true⟩ := by
    decide
  have hiff := readBack_iff_buffer (s := initialState none none) (.inr (.inl (by decide)))
    (by decide) hform hlocal cameraAndDippPush.uninit rfl happlied
  exact ⟨hlocal, hiff.mpr rfl⟩

/-! ## §4 Pushes that are not read back -/

theorem ackedCameraPush_fits : ([2, 1, 0x21, 5] : List UInt8).length ≤ CSP_BUFFER_SIZE := by
  decide

/-- A V1 push of `mng_camera_control = 5`. -/
def ackedCameraPush : Delivery := deliveryOf [2, 1, 0x21, 5] ackedCameraPush_fits

theorem foreignPush_fits :
    ([7, 1, 0xcd, 0x21, 0x40, 0, 0, 5, 0xcd, 0x22, 0x40, 0, 7, 7] : List UInt8).length ≤
      CSP_BUFFER_SIZE := by
  decide

/-- A V2 push of `mng_camera_control = 5` and, for the node 7, `mng_dipp = 7`. -/
def foreignPush : Delivery :=
  deliveryOf [7, 1, 0xcd, 0x21, 0x40, 0, 0, 5, 0xcd, 0x22, 0x40, 0, 7, 7] foreignPush_fits

/-- The reply to a push from the events of serving it. -/
theorem ReadBack.reply {env : Env} {packet : CspPacket} {uninit : Uninit} {s : State}
    (h : ReadBack env packet uninit s) (evs : List Event)
    (htrace : (paramServe env packet uninit s).trace = s.trace ++ evs) {data : List UInt8}
    (hreply : repliesIn evs = [(replyId packet.id, data)]) :
    decodeResponse data = some ((distinct (pushedParams env packet uninit)).map
      (answerOf (paramServe env packet uninit s))) := by
  obtain ⟨evs', data', htrace', hreply', hdecode⟩ := h
  obtain rfl : evs = evs' := List.append_cancel_left (htrace.symm.trans htrace')
  rw [hreply] at hreply'
  obtain rfl : data = data' := by simpa using hreply'
  exact hdecode

/-- Both pushes are applied; the reply to the first is empty, and the reply to the second holds
    `mng_camera_control` only. -/
theorem foreignPush_unread :
    pushedParams plainEnv ackedCameraPush.packet ackedCameraPush.uninit = [mngCameraControl] ∧
      ¬ ReadBack plainEnv ackedCameraPush.packet ackedCameraPush.uninit (initialState none none) ∧
      pushedParams plainEnv foreignPush.packet foreignPush.uninit = [mngCameraControl, mngDipp] ∧
      ¬ ReadBack plainEnv foreignPush.packet foreignPush.uninit (initialState none none) := by
  refine ⟨by decide +kernel, fun h => ?_, by decide +kernel, fun h => ?_⟩
  · have hdecode := h.reply [.store .mngCameraControl 0 1, .callback .mngCameraControl 5,
        .popen (.startCameraControl 5) true, .fetch 2 4 4, .fetch 2 3 4,
        .reply (replyId ackedCameraPush.packet.id) [6, 0x80]] (by decide +kernel) rfl
    revert hdecode
    decide +kernel
  · have hdecode := h.reply [.store .mngCameraControl 0 1, .callback .mngCameraControl 5,
        .popen (.startCameraControl 5) true, .store .mngDipp 0 1, .callback .mngDipp 7,
        .popen (.startDipp 7) true, .fetch 2 14 14, .fetch 2 14 14,
        .reply (replyId foreignPush.packet.id) [6, 0x80, 0xcd, 0x21, 0x40, 0, 0, 5]]
        (by decide +kernel) rfl
    revert hdecode
    decide +kernel

end AppSysManager.Server
