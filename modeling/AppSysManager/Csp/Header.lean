import AppSysManager.Bytes.BitFields
import AppSysManager.Node.State

/-!
# CSP Headers

`csp_id.c`: the packet header of the Cubesat Space Protocol, in the layouts of its versions 1
and 2.  A `Layout` says where the six fields lie in the header word and carries the proof that
they do not overlap.

`csp_id1_prepend` and `csp_id2_prepend` shift the fields into place without masking them: a
field that is too wide for its place runs over into its neighbour.  `csp_id1_strip` and
`csp_id2_strip` do mask.

- `strip_prepend_iff`: exactly the ids whose fields fit their places survive the header.
-/

namespace AppSysManager.Csp

open AppSysManager.Bytes AppSysManager.Node

/-! ## §1 Layouts -/

/-- Places of the fields in a header of `size` bytes. -/
structure Layout where
  size : Nat
  pri : BitField
  dst : BitField
  src : BitField
  dport : BitField
  sport : BitField
  flags : BitField
  /-- No two fields share a bit. -/
  apart : [pri, dst, src, dport, sport, flags].Pairwise BitField.Disjoint
  /-- All of them lie in the header. -/
  inside : ∀ f ∈ [pri, dst, src, dport, sport, flags], f.offset + f.width ≤ 8 * size

/-- The `CSP_ID1_` constants. -/
def cspId1 : Layout where
  size := 4
  pri := ⟨2, 30⟩
  src := ⟨5, 25⟩
  dst := ⟨5, 20⟩
  dport := ⟨6, 14⟩
  sport := ⟨6, 8⟩
  flags := ⟨8, 0⟩
  apart := by decide
  inside := by decide

/-- The `CSP_ID2_` constants. -/
def cspId2 : Layout where
  size := 6
  pri := ⟨2, 46⟩
  dst := ⟨14, 32⟩
  src := ⟨14, 18⟩
  dport := ⟨6, 12⟩
  sport := ⟨6, 6⟩
  flags := ⟨6, 0⟩
  apart := by decide
  inside := by decide

namespace Layout

variable (L : Layout)

/-- The header word of `csp_id1_prepend` and `csp_id2_prepend`. -/
def word (id : CspId) : Nat :=
  id.pri <<< L.pri.offset ||| id.dst <<< L.dst.offset ||| id.src <<< L.src.offset |||
    id.dport <<< L.dport.offset ||| id.sport <<< L.sport.offset ||| id.flags <<< L.flags.offset

/-- `csp_id1_prepend`, `csp_id2_prepend`: the header in network byte order, as it is placed in
    front of the data. -/
def prepend (id : CspId) : List UInt8 := bytesBE L.size (L.word id)

/-- The fields of a header word. -/
def parse (word : Nat) : CspId :=
  { pri := L.pri.get word
    dst := L.dst.get word
    src := L.src.get word
    dport := L.dport.get word
    sport := L.sport.get word
    flags := L.flags.get word }

/-- `csp_id1_strip`, `csp_id2_strip`: the id and the data length of a frame of `frameLength`
    bytes at `off`; `none` if the frame is shorter than a header. -/
def strip (mem : Mem) (off : Int) (frameLength : Nat) : Option (CspId × Nat) :=
  if frameLength < L.size then none
  else some (L.parse (loadBE mem off L.size), frameLength - L.size)

/-- Every field of the id fits its place in the header. -/
structure Fits (id : CspId) : Prop where
  pri : id.pri < 2 ^ L.pri.width
  dst : id.dst < 2 ^ L.dst.width
  src : id.src < 2 ^ L.src.width
  dport : id.dport < 2 ^ L.dport.width
  sport : id.sport < 2 ^ L.sport.width
  flags : id.flags < 2 ^ L.flags.width

/-! ## §2 The round trip -/

/-- What a parsed header holds fits its place. -/
theorem parse_fits (word : Nat) : L.Fits (L.parse word) where
  pri := L.pri.get_lt word
  dst := L.dst.get_lt word
  src := L.src.get_lt word
  dport := L.dport.get_lt word
  sport := L.sport.get_lt word
  flags := L.flags.get_lt word

/-- Shifting is putting, for a value that fits. -/
theorem shiftLeft_eq_put {f : BitField} {v : Nat} (h : v < 2 ^ f.width) :
    v <<< f.offset = f.put v := by
  rw [BitField.put, BitField.mask, Nat.and_two_pow_sub_one_of_lt_two_pow h]

variable {L}

theorem word_of_fits {id : CspId} (h : L.Fits id) :
    L.word id = L.pri.put id.pri ||| L.dst.put id.dst ||| L.src.put id.src |||
      L.dport.put id.dport ||| L.sport.put id.sport ||| L.flags.put id.flags := by
  rw [word, shiftLeft_eq_put h.pri, shiftLeft_eq_put h.dst, shiftLeft_eq_put h.src,
    shiftLeft_eq_put h.dport, shiftLeft_eq_put h.sport, shiftLeft_eq_put h.flags]

/-- Reading the fields of a word into which they were put. -/
theorem parse_word {id : CspId} (h : L.Fits id) : L.parse (L.word id) = id := by
  have hapart := L.apart
  simp only [List.pairwise_cons, List.mem_cons, List.not_mem_nil, or_false, forall_eq_or_imp,
    forall_eq, List.Pairwise.nil, and_true] at hapart
  obtain ⟨⟨h1, h2, h3, h4, h5⟩, ⟨h6, h7, h8, h9⟩, ⟨h10, h11, h12⟩, ⟨h13, h14⟩, h15, -⟩ := hapart
  rw [word_of_fits h]
  -- every field reads itself, and nothing of the other five
  simp only [parse, BitField.get_or, BitField.get_put_self,
    BitField.get_put_disjoint, h1, h2, h3, h4, h5, h6, h7, h8, h9, h10, h11, h12, h13, h14, h15,
    h1.symm, h2.symm, h3.symm, h4.symm, h5.symm, h6.symm, h7.symm, h8.symm, h9.symm, h10.symm,
    h11.symm, h12.symm, h13.symm, h14.symm, h15.symm,
    Nat.or_zero, Nat.zero_or, Nat.mod_eq_of_lt h.pri, Nat.mod_eq_of_lt h.dst,
    Nat.mod_eq_of_lt h.src, Nat.mod_eq_of_lt h.dport, Nat.mod_eq_of_lt h.sport,
    Nat.mod_eq_of_lt h.flags]

/-- The bits behind the header are lost, and no field lies there. -/
theorem parse_mod (word : Nat) : L.parse (word % 256 ^ L.size) = L.parse word := by
  have hpow : 256 ^ L.size = 2 ^ (8 * L.size) := by rw [Nat.pow_mul]
  have hin := L.inside
  simp only [List.mem_cons, List.not_mem_nil, or_false, forall_eq_or_imp, forall_eq] at hin
  obtain ⟨h1, h2, h3, h4, h5, h6⟩ := hin
  rw [hpow, parse, parse, BitField.get_of_mod h1, BitField.get_of_mod h2, BitField.get_of_mod h3,
    BitField.get_of_mod h4, BitField.get_of_mod h5, BitField.get_of_mod h6]

/-- A header that `prepend` has placed in memory is parsed to its word. -/
theorem parse_load {mem : Mem} {off : Int} {id : CspId} (h : Holds mem off (L.prepend id)) :
    L.parse (loadBE mem off L.size) = L.parse (L.word id) := by
  rw [loadBE_of_holds h, parse_mod]

end Layout

/-- A frame of a header and data is stripped to the id and the length of the data exactly when
    the fields of the id fit: a field that does not fit comes back changed, or changes another. -/
theorem strip_prepend_iff (L : Layout) (id : CspId) (data : List UInt8) {mem : Mem} {off : Int}
    (hframe : Holds mem off (L.prepend id ++ data)) :
    L.strip mem off (L.size + data.length) = some (id, data.length) ↔ L.Fits id := by
  have hload := Layout.parse_load ((holds_append mem off _ _).mp hframe).1
  have hlen : ¬ L.size + data.length < L.size := by omega
  rw [Layout.strip, if_neg hlen, hload, Nat.add_sub_cancel_left]
  constructor
  · intro h
    have hid : L.parse (L.word id) = id := congrArg Prod.fst (Option.some.inj h)
    exact hid ▸ L.parse_fits (L.word id)
  · intro h
    rw [Layout.parse_word h]

theorem strip_prepend_ping :
    cspId2.strip (ofList 0 (cspId2.prepend ⟨2, 0, 5, 3, 1, 40⟩ ++ [7, 7])) 0 8 =
        some (⟨2, 0, 5, 3, 1, 40⟩, 2) ↔
      cspId2.Fits ⟨2, 0, 5, 3, 1, 40⟩ :=
  strip_prepend_iff cspId2 ⟨2, 0, 5, 3, 1, 40⟩ [7, 7] (holds_ofList 0 _)

end AppSysManager.Csp
