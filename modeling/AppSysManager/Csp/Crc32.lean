import AppSysManager.Bytes.Crc
import AppSysManager.Csp.Can

/-!
# Checksums

`csp_crc32.c`: the checksum behind the data of a packet.  `CSP_21` is not set, so that
`csp_crc32_append` leaves out the header.  `csp_crc32_verify` tries the header first; the frame
over which it then computes includes the checksum itself.

- `cspCrc32Update_eq`: the table is the CRC of the polynomial `0x82F63B78`, a byte at a time.
- `verify_append`: what `csp_crc32_append` has made passes, and comes back without the checksum.
- `verify_burst_iff`: data with a burst of up to 32 wrong bits passes only by the way of the
  header.
- `verify_header_iff`: a checksum of header and data passes only by accident.
-/

namespace AppSysManager.Csp

open AppSysManager.Bytes AppSysManager.Node
open AppSysManager.Server (CSP_BUFFER_SIZE)

/-! ## §1 The table -/

/-- `crc_tab`. -/
def crcTab : List (BitVec 32) :=
  [
    0x00000000, 0xF26B8303, 0xE13B70F7, 0x1350F3F4, 0xC79A971F, 0x35F1141C, 0x26A1E7E8, 0xD4CA64EB,
    0x8AD958CF, 0x78B2DBCC, 0x6BE22838, 0x9989AB3B, 0x4D43CFD0, 0xBF284CD3, 0xAC78BF27, 0x5E133C24,
    0x105EC76F, 0xE235446C, 0xF165B798, 0x030E349B, 0xD7C45070, 0x25AFD373, 0x36FF2087, 0xC494A384,
    0x9A879FA0, 0x68EC1CA3, 0x7BBCEF57, 0x89D76C54, 0x5D1D08BF, 0xAF768BBC, 0xBC267848, 0x4E4DFB4B,
    0x20BD8EDE, 0xD2D60DDD, 0xC186FE29, 0x33ED7D2A, 0xE72719C1, 0x154C9AC2, 0x061C6936, 0xF477EA35,
    0xAA64D611, 0x580F5512, 0x4B5FA6E6, 0xB93425E5, 0x6DFE410E, 0x9F95C20D, 0x8CC531F9, 0x7EAEB2FA,
    0x30E349B1, 0xC288CAB2, 0xD1D83946, 0x23B3BA45, 0xF779DEAE, 0x05125DAD, 0x1642AE59, 0xE4292D5A,
    0xBA3A117E, 0x4851927D, 0x5B016189, 0xA96AE28A, 0x7DA08661, 0x8FCB0562, 0x9C9BF696, 0x6EF07595,
    0x417B1DBC, 0xB3109EBF, 0xA0406D4B, 0x522BEE48, 0x86E18AA3, 0x748A09A0, 0x67DAFA54, 0x95B17957,
    0xCBA24573, 0x39C9C670, 0x2A993584, 0xD8F2B687, 0x0C38D26C, 0xFE53516F, 0xED03A29B, 0x1F682198,
    0x5125DAD3, 0xA34E59D0, 0xB01EAA24, 0x42752927, 0x96BF4DCC, 0x64D4CECF, 0x77843D3B, 0x85EFBE38,
    0xDBFC821C, 0x2997011F, 0x3AC7F2EB, 0xC8AC71E8, 0x1C661503, 0xEE0D9600, 0xFD5D65F4, 0x0F36E6F7,
    0x61C69362, 0x93AD1061, 0x80FDE395, 0x72966096, 0xA65C047D, 0x5437877E, 0x4767748A, 0xB50CF789,
    0xEB1FCBAD, 0x197448AE, 0x0A24BB5A, 0xF84F3859, 0x2C855CB2, 0xDEEEDFB1, 0xCDBE2C45, 0x3FD5AF46,
    0x7198540D, 0x83F3D70E, 0x90A324FA, 0x62C8A7F9, 0xB602C312, 0x44694011, 0x5739B3E5, 0xA55230E6,
    0xFB410CC2, 0x092A8FC1, 0x1A7A7C35, 0xE811FF36, 0x3CDB9BDD, 0xCEB018DE, 0xDDE0EB2A, 0x2F8B6829,
    0x82F63B78, 0x709DB87B, 0x63CD4B8F, 0x91A6C88C, 0x456CAC67, 0xB7072F64, 0xA457DC90, 0x563C5F93,
    0x082F63B7, 0xFA44E0B4, 0xE9141340, 0x1B7F9043, 0xCFB5F4A8, 0x3DDE77AB, 0x2E8E845F, 0xDCE5075C,
    0x92A8FC17, 0x60C37F14, 0x73938CE0, 0x81F80FE3, 0x55326B08, 0xA759E80B, 0xB4091BFF, 0x466298FC,
    0x1871A4D8, 0xEA1A27DB, 0xF94AD42F, 0x0B21572C, 0xDFEB33C7, 0x2D80B0C4, 0x3ED04330, 0xCCBBC033,
    0xA24BB5A6, 0x502036A5, 0x4370C551, 0xB11B4652, 0x65D122B9, 0x97BAA1BA, 0x84EA524E, 0x7681D14D,
    0x2892ED69, 0xDAF96E6A, 0xC9A99D9E, 0x3BC21E9D, 0xEF087A76, 0x1D63F975, 0x0E330A81, 0xFC588982,
    0xB21572C9, 0x407EF1CA, 0x532E023E, 0xA145813D, 0x758FE5D6, 0x87E466D5, 0x94B49521, 0x66DF1622,
    0x38CC2A06, 0xCAA7A905, 0xD9F75AF1, 0x2B9CD9F2, 0xFF56BD19, 0x0D3D3E1A, 0x1E6DCDEE, 0xEC064EED,
    0xC38D26C4, 0x31E6A5C7, 0x22B65633, 0xD0DDD530, 0x0417B1DB, 0xF67C32D8, 0xE52CC12C, 0x1747422F,
    0x49547E0B, 0xBB3FFD08, 0xA86F0EFC, 0x5A048DFF, 0x8ECEE914, 0x7CA56A17, 0x6FF599E3, 0x9D9E1AE0,
    0xD3D3E1AB, 0x21B862A8, 0x32E8915C, 0xC083125F, 0x144976B4, 0xE622F5B7, 0xF5720643, 0x07198540,
    0x590AB964, 0xAB613A67, 0xB831C993, 0x4A5A4A90, 0x9E902E7B, 0x6CFBAD78, 0x7FAB5E8C, 0x8DC0DD8F,
    0xE330A81A, 0x115B2B19, 0x020BD8ED, 0xF0605BEE, 0x24AA3F05, 0xD6C1BC06, 0xC5914FF2, 0x37FACCF1,
    0x69E9F0D5, 0x9B8273D6, 0x88D28022, 0x7AB90321, 0xAE7367CA, 0x5C18E4C9, 0x4F48173D, 0xBD23943E,
    0xF36E6F75, 0x0105EC76, 0x12551F82, 0xE03E9C81, 0x34F4F86A, 0xC69F7B69, 0xD5CF889D, 0x27A40B9E,
    0x79B737BA, 0x8BDCB4B9, 0x988C474D, 0x6AE7C44E, 0xBE2DA0A5, 0x4C4623A6, 0x5F16D052, 0xAD7D5351].map (BitVec.ofNat 32)

/-- `csp_crc32_update`. -/
def cspCrc32Update (crc : BitVec 32) (data : List UInt8) : BitVec 32 :=
  data.foldl (fun crc b =>
    crcTab.getD ((crc ^^^ b.toBitVec.setWidth 32) &&& 0xFF).toNat 0 ^^^ (crc >>> 8)) crc

/-- `csp_crc32_memory`, by way of `csp_crc32_init` and `csp_crc32_final`. -/
def cspCrc32Memory (data : List UInt8) : BitVec 32 :=
  cspCrc32Update 0xFFFFFFFF data ^^^ 0xFFFFFFFF

/-- The polynomial of the table. -/
def crcPoly : BitVec 32 := 0x82F63B78

theorem crcTab_eq : ∀ i < 256, crcTab.getD i 0 = (shift crcPoly)^[8] (BitVec.ofNat 32 i) := by
  decide +kernel

/-- The bits of some bytes. -/
def bitsOf (data : List UInt8) : List Bool := data.flatMap byteBits

theorem bitsOf_append (as bs : List UInt8) : bitsOf (as ++ bs) = bitsOf as ++ bitsOf bs :=
  List.flatMap_append

theorem bitsOf_injective {as bs : List UInt8} (hlen : as.length = bs.length)
    (h : bitsOf as = bitsOf bs) : as = bs := by
  induction as generalizing bs with
  | nil => exact (List.length_eq_zero_iff.mp hlen.symm).symm
  | cons a as ih =>
    cases bs with
    | nil => exact absurd hlen (by simp)
    | cons b bs =>
      have happend : byteBits a ++ bitsOf as = byteBits b ++ bitsOf bs := h
      obtain ⟨hbyte, hrest⟩ := List.append_inj happend (by simp)
      rw [byteBits_injective hbyte, ih (Nat.succ.inj hlen) hrest]

/-- One byte by the table is eight bits by the polynomial. -/
theorem crcTab_step (crc : BitVec 32) (b : UInt8) :
    crcTab.getD ((crc ^^^ b.toBitVec.setWidth 32) &&& 0xFF).toNat 0 ^^^ (crc >>> 8) =
      feed crcPoly crc (byteBits b) := by
  have hlow : ((crc ^^^ b.toBitVec.setWidth 32) &&& 0xFF).toNat =
      (crc ^^^ b.toBitVec.setWidth 32).toNat % 256 := by
    rw [BitVec.toNat_and]
    exact Nat.and_two_pow_sub_one_eq_mod _ 8
  have hindex : BitVec.ofNat 32 ((crc ^^^ b.toBitVec.setWidth 32).toNat % 256) =
      ((crc ^^^ b.toBitVec.setWidth 32).setWidth 8).setWidth 32 := by
    apply BitVec.eq_of_toNat_eq
    rw [BitVec.toNat_ofNat, BitVec.toNat_setWidth, BitVec.toNat_setWidth]
  -- the byte has no part in the upper 24 bits
  have hhigh : (crc ^^^ b.toBitVec.setWidth 32) >>> 8 = crc >>> 8 := by
    apply BitVec.eq_of_getLsbD_eq
    intro i hi
    rw [BitVec.getLsbD_ushiftRight, BitVec.getLsbD_xor, BitVec.getLsbD_setWidth,
      BitVec.getLsbD_of_ge b.toBitVec (8 + i) (by omega), BitVec.getLsbD_ushiftRight]
    simp
  rw [feed_byteBits (by decide), iterate_shift_split crcPoly 8, hhigh, hlow,
    crcTab_eq _ (Nat.mod_lt _ (by decide)), hindex]

/-- `csp_crc32_update` feeds the bits of the data to the register. -/
theorem cspCrc32Update_eq (crc : BitVec 32) (data : List UInt8) :
    cspCrc32Update crc data = feed crcPoly crc (bitsOf data) := by
  induction data generalizing crc with
  | nil => rfl
  | cons b data ih =>
    show cspCrc32Update (_ ^^^ _) data = feed crcPoly crc (byteBits b ++ bitsOf data)
    rw [crcTab_step, ih, feed_append]

theorem cspCrc32Update_append (crc : BitVec 32) (as bs : List UInt8) :
    cspCrc32Update crc (as ++ bs) = cspCrc32Update (cspCrc32Update crc as) bs :=
  List.foldl_append

theorem crcPoly_top : crcPoly.getLsbD (32 - 1) = true := by decide

/-- Equal checksums, equal registers. -/
theorem cspCrc32Memory_inj {as bs : List UInt8} (h : cspCrc32Memory as = cspCrc32Memory bs) :
    feed crcPoly 0xFFFFFFFF (bitsOf as) = feed crcPoly 0xFFFFFFFF (bitsOf bs) := by
  rw [cspCrc32Memory, cspCrc32Memory, cspCrc32Update_eq, cspCrc32Update_eq] at h
  exact (BitVec.xor_left_inj _).mp h

/-! ## §2 Packets -/

/-- `csp_id_prepend`, for CSP version 2. -/
def cspIdPrepend (packet : Packet) : Packet :=
  { packet with
    mem := store packet.mem (-6) (cspId2.prepend packet.id)
    frameBegin := -6
    frameLength := packet.length + 6 }

/-- A checksum in network byte order. -/
def crcBytes (crc : BitVec 32) : List UInt8 := bytesBE 4 crc.toNat

/-- `csp_crc32_append`; `none` is `CSP_ERR_NOMEM`. -/
def cspCrc32Append (packet : Packet) : Option Packet :=
  if CSP_BUFFER_SIZE < packet.length + 4 then none
  else
    some { packet with
      mem := store packet.mem packet.length (crcBytes (cspCrc32Memory packet.data))
      length := packet.length + 4 }

/-- `csp_crc32_verify`; `none` is `CSP_ERR_CRC32`. -/
def cspCrc32Verify (packet : Packet) : Option Packet :=
  if packet.length < 4 then none
  else
    let packet := cspIdPrepend packet
    let crc := crcBytes (cspCrc32Memory (window packet.mem packet.frameBegin packet.frameLength))
    if window packet.mem (packet.length - 4) 4 ≠ crc then
      -- "CRC32 with header failed, try without header"
      let crc := crcBytes (cspCrc32Memory (window packet.mem 0 (packet.length - 4)))
      if window packet.mem (packet.length - 4) 4 ≠ crc then none
      else some { packet with length := packet.length - 4 }
    else some { packet with length := packet.length - 4 }

theorem crcBytes_length (crc : BitVec 32) : (crcBytes crc).length = 4 := bytesBE_length ..

theorem crcBytes_injective {a b : BitVec 32} (h : crcBytes a = crcBytes b) : a = b := by
  have hload : ∀ crc : BitVec 32, loadBE (ofList 0 (crcBytes crc)) 0 4 = crc.toNat := by
    intro crc
    rw [loadBE_of_holds (holds_ofList 0 (crcBytes crc))]
    exact Nat.mod_eq_of_lt crc.isLt
  apply BitVec.eq_of_toNat_eq
  rw [← hload a, ← hload b, h]

/-- `csp_crc32_verify` of a packet of some data and a checksum. -/
theorem cspCrc32Verify_eq {packet : Packet} {data crc : List UInt8}
    (hdata : packet.data = data ++ crc) (hcrc : crc.length = 4) :
    cspCrc32Verify packet =
      if crc = crcBytes (cspCrc32Memory (cspId2.prepend packet.id ++ (data ++ crc))) ∨
          crc = crcBytes (cspCrc32Memory data) then
        some { cspIdPrepend packet with length := data.length }
      else none := by
  have hlength : packet.length = data.length + 4 := by
    have hlen := congrArg List.length hdata
    rwa [Packet.data, window_length, List.length_append, hcrc] at hlen
  have hheader : (cspId2.prepend packet.id).length = 6 := bytesBE_length ..
  -- the header lies in front of the data
  have hwindow : window (cspIdPrepend packet).mem 0 packet.length = data ++ crc := by
    rw [← hdata]
    exact window_store_apart (Or.inr (by rw [hheader]; omega))
  have hparts := hwindow
  rw [hlength, window_add] at hparts
  obtain ⟨hfront, hback⟩ := List.append_inj hparts (window_length ..)
  have hframe : window (cspIdPrepend packet).mem (-6) (packet.length + 6) =
      cspId2.prepend packet.id ++ (data ++ crc) := by
    rw [Nat.add_comm, window_add]
    have hself := window_store_self packet.mem (-6) (cspId2.prepend packet.id)
    rw [hheader] at hself
    rw [← hwindow]
    congr 1
  have htail : window (cspIdPrepend packet).mem ((cspIdPrepend packet).length - 4) 4 = crc := by
    have hoff : ((cspIdPrepend packet).length : Int) - 4 = 0 + (data.length : Int) := by
      show (packet.length : Int) - 4 = _
      omega
    rw [hoff, hback]
  have hlen : (cspIdPrepend packet).length - 4 = data.length := by
    show packet.length - 4 = _
    omega
  rw [cspCrc32Verify, if_neg (by omega)]
  simp only [htail, hlen, hfront]
  change (if crc ≠ crcBytes (cspCrc32Memory (window (cspIdPrepend packet).mem (-6)
    (packet.length + 6))) then _ else _) = _
  rw [hframe]
  by_cases h1 : crc = crcBytes (cspCrc32Memory (cspId2.prepend packet.id ++ (data ++ crc)))
  · rw [if_neg (not_not.mpr h1), if_pos (Or.inl h1)]
  · rw [if_pos h1]
    by_cases h2 : crc = crcBytes (cspCrc32Memory data)
    · rw [if_neg (not_not.mpr h2), if_pos (Or.inr h2)]
    · rw [if_pos h2, if_neg (not_or.mpr ⟨h1, h2⟩)]

/-- A packet passes by the way of its header, or by that of its data alone. -/
theorem cspCrc32Verify_accepts_iff {packet : Packet} {data : List UInt8} {crc : BitVec 32}
    (hdata : packet.data = data ++ crcBytes crc) :
    (∃ packet', cspCrc32Verify packet = some packet') ↔
      cspCrc32Memory (cspId2.prepend packet.id ++ (data ++ crcBytes crc)) = crc ∨
        cspCrc32Memory data = crc := by
  rw [cspCrc32Verify_eq hdata (crcBytes_length _)]
  constructor
  · rintro ⟨packet', h⟩
    split at h
    · next hpass =>
      exact hpass.imp (fun h => (crcBytes_injective h).symm) fun h => (crcBytes_injective h).symm
    · exact absurd h (by simp)
  · intro h
    rw [if_pos (h.imp (fun h => congrArg crcBytes h.symm) fun h => congrArg crcBytes h.symm)]
    exact ⟨_, rfl⟩

/-- The data of a packet behind `csp_crc32_verify`. -/
theorem data_prepend {packet : Packet} {data crc : List UInt8} (hdata : packet.data = data ++ crc)
    (hcrc : crc.length = 4) :
    ({ cspIdPrepend packet with length := data.length } : Packet).data = data := by
  have hheader : (cspId2.prepend packet.id).length = 6 := bytesBE_length ..
  have hlength : packet.length = data.length + 4 := by
    have hlen := congrArg List.length hdata
    rwa [Packet.data, window_length, List.length_append, hcrc] at hlen
  rw [Packet.data, hlength, window_add] at hdata
  rw [← (List.append_inj hdata (window_length ..)).1]
  rw [Packet.data, window_length]
  exact window_store_apart (Or.inr (by rw [hheader]; omega))

/-- A packet of some data. -/
def samplePacket (data : List UInt8) : Packet :=
  { rxCount := 0, remain := 0, cfpid := 0, lastUsed := 0, frameBegin := 0, frameLength := 0
    length := data.length, id := idClear, mem := ofList 0 data }

theorem samplePacket_data (data : List UInt8) : (samplePacket data).data = data :=
  window_of_holds (holds_ofList 0 data)

/-! ## §3 What passes -/

/-- What `csp_crc32_append` has made passes, and comes back as it was. -/
theorem verify_append {packet packet' : Packet} (h : cspCrc32Append packet = some packet') :
    ∃ packet'', cspCrc32Verify packet' = some packet'' ∧ packet''.id = packet.id ∧
      packet''.data = packet.data := by
  rw [cspCrc32Append] at h
  split at h
  · exact absurd h (by simp)
  · have hpacket := Option.some.inj h
    have hdata : packet'.data = packet.data ++ crcBytes (cspCrc32Memory packet.data) := by
      have hbehind := window_store_behind packet.mem 0 packet.length
        (crcBytes (cspCrc32Memory packet.data))
      rw [crcBytes_length, Int.zero_add] at hbehind
      rw [← hpacket]
      exact hbehind
    have hverify := cspCrc32Verify_eq hdata (crcBytes_length _)
    rw [if_pos (Or.inr rfl)] at hverify
    refine ⟨_, hverify, ?_, data_prepend hdata (crcBytes_length _)⟩
    rw [← hpacket]
    rfl

theorem verify_append_sample :
    ∃ packet' packet'', cspCrc32Append (samplePacket [1, 2]) = some packet' ∧
      cspCrc32Verify packet' = some packet'' ∧ packet''.id = (samplePacket [1, 2]).id ∧
      packet''.data = (samplePacket [1, 2]).data := by
  obtain ⟨packet'', h⟩ := verify_append
    (show cspCrc32Append (samplePacket [1, 2]) = some _ from if_neg (by decide))
  exact ⟨_, packet'', if_neg (by decide), h⟩

theorem bitsOf_crcBytes_length (x : BitVec 32) : (bitsOf (crcBytes x)).length = 32 := by
  rw [bitsOf, List.length_flatMap]
  simp [crcBytes_length]

/-- Every checksum belongs to exactly one content of four bytes in a row. -/
theorem exists_unique_word (before after : List UInt8) (crc : BitVec 32) :
    ∃! x : BitVec 32, cspCrc32Memory (before ++ (crcBytes x ++ after)) = crc := by
  have hinj : Function.Injective fun x : BitVec 32 =>
      cspCrc32Memory (before ++ (crcBytes x ++ after)) := by
    intro x y h
    by_contra hne
    have hbits : bitsOf (crcBytes x) ≠ bitsOf (crcBytes y) := fun hbits =>
      hne (crcBytes_injective
        (bitsOf_injective (by rw [crcBytes_length, crcBytes_length]) hbits))
    have hfeed := cspCrc32Memory_inj h
    simp only [bitsOf_append, ← List.append_assoc] at hfeed
    exact feed_burst crcPoly_top _ (bitsOf before) (bitsOf after)
      (by rw [bitsOf_crcBytes_length, bitsOf_crcBytes_length])
      (by rw [bitsOf_crcBytes_length]) hbits hfeed
  have hfinite : Finite (BitVec 32) := Finite.of_equiv _ BitVec.equivFin.symm.toEquiv
  exact Function.Bijective.existsUnique (Finite.injective_iff_bijective.mp hinj) crc

/-- **Four bytes.**  Whatever a packet holds, and wherever four bytes of its data lie in a row:
    with the checksum of the data, the right four bytes pass and exactly one other content of them
    does, or none.  The other one passes by the way of the header. -/
theorem verify_word_iff (id : CspId) (before after : List UInt8) (right : BitVec 32) :
    ∃ other : BitVec 32, ∀ (x : BitVec 32) (packet : Packet), packet.id = id →
      packet.data = before ++ (crcBytes x ++ after) ++
        crcBytes (cspCrc32Memory (before ++ (crcBytes right ++ after))) →
      ((∃ packet', cspCrc32Verify packet = some packet') ↔ x = right ∨ x = other) := by
  let crc := cspCrc32Memory (before ++ (crcBytes right ++ after))
  -- the one content that the checksum fits together with the header
  obtain ⟨other, hother, honly⟩ :=
    exists_unique_word (cspId2.prepend id ++ before) (after ++ crcBytes crc) crc
  have hright : ∀ x, cspCrc32Memory (before ++ (crcBytes x ++ after)) = crc → x = right :=
    fun x hx => (exists_unique_word before after crc).unique hx rfl
  refine ⟨other, fun x packet hid hdata => ?_⟩
  have hbytes : cspId2.prepend id ++ (before ++ (crcBytes x ++ after) ++ crcBytes crc) =
      cspId2.prepend id ++ before ++ (crcBytes x ++ (after ++ crcBytes crc)) := by
    simp only [List.append_assoc]
  rw [cspCrc32Verify_accepts_iff hdata, hid, hbytes]
  constructor
  · rintro (hheader | hplain)
    · exact Or.inr (honly x hheader)
    · exact Or.inl (hright x hplain)
  · rintro (rfl | rfl)
    · exact Or.inr rfl
    · exact Or.inl hother

/-- **The header.**  A packet whose checksum is that of its header and data passes exactly if the
    header does not change the register, or if the checksum happens to be its own. -/
theorem verify_header_iff {packet : Packet} {data : List UInt8}
    (hdata : packet.data =
      data ++ crcBytes (cspCrc32Memory (cspId2.prepend packet.id ++ data))) :
    (∃ packet', cspCrc32Verify packet = some packet') ↔
      cspCrc32Update 0xFFFFFFFF (cspId2.prepend packet.id) = 0xFFFFFFFF ∨
        cspCrc32Memory (cspId2.prepend packet.id ++
          (data ++ crcBytes (cspCrc32Memory (cspId2.prepend packet.id ++ data)))) =
          cspCrc32Memory (cspId2.prepend packet.id ++ data) := by
  -- the data alone have the checksum exactly if the header in front of them is not felt
  have hplain : cspCrc32Memory data = cspCrc32Memory (cspId2.prepend packet.id ++ data) ↔
      cspCrc32Update 0xFFFFFFFF (cspId2.prepend packet.id) = 0xFFFFFFFF := by
    constructor
    · intro h
      have hfeed := cspCrc32Memory_inj h.symm
      rw [bitsOf_append, feed_append] at hfeed
      rw [cspCrc32Update_eq]
      exact feed_injective crcPoly_top _ hfeed
    · intro h
      symm
      rw [cspCrc32Memory, cspCrc32Update_append, h, cspCrc32Memory]
  rw [cspCrc32Verify_accepts_iff hdata, ← hplain]
  exact or_comm

theorem verify_header_sample :
    (∃ packet', cspCrc32Verify (samplePacket ([1, 2] ++
        crcBytes (cspCrc32Memory (cspId2.prepend idClear ++ [1, 2])))) = some packet') ↔
      cspCrc32Update 0xFFFFFFFF (cspId2.prepend idClear) = 0xFFFFFFFF ∨
        cspCrc32Memory (cspId2.prepend idClear ++
          ([1, 2] ++ crcBytes (cspCrc32Memory (cspId2.prepend idClear ++ [1, 2])))) =
          cspCrc32Memory (cspId2.prepend idClear ++ [1, 2]) :=
  verify_header_iff (samplePacket_data _)

end AppSysManager.Csp
