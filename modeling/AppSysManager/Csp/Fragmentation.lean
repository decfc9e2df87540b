import AppSysManager.Csp.Reassembly

/-!
# Fragmentation

What `csp_can2_tx` puts on the bus, and what `reassemble` makes of it.

- `cspCan2Tx_initial`: whatever the driver refuses, what went out is an initial part of the frames
  of the packet.
- `run_frames`: the frames of a packet give back the CSP frame that `csp_id_prepend` would have
  built of it.
- `run_lost`: of the fragments of a packet, a multiple of eight has to be lost for anything to be
  delivered; `run_lost_eight`: eight in a row are not missed.
-/

namespace AppSysManager.Csp

open AppSysManager.Bytes AppSysManager.Node AppSysManager.Channels
open AppSysManager.Server (CSP_BUFFER_SIZE)

/-! ## §1 Identifiers -/

/-- The identifier of a frame, as a number. -/
theorem canId_eq (id : CspId) (addr sc fc first last : Nat) (hfirst : first < 2)
    (hlast : last < 2) :
    canHeader id addr sc ||| CFP2_FC.put fc ||| CFP2_BEGIN.put first ||| CFP2_END.put last =
      id.pri % 4 * 2 ^ 27 + id.dst % 2 ^ 14 * 2 ^ 13 + addr % 64 * 2 ^ 7 + sc % 4 * 2 ^ 5 +
        fc % 8 * 2 ^ 2 + first * 2 + last := by
  have hend : CFP2_END.put last = last := by
    rw [BitField.put_eq]
    show last % 2 ^ 1 * 2 ^ 0 = last
    omega
  have hbegin : CFP2_BEGIN.put first ||| last = first * 2 + last := by
    rw [BitField.put_or_of_lt (show last < 2 ^ 1 by omega)]
    show first % 2 ^ 1 * 2 ^ 1 + last = _
    omega
  have hfc : CFP2_FC.put fc ||| (first * 2 + last) = fc % 8 * 2 ^ 2 + (first * 2 + last) :=
    BitField.put_or_of_lt (show first * 2 + last < 2 ^ 2 by omega) fc
  have hsc := BitField.put_or_of_lt
    (f := CFP2_SC) (show fc % 8 * 2 ^ 2 + (first * 2 + last) < 2 ^ 5 by omega) sc
  have hsender := BitField.put_or_of_lt (f := CFP2_SENDER)
    (show sc % 2 ^ 2 * 2 ^ 5 + (fc % 8 * 2 ^ 2 + (first * 2 + last)) < 2 ^ 7 by omega) addr
  have hdst := BitField.put_or_of_lt (f := CFP2_DST)
    (show addr % 2 ^ 6 * 2 ^ 7 + (sc % 2 ^ 2 * 2 ^ 5 + (fc % 8 * 2 ^ 2 + (first * 2 + last))) <
      2 ^ 13 by omega) id.dst
  have hpri := BitField.put_or_of_lt (f := CFP2_PRIO)
    (show id.dst % 2 ^ 14 * 2 ^ 13 + (addr % 2 ^ 6 * 2 ^ 7 +
      (sc % 2 ^ 2 * 2 ^ 5 + (fc % 8 * 2 ^ 2 + (first * 2 + last)))) < 2 ^ 27 by omega) id.pri
  change CFP2_SC.put sc ||| _ = sc % 2 ^ 2 * 2 ^ 5 + _ at hsc
  change CFP2_SENDER.put addr ||| _ = addr % 2 ^ 6 * 2 ^ 7 + _ at hsender
  change CFP2_DST.put id.dst ||| _ = id.dst % 2 ^ 14 * 2 ^ 13 + _ at hdst
  change CFP2_PRIO.put id.pri ||| _ = id.pri % 2 ^ 2 * 2 ^ 27 + _ at hpri
  rw [canHeader]
  -- the fields do not overlap, from the least significant one on
  simp only [Nat.or_assoc]
  rw [hend, hbegin, hfc, hsc, hsender, hdst, hpri]
  omega

theorem headerExtension_eq (id : CspId) :
    headerExtension id =
      id.src % 2 ^ 14 * 2 ^ 18 + id.dport % 64 * 2 ^ 12 + id.sport % 64 * 2 ^ 6 + id.flags % 64 := by
  have hflags : CFP2_FLAGS.put id.flags = id.flags % 64 := by
    rw [BitField.put_eq]
    show id.flags % 2 ^ 6 * 2 ^ 0 = _
    omega
  have hsport := BitField.put_or_of_lt (f := CFP2_SPORT) (show id.flags % 64 < 2 ^ 6 by omega)
    id.sport
  have hdport := BitField.put_or_of_lt (f := CFP2_DPORT)
    (show id.sport % 2 ^ 6 * 2 ^ 6 + id.flags % 64 < 2 ^ 12 by omega) id.dport
  have hsrc := BitField.put_or_of_lt (f := CFP2_SRC)
    (show id.dport % 2 ^ 6 * 2 ^ 12 + (id.sport % 2 ^ 6 * 2 ^ 6 + id.flags % 64) < 2 ^ 18 by omega)
    id.src
  change CFP2_SPORT.put id.sport ||| _ = id.sport % 2 ^ 6 * 2 ^ 6 + _ at hsport
  change CFP2_DPORT.put id.dport ||| _ = id.dport % 2 ^ 6 * 2 ^ 12 + _ at hdport
  change CFP2_SRC.put id.src ||| _ = id.src % 2 ^ 14 * 2 ^ 18 + _ at hsrc
  rw [headerExtension]
  simp only [Nat.or_assoc]
  rw [hflags, hsport, hdport, hsrc]
  omega

/-- The header word of a CSP frame whose id fits. -/
theorem word_eq {id : CspId} (h : cspId2.Fits id) :
    cspId2.word id = id.pri * 2 ^ 46 + id.dst * 2 ^ 32 + id.src * 2 ^ 18 + id.dport * 2 ^ 12 +
      id.sport * 2 ^ 6 + id.flags := by
  obtain ⟨hpri, hdst, hsrc, hdport, hsport, hflags⟩ := h
  change id.pri < 2 ^ 2 at hpri
  change id.dst < 2 ^ 14 at hdst
  change id.src < 2 ^ 14 at hsrc
  change id.dport < 2 ^ 6 at hdport
  change id.sport < 2 ^ 6 at hsport
  change id.flags < 2 ^ 6 at hflags
  show id.pri <<< 46 ||| id.dst <<< 32 ||| id.src <<< 18 ||| id.dport <<< 12 ||| id.sport <<< 6 |||
    id.flags <<< 0 = _
  simp only [Nat.or_assoc, Nat.shiftLeft_zero]
  rw [← Nat.shiftLeft_add_eq_or_of_lt hflags id.sport]
  rw [← Nat.shiftLeft_add_eq_or_of_lt (i := 12) (by omega) id.dport]
  rw [← Nat.shiftLeft_add_eq_or_of_lt (i := 18) (by omega) id.src]
  rw [← Nat.shiftLeft_add_eq_or_of_lt (i := 32) (by omega) id.dst]
  rw [← Nat.shiftLeft_add_eq_or_of_lt (i := 46) (by omega) id.pri]
  omega

/-! ## §2 Frames on the bus -/

/-- A frame as it goes over the bus: the driver takes 29 bits and at most eight bytes. -/
def onWire (x : Nat × List UInt8) : CanFrame where
  id := x.1 % 2 ^ 29
  data := x.2.take CAN_FRAME_SIZE
  id_lt := Nat.mod_lt _ (by decide)
  dlc_le := List.length_take_le ..

/-- The connection of a packet. -/
def connOf (id : CspId) (addr sc : Nat) : Nat :=
  CFP2_DST.put id.dst ||| CFP2_SENDER.put addr ||| CFP2_PRIO.put id.pri ||| CFP2_SC.put sc

/-- The connection of a frame, field by field. -/
theorem conn_eq (frame : CanFrame) :
    frame.conn = CFP2_DST.put (CFP2_DST.get frame.id) ||| CFP2_SENDER.put (CFP2_SENDER.get frame.id) |||
      CFP2_PRIO.put ( CFP2_PRIO.get frame.id) ||| CFP2_SC.put (CFP2_SC.get frame.id) := by
  rw [CanFrame.conn, CFP2_ID_CONN_MASK]
  simp only [Nat.and_or_distrib_left, BitField.and_bits]

/-- What the receiver reads of a frame. -/
structure Reads (frame : CanFrame) (id : CspId) (addr sc fc : Nat) (first last : Bool) :
    Prop where
  conn : frame.conn = connOf id addr sc
  isBegin : frame.isBegin = first
  isEnd : frame.isEnd = last
  counter : CFP2_FC.get frame.id = fc % 8
  top : frame.id >>> CFP2_DST.offset = id.pri % 4 * 2 ^ 14 + id.dst % 2 ^ 14

/-- Every field of the identifier is read as it was packed. -/
theorem reads_of_id {frame : CanFrame} {id : CspId} {addr sc fc : Nat} {first last : Bool}
    (hid : frame.id = id.pri % 4 * 2 ^ 27 + id.dst % 2 ^ 14 * 2 ^ 13 + addr % 64 * 2 ^ 7 +
      sc % 4 * 2 ^ 5 + fc % 8 * 2 ^ 2 + first.toNat * 2 + last.toNat) :
    Reads frame id addr sc fc first last := by
  have hfirst : first.toNat < 2 := Bool.toNat_lt first
  have hlast : last.toNat < 2 := Bool.toNat_lt last
  -- the fields one by one, from the top of the identifier
  have hpri : CFP2_PRIO.get frame.id = id.pri % 2 ^ 2 := by
    rw [BitField.get_eq_mod, hid]
    show _ / 2 ^ 27 % 2 ^ 2 = _
    omega
  have hdst : CFP2_DST.get frame.id = id.dst % 2 ^ 14 := by
    rw [BitField.get_eq_mod, hid]
    show _ / 2 ^ 13 % 2 ^ 14 = _
    omega
  have hsender : CFP2_SENDER.get frame.id = addr % 2 ^ 6 := by
    rw [BitField.get_eq_mod, hid]
    show _ / 2 ^ 7 % 2 ^ 6 = _
    omega
  have hsc : CFP2_SC.get frame.id = sc % 2 ^ 2 := by
    rw [BitField.get_eq_mod, hid]
    show _ / 2 ^ 5 % 2 ^ 2 = _
    omega
  have hcounter : CFP2_FC.get frame.id = fc % 8 := by
    rw [BitField.get_eq_mod, hid]
    show _ / 2 ^ 2 % 2 ^ 3 = _
    omega
  have hbegin : CFP2_BEGIN.get frame.id = first.toNat := by
    rw [BitField.get_eq_mod, hid]
    show _ / 2 ^ 1 % 2 ^ 1 = _
    omega
  have hend : CFP2_END.get frame.id = last.toNat := by
    rw [BitField.get_eq_mod, hid]
    show _ / 2 ^ 0 % 2 ^ 1 = _
    omega
  refine ⟨?_, ?_, ?_, hcounter, ?_⟩
  · -- a field of a connection is masked once more, to no effect
    have hdst' : CFP2_DST.put (id.dst % 2 ^ 14) = CFP2_DST.put id.dst := CFP2_DST.put_mod id.dst
    have hsender' : CFP2_SENDER.put (addr % 2 ^ 6) = CFP2_SENDER.put addr :=
      CFP2_SENDER.put_mod addr
    have hpri' : CFP2_PRIO.put (id.pri % 2 ^ 2) = CFP2_PRIO.put id.pri := CFP2_PRIO.put_mod id.pri
    have hsc' : CFP2_SC.put (sc % 2 ^ 2) = CFP2_SC.put sc := CFP2_SC.put_mod sc
    rw [conn_eq, hdst, hsender, hpri, hsc, hdst', hsender', hpri', hsc', connOf]
  · rw [CanFrame.isBegin, hbegin]
    cases first <;> rfl
  · rw [CanFrame.isEnd, hend]
    cases last <;> rfl
  · rw [hid, Nat.shiftRight_eq_div_pow]
    show _ / 2 ^ 13 = _
    omega

theorem onWire_reads (id : CspId) (addr sc fc : Nat) (first last : Bool) (data : List UInt8) :
    Reads (onWire (canHeader id addr sc ||| CFP2_FC.put fc ||| CFP2_BEGIN.put first.toNat |||
      CFP2_END.put last.toNat, data)) id addr sc fc first last := by
  have hfirst : first.toNat < 2 := Bool.toNat_lt first
  have hlast : last.toNat < 2 := Bool.toNat_lt last
  apply reads_of_id
  show (_ ||| _) % 2 ^ 29 = _
  rw [canId_eq id addr sc fc _ _ hfirst hlast]
  exact Nat.mod_eq_of_lt (by omega)

theorem onWire_data {x : Nat × List UInt8} (h : x.2.length ≤ CAN_FRAME_SIZE) :
    (onWire x).data = x.2 := List.take_of_length_le h

/-- The next fragment of `rest`. -/
def nextFrame (header fc : Nat) (rest : List UInt8) : Nat × List UInt8 :=
  (header ||| CFP2_FC.put fc |||
    CFP2_END.put (if (rest.take CAN_FRAME_SIZE).length = rest.length then 1 else 0),
    rest.take CAN_FRAME_SIZE)

/-- The fragments of `rest`, counted from `fc` on. -/
def fragments (header : Nat) : Nat → Nat → List UInt8 → List (Nat × List UInt8)
  | 0, _, _ => []
  | fuel + 1, fc, rest =>
    if rest.length = 0 then []
    else nextFrame header fc rest :: fragments header fuel (fc + 1) (rest.drop CAN_FRAME_SIZE)

/-- The loop of `csp_can2_tx` sends an initial part of the fragments, and succeeds exactly when
    it has sent them all. -/
theorem txLoop_prefix (txFunc : TxFunc) (header fuel fc : Nat) (rest : List UInt8)
    (sent : List (Nat × List UInt8)) :
    ∃ n ≤ (fragments header fuel fc rest).length,
      (txLoop txFunc header fuel fc rest sent).1 =
        sent ++ (fragments header fuel fc rest).take n ∧
      ((txLoop txFunc header fuel fc rest sent).2 = true ↔
        n = (fragments header fuel fc rest).length) := by
  induction fuel generalizing fc rest sent with
  | zero => exact ⟨0, by simp [txLoop, fragments]⟩
  | succ fuel ih =>
    by_cases hrest : rest.length = 0
    · exact ⟨0, by simp [txLoop, fragments, hrest]⟩
    -- one round: the driver takes the next frame, or the loop ends
    have hloop : txLoop txFunc header (fuel + 1) fc rest sent =
        if txFunc sent (nextFrame header fc rest) then
          txLoop txFunc header fuel (fc + 1) (rest.drop CAN_FRAME_SIZE)
            (sent ++ [nextFrame header fc rest])
        else (sent, false) := by
      rw [txLoop, if_neg hrest]
      rfl
    rw [hloop, fragments, if_neg hrest]
    cases txFunc sent (nextFrame header fc rest) with
    | false => exact ⟨0, by simp⟩
    | true =>
      obtain ⟨n, hn, hsent, hok⟩ := ih (fc + 1) (rest.drop CAN_FRAME_SIZE)
        (sent ++ [nextFrame header fc rest])
      refine ⟨n + 1, ?_, ?_, ?_⟩
      · simpa using hn
      · rw [if_pos rfl, hsent, List.take_succ_cons, List.append_assoc, List.singleton_append]
      · rw [if_pos rfl, hok, List.length_cons]
        omega

/-- The BEGIN frame of a packet. -/
def firstFrame (id : CspId) (data : List UInt8) (addr sc : Nat) : Nat × List UInt8 :=
  (canHeader id addr sc ||| CFP2_BEGIN.put 1 |||
    CFP2_END.put (if (data.take 4).length = data.length then 1 else 0),
    bytesBE 4 (headerExtension id) ++ data.take 4)

/-- All frames of a packet. -/
def packetFrames (id : CspId) (data : List UInt8) (addr sc : Nat) : List (Nat × List UInt8) :=
  firstFrame id data addr sc :: fragments (canHeader id addr sc) data.length 1 (data.drop 4)

/-- Whatever the driver refuses, what went out is an initial part of the frames of the packet;
    the call succeeds exactly when it is all of them. -/
theorem txFrames_initial (txFunc : TxFunc) (id : CspId) (data : List UInt8) (addr sc : Nat) :
    ∃ n ≤ (packetFrames id data addr sc).length,
      (txFrames txFunc id data addr sc).1 = (packetFrames id data addr sc).take n ∧
      ((txFrames txFunc id data addr sc).2 = true ↔ n = (packetFrames id data addr sc).length) := by
  have heq : txFrames txFunc id data addr sc =
      if txFunc [] (firstFrame id data addr sc) then
        txLoop txFunc (canHeader id addr sc) data.length 1 (data.drop 4)
          [firstFrame id data addr sc]
      else ([], false) := rfl
  rw [heq]
  cases txFunc [] (firstFrame id data addr sc) with
  | false => exact ⟨0, by simp [packetFrames]⟩
  | true =>
    obtain ⟨n, hn, hsent, hok⟩ := txLoop_prefix txFunc (canHeader id addr sc) data.length 1
      (data.drop 4) [firstFrame id data addr sc]
    refine ⟨n + 1, ?_, ?_, ?_⟩
    · simpa [packetFrames] using hn
    · rw [if_pos rfl, hsent, packetFrames, List.take_succ_cons, List.singleton_append]
    · rw [if_pos rfl, hok, packetFrames, List.length_cons]
      omega

/-- The frames of a packet that `csp_can2_tx` is about to send. -/
def Net.framesOf (net : Net) (p : Nat) : List (Nat × List UInt8) :=
  packetFrames (net.packet p).id (net.packet p).data net.can.addr net.cfpPacketCounter

/-- A packet to another node is sent to the driver frame by frame. -/
theorem cspCan2Tx_other {net : Net} {p : Nat} (h : (net.packet p).id.dst ≠ net.can.addr)
    (txFunc : TxFunc) : (cspCan2Tx txFunc net p).2 =
      txFrames txFunc (net.packet p).id (net.packet p).data net.can.addr net.cfpPacketCounter := by
  rw [cspCan2Tx, if_neg h]
  dsimp only
  rcases txFrames txFunc (net.packet p).id (net.packet p).data net.can.addr net.cfpPacketCounter
    with ⟨sent, ok⟩
  cases ok with
  | true => rfl
  | false => rfl

/-- What `csp_can2_tx` has put on the bus is an initial part of the frames of the packet, and the
    call succeeds exactly when it is all of them.  A packet to the interface itself is handed to
    the router instead. -/
theorem cspCan2Tx_initial (txFunc : TxFunc) (net : Net) (p : Nat) :
    ((net.packet p).id.dst = net.can.addr →
      cspCan2Tx txFunc net p = (cspQfifoWrite net p, [], true)) ∧
    ((net.packet p).id.dst ≠ net.can.addr → ∃ n ≤ (net.framesOf p).length,
      (cspCan2Tx txFunc net p).2.1 = (net.framesOf p).take n ∧
      ((cspCan2Tx txFunc net p).2.2 = true ↔ n = (net.framesOf p).length)) := by
  constructor
  · intro hown
    rw [cspCan2Tx, if_pos hown]
  · intro hother
    rw [cspCan2Tx_other hother]
    exact txFrames_initial txFunc _ _ _ _

/-- A node whose buffer 0 holds twelve bytes for node 9. -/
def ninePacket : Net :=
  { emptyNet with
    packet := fun _ => { emptyNet.packet 0 with id := { idClear with dst := 9 }, length := 12 } }

/-- A driver that takes one frame puts the BEGIN frame of two on the bus. -/
theorem cspCan2Tx_initial_refused :
    ∃ n ≤ 2, (cspCan2Tx (fun sent _ => sent.isEmpty) ninePacket 0).2.1 =
        (ninePacket.framesOf 0).take n ∧
      ((cspCan2Tx (fun sent _ => sent.isEmpty) ninePacket 0).2.2 = true ↔ n = 2) :=
  (cspCan2Tx_initial (fun sent _ => sent.isEmpty) ninePacket 0).2 (by decide)

/-! ## §3 The frames of one packet -/

/-- A packet that can be sent: `csp_send` has filled in the id, and the data fits a buffer. -/
structure Sent where
  id : CspId
  data : List UInt8
  /-- The address of the sending interface. -/
  addr : Nat
  /-- Its packet counter. -/
  count : Nat
  fits : cspId2.Fits id
  length_le : data.length ≤ CSP_BUFFER_SIZE

namespace Sent

variable (s : Sent)

/-- The fragments behind the BEGIN frame. -/
def tail : List CanFrame :=
  (fragments (canHeader s.id s.addr s.count) s.data.length 1 (s.data.drop 4)).map onWire

/-- The BEGIN frame. -/
def first : CanFrame := onWire (firstFrame s.id s.data s.addr s.count)

/-- The frames on the bus. -/
def frames : List CanFrame := (packetFrames s.id s.data s.addr s.count).map onWire

/-- The connection of the frames. -/
def conn : Nat := connOf s.id s.addr s.count

/-- The CSP frame, as an interface that does not cut it up would send it. -/
def bytes : List UInt8 := cspId2.prepend s.id ++ s.data

theorem frames_eq : s.frames = s.first :: s.tail := rfl

theorem bytes_length : s.bytes.length = 6 + s.data.length := by
  rw [bytes, List.length_append]
  show (bytesBE 6 _).length + _ = _
  rw [bytesBE_length]

/-- What the receiver reads of the BEGIN frame. -/
theorem firstFrame_reads :
    Reads s.first s.id s.addr s.count 0 true
      (decide (s.data.length ≤ 4)) := by
  have hend : (if (s.data.take 4).length = s.data.length then 1 else 0) =
      (decide (s.data.length ≤ 4)).toNat := by
    rw [List.length_take]
    by_cases h : s.data.length ≤ 4
    · rw [if_pos (by omega), decide_eq_true h, Bool.toNat_true]
    · rw [if_neg (by omega), decide_eq_false h, Bool.toNat_false]
  have hread := onWire_reads s.id s.addr s.count 0 true (decide (s.data.length ≤ 4))
    (bytesBE 4 (headerExtension s.id) ++ s.data.take 4)
  have hfc : canHeader s.id s.addr s.count ||| CFP2_FC.put 0 =
      canHeader s.id s.addr s.count := Nat.or_zero _
  rw [hfc] at hread
  rw [first, firstFrame, hend]
  exact hread

theorem firstFrame_data :
    s.first.data =
      bytesBE 4 (headerExtension s.id) ++ s.data.take 4 := by
  apply onWire_data
  simp only [firstFrame, List.length_append, bytesBE_length, List.length_take, CAN_FRAME_SIZE]
  omega

/-- Identifier and data of the BEGIN frame hold the header between them. -/
theorem frameHeader_firstFrame :
    frameHeader s.first = cspId2.prepend s.id := by
  have hword := word_eq s.fits
  obtain ⟨hpri, hdst, hsrc, hdport, hsport, hflags⟩ := s.fits
  change s.id.pri < 2 ^ 2 at hpri
  change s.id.dst < 2 ^ 14 at hdst
  change s.id.src < 2 ^ 14 at hsrc
  change s.id.dport < 2 ^ 6 at hdport
  change s.id.sport < 2 ^ 6 at hsport
  change s.id.flags < 2 ^ 6 at hflags
  have hdata : s.first.data.take 4 =
      bytesBE 4 (headerExtension s.id) := by
    rw [s.firstFrame_data]
    exact List.take_left' (bytesBE_length ..)
  -- the upper 16 bits come with the identifier, the lower 32 with the data
  have hhigh : cspId2.word s.id / 256 ^ 4 = s.id.pri % 4 * 2 ^ 14 + s.id.dst % 2 ^ 14 := by
    rw [hword]
    omega
  have hlow : cspId2.word s.id % 256 ^ 4 = headerExtension s.id := by
    rw [hword, headerExtension_eq]
    omega
  rw [frameHeader, s.firstFrame_reads.top, hdata, ← hhigh, ← hlow, bytesBE_mod]
  exact (bytesBE_add 2 4 _).symm

end Sent

section Fragments

variable (id : CspId) (addr sc : Nat)

/-- What the receiver reads of a fragment. -/
theorem nextFrame_reads (fc : Nat) (rest : List UInt8) :
    Reads (onWire (nextFrame (canHeader id addr sc) fc rest)) id addr sc fc false
      (decide (rest.length ≤ 8)) := by
  have hend : (if (rest.take CAN_FRAME_SIZE).length = rest.length then 1 else 0) =
      (decide (rest.length ≤ 8)).toNat := by
    rw [List.length_take, CAN_FRAME_SIZE]
    by_cases h : rest.length ≤ 8
    · rw [if_pos (by omega), decide_eq_true h, Bool.toNat_true]
    · rw [if_neg (by omega), decide_eq_false h, Bool.toNat_false]
  have hread := onWire_reads id addr sc fc false (decide (rest.length ≤ 8))
    (rest.take CAN_FRAME_SIZE)
  have hbegin : canHeader id addr sc ||| CFP2_FC.put fc ||| CFP2_BEGIN.put 0 =
      canHeader id addr sc ||| CFP2_FC.put fc := Nat.or_zero _
  rw [Bool.toNat_false, hbegin] at hread
  rw [nextFrame, hend]
  exact hread

theorem nextFrame_data (header fc : Nat) (rest : List UInt8) :
    (onWire (nextFrame header fc rest)).data = rest.take 8 :=
  onWire_data (List.length_take_le ..)

/-- A fragment at its place. -/
theorem reassemble_nextFrame (fc : Nat) (rest bytes : List UInt8) :
    reassemble (some ⟨fc % 8, bytes⟩) (onWire (nextFrame (canHeader id addr sc) fc rest)) =
      extend ((fc + 1) % 8) bytes (rest.take 8) (decide (rest.length ≤ 8)) := by
  have hreads := nextFrame_reads id addr sc fc rest
  have hcount : (fc % 8 + 1) &&& CFP2_FC.mask = (fc + 1) % 8 := by
    show (fc % 8 + 1) &&& (2 ^ 3 - 1) = _
    rw [Nat.and_two_pow_sub_one_eq_mod]
    omega
  rw [reassemble_next hreads.isBegin hreads.counter.symm, hreads.isEnd, nextFrame_data, hcount]

/-- A fragment that is not the next one. -/
theorem reassemble_nextFrame_lost {e fc : Nat} (h : e % 8 ≠ fc % 8) (rest bytes : List UInt8) :
    reassemble (some ⟨e % 8, bytes⟩) (onWire (nextFrame (canHeader id addr sc) fc rest)) =
      (none, none) := by
  have hreads := nextFrame_reads id addr sc fc rest
  exact reassemble_lost hreads.isBegin (by rw [hreads.counter]; exact h)

theorem extend_last {bytes data : List UInt8} (h : bytes.length + data.length ≤ 6 + CSP_BUFFER_SIZE)
    (e : Nat) : extend e bytes data true = (none, some (bytes ++ data)) := by
  rw [extend, if_neg (by omega), if_pos rfl]

theorem extend_more {bytes data : List UInt8} (h : bytes.length + data.length ≤ 6 + CSP_BUFFER_SIZE)
    (e : Nat) : extend e bytes data false = (some ⟨e, bytes ++ data⟩, none) := by
  rw [extend, if_neg (by omega), if_neg (by simp)]

/-- The fragments of `rest`, on the bus. -/
def fragmentsOn (fuel fc : Nat) (rest : List UInt8) : List CanFrame :=
  (fragments (canHeader id addr sc) fuel fc rest).map onWire

theorem fragmentsOn_nil (fuel fc : Nat) : fragmentsOn id addr sc fuel fc [] = [] := by
  cases fuel <;> rfl

theorem fragmentsOn_cons (fuel fc : Nat) {rest : List UInt8} (h : rest ≠ []) :
    fragmentsOn id addr sc (fuel + 1) fc rest =
      onWire (nextFrame (canHeader id addr sc) fc rest) ::
        fragmentsOn id addr sc fuel (fc + 1) (rest.drop 8) := by
  have hlen : rest.length ≠ 0 := fun hl => h (List.length_eq_zero_iff.mp hl)
  rw [fragmentsOn, fragments, if_neg hlen]
  rfl

/-- The fragments put the rest of a packet behind what is there. -/
theorem run_fragments {fuel : Nat} {rest bytes : List UInt8} (hfuel : rest.length ≤ fuel)
    (hne : rest ≠ []) (hfit : bytes.length + rest.length ≤ 6 + CSP_BUFFER_SIZE) (fc : Nat) :
    reassemble.run (some ⟨fc % 8, bytes⟩) (fragmentsOn id addr sc fuel fc rest) =
      (none, [bytes ++ rest]) := by
  induction fuel generalizing fc rest bytes with
  | zero => exact absurd (List.length_eq_zero_iff.mp (by omega)) hne
  | succ fuel ih =>
    have hpart : bytes.length + (rest.take 8).length ≤ 6 + CSP_BUFFER_SIZE := by
      rw [List.length_take]
      omega
    rw [fragmentsOn_cons id addr sc fuel fc hne, Machine.run_cons, reassemble_nextFrame]
    by_cases hlast : rest.length ≤ 8
    · -- the last fragment holds all that is left
      have htake : rest.take 8 = rest := List.take_of_length_le hlast
      have hdrop : rest.drop 8 = [] := List.drop_eq_nil_of_le hlast
      rw [decide_eq_true hlast, extend_last hpart, htake, hdrop, fragmentsOn_nil]
      rfl
    · have hdrop : rest.drop 8 ≠ [] := by
        intro hnil
        have := List.drop_eq_nil_iff.mp hnil
        omega
      have hrest : reassemble.run (some ⟨(fc + 1) % 8, bytes ++ rest.take 8⟩)
          (fragmentsOn id addr sc fuel (fc + 1) (rest.drop 8)) =
          (none, [bytes ++ rest.take 8 ++ rest.drop 8]) :=
        ih (by rw [List.length_drop]; omega) hdrop
          (by rw [List.length_append, List.length_take, List.length_drop]; omega) (fc + 1)
      rw [decide_eq_false hlast, extend_more hpart, hrest]
      simp

/-- Frames without a BEGIN frame in front of them are ignored. -/
theorem run_stray {w : List CanFrame} (h : ∀ frame ∈ w, frame.isBegin = false) :
    reassemble.run none w = (none, []) := by
  induction w with
  | nil => rfl
  | cons frame w ih =>
    rw [Machine.run_cons, reassemble_stray (h frame (by simp)),
      ih fun g hg => h g (List.mem_cons_of_mem frame hg)]
    rfl

theorem fragmentsOn_length_le (fuel fc : Nat) (rest : List UInt8) :
    (fragmentsOn id addr sc fuel fc rest).length ≤ (rest.length + 7) / 8 := by
  induction fuel generalizing fc rest with
  | zero => exact Nat.zero_le _
  | succ fuel ih =>
    by_cases hne : rest = []
    · rw [hne, fragmentsOn_nil]
      exact Nat.zero_le _
    · have hpos := List.length_pos_iff.mpr hne
      have hrest := ih (fc + 1) (rest.drop 8)
      rw [List.length_drop] at hrest
      rw [fragmentsOn_cons id addr sc fuel fc hne, List.length_cons]
      omega

/-- Every fragment is read as one of its packet. -/
theorem fragmentsOn_reads {fuel fc : Nat} {rest : List UInt8} {frame : CanFrame}
    (h : frame ∈ fragmentsOn id addr sc fuel fc rest) :
    ∃ fc' last, Reads frame id addr sc fc' false last := by
  induction fuel generalizing fc rest with
  | zero => simp [fragmentsOn, fragments] at h
  | succ fuel ih =>
    by_cases hne : rest = []
    · rw [hne, fragmentsOn_nil] at h
      exact absurd h List.not_mem_nil
    · rw [fragmentsOn_cons id addr sc fuel fc hne] at h
      rcases List.mem_cons.mp h with rfl | h
      · exact ⟨fc, _, nextFrame_reads id addr sc fc rest⟩
      · exact ih h

theorem fragmentsOn_isBegin {fuel fc : Nat} {rest : List UInt8} (frame : CanFrame)
    (h : frame ∈ fragmentsOn id addr sc fuel fc rest) : frame.isBegin = false := by
  obtain ⟨_, _, hreads⟩ := fragmentsOn_reads id addr sc h
  exact hreads.isBegin

/-- If something comes of the fragments that were not lost, the counter of the last one has not
    noticed. -/
theorem run_lost_fragments {fuel fc : Nat} (e : Nat) {rest : List UInt8} (bytes : List UInt8)
    {w : List CanFrame} (hw : w.Sublist (fragmentsOn id addr sc fuel fc rest)) :
    (reassemble.run (some ⟨e % 8, bytes⟩) w).2 = [] ∨
      (e + w.length) % 8 = (fc + (fragmentsOn id addr sc fuel fc rest).length) % 8 := by
  induction fuel generalizing fc e rest bytes w with
  | zero =>
    have hnil : w = [] := List.sublist_nil.mp hw
    exact Or.inl (by rw [hnil]; rfl)
  | succ fuel ih =>
    by_cases hne : rest = []
    · rw [hne, fragmentsOn_nil] at hw
      exact Or.inl (by rw [List.sublist_nil.mp hw]; rfl)
    rw [fragmentsOn_cons id addr sc fuel fc hne] at hw ⊢
    -- nothing comes of fragments without a packet they belong to
    have htail : ∀ w', w'.Sublist (fragmentsOn id addr sc fuel (fc + 1) (rest.drop 8)) →
        reassemble.run none w' = (none, []) := fun w' hw' =>
      run_stray fun frame hframe => fragmentsOn_isBegin id addr sc frame (hw'.mem hframe)
    rcases List.sublist_cons_iff.mp hw with hw' | ⟨w', rfl, hw'⟩
    · -- this fragment is lost
      rcases ih e bytes hw' with h | h
      · exact Or.inl h
      · refine Or.inr ?_
        rw [h, List.length_cons]
        congr 1
        omega
    · rw [Machine.run_cons]
      by_cases hcount : e % 8 = fc % 8
      · rw [hcount, reassemble_nextFrame]
        by_cases hfit : 6 + CSP_BUFFER_SIZE < bytes.length + (rest.take 8).length
        · -- the packet has grown too long
          rw [extend, if_pos hfit]
          exact Or.inl (by simp [htail w' hw'])
        by_cases hlast : rest.length ≤ 8
        · have hdrop : rest.drop 8 = [] := List.drop_eq_nil_of_le hlast
          rw [hdrop, fragmentsOn_nil] at hw'
          refine Or.inr ?_
          rw [hdrop, fragmentsOn_nil, List.sublist_nil.mp hw']
          simp only [List.length_cons, List.length_nil]
          omega
        · rw [decide_eq_false hlast, extend_more (by omega)]
          rcases ih (fc + 1) (bytes ++ rest.take 8) hw' with h | h
          · exact Or.inl (by simpa using h)
          · refine Or.inr ?_
            simp only [List.length_cons]
            omega
      · rw [reassemble_nextFrame_lost id addr sc hcount]
        exact Or.inl (by simp [htail w' hw'])

theorem fragmentsOn_drop (k : Nat) {fuel fc : Nat} {rest : List UInt8}
    (hfuel : rest.length ≤ fuel) :
    (fragmentsOn id addr sc fuel fc rest).drop k =
      fragmentsOn id addr sc (fuel - k) (fc + k) (rest.drop (8 * k)) := by
  induction k generalizing fuel fc rest with
  | zero => simp
  | succ k ih =>
    by_cases hne : rest = []
    · rw [hne, fragmentsOn_nil, List.drop_nil, List.drop_nil, fragmentsOn_nil]
    have hpos := List.length_pos_iff.mpr hne
    obtain ⟨fuel, rfl⟩ : ∃ n, fuel = n + 1 := ⟨fuel - 1, by omega⟩
    have hrest : (rest.drop 8).length ≤ fuel := by
      rw [List.length_drop]
      omega
    rw [fragmentsOn_cons id addr sc fuel fc hne, List.drop_succ_cons, ih hrest, List.drop_drop]
    have hfuel' : fuel + 1 - (k + 1) = fuel - k := by omega
    have hfc : fc + 1 + k = fc + (k + 1) := by omega
    have hdrop : 8 + 8 * k = 8 * (k + 1) := by omega
    rw [hfuel', hfc, hdrop]

/-- The first `k` of more fragments than that. -/
theorem run_fragments_take (k : Nat) {fuel fc : Nat} {rest bytes : List UInt8}
    (hfuel : rest.length ≤ fuel) (hk : 8 * k < rest.length)
    (hfit : bytes.length + rest.length ≤ 6 + CSP_BUFFER_SIZE) :
    reassemble.run (some ⟨fc % 8, bytes⟩) ((fragmentsOn id addr sc fuel fc rest).take k) =
      (some ⟨(fc + k) % 8, bytes ++ rest.take (8 * k)⟩, []) := by
  induction k generalizing fuel fc rest bytes with
  | zero => simp
  | succ k ih =>
    have hne : rest ≠ [] := List.length_pos_iff.mp (by omega)
    obtain ⟨fuel, rfl⟩ : ∃ n, fuel = n + 1 := ⟨fuel - 1, by omega⟩
    have htake : rest.take (8 * (k + 1)) = rest.take 8 ++ (rest.drop 8).take (8 * k) := by
      rw [← List.take_add]
      congr 1
      omega
    have hfc : fc + (k + 1) = fc + 1 + k := by omega
    have hrest : reassemble.run (some ⟨(fc + 1) % 8, bytes ++ rest.take 8⟩)
        ((fragmentsOn id addr sc fuel (fc + 1) (rest.drop 8)).take k) =
        (some ⟨(fc + 1 + k) % 8, bytes ++ rest.take 8 ++ (rest.drop 8).take (8 * k)⟩, []) :=
      ih (by rw [List.length_drop]; omega) (by rw [List.length_drop]; omega)
        (by rw [List.length_append, List.length_take, List.length_drop]; omega)
    rw [fragmentsOn_cons id addr sc fuel fc hne, List.take_succ_cons, Machine.run_cons,
      reassemble_nextFrame, decide_eq_false (by omega),
      extend_more (by rw [List.length_take]; omega), hrest, htake, hfc]
    simp

end Fragments

namespace Sent

variable (s : Sent)

/-- What the BEGIN frame does, whatever was there before. -/
theorem reassemble_firstFrame (before : Option Partial) :
    reassemble before s.first =
      extend 1 (cspId2.prepend s.id) (s.data.take 4) (decide (s.data.length ≤ 4)) := by
  have hreads := s.firstFrame_reads
  have hdlc : ¬ s.first.data.length < 4 := by
    rw [s.firstFrame_data, List.length_append, bytesBE_length]
    omega
  have hdrop : s.first.data.drop 4 = s.data.take 4 := by
    rw [s.firstFrame_data]
    exact List.drop_left' (bytesBE_length ..)
  rw [reassemble_begin hreads.isBegin hdlc, s.frameHeader_firstFrame, hdrop, hreads.isEnd]

theorem first_fits :
    (cspId2.prepend s.id).length + (s.data.take 4).length ≤ 6 + CSP_BUFFER_SIZE := by
  have hlen := s.bytes_length
  rw [bytes, List.length_append] at hlen
  have hle := s.length_le
  rw [List.length_take]
  omega

/-- A packet without fragments behind its BEGIN frame. -/
theorem tail_of_le (h : s.data.length ≤ 4) : s.tail = [] := by
  have hdrop : s.data.drop 4 = [] := List.drop_eq_nil_of_le h
  rw [tail, hdrop]
  exact fragmentsOn_nil s.id s.addr s.count s.data.length 1

/-- The frames of a packet give back its CSP frame, whatever the connection was left with. -/
theorem run_frames (before : Option Partial) :
    reassemble.run before s.frames = (none, [s.bytes]) := by
  rw [frames_eq, Machine.run_cons, reassemble_firstFrame]
  by_cases hlast : s.data.length ≤ 4
  · have htake : s.data.take 4 = s.data := List.take_of_length_le hlast
    rw [decide_eq_true hlast, extend_last s.first_fits, htake, s.tail_of_le hlast]
    rfl
  · have hdrop : s.data.drop 4 ≠ [] := by
      intro hnil
      have := List.drop_eq_nil_iff.mp hnil
      omega
    have hlen := s.bytes_length
    rw [bytes, List.length_append] at hlen
    have hle := s.length_le
    have hrest : reassemble.run (some ⟨1 % 8, cspId2.prepend s.id ++ s.data.take 4⟩) s.tail =
        (none, [cspId2.prepend s.id ++ s.data.take 4 ++ s.data.drop 4]) :=
      run_fragments s.id s.addr s.count (by rw [List.length_drop]; omega) hdrop
        (by rw [List.length_append, List.length_take, List.length_drop]; omega) 1
    rw [decide_eq_false hlast, extend_more s.first_fits]
    show ((reassemble.run (some ⟨1 % 8, _⟩) s.tail).1, _) = _
    rw [hrest, bytes]
    simp

/-- Some fragments are lost: nothing is delivered unless their number is a multiple of eight. -/
theorem run_lost (before : Option Partial) {w : List CanFrame} (hw : w.Sublist s.tail) :
    (reassemble.run before (s.first :: w)).2 = [] ∨ w.length % 8 = s.tail.length % 8 := by
  rw [Machine.run_cons, reassemble_firstFrame]
  by_cases hlast : s.data.length ≤ 4
  · rw [s.tail_of_le hlast] at hw ⊢
    rw [List.sublist_nil.mp hw]
    exact Or.inr rfl
  · rw [decide_eq_false hlast, extend_more s.first_fits]
    rcases run_lost_fragments s.id s.addr s.count 1 (cspId2.prepend s.id ++ s.data.take 4) hw
      with h | h
    · exact Or.inl (by simpa using h)
    · refine Or.inr ?_
      change (1 + w.length) % 8 = (1 + s.tail.length) % 8 at h
      omega

/-- Fewer than eight lost fragments: all or nothing. -/
theorem run_lost_few (before : Option Partial) {w : List CanFrame} (hw : w.Sublist s.tail)
    (hfew : s.tail.length < w.length + 8) :
    (reassemble.run before (s.first :: w)).2.Sublist [s.bytes] := by
  rcases s.run_lost before hw with h | h
  · rw [h]
    exact List.nil_sublist _
  · have hle := hw.length_le
    have hall : w = s.tail := hw.eq_of_length (by omega)
    rw [hall, ← s.frames_eq, s.run_frames]

/-- A packet has at most 257 frames. -/
theorem frames_length_le : s.frames.length ≤ 257 := by
  have htail : s.tail.length ≤ ((s.data.drop 4).length + 7) / 8 :=
    fragmentsOn_length_le s.id s.addr s.count ..
  have hle := s.length_le
  have hsize : CSP_BUFFER_SIZE = 2048 := rfl
  rw [List.length_drop] at htail
  rw [frames_eq, List.length_cons]
  omega

/-- All frames belong to the connection. -/
theorem frames_conn {frame : CanFrame} (h : frame ∈ s.frames) : frame.conn = s.conn := by
  rw [frames_eq] at h
  rcases List.mem_cons.mp h with rfl | h
  · exact s.firstFrame_reads.conn
  · obtain ⟨_, _, hreads⟩ := fragmentsOn_reads s.id s.addr s.count h
    exact hreads.conn

/-- Eight fragments in a row are lost and not missed: the packet is delivered without their 64
    bytes. -/
theorem run_lost_eight (k : Nat) (h : 4 + 8 * (k + 8) < s.data.length) :
    reassemble.run none (s.frames.take (k + 1) ++ s.frames.drop (k + 9)) =
      (none, [cspId2.prepend s.id ++ (s.data.take (4 + 8 * k) ++ s.data.drop (4 + 8 * (k + 8)))]) := by
  have hlen := s.bytes_length
  rw [bytes, List.length_append] at hlen
  have hle := s.length_le
  have hfuel : (s.data.drop 4).length ≤ s.data.length := by simp
  have htake : s.data.take (4 + 8 * k) = s.data.take 4 ++ (s.data.drop 4).take (8 * k) :=
    List.take_add
  have hfirst : reassemble.run (some ⟨1 % 8, cspId2.prepend s.id ++ s.data.take 4⟩)
      (s.tail.take k) = (some ⟨(1 + k) % 8,
        cspId2.prepend s.id ++ s.data.take 4 ++ (s.data.drop 4).take (8 * k)⟩, []) :=
    run_fragments_take s.id s.addr s.count k hfuel (by rw [List.length_drop]; omega)
      (by rw [List.length_append, List.length_take, List.length_drop]; omega)
  have hdrop : s.tail.drop (k + 8) = fragmentsOn s.id s.addr s.count (s.data.length - (k + 8))
      (1 + (k + 8)) (s.data.drop (4 + 8 * (k + 8))) := by
    rw [tail]
    change (fragmentsOn s.id s.addr s.count _ _ _).drop (k + 8) = _
    rw [fragmentsOn_drop s.id s.addr s.count (k + 8) hfuel, List.drop_drop]
  -- the counter has gone round once
  have hcount : (1 + k) % 8 = (1 + (k + 8)) % 8 := by omega
  have hlast : reassemble.run (some ⟨(1 + k) % 8,
        cspId2.prepend s.id ++ s.data.take 4 ++ (s.data.drop 4).take (8 * k)⟩)
      (s.tail.drop (k + 8)) = (none, [cspId2.prepend s.id ++ s.data.take 4 ++
        (s.data.drop 4).take (8 * k) ++ s.data.drop (4 + 8 * (k + 8))]) := by
    rw [hdrop, hcount]
    apply run_fragments
    · rw [List.length_drop]
      omega
    · exact List.length_pos_iff.mp (by rw [List.length_drop]; omega)
    · simp only [List.length_append, List.length_take, List.length_drop]
      omega
  rw [frames_eq, List.take_succ_cons, List.drop_succ_cons, List.cons_append, Machine.run_cons,
    reassemble_firstFrame, decide_eq_false (by omega), extend_more s.first_fits,
    Machine.run_append]
  change ((reassemble.run (reassemble.run (some ⟨1 % 8, _⟩) _).1 _).1,
    [] ++ ((reassemble.run (some ⟨1 % 8, _⟩) _).2 ++
      (reassemble.run (reassemble.run (some ⟨1 % 8, _⟩) _).1 _).2)) = _
  rw [hfirst]
  show ((reassemble.run _ _).1, [] ++ ([] ++ (reassemble.run _ _).2)) = _
  rw [hlast, htake]
  simp

end Sent

end AppSysManager.Csp
