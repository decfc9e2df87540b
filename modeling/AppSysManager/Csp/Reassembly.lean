import AppSysManager.Channels.Demux
import AppSysManager.Csp.Buffers

/-!
# Reassembly

What `csp_can2_rx` is for, and that it does it.  The abstract side is a machine that puts one
packet together from its frames (`reassemble`), and a table with one such machine for every
connection (`tableStep`).  A connection is what `CFP2_ID_CONN_MASK` leaves of an identifier.

`Refines` connects the table with the buffers and the linked list of the interface.

- `cspCan2Rx_refines`: a frame takes the interface from a state that refines a table to one
  that refines the next table, and hands to the router what the table puts out.
-/

namespace AppSysManager.Csp

open AppSysManager.Bytes AppSysManager.Node AppSysManager.Channels
open AppSysManager.Server (CSP_BUFFER_SIZE)

/-! ## §1 The abstract machine -/

/-- A half received packet: the fragment counter that has to come next, and the bytes of the
    CSP frame so far, header included. -/
structure Partial where
  expected : Nat
  bytes : List UInt8

/-- Data that belongs to the packet has arrived. -/
def extend (expected : Nat) (bytes data : List UInt8) (isEnd : Bool) :
    Option Partial × Option (List UInt8) :=
  if 6 + CSP_BUFFER_SIZE < bytes.length + data.length then (none, none)
  else if isEnd then (none, some (bytes ++ data))
  else (some ⟨expected, bytes ++ data⟩, none)

/-- The first six bytes of a CSP frame, from its BEGIN frame. -/
def frameHeader (frame : CanFrame) : List UInt8 :=
  bytesBE 2 (frame.id >>> CFP2_DST.offset) ++ frame.data.take 4

/-- One connection: a BEGIN frame starts a packet afresh, and a fragment that is not the next
    one ends it. -/
def reassemble : Machine (Option Partial) CanFrame (List UInt8) := fun s frame =>
  if frame.isBegin then
    if frame.data.length < 4 then (none, none)
    else extend 1 (frameHeader frame) (frame.data.drop 4) frame.isEnd
  else
    match s with
    | none => (none, none)
    | some p =>
      if p.expected ≠ CFP2_FC.get frame.id then (none, none)
      else extend ((p.expected + 1) &&& CFP2_FC.mask) p.bytes frame.data frame.isEnd

section Steps

variable {frame : CanFrame}

theorem reassemble_short (h : frame.isBegin = true) (hdlc : frame.data.length < 4)
    (s : Option Partial) : reassemble s frame = (none, none) := by
  rw [reassemble.eq_def]
  simp only [h, hdlc, if_true]

theorem reassemble_begin (h : frame.isBegin = true) (hdlc : ¬ frame.data.length < 4)
    (s : Option Partial) :
    reassemble s frame = extend 1 (frameHeader frame) (frame.data.drop 4) frame.isEnd := by
  rw [reassemble.eq_def]
  simp only [h, hdlc, if_true, if_false]

theorem reassemble_stray (h : frame.isBegin = false) : reassemble none frame = (none, none) := by
  rw [reassemble.eq_def]
  simp [h]

theorem reassemble_lost (h : frame.isBegin = false) {p : Partial}
    (hfc : p.expected ≠ CFP2_FC.get frame.id) : reassemble (some p) frame = (none, none) := by
  rw [reassemble.eq_def]
  simp [h, hfc]

theorem reassemble_next (h : frame.isBegin = false) {p : Partial}
    (hfc : p.expected = CFP2_FC.get frame.id) :
    reassemble (some p) frame =
      extend ((p.expected + 1) &&& CFP2_FC.mask) p.bytes frame.data frame.isEnd := by
  rw [reassemble.eq_def]
  simp [h, hfc]

end Steps

/-- All connections, with the time at which each was last used. -/
abbrev Table := Nat → Option (Partial × Nat)

/-- Has a packet timed out? -/
def stale (now lastUsed : Nat) : Bool :=
  decide (PBUF_TIMEOUT_MS < (now + 2 ^ 32 - lastUsed) % 2 ^ 32)

/-- Forget what has timed out. -/
def Table.cleanup (t : Table) (now : Nat) : Table := fun k =>
  (t k).filter fun e => !stale now e.2

/-- One frame.  Nothing times out before a new packet needs room; without room for it the
    packet is lost. -/
def tableStep (room : Bool) (clock : Clock) (t : Table) (frame : CanFrame) :
    Table × Option (List UInt8) :=
  match t frame.conn with
  | some (p, _) =>
    (Function.update t frame.conn ((reassemble (some p) frame).1.map (·, clock.find)),
      (reassemble (some p) frame).2)
  | none =>
    if frame.isBegin then
      if room then
        (Function.update (t.cleanup clock.cleanup) frame.conn
          ((reassemble none frame).1.map (·, clock.new)), (reassemble none frame).2)
      else (t.cleanup clock.cleanup, none)
    else (t, none)

/-! ## §2 The relation -/

/-- The bytes of the frame a packet holds. -/
def Packet.bytes (packet : Packet) : List UInt8 :=
  window packet.mem packet.frameBegin packet.frameLength

/-- The connection a packet was opened for. -/
def Packet.conn (packet : Packet) : Nat := packet.cfpid &&& CFP2_ID_CONN_MASK

/-- The entry of a packet in the table. -/
def Packet.entry (packet : Packet) : Partial × Nat :=
  (⟨packet.rxCount, packet.bytes⟩, packet.lastUsed)

/-- A packet whose BEGIN frame has been stored. -/
structure Begun (packet : Packet) : Prop where
  frameBegin : packet.frameBegin = -6
  header_le : 6 ≤ packet.frameLength
  length_le : packet.frameLength ≤ 6 + CSP_BUFFER_SIZE

/-- The half received packets of the interface are the entries of the table. -/
structure Refines (net : Net) (l held : List Nat) (t : Table) : Prop where
  pool : Pool net l held
  shows : ∀ q ∈ l, t (net.packet q).conn = some (net.packet q).entry
  only : ∀ k, t k ≠ none → ∃ q ∈ l, (net.packet q).conn = k
  begun : ∀ q ∈ l, Begun (net.packet q)
  inj : ∀ p ∈ l, ∀ q ∈ l, (net.packet p).conn = (net.packet q).conn → p = q

/-- As `Refines`, but for the packet `p`, which is being worked on. -/
structure Processing (net : Net) (l held : List Nat) (t : Table) (p : Nat) : Prop where
  pool : Pool net l held
  mem : p ∈ l
  shows : ∀ q ∈ l, q ≠ p → t (net.packet q).conn = some (net.packet q).entry
  only : ∀ k, k ≠ (net.packet p).conn → t k ≠ none → ∃ q ∈ l, (net.packet q).conn = k
  begun : ∀ q ∈ l, q ≠ p → Begun (net.packet q)
  inj : ∀ p ∈ l, ∀ q ∈ l, (net.packet p).conn = (net.packet q).conn → p = q

/-- The id of a received frame.  An L2 broadcast is addressed to the interface. -/
def receivedId (addr : Nat) (frame : List UInt8) : CspId :=
  let id := cspId2.parse (loadBE (ofList 0 frame) 0 6)
  if id.dst = 0x3FFF then { id with dst := addr } else id

/-- A packet as the router gets it. -/
structure Carries (packet : Packet) (addr : Nat) (frame : List UInt8) : Prop where
  id : packet.id = receivedId addr frame
  length : packet.length = frame.length - 6
  data : packet.data = frame.drop 6

/-- What a step hands to the router; a packet that finds the queue full is dropped. -/
def Delivers (net net' : Net) : Option (List UInt8) → Prop
  | none => net'.qfifo = net.qfifo
  | some frame =>
    if net.qfifo.length < CSP_QFIFO_LEN then
      ∃ p, net'.qfifo = net.qfifo ++ [(p, .can)] ∧ Carries (net'.packet p) net.can.addr frame
    else net'.qfifo = net.qfifo

/-- What a step from `net` has come to: the next table is refined, the output delivered, and
    whatever belongs to others is as it was.  At most `used` buffers were taken. -/
structure After (net : Net) (held : List Nat) (used : Nat) (t : Table)
    (out : Option (List UInt8)) (net' : Net) (l : List Nat) : Prop where
  refines : Refines net' l held t
  delivers : Delivers net net' out
  others : ∀ q ∈ net.qfifo.map Prod.fst ++ held, net'.packet q = net.packet q
  addr : net'.can.addr = net.can.addr
  free : net.free.length ≤ net'.free.length + used

/-! ## §3 Working on one packet -/

theorem Refines.processing {net : Net} {l held : List Nat} {t : Table} (h : Refines net l held t)
    {p : Nat} (hp : p ∈ l) : Processing net l held t p where
  pool := h.pool
  mem := hp
  shows := fun q hq _ => h.shows q hq
  only := fun k _ hk => h.only k hk
  begun := fun q hq _ => h.begun q hq
  inj := h.inj

/-- Only the packets of the list matter. -/
theorem Refines.congr {net net' : Net} {l held held' : List Nat} {t : Table}
    (h : Refines net l held t) (hpool : Pool net' l held')
    (hpacket : ∀ q ∈ l, net'.packet q = net.packet q) : Refines net' l held' t where
  pool := hpool
  shows := fun q hq => by rw [hpacket q hq]; exact h.shows q hq
  only := fun k hk => by
    obtain ⟨q, hq, hconn⟩ := h.only k hk
    exact ⟨q, hq, by rw [hpacket q hq]; exact hconn⟩
  begun := fun q hq => by rw [hpacket q hq]; exact h.begun q hq
  inj := fun p hp q hq heq => by
    rw [hpacket p hp, hpacket q hq] at heq
    exact h.inj p hp q hq heq

namespace Processing

variable {net : Net} {l held : List Nat} {t : Table} {p : Nat}

/-- The packet itself may change, as long as it stays with its connection. -/
theorem setPacket (h : Processing net l held t p) {packet : Packet}
    (hcfpid : packet.cfpid = (net.packet p).cfpid) :
    Processing (net.setPacket p packet) l held t p := by
  have hother : ∀ q, q ≠ p → (net.setPacket p packet).packet q = net.packet q :=
    fun q hq => net.setPacket_other hq packet
  have hconn : ∀ q, ((net.setPacket p packet).packet q).conn = (net.packet q).conn := by
    intro q
    by_cases hq : q = p
    · rw [hq, net.setPacket_self, Packet.conn, Packet.conn, hcfpid]
    · rw [hother q hq]
  exact {
    pool := h.pool.congr rfl rfl rfl rfl
    mem := h.mem
    shows := fun q hq hne => by
      rw [hconn, hother q hne]
      exact h.shows q hq hne
    only := fun k hk ht => by
      rw [hconn] at hk
      obtain ⟨q, hq, hqk⟩ := h.only k hk ht
      exact ⟨q, hq, by rw [hconn]; exact hqk⟩
    begun := fun q hq hne => by
      rw [hother q hne]
      exact h.begun q hq hne
    inj := fun a ha b hb heq => by
      rw [hconn, hconn] at heq
      exact h.inj a ha b hb heq }

/-- No other packet belongs to the connection of `p`. -/
theorem conn_ne (h : Processing net l held t p) {q : Nat} (hq : q ∈ l) (hne : q ≠ p) :
    (net.packet q).conn ≠ (net.packet p).conn := by
  intro heq
  exact hne (h.inj q hq p h.mem heq)

/-- The packet stays in the list. -/
theorem keep (h : Processing net l held t p) (hbegun : Begun (net.packet p)) :
    Refines net l held
      (Function.update t (net.packet p).conn (some (net.packet p).entry)) where
  pool := h.pool
  shows := fun q hq => by
    by_cases hne : q = p
    · rw [hne, Function.update_self]
    · rw [Function.update_of_ne (h.conn_ne hq hne)]
      exact h.shows q hq hne
  only := fun k hk => by
    by_cases hkp : k = (net.packet p).conn
    · exact ⟨p, h.mem, hkp.symm⟩
    · rw [Function.update_of_ne hkp] at hk
      exact h.only k hkp hk
  begun := fun q hq => by
    by_cases hne : q = p
    · exact hne ▸ hbegun
    · exact h.begun q hq hne
  inj := h.inj

/-- The packet leaves the list. -/
theorem leave (h : Processing net l held t p) {pbufs : Links Nat}
    (hpool : Pool { net with pbufs } (l.erase p) (p :: held)) :
    Refines { net with pbufs } (l.erase p) (p :: held)
      (Function.update t (net.packet p).conn none) := by
  have hsub : ∀ q ∈ l.erase p, q ∈ l ∧ q ≠ p := fun q hq =>
    ⟨List.mem_of_mem_erase hq, fun heq => h.pool.chain.nodup.not_mem_erase (heq ▸ hq)⟩
  exact {
    pool := hpool
    shows := fun q hq => by
      obtain ⟨hql, hne⟩ := hsub q hq
      rw [Function.update_of_ne (h.conn_ne hql hne)]
      exact h.shows q hql hne
    only := fun k hk => by
      by_cases hkp : k = (net.packet p).conn
      · rw [hkp, Function.update_self] at hk
        exact absurd rfl hk
      · rw [Function.update_of_ne hkp] at hk
        obtain ⟨q, hq, hqk⟩ := h.only k hkp hk
        have hne : q ≠ p := by
          rintro rfl
          exact hkp hqk.symm
        exact ⟨q, (List.mem_erase_of_ne hne).mpr hq, hqk⟩
    begun := fun q hq => h.begun q (hsub q hq).1 (hsub q hq).2
    inj := fun a ha b hb => h.inj a (hsub a ha).1 b (hsub b hb).1 }

/-- Counters and error numbers do not matter. -/
theorem counters (h : Processing net l held t p) {net' : Net}
    (hrefcount : net'.refcount = net.refcount) (hfree : net'.free = net.free)
    (hpbufs : net'.pbufs = net.pbufs) (hqfifo : net'.qfifo = net.qfifo)
    (hpacket : net'.packet = net.packet) : Processing net' l held t p where
  pool := h.pool.congr hrefcount hfree hpbufs hqfifo
  mem := h.mem
  shows := hpacket ▸ h.shows
  only := hpacket ▸ h.only
  begun := hpacket ▸ h.begun
  inj := hpacket ▸ h.inj

/-- A packet that is given up. -/
theorem discard (h : Processing net l held t p) (errno : CanErrno) :
    ∃ net', discardPacket net p errno = some net' ∧
      After net held 0 (Function.update t (net.packet p).conn none) none net' (l.erase p) := by
  have hcounted : Processing { net.countFrame with dbgCanErrno := errno } l held t p :=
    h.counters rfl rfl rfl rfl rfl
  obtain ⟨pbufs, hsweep, hpool⟩ := hcounted.pool.unlink h.mem
  have hleave := hcounted.leave hpool
  have hfree := hpool.free_eq (p := p) (by simp)
  have hpool' := hpool.free rfl
  rw [hfree] at hpool'
  refine ⟨_, ?_, hleave.congr hpool' fun _ _ => rfl, rfl, fun _ _ => rfl, rfl, ?_⟩
  · rw [discardPacket, cspCanPbufFree, hsweep]
    exact congrArg some hfree
  · show net.free.length ≤ (net.free ++ [p]).length + 0
    simp

/-- A complete packet goes to the router. -/
theorem complete (h : Processing net l held t p) {frame : List UInt8}
    (hcarries : Carries (net.packet p) net.can.addr frame) :
    ∃ net' net'', cspCanPbufFree net p false = some net' ∧ cspQfifoWrite net' p = net'' ∧
      After net held 0 (Function.update t (net.packet p).conn none) (some frame) net''
        (l.erase p) := by
  obtain ⟨pbufs, hsweep, hpool⟩ := h.pool.unlink h.mem
  have hleave := h.leave hpool
  have hpool' := hpool.qfifoWrite rfl
  refine ⟨{ net with pbufs }, _, ?_, rfl, ?_⟩
  · rw [cspCanPbufFree, hsweep]
    rfl
  by_cases hroom : net.qfifo.length < CSP_QFIFO_LEN
  · have heq := Pool.enqueue_eq (p := p)
      (show ({ net with pbufs } : Net).qfifo.length < CSP_QFIFO_LEN from hroom)
    rw [heq] at hpool' ⊢
    refine ⟨hleave.congr hpool' fun _ _ => rfl, ?_, fun _ _ => rfl, rfl, Nat.le_refl _⟩
    rw [Delivers, if_pos hroom]
    exact ⟨p, rfl, hcarries⟩
  · -- the queue is full: the packet is freed
    have hcounted : Pool { net with
        pbufs
        dbgConnOvf := net.dbgConnOvf + 1
        can := { net.can with drop := net.can.drop + 1 } } (l.erase p) (p :: held) :=
      hpool.congr rfl rfl rfl rfl
    have heq : cspQfifoWrite { net with pbufs } p = _ :=
      (if_neg hroom).trans (hcounted.free_eq (p := p) (by simp))
    rw [heq] at hpool' ⊢
    refine ⟨hleave.congr hpool' fun _ _ => rfl, ?_, fun _ _ => rfl, rfl, ?_⟩
    · rw [Delivers, if_neg hroom]
    · show net.free.length ≤ (net.free ++ [p]).length + 0
      simp

end Processing

/-! ## §4 Frames -/

/-- What the router gets of a complete frame. -/
theorem carries_strip {packet : Packet} (h : Begun packet) (addr : Nat) :
    Carries (rewriteBroadcast addr (cspIdStrip packet)) addr packet.bytes := by
  have hstrip : cspIdStrip packet =
      { packet with
        id := cspId2.parse (loadBE packet.mem (-6) 6)
        length := packet.frameLength - 6
        lastUsed := 0 } := by
    have hlen : ¬ packet.frameLength < 6 := by
      have := h.header_le
      omega
    simp only [cspIdStrip, Layout.strip, cspId2, h.frameBegin, hlen, if_false]
  -- the header lies in the six bytes in front of the data
  have hid : cspId2.parse (loadBE (ofList 0 packet.bytes) 0 6) =
      cspId2.parse (loadBE packet.mem (-6) 6) := by
    obtain ⟨n, hn⟩ : ∃ n, packet.frameLength = 6 + n := ⟨packet.frameLength - 6, by
      have := h.header_le
      omega⟩
    have hheader : loadBE (ofList 0 packet.bytes) 0 6 =
        loadBE (ofList 0 (window packet.mem (-6) 6)) 0 6 := by
      apply loadBE_congr
      intro i hlo hhi
      rw [Packet.bytes, hn, h.frameBegin, window_add]
      simp only [ofList, hlo, if_true]
      rw [List.getD_append _ _ _ _ (by simp; omega)]
    rw [hheader, loadBE_window]
  have hdata : window packet.mem 0 (packet.frameLength - 6) = packet.bytes.drop 6 := by
    obtain ⟨n, hn⟩ : ∃ n, packet.frameLength = 6 + n := ⟨packet.frameLength - 6, by
      have := h.header_le
      omega⟩
    rw [Packet.bytes, hn, h.frameBegin, window_add, List.drop_left' (by simp)]
    congr 1
    omega
  rw [hstrip, rewriteBroadcast]
  refine ⟨?_, ?_, ?_⟩
  · rw [receivedId, hid]
    simp only
    split <;> rfl
  · split <;> simp [Packet.bytes]
  · rw [← hdata]
    split <;> rfl

/-- A step that began with a change to the packets and counters of the interface alone. -/
theorem After.of_same {net net' net'' : Net} {held l : List Nat} {used used' : Nat} {t : Table}
    {out : Option (List UInt8)} (h : After net' held used t out net'' l)
    (hqfifo : net'.qfifo = net.qfifo) (haddr : net'.can.addr = net.can.addr)
    (hfree : net.free.length + used ≤ net'.free.length + used')
    (hpacket : ∀ q ∈ net.qfifo.map Prod.fst ++ held, net'.packet q = net.packet q) :
    After net held used' t out net'' l where
  refines := h.refines
  delivers := by
    have hdelivers := h.delivers
    cases out with
    | none => rw [Delivers] at hdelivers ⊢; rw [hdelivers, hqfifo]
    | some frame => rw [Delivers, hqfifo, haddr] at hdelivers; exact hdelivers
  others := fun q hq => (h.others q (hqfifo ▸ hq)).trans (hpacket q hq)
  addr := h.addr.trans haddr
  free := by
    have := h.free
    omega

/-- A packet of the list is nobody else's. -/
theorem Pool.others_ne {net : Net} {l held : List Nat} (h : Pool net l held) {p : Nat}
    (hp : p ∈ l) {q : Nat} (hq : q ∈ net.qfifo.map Prod.fst ++ held) : q ≠ p := by
  rintro rfl
  simp only [List.mem_append] at hq
  refine (List.nodup_append.mp h.nodup).2.2 q hp q ?_ rfl
  simp only [List.mem_append]
  tauto

namespace Processing

variable {net : Net} {l held : List Nat} {t : Table} {p : Nat}

/-- Changing the packet that is being worked on is nobody else's business. -/
theorem after_setPacket (h : Processing net l held t p) {packet : Packet} {used : Nat} {t' : Table}
    {out : Option (List UInt8)} {net'' : Net} {l' : List Nat}
    (hafter : After (net.setPacket p packet) held used t' out net'' l') :
    After net held used t' out net'' l' :=
  hafter.of_same rfl rfl (Nat.le_refl _) fun _ hq =>
    Function.update_of_ne (h.pool.others_ne h.mem hq) ..

/-- Data arrives for a packet that has begun. -/
theorem append (h : Processing net l held t p) (hbegun : Begun (net.packet p)) (isEnd : Bool)
    (data : List UInt8) :
    ∃ net' l', appendData net p isEnd data = some net' ∧
      After net held 0
        (Function.update t (net.packet p).conn
          ((extend (net.packet p).rxCount (net.packet p).bytes data isEnd).1.map
            (·, (net.packet p).lastUsed)))
        (extend (net.packet p).rxCount (net.packet p).bytes data isEnd).2 net' l' := by
  have hbytes : (net.packet p).bytes.length = (net.packet p).frameLength := window_length ..
  have hover : (CSP_BUFFER_SIZE : Int) <
      (net.packet p).frameBegin + (net.packet p).frameLength + data.length ↔
      6 + CSP_BUFFER_SIZE < (net.packet p).bytes.length + data.length := by
    rw [hbegun.frameBegin, hbytes]
    omega
  rw [appendData]
  by_cases hovf : 6 + CSP_BUFFER_SIZE < (net.packet p).bytes.length + data.length
  · obtain ⟨net', heq, hafter⟩ := h.discard .rxOvf
    refine ⟨net', l.erase p, ?_, ?_⟩
    · simp only [hover.mpr hovf, if_true, heq]
    · rw [extend, if_pos hovf]
      exact hafter
  -- there is room for the data
  have hgrown : Begun ((net.packet p).copyIn data) := by
    have := hbegun.header_le
    refine ⟨hbegun.frameBegin, ?_, ?_⟩
    · show 6 ≤ (net.packet p).frameLength + data.length
      omega
    · show (net.packet p).frameLength + data.length ≤ 6 + CSP_BUFFER_SIZE
      omega
  have hgrownBytes : ((net.packet p).copyIn data).bytes = (net.packet p).bytes ++ data :=
    window_store_behind ..
  have hset := h.setPacket (show ((net.packet p).copyIn data).cfpid = _ from rfl)
  simp only [mt hover.mp hovf, if_false]
  rw [extend, if_neg hovf]
  cases isEnd with
  | false =>
    refine ⟨_, l, rfl, h.after_setPacket ⟨?_, rfl, fun _ _ => rfl, rfl, Nat.le_refl _⟩⟩
    have hkeep := hset.keep (by rw [net.setPacket_self]; exact hgrown)
    rw [net.setPacket_self, Packet.entry, hgrownBytes] at hkeep
    exact hkeep
  | true =>
    obtain ⟨final, hfinal⟩ :
        ∃ final, final = rewriteBroadcast net.can.addr (cspIdStrip ((net.packet p).copyIn data)) :=
      ⟨_, rfl⟩
    have hcfpid : final.cfpid = (net.packet p).cfpid := by
      rw [hfinal, rewriteBroadcast, cspIdStrip]
      split <;> split <;> rfl
    have hset' := hset.setPacket (hcfpid.trans (by rw [net.setPacket_self]; rfl))
    have hcarries : Carries (((net.setPacket p ((net.packet p).copyIn data)).setPacket p final).packet p)
        net.can.addr ((net.packet p).bytes ++ data) := by
      rw [Net.setPacket_self, hfinal, ← hgrownBytes]
      exact carries_strip hgrown net.can.addr
    obtain ⟨net', net'', hpbuf, hqueue, hafter⟩ := hset'.complete hcarries
    rw [Net.setPacket_self] at hafter
    have hconn : final.conn = (net.packet p).conn := by rw [Packet.conn, hcfpid, Packet.conn]
    rw [hconn] at hafter
    refine ⟨net'', l.erase p, ?_, h.after_setPacket (hset.after_setPacket hafter)⟩
    have haddr : (net.setPacket p ((net.packet p).copyIn data)).can.addr = net.can.addr := rfl
    rw [hfinal] at hpbuf
    simp only [if_true]
    rw [net.setPacket_self, haddr, hpbuf, ← hqueue]

/-- The header of a BEGIN frame is stored at the place for it. -/
theorem setup_bytes (packet : Packet) {frame : CanFrame} (h : ¬ frame.data.length < 4) :
    (packet.setup frame).bytes = frameHeader frame := by
  have hfour : (frame.data.take 4).length = 4 := by
    rw [List.length_take]
    omega
  have hsplit : window (packet.setup frame).mem (-6) 6 =
      window (packet.setup frame).mem (-6) 2 ++ window (packet.setup frame).mem (-4) 4 :=
    window_add _ (-6) 2 4
  have hlow : window (packet.setup frame).mem (-4) 4 = frame.data.take 4 := by
    have := window_store_self (store packet.mem (-6) (bytesBE 2 (frame.id >>> CFP2_DST.offset)))
      (-4) (frame.data.take 4)
    rwa [hfour] at this
  have hhigh : window (packet.setup frame).mem (-6) 2 =
      bytesBE 2 (frame.id >>> CFP2_DST.offset) := by
    have := window_store_self packet.mem (-6) (bytesBE 2 (frame.id >>> CFP2_DST.offset))
    rw [bytesBE_length] at this
    exact (window_store_apart (Or.inl (by decide))).trans this
  show window (packet.setup frame).mem (-6) 6 = _
  rw [hsplit, hlow, hhigh, frameHeader]

/-- A BEGIN frame, whatever the packet held before. -/
theorem beginFrame (h : Processing net l held t p) {frame : CanFrame}
    (hbegin : frame.isBegin = true)
    (s : Option Partial) :
    ∃ net' l', Csp.beginFrame net p frame = some net' ∧
      After net held 0
        (Function.update t (net.packet p).conn
          ((reassemble s frame).1.map (·, (net.packet p).lastUsed)))
        (reassemble s frame).2 net' l' := by
  rw [Csp.beginFrame]
  by_cases hshort : frame.data.length < 4
  · obtain ⟨net', heq, hafter⟩ := h.discard .shortBegin
    refine ⟨net', l.erase p, ?_, ?_⟩
    · rw [if_pos hshort, heq]
    · rw [reassemble_short hbegin hshort]
      exact hafter
  · have hcounted : Processing net.countFrame l held t p := h.counters rfl rfl rfl rfl rfl
    have hset := hcounted.setPacket (show ((net.packet p).setup frame).cfpid = _ from rfl)
    -- the buffer holds the header of six bytes when the data are appended
    have hbegun : Begun ((net.countFrame.setPacket p ((net.packet p).setup frame)).packet p) := by
      rw [Net.setPacket_self]
      refine ⟨rfl, Nat.le_refl 6, ?_⟩
      show 6 ≤ 6 + CSP_BUFFER_SIZE
      omega
    obtain ⟨net', l', heq, hafter⟩ := hset.append hbegun frame.isEnd (frame.data.drop 4)
    rw [Net.setPacket_self, setup_bytes _ hshort] at hafter
    refine ⟨net', l', ?_, ?_⟩
    · rw [if_neg hshort]
      exact heq
    · rw [reassemble_begin hbegin hshort]
      exact (hcounted.after_setPacket hafter).of_same rfl rfl (Nat.le_refl _) fun _ _ => rfl

/-- A fragment for a packet that has begun. -/
theorem fragment (h : Processing net l held t p) (hbegun : Begun (net.packet p))
    {frame : CanFrame} (hbegin : frame.isBegin = false) :
    ∃ net' l', Csp.fragment net p frame = some net' ∧
      After net held 0
        (Function.update t (net.packet p).conn
          ((reassemble (some (net.packet p).entry.1) frame).1.map (·, (net.packet p).lastUsed)))
        (reassemble (some (net.packet p).entry.1) frame).2 net' l' := by
  rw [Csp.fragment]
  by_cases hfc : (net.packet p).rxCount = CFP2_FC.get frame.id
  · have hset := h.setPacket (show ((net.packet p).nextFragment).cfpid = _ from rfl)
    obtain ⟨net', l', heq, hafter⟩ := hset.append (by
      rw [Net.setPacket_self]
      exact ⟨hbegun.frameBegin, hbegun.header_le, hbegun.length_le⟩) frame.isEnd frame.data
    rw [Net.setPacket_self] at hafter
    refine ⟨net', l', ?_, ?_⟩
    · rw [if_neg (not_not.mpr hfc)]
      exact heq
    · rw [reassemble_next hbegin (show (net.packet p).entry.1.expected = _ from hfc)]
      exact h.after_setPacket hafter
  · obtain ⟨net', heq, hafter⟩ := h.discard .frameLost
    refine ⟨net', l.erase p, ?_, ?_⟩
    · rw [if_pos hfc, heq]
    · rw [reassemble_lost hbegin (show (net.packet p).entry.1.expected ≠ _ from hfc)]
      exact hafter

end Processing

/-! ## §5 The interface -/

namespace Refines

variable {net : Net} {l held : List Nat} {t : Table}

/-- A connection without a packet has no entry. -/
theorem eq_none (h : Refines net l held t) {k : Nat}
    (hk : ∀ p ∈ l, (net.packet p).conn ≠ k) : t k = none := by
  by_contra hne
  obtain ⟨q, hq, hconn⟩ := h.only k hne
  exact hk q hq hconn

/-- `csp_can_pbuf_find` finds the packet of the connection, if there is one. -/
theorem find (h : Refines net l held t) (frame : CanFrame) (now : Nat) :
    (∃ p ∈ l, (net.packet p).conn = frame.conn ∧
      cspCanPbufFind net frame.id CFP2_ID_CONN_MASK now =
        some (net.setPacket p { net.packet p with lastUsed := now }, some p)) ∨
    ((∀ p ∈ l, (net.packet p).conn ≠ frame.conn) ∧
      cspCanPbufFind net frame.id CFP2_ID_CONN_MASK now = some (net, none)) := by
  have hfind := Links.find_eq (p := fun p => (net.packet p).cfpid &&& CFP2_ID_CONN_MASK ==
    frame.id &&& CFP2_ID_CONN_MASK) h.pool.chain h.pool.chain_length
  rw [cspCanPbufFind, hfind]
  cases hl : l.find? fun p => (net.packet p).cfpid &&& CFP2_ID_CONN_MASK ==
      frame.id &&& CFP2_ID_CONN_MASK with
  | none =>
    refine Or.inr ⟨fun p hp hconn => ?_, rfl⟩
    exact List.find?_eq_none.mp hl p hp (beq_iff_eq.mpr hconn)
  | some p =>
    have hsome := List.find?_some hl
    exact Or.inl ⟨p, List.mem_of_find?_eq_some hl, beq_iff_eq.mp hsome, rfl⟩

/-- After a cleanup, what has timed out is forgotten on both sides. -/
theorem cleanup (h : Refines net l held t) {now : Nat} {pbufs : Links Nat} {refcount : Nat → Nat}
    (hpool : Pool { net with pbufs, refcount, free := net.free ++ l.filter (expired net now) }
      (l.filter fun p => !expired net now p) held) :
    Refines { net with pbufs, refcount, free := net.free ++ l.filter (expired net now) }
      (l.filter fun p => !expired net now p) held (t.cleanup now) := by
  have hsub : ∀ q ∈ l.filter fun p => !expired net now p, q ∈ l ∧ expired net now q = false :=
    fun q hq => by
      obtain ⟨hql, hfresh⟩ := List.mem_filter.mp hq
      exact ⟨hql, by simpa using hfresh⟩
  exact {
    pool := hpool
    shows := fun q hq => by
      obtain ⟨hql, hfresh⟩ := hsub q hq
      show (t (net.packet q).conn).filter _ = some (net.packet q).entry
      rw [h.shows q hql]
      exact Option.filter_some_pos (show (!expired net now q) = true by rw [hfresh]; rfl)
    only := fun k hk => by
      have ht : t k ≠ none := by
        intro hnone
        exact hk (by rw [Table.cleanup, hnone]; rfl)
      obtain ⟨q, hq, hconn⟩ := h.only k ht
      refine ⟨q, List.mem_filter.mpr ⟨hq, ?_⟩, hconn⟩
      -- an entry that has timed out would be gone
      by_contra hstale
      apply hk
      rw [Table.cleanup, ← hconn, h.shows q hq]
      exact Option.filter_some_neg (show (!expired net now q) = false from by simpa using hstale)
    begun := fun q hq => h.begun q (hsub q hq).1
    inj := fun a ha b hb => h.inj a (hsub a ha).1 b (hsub b hb).1 }

/-- A packet is opened for a connection that has none. -/
theorem opened (h : Refines net l held t) {frame : CanFrame}
    (hconn : ∀ p ∈ l, (net.packet p).conn ≠ frame.conn) (now : Nat) {p : Nat} {rest : List Nat}
    (hfree : net.free = p :: rest) :
    ∃ net', cspBufferGet net = (net', some p) ∧
      Processing (pbufInsert net' p frame.id now) (p :: l) held t p ∧
      ((pbufInsert net' p frame.id now).packet p).conn = frame.conn ∧
      ((pbufInsert net' p frame.id now).packet p).lastUsed = now ∧
      net'.qfifo = net.qfifo ∧ net'.can = net.can ∧ net'.free = rest ∧
      ∀ q, q ≠ p → (pbufInsert net' p frame.id now).packet q = net.packet q := by
  have hpool := h.pool.get hfree
  -- `csp_buffer_get` takes the first free buffer and clears the id of its packet
  have heq : cspBufferGet net =
      ({ net with
          free := rest
          refcount := Function.update net.refcount p 1
          packet := Function.update net.packet p { net.packet p with id := idClear } },
        some p) := by rw [cspBufferGet, hfree]
  rw [heq] at hpool
  generalize hnet' : ({ net with
    free := rest
    refcount := Function.update net.refcount p 1
    packet := Function.update net.packet p { net.packet p with id := idClear } } : Net) = net'
    at heq hpool
  have hself : (pbufInsert net' p frame.id now).packet p =
      { net'.packet p with lastUsed := now, cfpid := frame.id, remain := 0 } :=
    Function.update_self ..
  -- the packets in the other buffers stay as they were
  have hother : ∀ q, q ≠ p → (pbufInsert net' p frame.id now).packet q = net.packet q := by
    intro q hq
    have hget : net'.packet q = net.packet q := by
      rw [← hnet']
      exact Function.update_of_ne hq ..
    exact (Function.update_of_ne hq ..).trans hget
  have hconnp : ((pbufInsert net' p frame.id now).packet p).conn = frame.conn := by
    rw [hself]
    rfl
  -- a buffer of the list is not free
  have hne : ∀ q ∈ l, q ≠ p := by
    rintro q hq rfl
    exact h.pool.not_mem_free hq (by simp [hfree])
  refine ⟨net', heq, ?_, hconnp, by rw [hself], by rw [← hnet'], by rw [← hnet'],
    by rw [← hnet'], hother⟩
  have hset : Pool (net'.setPacket p { net'.packet p with
      lastUsed := now, cfpid := frame.id, remain := 0 }) l (p :: held) :=
    hpool.congr rfl rfl rfl rfl
  exact {
    pool := hset.insert rfl
    mem := by simp
    shows := fun q hq hqp => by
      have hql : q ∈ l := by simpa [hqp] using hq
      rw [hother q hqp]
      exact h.shows q hql
    only := fun k _ hk => by
      obtain ⟨q, hq, hqk⟩ := h.only k hk
      exact ⟨q, by simp [hq], by rw [hother q (hne q hq)]; exact hqk⟩
    begun := fun q hq hqp => by
      have hql : q ∈ l := by simpa [hqp] using hq
      rw [hother q hqp]
      exact h.begun q hql
    -- the list had no packet of this connection before
    inj := fun a ha b hb hab => by
      rcases List.mem_cons.mp ha with rfl | hal <;> rcases List.mem_cons.mp hb with rfl | hbl
      · rfl
      · rw [hconnp, hother b (hne b hbl)] at hab
        exact absurd hab.symm (hconn b hbl)
      · rw [hconnp, hother a (hne a hal)] at hab
        exact absurd hab (hconn a hal)
      · rw [hother a (hne a hal), hother b (hne b hbl)] at hab
        exact h.inj a hal b hbl hab }

end Refines

/-- Is there a buffer for a new packet, once what has timed out is freed? -/
def hasRoom (net : Net) (l : List Nat) (now : Nat) : Bool :=
  !(net.free ++ l.filter (expired net now)).isEmpty

/-- **One frame.**  Unless a new packet makes the cleanup meet two neighbours that have timed
    out, `csp_can2_rx` comes to an end, takes the interface to the next table, delivers what the
    table puts out, and changes no packet of anybody else. -/
theorem cspCan2Rx_refines {net : Net} {l held : List Nat} {t : Table} (h : Refines net l held t)
    (clock : Clock) (frame : CanFrame)
    (hsparse : t frame.conn = none → frame.isBegin = true →
      Sparse (expired net clock.cleanup) l) :
    ∃ net' l', cspCan2Rx net clock frame = some net' ∧
      After net held (if frame.isBegin then 1 else 0)
        (tableStep (hasRoom net l clock.cleanup) clock t frame).1
        (tableStep (hasRoom net l clock.cleanup) clock t frame).2 net' l' := by
  rcases h.find frame clock.find with ⟨p, hp, hconn, hfind⟩ | ⟨hconn, hfind⟩
  · -- the connection has a packet
    have hentry : t frame.conn = some ((net.packet p).entry.1, (net.packet p).lastUsed) := by
      rw [← hconn]
      exact h.shows p hp
    have hset := (h.processing hp).setPacket
      (show ({ net.packet p with lastUsed := clock.find } : Packet).cfpid = _ from rfl)
    have hself := net.setPacket_self p { net.packet p with lastUsed := clock.find }
    have hstep : tableStep (hasRoom net l clock.cleanup) clock t frame =
        (Function.update t frame.conn
          ((reassemble (some (net.packet p).entry.1) frame).1.map (·, clock.find)),
        (reassemble (some (net.packet p).entry.1) frame).2) := by rw [tableStep, hentry]
    rw [cspCan2Rx, hfind, hstep]
    cases hbegin : frame.isBegin with
    | true =>
      obtain ⟨net', l', heq, hafter⟩ := hset.beginFrame hbegin (some (net.packet p).entry.1)
      rw [hself] at hafter
      refine ⟨net', l', heq, ?_⟩
      rw [← hconn]
      exact ((h.processing hp).after_setPacket hafter).of_same rfl rfl (by simp) fun _ _ => rfl
    | false =>
      have hbegun := h.begun p hp
      obtain ⟨net', l', heq, hafter⟩ := hset.fragment (by
        rw [hself]
        exact ⟨hbegun.frameBegin, hbegun.header_le, hbegun.length_le⟩) hbegin
      rw [hself] at hafter
      refine ⟨net', l', heq, ?_⟩
      rw [← hconn]
      exact (h.processing hp).after_setPacket hafter
  · -- the connection has none
    have hnone := h.eq_none hconn
    rw [cspCan2Rx, hfind, tableStep, hnone]
    cases hbegin : frame.isBegin with
    | false =>
      have hpool : Pool net.countFrame l held := h.pool.congr rfl rfl rfl rfl
      exact ⟨net.countFrame, l, rfl, h.congr hpool fun _ _ => rfl, rfl, fun _ _ => rfl, rfl,
        by simp [Net.countFrame]⟩
    | true =>
      obtain ⟨pbufs, refcount, hclean, hpool⟩ := h.pool.cleanup (hsparse hnone hbegin)
      have hcleaned := h.cleanup hpool
      simp only [if_true, cspCanPbufNew, hclean]
      cases hfree : net.free ++ l.filter (expired net clock.cleanup) with
      | nil =>
        have hroom : hasRoom net l clock.cleanup = false := by rw [hasRoom, hfree]; rfl
        have hempty : net.free = [] := (List.append_eq_nil_iff.mp hfree).1
        rw [hroom]
        rw [hfree] at hcleaned
        refine ⟨_, _, rfl, hcleaned.congr (hcleaned.pool.congr rfl rfl rfl rfl) fun _ _ => rfl,
          rfl, fun _ _ => rfl, rfl, ?_⟩
        rw [hempty]
        exact Nat.zero_le _
      | cons p rest =>
        have hroom : hasRoom net l clock.cleanup = true := by rw [hasRoom, hfree]; rfl
        rw [hroom]
        rw [hfree] at hcleaned
        have hconn' : ∀ q ∈ l.filter fun q => !expired net clock.cleanup q,
            (net.packet q).conn ≠ frame.conn :=
          fun q hq => hconn q (List.mem_filter.mp hq).1
        obtain ⟨net', hget, hopen, hconnp, hused, hqfifo, hcan, hrest, hother⟩ :=
          hcleaned.opened hconn' clock.new rfl
        obtain ⟨net'', l', heq, hafter⟩ := hopen.beginFrame hbegin none
        rw [hconnp, hused] at hafter
        rw [hget]
        refine ⟨net'', l', heq, hafter.of_same hqfifo (congrArg Iface.addr hcan) ?_ ?_⟩
        · have hlen : net.free.length ≤ rest.length + 1 := by
            have := congrArg List.length hfree
            simp at this
            omega
          show net.free.length + 0 ≤ net'.free.length + 1
          rw [hrest]
          exact hlen
        · intro q hq
          apply hother
          -- the buffer was free, or held a packet that has timed out
          rintro rfl
          have hmem : q ∈ net.free ++ l.filter (expired net clock.cleanup) := by simp [hfree]
          rcases List.mem_append.mp hmem with hmem | hmem
          · rcases List.mem_append.mp hq with hq | hq
            · exact h.pool.free_not_queued hmem hq
            · exact h.pool.free_not_held hmem hq
          · exact h.pool.others_ne (List.mem_filter.mp hmem).1 hq rfl

end AppSysManager.Csp
