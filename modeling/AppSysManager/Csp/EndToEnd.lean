import AppSysManager.Csp.Bus
import AppSysManager.Csp.Route
import AppSysManager.Server.Runs

/-!
# From the Bus to the Server

The CAN interface, the router and the parameter server together: frames arrive, and the router
thread calls `csp_route_work` again and again, which hands requests to `param_serve`.

An event `read` stands for a call of `csp_route_work` here.  `junk` are the indeterminate locals of
the calls of `param_serve`, by number.  What the router hands to the other callback, to the
connection layer or to `csp_send_direct` stays in their hands until they release it.  The answers
of `param_serve` have left the node when it returns; whether they find a buffer is for the
environment of the server to say.

- `run_serves`: requests from any number of senders, whose frames are mixed on the bus in any way,
  are served one by one, each once and as it was sent, those of one connection in order.
-/

namespace AppSysManager.Csp

open AppSysManager.Bytes AppSysManager.Node AppSysManager.Channels
open AppSysManager.Server (CSP_BUFFER_SIZE maxNodeid CspPacket Uninit Delivery deliver serveAll)

/-! ## §1 Runs -/

/-- The bus, the state of the parameter server and the number of its calls so far. -/
structure Sys where
  bus : Bus
  server : State
  calls : Nat

section Run

variable (hmac : List UInt8 → List UInt8) (ports : Ports) (env : Env) (junk : Nat → Uninit)

namespace Sys

/-- A callback of the router: `param_serve` is done with the packet when it returns. -/
def callback (sys : Sys) (net : Net) (p : Nat) : Callback → Option Sys
  | .service => some { sys with bus := ⟨net, p :: sys.bus.held⟩ }
  | .param =>
    if h : (net.packet p).length ≤ CSP_BUFFER_SIZE then
      some
        { bus := ⟨cspBufferFree net p, sys.bus.held⟩
          server := deliver env sys.server
            { packet :=
                { id := (net.packet p).id
                  length := (net.packet p).length
                  data := (net.packet p).mem
                  length_le := h }
              uninit := junk sys.calls }
          calls := sys.calls + 1 }
    else none

/-- One event. -/
def step (sys : Sys) : Event → Option Sys
  | .read =>
    match cspRouteWork hmac ports sys.bus.net with
    | (net, .timedOut) => some { sys with bus := ⟨net, sys.bus.held⟩ }
    | (net, .dropped) => some { sys with bus := ⟨net, sys.bus.held⟩ }
    | (net, .forward p _) => some { sys with bus := ⟨net, p :: sys.bus.held⟩ }
    | (net, .connectionLess p) => some { sys with bus := ⟨net, p :: sys.bus.held⟩ }
    | (net, .connection _ p) => some { sys with bus := ⟨net, p :: sys.bus.held⟩ }
    | (net, .callback c p) => sys.callback env junk net p c
  | e =>
    match sys.bus.step e with
    | none => none
    | some (bus, _) => some { sys with bus }

/-- A run. -/
def run (sys : Sys) : List Event → Option Sys
  | [] => some sys
  | e :: es =>
    match sys.step hmac ports env junk e with
    | none => none
    | some sys' => run sys' es

/-- There is room for everything, all along a run. -/
def Roomy (sys : Sys) : List Event → Prop
  | [] => True
  | e :: es => sys.bus.RoomFor e ∧
    ∀ sys', sys.step hmac ports env junk e = some sys' → Roomy sys' es

end Sys

end Run

/-! ## §2 One call of the router -/

/-- A CSP frame that holds a request. -/
def RequestFrame (addr : Nat) (frame : List UInt8) : Prop :=
  ∃ payload, IsRequest addr (receivedId addr frame) (frame.drop 6) payload

/-- A delivery of what a CSP frame holds. -/
structure ServesFrame (d : Delivery) (addr : Nat) (frame : List UInt8) : Prop where
  id : d.packet.id = receivedId addr frame
  payload : frame.drop 6 = window d.packet.data 0 d.packet.length ++
    crcBytes (cspCrc32Memory (window d.packet.data 0 d.packet.length))

namespace Shows

variable {b : Bus} {l : List Nat} {t : Table} {queue : List (List UInt8)}

/-- What is in the hands of the router may change. -/
theorem setHeld (h : Shows b l t queue) {p : Nat} (hp : p ∈ b.held) (packet : Packet) :
    Shows ⟨b.net.setPacket p packet, b.held⟩ l t queue := by
  have hother : ∀ q ∈ l, (b.net.setPacket p packet).packet q = b.net.packet q := by
    intro q hq
    apply Net.setPacket_other
    rintro rfl
    exact h.refines.pool.held_not_mem hp hq
  have hqueue : ∀ x ∈ b.net.qfifo, (b.net.setPacket p packet).packet x.1 = b.net.packet x.1 := by
    intro x hx
    apply Net.setPacket_other
    rintro rfl
    exact h.refines.pool.held_not_queued hp (List.mem_map_of_mem hx)
  refine ⟨h.refines.congr (h.refines.pool.congr rfl rfl rfl rfl) hother, ?_⟩
  have hwaiting : Bus.waiting ⟨b.net.setPacket p packet, b.held⟩ = b.waiting :=
    List.map_congr_left hqueue
  rw [hwaiting]
  exact h.queued

/-- A packet in the hands of the router is freed. -/
theorem freeHeld (h : Shows b l t queue) {p : Nat} (hp : p ∈ b.held) :
    Shows ⟨cspBufferFree b.net p, b.held.erase p⟩ l t queue ∧
      (cspBufferFree b.net p).can.addr = b.net.can.addr := by
  obtain ⟨b', hstep, hshows, haddr, -, -⟩ := h.release p
  have hb' : ⟨cspBufferFree b.net p, b.held.erase p⟩ = b' := by
    simpa [Bus.step, hp] using hstep
  rw [← hb'] at hshows haddr
  exact ⟨hshows, haddr⟩

/-- The statistics of an interface do not matter. -/
theorem onIface (h : Shows b l t queue) {f : Iface → Iface}
    (hf : ∀ iface, (f iface).addr = iface.addr)
    (input : IfaceName) : Shows ⟨b.net.onIface f input, b.held⟩ l t queue := by
  cases input with
  | can =>
    refine ⟨h.refines.congr (h.refines.pool.congr rfl rfl rfl rfl) fun _ _ => rfl, ?_⟩
    have haddr : (b.net.onIface f .can).can.addr = b.net.can.addr := hf _
    rw [haddr]
    exact h.queued
  | lo => exact ⟨h.refines.congr (h.refines.pool.congr rfl rfl rfl rfl) fun _ _ => rfl, h.queued⟩

end Shows

section Work

variable {hmac : List UInt8 → List UInt8} {ports : Ports} {env : Env} {junk : Nat → Uninit}
variable {sys : Sys} {l : List Nat} {t : Table} {queue : List (List UInt8)}

/-- The router finds nothing. -/
theorem Shows.idle (h : Shows sys.bus l t []) :
    sys.step hmac ports env junk .read = some sys := by
  have hqfifo : sys.bus.net.qfifo = [] := List.length_eq_zero_iff.mp h.queue_length
  have hwork : cspRouteWork hmac ports sys.bus.net = (sys.bus.net, .timedOut) := by
    rw [cspRouteWork, hqfifo]
  rw [Sys.step, hwork]

variable (hmac env junk) in
/-- The router finds a request, and it is served. -/
theorem Shows.work {frame : List UInt8} (h : Shows sys.bus l t (frame :: queue))
    (hports : cspPortGetCallback ports PARAM_PORT_SERVER = some .param)
    (hframe : RequestFrame sys.bus.net.can.addr frame)
    (hlength : frame.length ≤ 6 + CSP_BUFFER_SIZE) :
    ∃ sys' d, sys.step hmac ports env junk .read = some sys' ∧ Shows sys'.bus l t queue ∧
      ServesFrame d sys.bus.net.can.addr frame ∧ sys'.server = deliver env sys.server d ∧
      sys'.bus.net.can.addr = sys.bus.net.can.addr := by
  obtain ⟨payload, hrequest⟩ := hframe
  obtain ⟨⟨p, input⟩, rest, hqfifo⟩ : ∃ x rest, sys.bus.net.qfifo = x :: rest := by
    cases hq : sys.bus.net.qfifo with
    | nil =>
      have := h.queue_length
      rw [hq] at this
      exact absurd this (by simp)
    | cons x rest => exact ⟨x, rest, rfl⟩
  -- the packet is read
  have hread := h.readOff hqfifo
  have hcarries := h.head hqfifo
  rw [← hcarries.id, ← hcarries.data] at hrequest
  obtain ⟨packet', f, hwork, hf, hid, hlen, hdata⟩ :=
    cspRouteWork_request hqfifo hrequest hports hmac
  -- it is checked, while it is in the hands of the router
  have hchecked := (hread.onIface hf input).setHeld (p := p) (by simp) packet'
  have hself : ((({ sys.bus.net with qfifo := rest } : Net).onIface f input).setPacket p
      packet').packet p = packet' := Net.setPacket_self ..
  have hsize : packet'.length ≤ CSP_BUFFER_SIZE := by
    have hpayload := congrArg List.length hrequest.data
    rw [hcarries.data, List.length_drop, List.length_append] at hpayload
    rw [hlen]
    omega
  obtain ⟨hfreed, haddr⟩ := hchecked.freeHeld (p := p) (by simp)
  simp only [List.erase_cons_head] at hfreed
  have hstep : sys.step hmac ports env junk .read = some
      { bus := ⟨cspBufferFree ((({ sys.bus.net with qfifo := rest } : Net).onIface f input).setPacket
          p packet') p, sys.bus.held⟩
        server := deliver env sys.server
          { packet := { id := packet'.id, length := packet'.length, data := packet'.mem
                        length_le := hsize }
            uninit := junk sys.calls }
        calls := sys.calls + 1 } := by
    rw [Sys.step, hwork]
    simp only [Sys.callback, hself, hsize, dif_pos]
  refine ⟨_, _, hstep, hfreed, ⟨?_, ?_⟩, rfl, ?_⟩
  · rw [hid, hcarries.id]
  · have hwindow : window packet'.mem 0 packet'.length = payload := hdata
    rw [hwindow, ← hrequest.data, hcarries.data]
  · rw [haddr]
    cases input with
    | can => exact hf _
    | lo => rfl

/-! ## §3 Runs of requests -/

theorem Sys.run_cons {sys₁ sys' : Sys} {e : Event} {es : List Event}
    (hstep : sys.step hmac ports env junk e = some sys₁)
    (hrun : sys₁.run hmac ports env junk es = some sys') :
    sys.run hmac ports env junk (e :: es) = some sys' := by
  simp only [Sys.run, hstep, hrun]

/-- What comes from the bus is a request that fits a buffer. -/
def Requests (addr : Nat) (frames : List (List UInt8)) : Prop :=
  ∀ frame ∈ frames, RequestFrame addr frame ∧ frame.length ≤ 6 + CSP_BUFFER_SIZE

/-- What has come of a run: `served` are the CSP frames whose requests were served as `ds`. -/
structure Served (env : Env) (sys : Sys) (queue : List (List UInt8)) (sys' : Sys)
    (ds : List Delivery) (served queue' : List (List UInt8)) (t' : Table)
    (tagged : List (Nat × List UInt8)) : Prop where
  shows : Shows sys'.bus [] t' queue'
  split : queue ++ tagged.map Prod.snd = served ++ queue'
  serves : List.Forall₂ (ServesFrame · sys.bus.net.can.addr ·) ds served
  server : sys'.server = serveAll env sys.server ds

/-- With room for everything, every packet in time and complete in the end, and nothing but
    requests, what the connections produce is served in turn. -/
theorem Shows.run_served {now : Nat} {waits : Nat → Option Nat} (h : Shows sys.bus l t queue)
    (hports : cspPortGetCallback ports PARAM_PORT_SERVER = some .param) (es : List Event)
    (hroomy : sys.Roomy hmac ports env junk es) (hgoing : Going now waits t es)
    (hqueue : Requests sys.bus.net.can.addr queue)
    (houts : ∀ k, Requests sys.bus.net.can.addr
      (reassemble.run ((t k).map Prod.fst) (framesOn k es)).2) :
    ∃ sys' ds served queue' t' tagged, sys.run hmac ports env junk es = some sys' ∧
      Served env sys queue sys' ds served queue' t' tagged ∧
      ∀ k, (tagged.filter (·.1 = k)).map Prod.snd =
        (reassemble.run ((t k).map Prod.fst) (framesOn k es)).2 := by
  induction es generalizing sys l t queue now waits with
  | nil =>
    have hempty : l = [] := hgoing.done h
    subst hempty
    exact ⟨sys, [], [], queue, t, [], rfl, ⟨h, by simp, .nil, rfl⟩, fun _ => rfl⟩
  | cons e es ih =>
    obtain ⟨hroom, hrest⟩ := hroomy
    cases e with
    | read =>
      have hgoing' : Going now waits t es := ⟨hgoing.onTime, hgoing.timed, hgoing.ends⟩
      cases queue with
      | nil =>
        have hstep : sys.step hmac ports env junk .read = some sys := h.idle
        obtain ⟨sys', ds, served, queue', t', tagged, hrun, hserved, hexact⟩ :=
          ih h (hrest _ hstep) hgoing' hqueue houts
        exact ⟨sys', ds, served, queue', t', tagged, Sys.run_cons hstep hrun, hserved, hexact⟩
      | cons frame queue =>
        obtain ⟨hframe, hlength⟩ := hqueue frame List.mem_cons_self
        obtain ⟨sys₁, d, hstep, hshows, hserves, hserver, haddr⟩ :=
          h.work hmac env junk hports hframe hlength
        obtain ⟨sys', ds, served, queue', t', tagged, hrun, hserved, hexact⟩ :=
          ih hshows (hrest _ hstep) hgoing'
            (fun f hf => haddr ▸ hqueue f (List.mem_cons_of_mem frame hf))
            (fun k => haddr ▸ houts k)
        refine ⟨sys', d :: ds, frame :: served, queue', t', tagged, Sys.run_cons hstep hrun,
          ⟨hserved.shows, ?_, .cons hserves (haddr ▸ hserved.serves), ?_⟩, hexact⟩
        · rw [List.cons_append, hserved.split, List.cons_append]
        · rw [hserved.server, hserver]
          rfl
    | release p =>
      obtain ⟨b₁, hbus, hshows, haddr, -, -⟩ := h.release p
      have hstep : sys.step hmac ports env junk (.release p) = some { sys with bus := b₁ } := by
        simp only [Sys.step, hbus]
      have hshows₁ : Shows ({ sys with bus := b₁ } : Sys).bus l t queue := hshows
      obtain ⟨sys', ds, served, queue', t', tagged, hrun, hserved, hexact⟩ :=
        ih hshows₁ (hrest _ hstep)
          ⟨hgoing.onTime, hgoing.timed, hgoing.ends⟩ (haddr ▸ hqueue) (fun k => haddr ▸ houts k)
      exact ⟨sys', ds, served, queue', t', tagged, Sys.run_cons hstep hrun,
        ⟨hserved.shows, hserved.split, haddr ▸ hserved.serves, hserved.server⟩, hexact⟩
    | frame clock frame =>
      obtain ⟨b₁, l₁, t₁, hbus, hshows, hgoing₁, hstate, hothers, haddr, -⟩ :=
        h.frame_exact hroom hgoing
      have hstep : sys.step hmac ports env junk (.frame clock frame) =
          some { sys with bus := b₁ } := by
        simp only [Sys.step, hbus]
      -- what this frame produces comes first of what its connection produces
      have hown := houts frame.conn
      rw [framesOn_frame_self, Machine.run_cons, ← hstate] at hown
      have hqueue₁ : Requests b₁.net.can.addr
          (queue ++ (reassemble ((t frame.conn).map Prod.fst) frame).2.toList) := by
        rw [haddr]
        intro f hf
        rcases List.mem_append.mp hf with hf | hf
        · exact hqueue f hf
        · exact hown f (List.mem_append_left _ hf)
      have houts₁ : ∀ k, Requests b₁.net.can.addr
          (reassemble.run ((t₁ k).map Prod.fst) (framesOn k es)).2 := by
        rw [haddr]
        intro k
        by_cases hk : k = frame.conn
        · subst hk
          exact fun f hf => hown f (List.mem_append_right _ hf)
        · have hk' := houts k
          rw [framesOn_frame_of_ne hk] at hk'
          rw [hothers k hk]
          exact hk'
      have hshows₁ : Shows ({ sys with bus := b₁ } : Sys).bus l₁ t₁ _ := hshows
      obtain ⟨sys', ds, served, queue', t', tagged, hrun, hserved, hexact⟩ :=
        ih hshows₁ (hrest _ hstep) hgoing₁ hqueue₁ houts₁
      refine ⟨sys', ds, served, queue', t',
        (reassemble ((t frame.conn).map Prod.fst) frame).2.toList.map (Prod.mk frame.conn) ++ tagged,
        Sys.run_cons hstep hrun,
        ⟨hserved.shows, ?_, haddr ▸ hserved.serves, hserved.server⟩, fun k => ?_⟩
      · rw [← hserved.split]
        simp [Function.comp_def]
      · rw [List.filter_append, List.map_append, hexact k]
        by_cases hk : k = frame.conn
        · subst hk
          rw [framesOn_frame_self, tagged_self, Machine.run_cons, hstate]
        · rw [framesOn_frame_of_ne hk, tagged_other _ _ hk, List.nil_append, hothers k hk]

end Work

/-! ## §4 Requests that were sent -/

/-- A packet that was sent is a request for the node with this address. -/
def Sent.IsRequest (s : Sent) (addr : Nat) : Prop :=
  ∃ payload, Csp.IsRequest addr s.id s.data payload

/-- It was served: the server got the id of the packet, and its data without the checksum. -/
structure Serves (d : Delivery) (addr : Nat) (s : Sent) : Prop where
  id : d.packet.id = if s.id.dst = maxNodeid then { s.id with dst := addr } else s.id
  payload : s.data = window d.packet.data 0 d.packet.length ++
    crcBytes (cspCrc32Memory (window d.packet.data 0 d.packet.length))

theorem Sent.receivedId_bytes (s : Sent) (addr : Nat) :
    receivedId addr s.bytes = if s.id.dst = maxNodeid then { s.id with dst := addr } else s.id := by
  have hholds : Holds (ofList 0 s.bytes) 0 (cspId2.prepend s.id) :=
    ((holds_append _ _ _ _).mp (holds_ofList 0 s.bytes)).1
  have hparse : cspId2.parse (loadBE (ofList 0 s.bytes) 0 6) = s.id :=
    (Layout.parse_load hholds).trans (Layout.parse_word s.fits)
  rw [receivedId, hparse]
  rfl

theorem Sent.drop_bytes (s : Sent) : s.bytes.drop 6 = s.data :=
  List.drop_left' (bytesBE_length ..)

theorem Sent.requestFrame {s : Sent} {addr : Nat} (h : s.IsRequest addr) :
    RequestFrame addr s.bytes := by
  obtain ⟨payload, h⟩ := h
  refine ⟨payload, ?_⟩
  rw [s.receivedId_bytes, s.drop_bytes]
  by_cases hdst : s.id.dst = maxNodeid
  · rw [if_pos hdst]
    exact ⟨Or.inl rfl, h.dport, h.crc, h.hmac, h.data⟩
  · rw [if_neg hdst]
    exact h

theorem ServesFrame.serves {d : Delivery} {addr : Nat} {s : Sent}
    (h : ServesFrame d addr s.bytes) : Serves d addr s := by
  refine ⟨?_, ?_⟩
  · rw [h.id, s.receivedId_bytes]
  · rw [← h.payload, s.drop_bytes]

/-- **End to end.**  Requests are sent to the node, each with its checksum and cut into CAN frames;
    the frames come in time, those of different connections mixed in any way, and the router is
    called now and then.  Then every request that the router has come to was served exactly once,
    with the id and the payload it was sent with, those of one connection in the order in which
    they were sent; the others wait in the queue of the router. -/
theorem run_serves {hmac : List UInt8 → List UInt8} {ports : Ports} {env : Env}
    {junk : Nat → Uninit} {sys : Sys}
    (hports : cspPortGetCallback ports PARAM_PORT_SERVER = some .param)
    (hpool : Pool sys.bus.net [] sys.bus.held) (hqueue : sys.bus.net.qfifo = []) (es : List Event)
    (sent : Nat → List Sent) (hsent : ∀ k, framesOn k es = (sent k).flatMap Sent.frames)
    (hrequest : ∀ k, ∀ s ∈ sent k, s.IsRequest sys.bus.net.can.addr)
    (htime : OnTime 0 (fun _ => none) es) (hroomy : sys.Roomy hmac ports env junk es) :
    ∃ sys' ds served waiting, sys.run hmac ports env junk es = some sys' ∧
      (∀ k, (served ++ waiting).filter (fun s => s.conn = k) = sent k) ∧
      List.Forall₂ (Serves · sys.bus.net.can.addr ·) ds served ∧
      sys'.server = serveAll env sys.server ds ∧ sys'.bus.net.qfifo.length = waiting.length ∧
      Pool sys'.bus.net [] sys'.bus.held := by
  -- each connection on its own gives back its packets
  have hwhole : ∀ k, reassemble.run none (framesOn k es) = (none, (sent k).map Sent.bytes) :=
    fun k => by rw [hsent, run_whole]
  have houts : ∀ k, Requests sys.bus.net.can.addr
      (reassemble.run ((fun _ => none : Table) k |>.map Prod.fst) (framesOn k es)).2 := by
    intro k frame hframe
    rw [Option.map_none, hwhole k] at hframe
    obtain ⟨s, hs, rfl⟩ := List.mem_map.mp hframe
    refine ⟨Sent.requestFrame (hrequest k s hs), ?_⟩
    have := s.length_le
    rw [s.bytes_length]
    omega
  obtain ⟨sys', ds, served, queue', t', tagged, hrun, hserved, hexact⟩ :=
    (Shows.fresh hpool hqueue).run_served hports es hroomy
      ⟨htime, fun _ _ h => absurd h (by simp), fun k => by rw [Option.map_none, hwhole k]⟩
      (fun _ h => absurd h List.not_mem_nil) houts
  -- what was handed over in the run is one order of all of them
  obtain ⟨order, horder, htagged⟩ := exists_order (conn_of_frames hsent)
    (fun k => by rw [hexact k, Option.map_none, hwhole k])
  have hsplit := hserved.split
  rw [List.nil_append, htagged] at hsplit
  obtain ⟨done, waiting, rfl, hdone, hwaiting⟩ := List.map_eq_append_iff.mp hsplit
  have hserves := hserved.serves
  rw [← hdone] at hserves
  refine ⟨sys', ds, done, waiting, hrun, horder,
    (List.forall₂_map_right_iff.mp hserves).imp fun _ _ hs => hs.serves, hserved.server, ?_,
    hserved.shows.refines.pool⟩
  rw [hserved.shows.queue_length, ← hwaiting, List.length_map]

/-! Two requests of two frames each, from two senders, whose frames mix, and two calls of the
router. -/

theorem Sys.roomy_reads {hmac : List UInt8 → List UInt8} {ports : Ports} {env : Env}
    {junk : Nat → Uninit} (n : Nat) (sys : Sys) :
    sys.Roomy hmac ports env junk (List.replicate n .read) := by
  induction n generalizing sys with
  | zero => trivial
  | succ n ih => exact ⟨trivial, fun sys' _ => ih sys'⟩

/-- Before the first call of the router, there is room if there is room on the bus. -/
theorem Sys.roomy_frames {hmac : List UInt8 → List UInt8} {ports : Ports} {env : Env}
    {junk : Nat → Uninit} (clock : Clock) {frames : List CanFrame} (n : Nat) {sys : Sys}
    (h : sys.bus.Roomy (frames.map (Event.frame clock))) :
    sys.Roomy hmac ports env junk (frames.map (Event.frame clock) ++ List.replicate n .read) := by
  induction frames generalizing sys with
  | nil => exact sys.roomy_reads n
  | cons frame frames ih =>
    refine ⟨h.1, fun sys' hstep => ?_⟩
    simp only [Sys.step] at hstep
    cases hbus : sys.bus.step (.frame clock frame) with
    | none => simp [hbus] at hstep
    | some r =>
      simp only [hbus, Option.some.injEq] at hstep
      subst hstep
      exact ih (h.2 r.1 r.2 hbus)

/-- A push of `suspend_on_boot = 1`. -/
def requestPayload : List UInt8 := [2, 0, 23, 1]

theorem request_length_le :
    (requestPayload ++ crcBytes (cspCrc32Memory requestPayload)).length ≤ CSP_BUFFER_SIZE := by
  rw [List.length_append, crcBytes_length]
  decide

theorem requestId_fits (src : Fin (2 ^ 14)) :
    cspId2.Fits { sampleId src with flags := CSP_FCRC32 } where
  pri := show 2 < 2 ^ 2 by decide
  dst := show 3 < 2 ^ 14 by decide
  src := src.isLt
  dport := show 10 < 2 ^ 6 by decide
  sport := show 20 < 2 ^ 6 by decide
  flags := show 1 < 2 ^ 6 by decide

def sampleRequest (src : Fin (2 ^ 14)) : Sent where
  id := { sampleId src with flags := CSP_FCRC32 }
  data := requestPayload ++ crcBytes (cspCrc32Memory requestPayload)
  addr := src
  count := 0
  fits := requestId_fits src
  length_le := request_length_le

/-- The requests of two senders. -/
def firstRequest : Sent := sampleRequest ⟨5, by decide⟩

def secondRequest : Sent := sampleRequest ⟨6, by decide⟩

/-- The frames of the second request lie between those of the first. -/
def requestFrames : List CanFrame :=
  [firstRequest.first] ++ secondRequest.frames ++ firstRequest.tail

def requestEvents : List Event :=
  requestFrames.map (Event.frame ⟨0, 0, 0⟩) ++ List.replicate 2 .read

def requestTraffic (k : Nat) : List Sent :=
  if firstRequest.conn = k then [firstRequest]
  else if secondRequest.conn = k then [secondRequest]
  else []

theorem framesOn_requestFrames (k : Nat) :
    framesOn k (requestFrames.map (Event.frame ⟨0, 0, 0⟩)) =
      (requestTraffic k).flatMap Sent.frames := by
  have hne : firstRequest.conn ≠ secondRequest.conn := by decide
  have hframes : firstRequest.frames =
      [firstRequest.first] ++ firstRequest.tail := firstRequest.frames_eq
  have hfirst : ∀ frame ∈ [firstRequest.first], frame.conn = firstRequest.conn :=
    fun frame hframe => firstRequest.frames_conn (hframes ▸ List.mem_append_left _ hframe)
  have htail : ∀ frame ∈ firstRequest.tail, frame.conn = firstRequest.conn :=
    fun frame hframe => firstRequest.frames_conn (hframes ▸ List.mem_append_right _ hframe)
  rw [requestFrames, List.map_append, List.map_append, framesOn_append, framesOn_append,
    framesOn_map hfirst, framesOn_map fun _ => secondRequest.frames_conn, framesOn_map htail,
    requestTraffic]
  by_cases hk : firstRequest.conn = k
  · have hother : secondRequest.conn ≠ k := fun h => hne (hk.trans h.symm)
    simp [hk, hother, hframes]
  · by_cases hk' : secondRequest.conn = k
    · simp [hk, hk']
    · simp [hk, hk']

theorem framesOn_request (k : Nat) :
    framesOn k requestEvents = (requestTraffic k).flatMap Sent.frames := by
  rw [requestEvents, framesOn_append, framesOn_requestFrames]
  exact List.append_nil _

theorem sampleRequest_isRequest (src : Fin (2 ^ 14)) :
    (sampleRequest src).IsRequest sampleBus.net.can.addr := by
  refine ⟨requestPayload, Or.inl ?_, rfl, show CSP_FCRC32 &&& CSP_FCRC32 ≠ 0 by decide,
    show CSP_FCRC32 &&& CSP_FHMAC = 0 by decide, rfl⟩
  rw [sampleBus, emptyNet, cspInit]
  rfl

theorem OnTime.reads {now : Nat} {waits : Nat → Option Nat} {es : List Event} (n : Nat)
    (h : OnTime now waits es) : OnTime now waits (es ++ List.replicate n .read) := by
  induction es generalizing now waits with
  | nil =>
    induction n with
    | zero => trivial
    | succ n ih => exact ih
  | cons e es ih =>
    cases e with
    | frame clock frame =>
      obtain ⟨hfind, hcleanup, hnew, hlate, hrest⟩ := h
      exact ⟨hfind, hcleanup, hnew, hlate, ih hrest⟩
    | read => exact ih h
    | release p => exact ih h

theorem onTime_request : OnTime 0 (fun _ => none) requestEvents :=
  (onTime_const (fun _ _ h => absurd h (by simp)) _).reads 2

theorem going_request : Going 0 (fun _ => none) (fun _ => none)
    (requestFrames.map (Event.frame ⟨0, 0, 0⟩)) where
  onTime := onTime_const (fun _ _ h => absurd h (by simp)) _
  timed := fun _ _ h => absurd h (by simp)
  ends := fun k => by rw [framesOn_requestFrames, Option.map_none, run_whole]

theorem roomy_request : sampleBus.Roomy (requestFrames.map (Event.frame ⟨0, 0, 0⟩)) := by
  refine Shows.roomy_at_rest sampleBus_pool rfl sampleBus_qfifo going_request ?_
  have hshort : requestFrames.length = 4 := rfl
  rw [List.length_map, hshort]
  decide

theorem run_serves_sample :
    ∃ sys' ds served waiting,
      (⟨sampleBus, initialState none none, 0⟩ : Sys).run (fun _ => []) vmemPorts plainEnv
        (fun _ => ⟨⟨0, 0, 0⟩, ⟨0, 0, 0⟩, ⟨0, 0, 0⟩⟩) requestEvents = some sys' ∧
      (∀ k, (served ++ waiting).filter (fun s => s.conn = k) = requestTraffic k) ∧
      List.Forall₂ (Serves · sampleBus.net.can.addr ·) ds served ∧
      sys'.server = serveAll plainEnv (initialState none none) ds ∧
      sys'.bus.net.qfifo.length = waiting.length ∧ Pool sys'.bus.net [] sys'.bus.held :=
  run_serves vmemPorts_param sampleBus_pool sampleBus_qfifo requestEvents requestTraffic
    framesOn_request
    (fun k s hs => by
      rw [requestTraffic] at hs
      split at hs
      · rw [List.mem_singleton.mp hs]
        exact sampleRequest_isRequest _
      · split at hs
        · rw [List.mem_singleton.mp hs]
          exact sampleRequest_isRequest _
        · exact absurd hs List.not_mem_nil)
    onTime_request (Sys.roomy_frames _ 2 roomy_request)

end AppSysManager.Csp
