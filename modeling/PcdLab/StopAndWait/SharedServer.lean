import PcdLab.StopAndWait.Delivery

/-! # Many stop-and-wait transfers to the one UDP server

The UDP server has a single socket and a single set of counters, so its lines mix the
transfers. What a client relies on is not mixed: an ack goes to the address from which
its datagram came. The transfers therefore deliver what they report, as one alone does,
and the lines together count everything that was received, though no line is of one
transfer.
-/

namespace PcdLab.StopAndWait

open Shared.Wire Shared.Socket Transport Lib Lib.Runs Client.File

/-- A transfer: where its client is bound, and what it sends. -/
structure Transfer where
  addr : SocketAddr
  file : DataFile
  blockSize : BlockSize

/-- The server as one client sees it: it answers datagrams, whatever it counts. -/
def answering (profile : Profile) : Pair Unit where
  loop := (udpStopAndWait profile).loop
  endMarker := (udpStopAndWait profile).endMarker
  init := ()
  running := fun _ => true
  serve := fun _ datagram ackSend =>
    ((), ((udpStopAndWait profile).serve .init datagram ackSend).2)
  readFails := fun s _ => s
  view := (udpStopAndWait profile).view
  isEnd := (udpStopAndWait profile).isEnd
  tally := fun _ => .default

/-- A client with the network between it and the server. -/
structure Link where
  addr : SocketAddr
  net : Net Unit
  deriving Repr, DecidableEq

structure Hub where
  server : ReportLoop
  links : List Link
  deriving Repr, DecidableEq

inductive HubEvent where
  /-- The client of a link does something, or the network to a datagram on it. -/
  | link (i : Nat) (e : Event)
  /-- The server reads a datagram of a link. -/
  | serve (i : Nat) (datagram : Bytes) (ackSend : Option IoError)
  | readFails (e : IoError)
  deriving Repr, DecidableEq

def Event.ofServer : Event → Bool
  | .serve _ _ | .serverReadFails _ => true
  | _ => false

/-- `send_to`: the ack goes to the client that is bound to the address. -/
def Link.route (ack : Option (SocketAddr × Bytes)) (l : Link) : Link :=
  match ack with
  | none => l
  | some (address, bytes) =>
      if l.addr = address then { l with net := { l.net with acks := l.net.acks.send bytes } } else l

def Hub.start (profile : Profile) (transfers : List Transfer) : Hub :=
  ⟨.init, transfers.map fun tr => ⟨tr.addr, (answering profile).start tr.file tr.blockSize⟩⟩

/-- The link once the server has taken a datagram from it, but for the ack. -/
def Link.taken (profile : Profile) (l : Link) (data : Channel Bytes) (datagram : Bytes)
    (ack : Option (SocketAddr × Bytes)) : Link :=
  { l with net := { l.net with
      data := data
      observed := l.net.observed.serve ((answering profile).isEnd datagram) datagram
        (ack.map Prod.snd) } }

def Hub.step (profile : Profile) (s : Hub) : HubEvent → Option Hub
  | .link i e =>
      if e.ofServer then none
      else
        s.links[i]?.bind fun l => ((answering profile).step l.net e).map fun net =>
          { s with links := s.links.set i { l with net := net } }
  | .serve i datagram ackSend =>
      if s.server.outcome = .running then
        s.links[i]?.bind fun l => (l.net.data.deliver datagram).map fun data =>
          let (server, ack) :=
            UdpStopAndWait.handleDatagram profile s.server ⟨l.addr, datagram⟩ ackSend
          ⟨server, (s.links.set i (l.taken profile data datagram ack)).map (Link.route ack)⟩
      else none
  | .readFails e =>
      if s.server.outcome = .running then
        some { s with server := { s.server with outcome := .err e } }
      else none

/-- What one step can do, one rule for each way in which it can go. -/
inductive Hub.Step (profile : Profile) (s : Hub) : HubEvent → Hub → Prop where
  | link {i e l net} (own : e.ofServer = false) (found : s.links[i]? = some l)
      (moved : (answering profile).step l.net e = some net) :
      Step profile s (.link i e) { s with links := s.links.set i { l with net := net } }
  | serve {i datagram ackSend l data} (running : s.server.outcome = .running)
      (found : s.links[i]? = some l) (taken : l.net.data.deliver datagram = some data) :
      Step profile s (.serve i datagram ackSend)
        ⟨(UdpStopAndWait.handleDatagram profile s.server ⟨l.addr, datagram⟩ ackSend).1,
          (s.links.set i (l.taken profile data datagram (UdpStopAndWait.handleDatagram profile
            s.server ⟨l.addr, datagram⟩ ackSend).2)).map
            (Link.route (UdpStopAndWait.handleDatagram profile s.server
              ⟨l.addr, datagram⟩ ackSend).2)⟩
  | readFails {e} (running : s.server.outcome = .running) :
      Step profile s (.readFails e) { s with server := { s.server with outcome := .err e } }

theorem Hub.step_rule {profile : Profile} {s t : Hub} {e : HubEvent}
    (moved : s.step profile e = some t) : s.Step profile e t := by
  cases e with
  | link i e =>
      simp only [step] at moved
      split at moved
      · cases moved
      · rename_i own
        simp only [Option.bind_eq_some_iff, Option.map_eq_some_iff] at moved
        obtain ⟨l, found, net, moved, rfl⟩ := moved
        exact .link (Bool.eq_false_iff.mpr own) found moved
  | serve i datagram ackSend =>
      simp only [step] at moved
      split at moved
      · rename_i running
        simp only [Option.bind_eq_some_iff, Option.map_eq_some_iff] at moved
        obtain ⟨l, found, data, taken, rfl⟩ := moved
        exact .serve running found taken
      · cases moved
  | readFails e =>
      simp only [step] at moved
      split at moved
      · rename_i running
        cases Option.some.inj moved
        exact .readFails running
      · cases moved

/-! ## Each client on its own -/

theorem answering_contract (profile : Profile) : (answering profile).Contract where
  accept_ack := (udp_contract profile).accept_ack
  serve_data := fun _ p r carried => (udp_contract profile).serve_data .init p r carried
  serve_end := fun _ seq r => (udp_contract profile).serve_end .init seq r
  data_isEnd := (udp_contract profile).data_isEnd
  end_isEnd := (udp_contract profile).end_isEnd
  view_data := (udp_contract profile).view_data

/-- The ack goes back to where the datagram came from, and does not depend on what was counted. -/
theorem ack_back (profile : Profile) (s : ReportLoop) (addr : SocketAddr) (datagram : Bytes)
    (ackSend : Option IoError) :
    (UdpStopAndWait.handleDatagram profile s ⟨addr, datagram⟩ ackSend).2 =
      ((answering profile).serve () datagram ackSend).2.map fun bytes => (addr, bytes) := by
  simp only [answering, udp_serve]
  unfold UdpStopAndWait.handleDatagram
  simp only
  split
  · rfl
  · cases UdpPayload.fromBytes (recvFrom maxBlockSize datagram).2 with
    | none => rfl
    | some payload =>
        cases ackSend with
        | some e => rfl
        | none =>
            simp only
            cases profile.sub (recvFrom maxBlockSize datagram).1 8 <;> rfl

/-- Each link is where a transfer of its own, with a server that answers, could be. -/
structure Hub.Apart (profile : Profile) (transfers : List Transfer) (s : Hub) : Prop where
  addrs : s.links.map Link.addr = transfers.map Transfer.addr
  own : ∀ (i : Nat) (l : Link), s.links[i]? = some l → ∃ tr, transfers[i]? = some tr ∧
    Reach (answering profile).step anyStep ((answering profile).start tr.file tr.blockSize) l.net

@[simp] theorem Link.route_addr (ack : Option (SocketAddr × Bytes)) (l : Link) :
    (l.route ack).addr = l.addr := by
  unfold route
  grind

@[simp] theorem Link.route_data (ack : Option (SocketAddr × Bytes)) (l : Link) :
    (l.route ack).net.data = l.net.data := by
  unfold route
  grind

/-- An ack for another address leaves the link alone. -/
theorem Link.route_other {l : Link} {addr : SocketAddr} (other : l.addr ≠ addr)
    (ack : Option Bytes) : l.route (ack.map fun bytes => (addr, bytes)) = l := by
  cases ack with
  | none => rfl
  | some bytes => exact if_neg other

/-- The link from which the datagram came takes the same step as with a server of its own. -/
theorem Link.route_taken (profile : Profile) (l : Link) {data : Channel Bytes} {datagram : Bytes}
    (taken : l.net.data.deliver datagram = some data) (ackSend : Option IoError) (s : ReportLoop) :
    (answering profile).step l.net (.serve datagram ackSend) =
      some ((l.taken profile data datagram
        (UdpStopAndWait.handleDatagram profile s ⟨l.addr, datagram⟩ ackSend).2).route
          (UdpStopAndWait.handleDatagram profile s ⟨l.addr, datagram⟩ ackSend).2).net := by
  rw [ack_back]
  simp only [Pair.step, show (answering profile).running l.net.server = true from rfl, if_true,
    taken, Option.map_some]
  cases sent : ((answering profile).serve () datagram ackSend).2 with
  | none => simp [Link.route, Link.taken]
  | some bytes => simp [Link.route, Link.taken]

theorem addrs_set {links : List Link} {i : Nat} {l m : Link} (found : links[i]? = some l)
    (same : m.addr = l.addr) : (links.set i m).map Link.addr = links.map Link.addr := by
  obtain ⟨inside, rfl⟩ := List.getElem?_eq_some_iff.mp found
  have long : i < (links.map Link.addr).length := by rwa [List.length_map]
  have kept := List.set_getElem_self long
  rw [List.getElem_map] at kept
  rw [List.map_set, same, kept]

theorem Hub.Apart.step {profile : Profile} {transfers : List Transfer} {s t : Hub} {e : HubEvent}
    (distinct : (transfers.map Transfer.addr).Nodup) (apart : s.Apart profile transfers)
    (moved : s.step profile e = some t) : t.Apart profile transfers := by
  cases Hub.step_rule moved with
  | readFails running => exact ⟨apart.addrs, apart.own⟩
  | @link i e l net own found turned =>
      have inside : i < s.links.length := (List.getElem?_eq_some_iff.mp found).1
      constructor
      · apply (addrs_set found _).trans apart.addrs
        rfl
      · intro j m there
        by_cases here : i = j
        · subst here
          rw [List.getElem?_set_self inside] at there
          cases Option.some.inj there
          obtain ⟨tr, param, reached⟩ := apart.own i l found
          exact ⟨tr, param, reached.step trivial turned⟩
        · rw [List.getElem?_set_ne here] at there
          exact apart.own j m there
  | @serve i datagram ackSend l data running found taken =>
      have inside : i < s.links.length := (List.getElem?_eq_some_iff.mp found).1
      constructor
      · rw [List.map_map, show Link.addr ∘ Link.route _ = Link.addr from
          funext fun m => Link.route_addr _ m]
        apply (addrs_set found _).trans apart.addrs
        rfl
      · intro j m there
        rw [List.getElem?_map] at there
        by_cases same : i = j
        · subst same
          rw [List.getElem?_set_self inside] at there
          cases Option.some.inj there
          obtain ⟨tr, param, reached⟩ := apart.own i l found
          exact ⟨tr, param, reached.step trivial (Link.route_taken profile l taken ackSend _)⟩
        · rw [List.getElem?_set_ne same] at there
          obtain ⟨m', old, rfl⟩ := Option.map_eq_some_iff.mp there
          have other : m'.addr ≠ l.addr := by
            intro equal
            have nodup : (s.links.map Link.addr).Nodup := apart.addrs ▸ distinct
            have long : i < (s.links.map Link.addr).length := by rwa [List.length_map]
            apply same
            apply (List.getElem?_inj long nodup).mp
            rw [List.getElem?_map, List.getElem?_map, found, old]
            exact congrArg some equal.symm
          rw [ack_back, Link.route_other other]
          exact apart.own j m' old

theorem Hub.Apart.start (profile : Profile) (transfers : List Transfer) :
    (Hub.start profile transfers).Apart profile transfers := by
  constructor
  · simp [Hub.start]
  · intro i l found
    simp only [Hub.start, List.getElem?_map, Option.map_eq_some_iff] at found
    obtain ⟨tr, param, rfl⟩ := found
    exact ⟨tr, param, .start⟩

/-! ## What the lines add up to -/

/-- A number for each link, added up. -/
def Hub.total (s : Hub) (f : Link → Nat) : Nat := (s.links.map f).sum

theorem total_set {f : Link → Nat} {links : List Link} {i : Nat} {l m : Link} {k : Nat}
    (found : links[i]? = some l) (more : f m = f l + k) :
    ((links.set i m).map f).sum = (links.map f).sum + k := by
  induction links generalizing i with
  | nil => cases found
  | cons first rest ih =>
      cases i with
      | zero =>
          cases Option.some.inj found
          simp only [List.set_cons_zero, List.map_cons, List.sum_cons, more]
          omega
      | succ i =>
          have later := ih (List.getElem?_cons_succ ▸ found)
          simp only [List.set_cons_succ, List.map_cons, List.sum_cons, later]
          omega

/-- What the server has received from a client: its data, and its end datagrams. -/
def Link.data (profile : Profile) (l : Link) : List UdpPayload := (answering profile).received l.net

def Link.ends (profile : Profile) (l : Link) : Nat :=
  (l.net.data.delivered.filter (answering profile).isEnd).length

/-- The lines so far and the open one add up to everything that was received from all clients,
    except for the datagram whose ack could not be sent, which has stopped the server. -/
structure Hub.Balanced (profile : Profile) (s : Hub) : Prop where
  panics : s.server.outcome ≠ .panicked
  lines : s.server.printed.length = s.total (Link.ends profile)
  books : ∃ missing : List UdpPayload, (s.server.outcome = .running → missing = []) ∧
    missing.length ≤ 1 ∧
    ((s.server.printed ++ [s.server.stats]).map ServerStats.packetsReceived).sum + missing.length =
      s.total (fun l => (l.data profile).length) ∧
    ((s.server.printed ++ [s.server.stats]).map ServerStats.bytesReceived).sum +
        (missing.map fun p => p.data.length).sum =
      s.total fun l => ((l.data profile).map fun p => p.data.length).sum

/-- What has been received from a client depends on what has been delivered. -/
theorem data_eq (profile : Profile) {l m : Link}
    (same : m.net.data.delivered = l.net.data.delivered) : m.data profile = l.data profile :=
  received_same same

theorem ends_eq (profile : Profile) {l m : Link}
    (same : m.net.data.delivered = l.net.data.delivered) : m.ends profile = l.ends profile := by
  rw [Link.ends, Link.ends, same]

theorem data_block (profile : Profile) {l m : Link} {p : UdpPayload} (carried : Carried p)
    (more : m.net.data.delivered = l.net.data.delivered ++ [p.toBytes]) :
    m.data profile = l.data profile ++ [p] ∧ m.ends profile = l.ends profile := by
  have data := (answering_contract profile).data_isEnd p carried
  have view := (answering_contract profile).view_data p carried
  constructor
  · simp [Link.data, Pair.received, more, data, view, UdpPayload.fromBytes_toBytes]
  · simp [Link.ends, more, data]

theorem data_end (profile : Profile) {l m : Link} {seq : UInt64}
    (more : m.net.data.delivered = l.net.data.delivered ++ [(answering profile).endMarker seq]) :
    m.data profile = l.data profile ∧ m.ends profile = l.ends profile + 1 := by
  have ended := (answering_contract profile).end_isEnd seq
  constructor
  · simp [Link.data, Pair.received, more, ended]
  · simp [Link.ends, more, ended]

/-- The counters of a line more, or of one more datagram on the open line. -/
theorem sum_report (s : ReportLoop) (f : ServerStats → Nat) (zero : f .default = 0) :
    ((s.report.printed ++ [s.report.stats]).map f).sum =
      ((s.printed ++ [s.stats]).map f).sum := by
  simp [ReportLoop.report, zero]

theorem sum_count (s : ReportLoop) (bytes : Nat) (f : ServerStats → Nat) {k : Nat}
    (more : f (s.stats.count bytes) = f s.stats + k) :
    (((s.count bytes).printed ++ [(s.count bytes).stats]).map f).sum =
      ((s.printed ++ [s.stats]).map f).sum + k := by
  simp only [ReportLoop.count, List.map_append, List.map_cons, List.map_nil, List.sum_append,
    List.sum_cons, List.sum_nil, more]
  omega

namespace Hub.Balanced

variable {profile : Profile} {transfers : List Transfer} {s t : Hub}

theorem start (profile : Profile) (transfers : List Transfer) :
    (Hub.start profile transfers).Balanced profile := by
  have nothing : ∀ f : Link → Nat, (∀ tr : Transfer,
      f ⟨tr.addr, (answering profile).start tr.file tr.blockSize⟩ = 0) →
        (Hub.start profile transfers).total f = 0 := by
    intro f zero
    simp [Hub.total, Hub.start, Function.comp_def, zero]
  constructor
  · simp [Hub.start, ReportLoop.init]
  · exact (nothing _ fun _ => rfl).symm
  · refine ⟨[], fun _ => rfl, Nat.zero_le 1, ?_, ?_⟩
    · exact (nothing _ fun _ => rfl).symm
    · exact (nothing _ fun _ => rfl).symm

/-- A step of a client, or of its network: nothing reaches the server. -/
theorem link (balanced : s.Balanced profile) {i : Nat} {l m : Link} (found : s.links[i]? = some l)
    (same : m.net.data.delivered = l.net.data.delivered) :
    Hub.Balanced profile { s with links := s.links.set i m } := by
  have total : ∀ f : Link → Nat, f m = f l →
      Hub.total { s with links := s.links.set i m } f = s.total f := fun f equal =>
    total_set (k := 0) found equal
  constructor
  · exact balanced.panics
  · rw [total _ (ends_eq profile same)]
    exact balanced.lines
  · obtain ⟨missing, none, one, packets, bytes⟩ := balanced.books
    refine ⟨missing, none, one, ?_, ?_⟩
    · rw [total _ (by simp only [data_eq profile same])]
      exact packets
    · rw [total _ (by simp only [data_eq profile same])]
      exact bytes

/-- A data datagram is counted and answered, or it stops the server. -/
theorem block (balanced : s.Balanced profile) (running : s.server.outcome = .running)
    {links : List Link} {p : UdpPayload} (carried : Carried p) (addr : SocketAddr)
    (ackSend : Option IoError)
    (ends : (links.map (Link.ends profile)).sum = s.total (Link.ends profile))
    (packets : (links.map fun l => (l.data profile).length).sum =
      s.total (fun l => (l.data profile).length) + 1)
    (bytes : (links.map fun l => ((l.data profile).map fun p => p.data.length).sum).sum =
      s.total (fun l => ((l.data profile).map fun p => p.data.length).sum) + p.data.length) :
    Hub.Balanced profile
      ⟨(UdpStopAndWait.handleDatagram profile s.server ⟨addr, p.toBytes⟩ ackSend).1, links⟩ := by
  obtain ⟨missing, none, -, packets', bytes'⟩ := balanced.books
  obtain rfl := none running
  simp only [List.length_nil, Nat.add_zero, List.map_nil, List.sum_nil] at packets' bytes'
  rw [serveUdp_data profile s.server carried]
  cases ackSend with
  | none =>
      constructor
      · simp [ReportLoop.count, running]
      · exact balanced.lines.trans ends.symm
      · refine ⟨[], fun _ => rfl, Nat.zero_le 1, ?_, ?_⟩
        · simp only [sum_count s.server p.data.length ServerStats.packetsReceived rfl,
            List.length_nil, Nat.add_zero, packets']
          exact packets.symm
        · simp only [sum_count s.server p.data.length ServerStats.bytesReceived rfl,
            List.map_nil, List.sum_nil, Nat.add_zero, bytes']
          exact bytes.symm
  | some e =>
      constructor
      · simp
      · exact balanced.lines.trans ends.symm
      · refine ⟨[p], fun still => by simp at still, Nat.le_refl 1, ?_, ?_⟩
        · simp only [List.length_singleton, packets']
          exact packets.symm
        · simp only [List.map_cons, List.map_nil, List.sum_cons, List.sum_nil, Nat.add_zero, bytes']
          exact bytes.symm

/-- An end datagram closes the line. -/
theorem report (balanced : s.Balanced profile) {links : List Link}
    (ends : (links.map (Link.ends profile)).sum = s.total (Link.ends profile) + 1)
    (packets : (links.map fun l => (l.data profile).length).sum =
      s.total fun l => (l.data profile).length)
    (bytes : (links.map fun l => ((l.data profile).map fun p => p.data.length).sum).sum =
      s.total fun l => ((l.data profile).map fun p => p.data.length).sum) :
    Hub.Balanced profile ⟨s.server.report, links⟩ := by
  obtain ⟨missing, none, one, packets', bytes'⟩ := balanced.books
  constructor
  · exact balanced.panics
  · have more : s.server.report.printed.length = s.server.printed.length + 1 := by
      simp [ReportLoop.report]
    rw [more, balanced.lines]
    exact ends.symm
  · refine ⟨missing, none, one, ?_, ?_⟩
    · rw [sum_report s.server ServerStats.packetsReceived rfl, packets']
      exact packets.symm
    · rw [sum_report s.server ServerStats.bytesReceived rfl, bytes']
      exact bytes.symm

/-- The totals once the server has taken a datagram of a link, wherever its ack went. -/
theorem routed {f : Link → Nat} (own : ∀ l m : Link,
    m.net.data.delivered = l.net.data.delivered → f m = f l) {links : List Link} {i : Nat}
    {l m : Link} {k : Nat} (found : links[i]? = some l) (more : f m = f l + k)
    (ack : Option (SocketAddr × Bytes)) :
    (((links.set i m).map (Link.route ack)).map f).sum = (links.map f).sum + k := by
  have same : f ∘ Link.route ack = f := by
    funext n
    apply own
    rw [Link.route_data]
  rw [List.map_map, same]
  exact total_set found more

theorem step (fits : ∀ tr ∈ transfers, 8 + tr.blockSize.val ≤ maxBlockSize)
    (apart : s.Apart profile transfers) (balanced : s.Balanced profile) {e : HubEvent}
    (moved : s.step profile e = some t) : t.Balanced profile := by
  cases Hub.step_rule moved with
  | @readFails e running =>
      obtain ⟨missing, none, -, packets, bytes⟩ := balanced.books
      obtain rfl := none running
      exact ⟨by simp, balanced.lines, [], fun _ => rfl, Nat.zero_le 1, packets, bytes⟩
  | @link i e l net own found turned =>
      apply balanced.link found
      cases Pair.step_rule turned with
      | serve _ _ => cases own
      | serverReadFails _ _ => cases own
      | dataFault fault => exact Channel.fault_delivered fault
      | _ => rfl
  | @serve i datagram ackSend l data running found taken =>
      obtain ⟨tr, param, reached⟩ := apart.own i l found
      have sized := fits tr (List.mem_of_getElem? param)
      have inv := Inv.reach (answering_contract profile) sized reached
      have inFlight := (Channel.deliver_eq_some.mp taken).1
      have arrived := Channel.deliver_delivered taken
      cases inv.sent datagram (inv.data_genuine.flight _ inFlight) with
      | inl known =>
          obtain ⟨p, numbered, -, rfl⟩ := known
          have carried := numbered.carried sized
          have more : ∀ ack, (l.taken profile data p.toBytes ack).net.data.delivered =
              l.net.data.delivered ++ [p.toBytes] := fun _ => arrived
          have received := fun ack => data_block profile carried (more ack)
          apply balanced.block running carried
          · apply routed (fun _ _ => ends_eq profile) found (k := 0)
            exact (received _).2
          · apply routed (fun _ _ same => congrArg List.length (data_eq profile same)) found
            rw [(received _).1, List.length_append, List.length_singleton]
          · apply routed (fun _ _ same => by simp only [data_eq profile same]) found
            simp [(received _).1]
      | inr ended =>
          obtain ⟨rfl, -⟩ := ended
          have more : ∀ ack, (l.taken profile data ((answering profile).endMarker
              l.net.client.seq) ack).net.data.delivered =
                l.net.data.delivered ++ [(answering profile).endMarker l.net.client.seq] :=
            fun _ => arrived
          have received := fun ack => data_end profile (more ack)
          apply balanced.report
          · apply routed (fun _ _ => ends_eq profile) found
            exact (received _).2
          · apply routed (fun _ _ same => congrArg List.length (data_eq profile same)) found
              (k := 0)
            rw [(received _).1]
            rfl
          · apply routed (fun _ _ same => by simp only [data_eq profile same]) found (k := 0)
            simp [(received _).1]

end Hub.Balanced

/-- Any number of clients at the one server, each over a network that may lose, delay, reorder
    and duplicate: each transfer delivers what it reports, as it does alone, the server never
    panics, and its lines, which may each mix several transfers, add up to what it received
    from all of them. -/
theorem shared_server_transfers (profile : Profile) (transfers : List Transfer)
    (distinct : (transfers.map Transfer.addr).Nodup)
    (fits : ∀ tr ∈ transfers, 8 + tr.blockSize.val ≤ maxBlockSize) (es : List HubEvent) (s : Hub)
    (ran : exec (Hub.step profile) (Hub.start profile transfers) es = some s) :
    (∀ (i : Nat) (tr : Transfer) (l : Link), transfers[i]? = some tr → s.links[i]? = some l →
      (∀ p ∈ l.data profile, (tr.file.blocks tr.blockSize)[p.seq.toNat]? = some p.data) ∧
      (l.net.client.phase = .ok → ∀ k chunk, (tr.file.blocks tr.blockSize)[k]? = some chunk →
        ∃ p ∈ l.data profile, p.seq.toNat = k ∧ p.data = chunk)) ∧
      s.Balanced profile := by
  have both : s.Apart profile transfers ∧ s.Balanced profile := by
    apply exec_invariant (fun s => s.Apart profile transfers ∧ s.Balanced profile) _
      ⟨.start profile transfers, .start profile transfers⟩ ran
    rintro s e t ⟨apart, balanced⟩ moved
    exact ⟨apart.step distinct moved, balanced.step fits apart moved⟩
  obtain ⟨apart, balanced⟩ := both
  refine ⟨?_, balanced⟩
  intro i tr l param found
  obtain ⟨own, same, reached⟩ := apart.own i l found
  obtain rfl : tr = own := Option.some.inj (param.symm.trans same)
  have sized := fits tr (List.mem_of_getElem? param)
  exact ((answering_contract profile).delivers tr.file tr.blockSize sized l.net reached).2

/-- Two clients with the same file. Their blocks reach the server in turns, the first block of
    one of them twice, and both end datagrams close a line. -/
def mixing : List HubEvent :=
  [.link 0 .send, .link 1 .send, .serve 0 (block 0 1) none, .serve 1 (block 0 1) none,
    .link 0 .elapsed, .link 0 .send, .serve 0 (block 0 1) none, .link 0 (.read (ack 0)),
    .link 0 (.ackFault (.drop (ack 0))), .link 0 .send, .serve 0 (block 1 2) none,
    .link 0 (.read (ack 1)), .link 0 .send, .serve 0 [] none, .link 0 .close]

def mixed : List Transfer :=
  [⟨⟨0x7f000001, 40001⟩, twoBlocks, oneByte⟩, ⟨⟨0x7f000001, 40002⟩, twoBlocks, oneByte⟩]

theorem shared_server_transfers_mixed : ∃ s l,
    exec (Hub.step .release) (Hub.start .release mixed) mixing = some s ∧
      s.links[0]? = some l ∧ s.server.printed = [⟨4, 4⟩] ∧ s.Balanced .release ∧
      ∀ k chunk, (twoBlocks.blocks oneByte)[k]? = some chunk →
        ∃ p ∈ l.data .release, p.seq.toNat = k ∧ p.data = chunk := by
  have replayed : ((exec (Hub.step .release) (Hub.start .release mixed) mixing).bind fun s =>
      s.links[0]?.map fun l => (s.server.printed, l.net.client.phase)) =
        some ([⟨4, 4⟩], .ok) := by
    decide +kernel
  obtain ⟨s, ran, there⟩ := Option.bind_eq_some_iff.mp replayed
  obtain ⟨l, found, same⟩ := Option.map_eq_some_iff.mp there
  obtain ⟨lines, done⟩ := Prod.mk.inj same
  have fits : ∀ tr ∈ mixed, 8 + tr.blockSize.val ≤ maxBlockSize := by
    intro tr member
    simp only [mixed, List.mem_cons, List.not_mem_nil, or_false] at member
    rcases member with rfl | rfl <;> decide
  obtain ⟨each, balanced⟩ :=
    shared_server_transfers .release mixed (by decide) fits mixing s ran
  exact ⟨s, l, ran, found, lines, balanced, (each 0 _ l rfl found).2 done⟩

end PcdLab.StopAndWait
