import PcdLab.Loss.UdpNet
import PcdLab.StopAndWait.Accounting

/-! # The difference between sent and received

What a client has counted as sent is what its server has counted, in its reports and
since the last of them, and what the channel has lost or still holds. The stop-and-wait
server takes a datagram before it knows whether it can count it: if it cannot send the
ack it returns, and the datagram is in none of the sums.
-/

namespace PcdLab.Loss

open Shared.Wire Shared.Socket Transport StopAndWait Lib Lib.Runs Client.File

/-- A counter on either side, and what a datagram with so many data bytes adds to it. -/
structure Measure (received : ServerStats → Nat) (sent : ClientStats → Nat) (f : Nat → Nat) :
    Prop where
  receivedZero : received .default = 0
  receivedCount : ∀ stats n, received (stats.count n) = received stats + f n
  sentZero : sent .zero = 0
  sentCount : ∀ stats n, sent (stats.count n) = sent stats + f n

theorem packets_measure :
    Measure ServerStats.packetsReceived ClientStats.packetsSent fun _ => 1 where
  receivedZero := rfl
  receivedCount := fun _ _ => rfl
  sentZero := rfl
  sentCount := fun _ _ => rfl

theorem bytes_measure : Measure ServerStats.bytesReceived ClientStats.bytesSent id where
  receivedZero := rfl
  receivedCount := fun _ _ => rfl
  sentZero := rfl
  sentCount := fun _ _ => rfl

/-- A counter of a UDP server in all reports printed so far, and its current value. -/
def total (received : ServerStats → Nat) (s : ReportLoop) : Nat :=
  (s.printed.map received).sum + received s.stats

namespace Measure

variable {received : ServerStats → Nat} {sent : ClientStats → Nat} {f : Nat → Nat}

theorem total_count (measure : Measure received sent f) (s : ReportLoop) (n : Nat) :
    total received (s.count n) = total received s + f n := by
  simp only [total, ReportLoop.count, measure.receivedCount, Nat.add_assoc]

theorem total_report (measure : Measure received sent f) (s : ReportLoop) :
    total received s.report = total received s := by
  simp only [total, ReportLoop.report, List.map_append, List.sum_append, List.map_cons,
    List.map_nil, List.sum_singleton, measure.receivedZero, Nat.add_zero]

theorem total_init (measure : Measure received sent f) : total received .init = 0 := by
  simp only [total, ReportLoop.init, List.map_nil, List.sum_nil, measure.receivedZero]

end Measure

theorem sum_charge_append (charge : Bytes → Nat) (l : List Bytes) (d : Bytes) :
    ((l ++ [d]).map charge).sum = (l.map charge).sum + charge d := by
  simp only [List.map_append, List.sum_append, List.map_cons, List.map_nil, List.sum_singleton]

/-! ## The UDP pair -/

/-- What a datagram adds to a counter: nothing, if it is the end of the transfer. -/
def udpCharge (f : Nat → Nat) (d : Bytes) : Nat := if d.isEmpty then 0 else f d.length

/-- The client has counted what it has sent, and the server what has arrived. -/
structure UdpNet.Balanced (received : ServerStats → Nat) (sent : ClientStats → Nat)
    (f : Nat → Nat) (s : UdpNet) : Prop where
  conserved : s.data.Conserved
  small : ∀ d ∈ s.data.sent, d.length ≤ maxBlockSize
  rest : ∀ chunk ∈ s.client.rest, chunk ≠ [] ∧ chunk.length ≤ maxBlockSize
  sent : sent s.client.stats = (s.data.sent.map (udpCharge f)).sum
  counted : total received s.server = (s.data.delivered.map (udpCharge f)).sum

namespace UdpNet.Balanced

variable {received : ServerStats → Nat} {sent : ClientStats → Nat} {f : Nat → Nat}

theorem start (measure : Measure received sent f) (file : DataFile) (b : BlockSize)
    (fits : b.val ≤ maxBlockSize) : Balanced received sent f (.start file b) := by
  constructor
  case conserved => exact .empty
  case small => exact fun d member => absurd member List.not_mem_nil
  case rest =>
    intro chunk member
    obtain ⟨full, size⟩ := DataFile.block_mem member
    exact ⟨full, size.trans fits⟩
  case sent => exact measure.sentZero
  case counted => exact measure.total_init

theorem turn (measure : Measure received sent f) {d : Bytes} (small : d.length ≤ maxBlockSize)
    (s : ReportLoop) : total received (Udp.startUdpServer s ⟨clientAddr, d⟩) =
      total received s + udpCharge f d := by
  by_cases ended : d = []
  · cases ended
    exact measure.total_report s
  · have data : d.isEmpty = false := List.isEmpty_eq_false_iff.mpr ended
    rw [(Udp.fits_of_le small).2 ended, measure.total_count, udpCharge, data]
    rfl

/-- The client has sent the next chunk, or the end of the transfer. -/
theorem send (measure : Measure received sent f) {s : UdpNet}
    (balanced : Balanced received sent f s) : Balanced received sent f
      { s with client := s.client.sent, data := s.data.send s.client.next } := by
  have rest := balanced.rest
  have counts : s.client.next.length ≤ maxBlockSize ∧
      (∀ chunk ∈ s.client.sent.rest, chunk ≠ [] ∧ chunk.length ≤ maxBlockSize) ∧
      sent s.client.sent.stats = sent s.client.stats + udpCharge f s.client.next := by
    unfold UdpClient.next UdpClient.sent
    cases left : s.client.rest with
    | nil => exact ⟨Nat.zero_le _, fun chunk member => absurd member List.not_mem_nil, rfl⟩
    | cons chunk later =>
        rw [left] at rest
        obtain ⟨⟨full, size⟩, behind⟩ := List.forall_mem_cons.mp rest
        have data : chunk.isEmpty = false := List.isEmpty_eq_false_iff.mpr full
        refine ⟨size, behind, ?_⟩
        rw [List.headD_cons, udpCharge, data]
        exact measure.sentCount _ _
  obtain ⟨size, later, stats⟩ := counts
  constructor
  case conserved => exact balanced.conserved.send _
  case small =>
    intro d member
    cases List.mem_append.mp member with
    | inl old => exact balanced.small d old
    | inr new => exact List.mem_singleton.mp new ▸ size
  case rest => exact later
  case sent => rw [Channel.send_sent, sum_charge_append, ← balanced.sent, stats]
  case counted => exact balanced.counted

theorem step (measure : Measure received sent f) {s t : UdpNet} {e : UdpEvent}
    (balanced : Balanced received sent f s) (single : udpNoDuplicates s e)
    (moved : s.step e = some t) : Balanced received sent f t := by
  cases UdpNet.step_rule moved with
  | @bind result _ => cases result <;> exact { balanced with }
  | send _ => exact balanced.send measure
  | sendFails _ => exact { balanced with }
  | @serve datagram data _ taken =>
      have inFlight := (Channel.deliver_eq_some.mp taken).1
      have small := balanced.small _ (balanced.conserved.mem_sent_of_flight inFlight)
      constructor
      case conserved => exact balanced.conserved.deliver taken
      case small => simp only [Channel.deliver_sent taken]; exact balanced.small
      case rest => exact balanced.rest
      case sent => simp only [Channel.deliver_sent taken]; exact balanced.sent
      case counted =>
        simp only [Channel.deliver_delivered taken]
        rw [sum_charge_append, turn measure small, balanced.counted]
  | serverReadFails _ => exact { balanced with }
  | dataFault fault =>
      constructor
      case conserved => exact balanced.conserved.fault single fault
      case small => simp only [Channel.fault_sent fault]; exact balanced.small
      case rest => exact balanced.rest
      case sent => simp only [Channel.fault_sent fault]; exact balanced.sent
      case counted => simp only [Channel.fault_delivered fault]; exact balanced.counted

/-- In every reachable state the counters differ by what the channel has lost or still holds. -/
theorem reach (measure : Measure received sent f) {file : DataFile} {b : BlockSize}
    (fits : b.val ≤ maxBlockSize) {s : UdpNet}
    (reached : Reach UdpNet.step udpNoDuplicates (.start file b) s) :
    sent s.client.stats = total received s.server +
      (s.data.dropped.map (udpCharge f)).sum + (s.data.flight.map (udpCharge f)).sum := by
  have balanced : Balanced received sent f s :=
    reached.invariant (Balanced received sent f) (start measure file b fits)
      fun _ _ _ balanced single moved => balanced.step measure single moved
  have whole := balanced.conserved.sum_sent (udpCharge f)
  rw [balanced.sent, balanced.counted]
  omega

end UdpNet.Balanced

/-! ## The stop-and-wait pair -/

/-- A data datagram which the server has taken and not counted, as the ack could not be sent. -/
def unackedBy (isEnd : Bytes → Bool) : Event → Option Bytes
  | .serve d (some _) => if isEnd d then none else some d
  | _ => none

def unacked (isEnd : Bytes → Bool) (events : List Event) : List Bytes :=
  events.filterMap (unackedBy isEnd)

theorem unacked_append (isEnd : Bytes → Bool) (before : List Event) (e : Event) :
    unacked isEnd (before ++ [e]) = unacked isEnd before ++ (unackedBy isEnd e).toList := by
  rw [unacked, List.filterMap_append]
  cases missed : unackedBy isEnd e <;> simp [unacked, missed]

/-- The server has counted what has arrived, except for `missed`, behind which it has
    returned. -/
structure Tallied (P : Pair ReportLoop) (received : ServerStats → Nat) (f : Nat → Nat)
    (missed : List Bytes) (s : Net ReportLoop) : Prop where
  counted : total received s.server + (missed.map (P.charge f)).sum =
    (s.data.delivered.map (P.charge f)).sum
  once : missed = [] ∨ missed.length = 1 ∧ s.server.outcome ≠ .running

namespace Tallied

variable {profile : Profile} {received : ServerStats → Nat} {sent : ClientStats → Nat}
  {f : Nat → Nat} {file : DataFile} {b : BlockSize} {missed : List Bytes}
  {s t : Net ReportLoop}

/-- The server has done nothing that its counters show. -/
theorem frame (tallied : Tallied (udpStopAndWait profile) received f missed s)
    (printed : t.server.printed = s.server.printed) (stats : t.server.stats = s.server.stats)
    (stopped : s.server.outcome ≠ .running → t.server.outcome ≠ .running)
    (delivered : t.data.delivered = s.data.delivered) :
    Tallied (udpStopAndWait profile) received f missed t where
  counted := by
    rw [delivered, ← tallied.counted, total, total, printed, stats]
  once := tallied.once.imp_right fun done => ⟨done.1, stopped done.2⟩

/-- One datagram at the server. -/
theorem serve (measure : Measure received sent f) (inv : Inv (udpStopAndWait profile)
      (file.blocks b) s) (fits : 8 + b.val ≤ maxBlockSize)
    (tallied : Tallied (udpStopAndWait profile) received f missed s)
    (running : s.server.outcome = .running) {d : Bytes} {r : Option IoError}
    {data : Channel Bytes} (taken : s.data.deliver d = some data)
    (server : t.server = ((udpStopAndWait profile).serve s.server d r).1)
    (same : t.data = data) :
    Tallied (udpStopAndWait profile) received f
      (missed ++ (unackedBy (udpStopAndWait profile).isEnd (.serve d r)).toList) t := by
  have contract := udp_contract profile
  have inFlight := (Channel.deliver_eq_some.mp taken).1
  have complete : missed = [] := tallied.once.resolve_right fun done => done.2 running
  have before := tallied.counted
  subst complete
  rw [List.map_nil, List.sum_nil, Nat.add_zero] at before
  cases inv.sent d (inv.data_genuine.flight _ inFlight) with
  | inr marker =>
      obtain ⟨rfl, -⟩ := marker
      have silent : unackedBy (udpStopAndWait profile).isEnd
          (.serve ((udpStopAndWait profile).endMarker s.client.seq) r) = none := by
        cases r <;> rfl
      rw [silent]
      refine ⟨?_, .inl rfl⟩
      rw [server, same, Channel.deliver_delivered taken, sum_charge_append,
        Books.charge_end contract, ← before]
      exact measure.total_report s.server
  | inl block =>
      obtain ⟨p, numbered, -, rfl⟩ := block
      have carried := numbered.carried fits
      have isData := contract.data_isEnd p carried
      have turn := serveUdp_data profile s.server carried clientAddr r
      have charge := Books.charge_data contract carried f
      rw [udp_serve, turn] at server
      cases r with
      | none =>
          refine ⟨?_, .inl rfl⟩
          rw [server, same, Channel.deliver_delivered taken, sum_charge_append, charge, ← before]
          exact measure.total_count s.server _
      | some e =>
          have missing : unackedBy (udpStopAndWait profile).isEnd (.serve p.toBytes (some e)) =
              some p.toBytes := by
            rw [unackedBy, isData]
            rfl
          rw [missing]
          refine ⟨?_, .inr ⟨rfl, ?_⟩⟩
          · rw [server, same, Channel.deliver_delivered taken, sum_charge_append, ← before]
            rfl
          · rw [server]
            simp

theorem step (measure : Measure received sent f) (inv : Inv (udpStopAndWait profile)
      (file.blocks b) s) (fits : 8 + b.val ≤ maxBlockSize)
    (tallied : Tallied (udpStopAndWait profile) received f missed s) {e : Event}
    (moved : (udpStopAndWait profile).step s e = some t) :
    Tallied (udpStopAndWait profile) received f
      (missed ++ (unackedBy (udpStopAndWait profile).isEnd e).toList) t := by
  have still : ∀ {u : Net ReportLoop}, u.server = s.server →
      u.data.delivered = s.data.delivered →
      Tallied (udpStopAndWait profile) received f (missed ++ []) u := by
    intro u server delivered
    rw [List.append_nil]
    exact tallied.frame (by rw [server]) (by rw [server]) (by rw [server]; exact id) delivered
  cases Pair.step_rule moved with
  | sendBlock _ => exact still rfl rfl
  | sendEnd _ => exact still rfl rfl
  | sendFails _ => exact still rfl rfl
  | elapsed _ => exact still rfl rfl
  | read _ _ => exact still rfl rfl
  | readFails _ => exact still rfl rfl
  | close _ => exact still rfl rfl
  | serve running taken =>
      exact tallied.serve measure inv fits (of_decide_eq_true running) taken rfl rfl
  | @serverReadFails e running _ =>
      have kept : ((udpStopAndWait profile).readFails s.server e).printed = s.server.printed ∧
          ((udpStopAndWait profile).readFails s.server e).stats = s.server.stats := by
        cases e <;> exact ⟨rfl, rfl⟩
      have tail := tallied.frame (t := { s with
        server := (udpStopAndWait profile).readFails s.server e }) kept.1 kept.2
        (fun stopped => absurd (of_decide_eq_true running) stopped) rfl
      exact (List.append_nil missed).symm ▸ tail
  | dataFault fault => exact still rfl (Channel.fault_delivered fault)
  | ackFault _ => exact still rfl rfl

/-- What a run has left uncounted are the datagrams whose acks could not be sent. -/
theorem run (measure : Measure received sent f) (fits : 8 + b.val ≤ maxBlockSize)
    {events : List Event}
    (ran : exec (udpStopAndWait profile).step ((udpStopAndWait profile).start file b) events =
      some s) : Tallied (udpStopAndWait profile) received f
        (unacked (udpStopAndWait profile).isEnd events) s := by
  have start : Inv (udpStopAndWait profile) (file.blocks b)
        ((udpStopAndWait profile).start file b) ∧
      Tallied (udpStopAndWait profile) received f (unacked (udpStopAndWait profile).isEnd [])
        ((udpStopAndWait profile).start file b) :=
    ⟨Inv.start _ file b, measure.total_init, .inl rfl⟩
  have both := exec_history (fun before s => Inv (udpStopAndWait profile) (file.blocks b) s ∧
    Tallied (udpStopAndWait profile) received f
      (unacked (udpStopAndWait profile).isEnd before) s) ?_ start ran
  · exact both.2
  · rintro before s e t ⟨inv, tallied⟩ moved
    refine ⟨inv.step (udp_contract profile) fits moved, ?_⟩
    rw [unacked_append]
    exact tallied.step measure inv fits moved

end Tallied

/-! ## The loss -/

/-- The data datagrams among `l`, and the data bytes in them, for what a datagram adds to a
    counter. -/
def packets (charge : (Nat → Nat) → Bytes → Nat) (l : List Bytes) : Nat :=
  (l.map (charge fun _ => 1)).sum

def bytes (charge : (Nat → Nat) → Bytes → Nat) (l : List Bytes) : Nat :=
  (l.map (charge id)).sum

/-- In every state that a run of the stop-and-wait pair comes to, the counters of the two sides
    differ by what the channel has lost or still holds and by the one datagram, if there is
    one, whose ack could not be sent. For the UDP pair there is no such datagram. -/
theorem difference_is_loss (profile : Profile) (file : DataFile) (b : BlockSize)
    (fits : 8 + b.val ≤ maxBlockSize) :
    (∀ events s, exec (udpStopAndWait profile).step ((udpStopAndWait profile).start file b)
        events = some s → (∀ e ∈ events, e.duplicates = false) →
      (unacked (udpStopAndWait profile).isEnd events).length ≤ 1 ∧
      s.client.stats.packetsSent = total ServerStats.packetsReceived s.server +
        packets (udpStopAndWait profile).charge s.data.dropped +
        packets (udpStopAndWait profile).charge s.data.flight +
        packets (udpStopAndWait profile).charge
          (unacked (udpStopAndWait profile).isEnd events) ∧
      s.client.stats.bytesSent = total ServerStats.bytesReceived s.server +
        bytes (udpStopAndWait profile).charge s.data.dropped +
        bytes (udpStopAndWait profile).charge s.data.flight +
        bytes (udpStopAndWait profile).charge
          (unacked (udpStopAndWait profile).isEnd events)) ∧
    ∀ s, Reach UdpNet.step udpNoDuplicates (.start file b) s →
      s.client.stats.packetsSent = total ServerStats.packetsReceived s.server +
        packets udpCharge s.data.dropped + packets udpCharge s.data.flight ∧
      s.client.stats.bytesSent = total ServerStats.bytesReceived s.server +
        bytes udpCharge s.data.dropped + bytes udpCharge s.data.flight := by
  have contract := udp_contract profile
  have counting := udp_counting profile
  constructor
  · intro events s ran single
    have books := Books.reach contract counting fits
      (Reach.of_labels ran fun e member _ => single e member)
    have ofPackets := Tallied.run packets_measure fits ran
    have ofBytes := Tallied.run bytes_measure fits ran
    have sumPackets := books.conserved.sum_sent ((udpStopAndWait profile).charge fun _ => 1)
    have sumBytes := books.conserved.sum_sent ((udpStopAndWait profile).charge id)
    rw [← ofPackets.counted, ← books.packetsSent] at sumPackets
    rw [← ofBytes.counted, ← books.bytesSent] at sumBytes
    refine ⟨?_, ?_, ?_⟩
    · rcases ofPackets.once with none | ⟨one, -⟩
      · rw [none]
        exact Nat.zero_le 1
      · exact Nat.le_of_eq one
    · unfold packets
      omega
    · unfold bytes
      omega
  · intro s reached
    have small : b.val ≤ maxBlockSize := by omega
    exact ⟨UdpNet.Balanced.reach packets_measure small reached,
      UdpNet.Balanced.reach bytes_measure small reached⟩

/-- The first block is served and its ack cannot be sent. -/
def ackFails : List Event := [.send, .serve (block 0 1) (some (.os 111))]

theorem ackFails_runs : ∃ s, exec (udpStopAndWait .release).step
    ((udpStopAndWait .release).start twoBlocks oneByte) ackFails = some s ∧
      s.client.stats = ⟨1, 1⟩ ∧ s.server = ⟨.default, [], .err (.os 111)⟩ ∧
      s.data.flight = [] ∧ s.data.dropped = [] := by
  have replayed : (exec (udpStopAndWait .release).step
      ((udpStopAndWait .release).start twoBlocks oneByte) ackFails).map
        (fun s => (s.client.stats, s.server, s.data.flight, s.data.dropped)) =
      some (⟨1, 1⟩, ⟨.default, [], .err (.os 111)⟩, [], []) := by
    decide +kernel
  obtain ⟨s, ran, ends⟩ := Option.map_eq_some_iff.mp replayed
  simp only [Prod.mk.injEq] at ends
  exact ⟨s, ran, ends⟩

theorem difference_is_loss_ack_fails : ∃ s, exec (udpStopAndWait .release).step
    ((udpStopAndWait .release).start twoBlocks oneByte) ackFails = some s ∧
      s.client.stats.packetsSent = total ServerStats.packetsReceived s.server +
        packets (udpStopAndWait .release).charge s.data.dropped +
        packets (udpStopAndWait .release).charge s.data.flight +
        packets (udpStopAndWait .release).charge
          (unacked (udpStopAndWait .release).isEnd ackFails) := by
  obtain ⟨s, ran, -⟩ := ackFails_runs
  exact ⟨s, ran, ((difference_is_loss .release twoBlocks oneByte (by decide)).1 ackFails s ran
    (by decide)).2.1⟩

theorem unacked_datagram_unaccounted : ¬ ∀ profile file b s,
    8 + b.val ≤ maxBlockSize →
    Reach (udpStopAndWait profile).step noDuplicates ((udpStopAndWait profile).start file b) s →
      s.client.stats.packetsSent = total ServerStats.packetsReceived s.server +
        packets (udpStopAndWait profile).charge s.data.dropped +
        packets (udpStopAndWait profile).charge s.data.flight := by
  intro balanced
  obtain ⟨s, ran, sent, server, flight, dropped⟩ := ackFails_runs
  have single : ∀ e ∈ ackFails, e.duplicates = false := by decide
  have reached : Reach (udpStopAndWait .release).step noDuplicates
      ((udpStopAndWait .release).start twoBlocks oneByte) s :=
    Reach.of_labels ran fun e member _ => single e member
  have wrong := balanced .release twoBlocks oneByte s (by decide) reached
  rw [sent, server, flight, dropped] at wrong
  exact absurd wrong (by decide)

end PcdLab.Loss
