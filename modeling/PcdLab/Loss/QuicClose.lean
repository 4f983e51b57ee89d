import PcdLab.Transport.Connections

/-! # QUIC transfers which lose datagrams

A server over QUIC leaves its loop at the end datagram, or when it learns that the client
has closed the connection. It returns the same counters either way, so the loss that a
report shows does not depend on what became of the end datagram.
-/

namespace PcdLab.Loss

open Shared.Wire Shared.Socket Transport Lib Client.File

/-- What becomes of a datagram which the client has sent. -/
structure Fate where
  datagram : Bytes
  arrives : Bool
  deriving Repr, DecidableEq

/-- What the server reads: the datagrams which arrive, in the order of their sending, and then
    the close of the connection. -/
def readings (fates : List Fate) : List Reading :=
  arriving ((fates.filter Fate.arrives).map Fate.datagram) ++ [.fails .applicationClosed]

/-- The payload of a datagram, unless it is an end datagram. -/
def dataOf (d : Bytes) : Option UdpPayload :=
  (UdpPayload.fromBytes d).filter fun p => !p.data.isEmpty

/-- The data datagrams which do not arrive. -/
def lostData (fates : List Fate) : List UdpPayload :=
  (fates.filter fun f => !f.arrives).filterMap fun f => dataOf f.datagram

theorem dataOf_toBytes {p : UdpPayload} (full : p.data ≠ []) : dataOf p.toBytes = some p := by
  have data : p.data.isEmpty = false := List.isEmpty_eq_false_iff.mpr full
  simp [dataOf, UdpPayload.fromBytes_toBytes, data]

theorem dataOf_end (seq : UInt64) : dataOf (UdpPayload.toBytes ⟨seq, []⟩) = none := by
  simp [dataOf, UdpPayload.fromBytes_toBytes]

/-- Each payload is one that arrives, or one of the lost data. -/
theorem arrived_or_lost {ps : List UdpPayload} (full : ∀ p ∈ ps, p.data ≠ [])
    {fates : List Fate} (sent : fates.map Fate.datagram = ps.map UdpPayload.toBytes) :
    ∃ kept : List UdpPayload, (fates.filter Fate.arrives).map Fate.datagram =
        kept.map UdpPayload.toBytes ∧ (kept ++ lostData fates).Perm ps := by
  induction fates generalizing ps with
  | nil =>
      have nothing : ps = [] := List.map_eq_nil_iff.mp sent.symm
      rw [nothing]
      exact ⟨[], rfl, .refl _⟩
  | cons f fates ih =>
      obtain ⟨p, later, rfl, own, rest⟩ := List.map_eq_cons_iff.mp sent.symm
      obtain ⟨here, behind⟩ := List.forall_mem_cons.mp full
      obtain ⟨kept, arrived, all⟩ := ih behind rest.symm
      cases f with
      | mk d arrives =>
          simp only at own
          cases arrives with
          | true =>
              refine ⟨p :: kept, ?_, ?_⟩
              · simp [arrived, own]
              · simpa [lostData] using all.cons p
          | false =>
              refine ⟨kept, ?_, ?_⟩
              · simpa using arrived
              · have lost : lostData (⟨d, false⟩ :: fates) = p :: lostData fates := by
                  simp [lostData, ← own, dataOf_toBytes here]
                rw [lost]
                exact List.perm_middle.trans (all.cons p)

/-- The end datagram and the close of the connection end the loop with the same counters. -/
theorem handleConnection_closed {kept : List UdpPayload} (full : ∀ p ∈ kept, p.data ≠ [])
    {ending : List Bytes} (ends : ending = [] ∨ ∃ seq, ending = [UdpPayload.toBytes ⟨seq, []⟩]) :
    (Quic.handleConnection (arriving (kept.map UdpPayload.toBytes ++ ending) ++
      [.fails .applicationClosed])).outcome =
        .ok (ServerStats.default.countAll (kept.map UdpPayload.data)) := by
  have counted := Quic.readAll_data full .default
  have start : ConnectionLoop.init = ⟨.default, .running⟩ := rfl
  cases ends with
  | inl closed =>
      rw [closed, List.append_nil, Quic.handleConnection, ConnectionLoop.readAll_append, start,
        counted]
      rfl
  | inr ended =>
      obtain ⟨seq, rfl⟩ := ended
      have returned := Quic.handleConnection_end full seq []
      rw [Quic.handleConnection, ConnectionLoop.readAll_append, ← Quic.handleConnection,
        ConnectionLoop.readAll_stopped]
      · exact returned
      · rw [returned]
        simp

/-! ## The two servers -/

/-- While its acks can be sent, the stop-and-wait server takes each datagram as the other one. -/
theorem handleDatagram_same (s : ConnectionLoop) (bytes : Bytes) :
    (QuicStopAndWait.handleDatagram s bytes none).1 = Quic.handleDatagram s bytes := by
  unfold QuicStopAndWait.handleDatagram Quic.handleDatagram
  cases UdpPayload.fromBytes bytes with
  | none => rfl
  | some payload =>
      simp only
      split <;> rfl

theorem readAll_same {events : List Reading}
    (acked : ∀ bytes ackSend, .datagram bytes ackSend ∈ events → ackSend = none)
    (s : ConnectionLoop) :
    ConnectionLoop.readAll (fun s bytes ackSend =>
        (QuicStopAndWait.handleDatagram s bytes ackSend).1) s events =
      ConnectionLoop.readAll (fun s bytes _ => Quic.handleDatagram s bytes) s events := by
  induction events generalizing s with
  | nil => rfl
  | cons event events ih =>
      have later := ih fun bytes ackSend member =>
        acked bytes ackSend (List.mem_cons_of_mem _ member)
      have turn : s.read (fun s bytes ackSend =>
          (QuicStopAndWait.handleDatagram s bytes ackSend).1) event =
            s.read (fun s bytes _ => Quic.handleDatagram s bytes) event := by
        cases event with
        | datagram bytes ackSend =>
            rw [acked bytes ackSend List.mem_cons_self]
            exact handleDatagram_same s bytes
        | fails e => rfl
      simp only [ConnectionLoop.readAll, turn, later]

/-- Of what a completed transfer has sent, the end datagram comes last. -/
theorem split_fates {blocks : List Bytes} {last : Bytes} {fates : List Fate}
    (sent : fates.map Fate.datagram = (payloads blocks 0).map UdpPayload.toBytes ++ [last]) :
    ∃ data arrives, fates = data ++ [⟨last, arrives⟩] ∧
      data.map Fate.datagram = (payloads blocks 0).map UdpPayload.toBytes := by
  obtain ⟨data, ending, rfl, same, ends⟩ := List.map_eq_append_iff.mp sent
  obtain ⟨f, none, rfl, rfl, nothing⟩ := List.map_eq_cons_iff.mp ends
  rw [List.map_eq_nil_iff.mp nothing]
  exact ⟨data, f.arrives, rfl, same⟩

theorem completed_transfer (file : DataFile) (b : BlockSize) {fates : List Fate}
    (sent : fates.map Fate.datagram = (payloads (file.blocks b) 0).map UdpPayload.toBytes ++
      [UdpPayload.toBytes ⟨UInt64.ofNat (file.blocks b).length, []⟩]) :
    ∃ kept : List UdpPayload,
      (Quic.handleConnection (readings fates)).outcome =
        .ok (ServerStats.default.countAll (kept.map UdpPayload.data)) ∧
      (kept ++ lostData fates).Perm (payloads (file.blocks b) 0) := by
  obtain ⟨data, arrives, rfl, blocks⟩ := split_fates sent
  have full : ∀ p ∈ payloads (file.blocks b) 0, p.data ≠ [] := by
    intro p member
    have block := List.mem_map_of_mem (f := UdpPayload.data) member
    rw [payloads_data] at block
    exact (DataFile.block_mem block).1
  obtain ⟨kept, arrived, all⟩ := arrived_or_lost full blocks
  refine ⟨kept, ?_, ?_⟩
  · rw [readings, List.filter_append, List.map_append, arrived]
    apply handleConnection_closed
    · intro p member
      exact full p (all.mem_iff.mp (List.mem_append_left _ member))
    · cases arrives with
      | true => exact .inr ⟨_, rfl⟩
      | false => exact .inl rfl
  · have lossless : ∀ kept, lostData [⟨UdpPayload.toBytes ⟨kept, []⟩, arrives⟩] = [] := by
      intro seq
      cases arrives <;> simp [lostData, dataOf_end]
    have lost : ∀ f : Fate, lostData (data ++ [f]) = lostData data ++ lostData [f] := by
      intro f
      simp only [lostData, List.filter_append, List.filterMap_append]
    rw [lost, lossless, List.append_nil]
    exact all

/-- Whatever is lost of a completed transfer, the end datagram included, the server returns `Ok`,
    and the difference between the counters of the two sides is the lost data. On the same
    events both servers return the same, as long as acks can be sent. -/
theorem quic_servers_lose_no_count :
    (∀ (file : DataFile) (b : BlockSize) (script : List (Option (Output.Fault IoError)))
      (stats : ClientStats) (s : Output.Sink Bytes IoError),
      Quic.handleQuic file b { faults := script } = .ok stats s →
      ∀ fates : List Fate, fates.map Fate.datagram = s.written →
        ∃ received, (Quic.handleConnection (readings fates)).outcome = .ok received ∧
          stats.packetsSent = received.packetsReceived + (lostData fates).length ∧
          stats.bytesSent = received.bytesReceived +
            ((lostData fates).map fun p => p.data.length).sum) ∧
    (∀ events : List Reading,
      (∀ bytes ackSend, .datagram bytes ackSend ∈ events → ackSend = none) →
      Quic.handleConnection events = QuicStopAndWait.handleConnection events) := by
  constructor
  · intro file b script stats s completed fates sent
    obtain ⟨rfl, wrote⟩ := (Quic.handleQuic_writes file b).of_ok completed
    rw [wrote, List.nil_append] at sent
    obtain ⟨kept, returned, all⟩ := completed_transfer file b sent
    have packets := all.length_eq
    have bytes := (all.map fun p => p.data.length).sum_eq
    have blocks := payloads_data (file.blocks b) 0
    have total : ((payloads (file.blocks b) 0).map fun p => p.data.length).sum =
        ((file.blocks b).map List.length).sum := by
      rw [← blocks, List.map_map]
      simp only [blocks]
      rfl
    refine ⟨_, returned, ?_, ?_⟩
    · simp only [ClientStats.countAll, ClientStats.zero, ServerStats.countAll,
        ServerStats.default, List.length_map]
      rw [List.length_append, length_payloads] at packets
      omega
    · simp only [ClientStats.countAll, ClientStats.zero, ServerStats.countAll,
        ServerStats.default, List.map_map]
      rw [List.map_append, List.sum_append, total] at bytes
      simp only [Function.comp_def]
      omega
  · intro events acked
    exact (readAll_same acked .init).symm

/-- Nothing of a transfer of one block arrives, not even the end datagram. -/
def allLost : List Fate := [⟨oneBlockData, false⟩, ⟨oneBlockEnd, false⟩]

theorem quic_servers_lose_no_count_all_lost :
    ∃ received, (Quic.handleConnection (readings allLost)).outcome = .ok received ∧
      1 = received.packetsReceived + (lostData allLost).length ∧
      1 = received.bytesReceived + ((lostData allLost).map fun p => p.data.length).sum := by
  obtain ⟨s, ran, wrote⟩ := oneBlock_completed
  exact quic_servers_lose_no_count.1 oneBlock defaultBlockSize [] ⟨1, 1⟩ s ran allLost wrote.symm

end PcdLab.Loss
