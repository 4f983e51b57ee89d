import PcdLab.Reports.Hostile

/-! # Reports as segments of a stream

What a UDP server has printed, and what it is counting, is the stream of all that it has
received, split at the empty datagrams. The stop-and-wait server has also answered every
other datagram, and nothing else.
-/

namespace PcdLab.Reports

open Shared.Wire Shared.Socket Transport StopAndWait Lib

/-- The runs between the empty datagrams of a stream. The last one is still open. -/
def segments (arrivals : List Arrival) : List (List Arrival) :=
  arrivals.splitOnP ReportServer.endsTransfer

/-- The line for a run of datagrams: how many there are, and their bytes. -/
def line (bytes : Bytes → Nat) (segment : List Arrival) : ServerStats :=
  ⟨segment.length, (segment.map fun x => bytes x.datagram).sum⟩

/-- The lines printed are those of the closed segments, in order, and the counters are the line
    of the open one. Every datagram but the empty ones is in one of them. -/
structure ReportsSegments (bytes : Bytes → Nat) (arrivals : List Arrival) (s : ReportLoop) :
    Prop where
  running : s.outcome = .running
  printed : s.printed = (segments arrivals).dropLast.map (line bytes)
  current : (segments arrivals).getLast?.map (line bytes) = some s.stats
  covered : (segments arrivals).flatten = arrivals.filter fun x => x.datagram ≠ []

theorem ReportServer.reportsSegments {S : ReportServer} (contract : S.Contract)
    {arrivals : List Arrival} (formed : S.WellFormed arrivals) :
    ReportsSegments S.dataBytes arrivals (S.run arrivals) := by
  have lines : ∀ segment : List Arrival,
      S.summary (segment.map Arrival.datagram) = line S.dataBytes segment := by
    intro segment
    simp only [summary, line, List.length_map, List.map_map]
    rfl
  have split : segments arrivals = _ := (Batches.ofStream_splitOnP arrivals).symm
  rw [run_eq contract formed]
  simp only [lines]
  constructor
  case running => rfl
  case printed => rw [split, List.dropLast_concat]
  case current => rw [split, List.getLast?_concat, Option.map_some]
  case covered =>
    rw [segments, Batches.flatten_splitOnP]
    congr 1
    funext x
    cases datagram : x.datagram <;> simp [endsTransfer, datagram]

/-! ## Every datagram at the UDP server -/

/-- The server counts as many bytes as it has received of a datagram. -/
def receivingServer : ReportServer where
  turn := Udp.startUdpServer
  IsData := fun d => d ≠ []
  dataBytes := fun d => (recvFrom maxBlockSize d).1

theorem receivingServer_contract : receivingServer.Contract where
  turn_end := by
    intro s addr
    rfl
  turn_data := by
    intro s addr d full
    have positive := List.length_pos_of_ne_nil full
    have room : 0 < maxBlockSize := by decide
    have nonzero : (recvFrom maxBlockSize d).1 ≠ 0 := by
      simp only [recvFrom]
      omega
    simp only [receivingServer, Udp.startUdpServer, if_neg nonzero]
  data_ne := fun d full => full

/-! ## The acks of the stop-and-wait server -/

/-- The server on a whole stream while its acks can be sent: its loop, and the acks. -/
def serveAll (profile : Profile) (arrivals : List Arrival) :
    ReportLoop × List (SocketAddr × Bytes) :=
  arrivals.foldl (fun s x =>
    let (loop, answer) := UdpStopAndWait.handleDatagram profile s.1 x none
    (loop, s.2 ++ answer.toList)) (.init, [])

/-- The ack goes to the sender of the datagram, and has its number. -/
def Acknowledges (x : Arrival) (ack : SocketAddr × Bytes) : Prop :=
  ack.1 = x.addr ∧ ∃ p, UdpPayload.fromBytes x.datagram = some p ∧ ack.2 = UdpAck.toBytes ⟨p.seq⟩

theorem serveAll_append (profile : Profile) (pre : List Arrival) (x : Arrival) :
    serveAll profile (pre ++ [x]) =
      ((UdpStopAndWait.handleDatagram profile (serveAll profile pre).1 x none).1,
        (serveAll profile pre).2 ++
          (UdpStopAndWait.handleDatagram profile (serveAll profile pre).1 x none).2.toList) := by
  simp only [serveAll, List.foldl_concat]

theorem serveAll_loop (profile : Profile) (arrivals : List Arrival) :
    (serveAll profile arrivals).1 = (numberedServer profile).run arrivals := by
  induction arrivals using List.reverseRecOn with
  | nil => rfl
  | append_singleton pre x ih =>
      rw [serveAll_append, ReportServer.run, List.foldl_concat, ih]
      rfl

theorem serveAll_acks (profile : Profile) {arrivals : List Arrival}
    (sized : ∀ x ∈ arrivals, Sized x.datagram) :
    List.Forall₂ Acknowledges (arrivals.filter fun x => x.datagram ≠ [])
      (serveAll profile arrivals).2 := by
  induction arrivals using List.reverseRecOn with
  | nil => exact .nil
  | append_singleton pre x ih =>
      have before := ih fun y member => sized y (List.mem_append_left _ member)
      rw [serveAll_append, List.filter_append]
      cases x with
      | mk addr d =>
          cases sized ⟨addr, d⟩ (List.mem_append_right _ List.mem_cons_self) with
          | inl ended =>
              cases ended
              rw [serveUdp_end]
              simpa using before
          | inr long =>
              obtain ⟨p, decoded, -⟩ := UdpPayload.toBytes_fromBytes long
              have full : d ≠ [] := by
                intro empty
                simp [empty] at long
              have kept : [(⟨addr, d⟩ : Arrival)].filter (fun x => x.datagram ≠ []) =
                  [⟨addr, d⟩] := by simp [full]
              rw [UdpStopAndWait.handleDatagram_eq profile decoded, kept]
              apply List.rel_append before
              exact .cons ⟨rfl, p, decoded, rfl⟩ .nil

/-- Both UDP servers report a stream segment by segment, whoever its datagrams come from, and the
    stop-and-wait server answers each datagram once, in order. -/
theorem udp_servers_report_segments (profile : Profile) (arrivals : List Arrival) :
    ReportsSegments (fun d => (recvFrom maxBlockSize d).1) arrivals
        (arrivals.foldl Udp.startUdpServer .init) ∧
      ((∀ x ∈ arrivals, x.datagram.length = 0 ∨
          8 ≤ x.datagram.length ∧ x.datagram.length ≤ maxBlockSize) →
        ReportsSegments (fun d => d.length - 8) arrivals (serveAll profile arrivals).1 ∧
        List.Forall₂ Acknowledges (arrivals.filter fun x => x.datagram ≠ [])
          (serveAll profile arrivals).2) := by
  constructor
  · apply ReportServer.reportsSegments receivingServer_contract
    intro x _
    exact Classical.em (x.datagram = [])
  · intro sized
    constructor
    · rw [serveAll_loop]
      apply ReportServer.reportsSegments (numberedServer_contract profile)
      intro x member
      exact (sized x member).imp List.length_eq_zero_iff.mp id
    · apply serveAll_acks
      intro x member
      exact (sized x member).imp List.length_eq_zero_iff.mp And.left

/-- Two clients at once, two end datagrams in a row, and an open segment at the end. -/
theorem udp_servers_report_segments_mixed :
    List.Forall₂ Acknowledges
      [⟨clientAddr, block 0 1⟩, ⟨⟨1, 2⟩, block 7 5⟩, ⟨clientAddr, block 1 2⟩]
      (serveAll .debug [⟨clientAddr, block 0 1⟩, ⟨⟨1, 2⟩, block 7 5⟩, ⟨⟨1, 2⟩, []⟩,
        ⟨clientAddr, []⟩, ⟨clientAddr, block 1 2⟩]).2 :=
  ((udp_servers_report_segments .debug [⟨clientAddr, block 0 1⟩, ⟨⟨1, 2⟩, block 7 5⟩,
    ⟨⟨1, 2⟩, []⟩, ⟨clientAddr, []⟩, ⟨clientAddr, block 1 2⟩]).2 (by decide +kernel)).2

end PcdLab.Reports
