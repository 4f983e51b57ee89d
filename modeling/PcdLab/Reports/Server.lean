import PcdLab.Lib.Batches
import PcdLab.StopAndWait.Invariant

/-! # The reports of the UDP servers

Both UDP servers read every client's datagrams from one socket, and keep one set of
counters between two empty datagrams. They are reporters over the stream of what
arrives, and the addresses play no part.
-/

namespace PcdLab.Reports

open Shared.Wire Shared.Socket Transport StopAndWait Lib

/-- A server loop on one socket, and what it takes for data. -/
structure ReportServer where
  turn : ReportLoop → Arrival → ReportLoop
  IsData : Bytes → Prop
  dataBytes : Bytes → Nat

def udpServer : ReportServer where
  turn := Udp.startUdpServer
  IsData := fun datagram => datagram ≠ [] ∧ datagram.length ≤ maxBlockSize
  dataBytes := List.length

/-- Every ack can be sent. -/
def udpStopAndWaitServer (profile : Profile) : ReportServer where
  turn := fun s arrival => (UdpStopAndWait.handleDatagram profile s arrival none).1
  IsData := fun datagram => ∃ p, Carried p ∧ datagram = p.toBytes
  dataBytes := fun datagram => datagram.length - 8

namespace ReportServer

structure Contract (S : ReportServer) : Prop where
  turn_end : ∀ s addr, S.turn s ⟨addr, []⟩ = s.report
  turn_data : ∀ s addr d, S.IsData d → S.turn s ⟨addr, d⟩ = s.count (S.dataBytes d)
  data_ne : ∀ d, S.IsData d → d ≠ []

def run (S : ReportServer) (arrivals : List Arrival) : ReportLoop :=
  arrivals.foldl S.turn .init

/-- The lines which the server prints when `x` arrives behind `pre`. -/
def printedOn (S : ReportServer) (pre : List Arrival) (x : Arrival) : List ServerStats :=
  (S.turn (S.run pre) x).printed.drop (S.run pre).printed.length

/-- The counters of a list of data datagrams. -/
def summary (S : ReportServer) (datagrams : List Bytes) : ServerStats :=
  ⟨datagrams.length, (datagrams.map S.dataBytes).sum⟩

/-- An empty datagram ends a transfer. -/
def endsTransfer (x : Arrival) : Bool := x.datagram.isEmpty

/-- A stream of which every datagram is data or the end of a transfer. -/
def WellFormed (S : ReportServer) (arrivals : List Arrival) : Prop :=
  ∀ x ∈ arrivals, x.datagram = [] ∨ S.IsData x.datagram

variable {S : ReportServer}

theorem summary_foldl (S : ReportServer) (arrivals : List Arrival) (stats : ServerStats) :
    arrivals.foldl (fun stats x => stats.count (S.dataBytes x.datagram)) stats =
      ⟨stats.packetsReceived + arrivals.length, stats.bytesReceived +
        (arrivals.map fun x => S.dataBytes x.datagram).sum⟩ := by
  induction arrivals generalizing stats with
  | nil => rfl
  | cons x arrivals ih =>
      rw [List.foldl_cons, ih]
      simp only [ServerStats.count, List.length_cons, List.map_cons, List.sum_cons,
        ServerStats.mk.injEq]
      omega

theorem endsTransfer_data (contract : S.Contract) {x : Arrival} (data : S.IsData x.datagram) :
    endsTransfer x = false := by
  rw [endsTransfer, List.isEmpty_eq_false_iff]
  exact contract.data_ne _ data

/-- The server is a reporter: its counters are those of the current batch, and it has printed
    those of the closed ones. -/
theorem run_eq (contract : S.Contract) {arrivals : List Arrival}
    (formed : S.WellFormed arrivals) :
    S.run arrivals =
      ⟨S.summary ((Batches.ofStream endsTransfer arrivals).current.map Arrival.datagram),
        (Batches.ofStream endsTransfer arrivals).closed.map fun batch =>
          S.summary (batch.map Arrival.datagram), .running⟩ := by
  let count : ServerStats → Arrival → ServerStats :=
    fun stats x => stats.count (S.dataBytes x.datagram)
  have loops : ∀ s : ServerStats × List ServerStats,
      arrivals.foldl S.turn ⟨s.1, s.2, .running⟩ =
        ⟨(arrivals.foldl (Batches.report endsTransfer .default count) s).1,
          (arrivals.foldl (Batches.report endsTransfer .default count) s).2, .running⟩ := by
    induction arrivals with
    | nil => intro s; rfl
    | cons x arrivals ih =>
        intro s
        obtain ⟨here, later⟩ := List.forall_mem_cons.mp formed
        have turn : S.turn ⟨s.1, s.2, .running⟩ x =
            ⟨(Batches.report endsTransfer .default count s x).1,
              (Batches.report endsTransfer .default count s x).2, .running⟩ := by
          cases here with
          | inl ended =>
              cases x with
              | mk addr datagram =>
                  cases ended
                  exact contract.turn_end _ addr
          | inr data =>
              have counts := contract.turn_data ⟨s.1, s.2, .running⟩ x.addr x.datagram data
              simp only [Batches.report, endsTransfer_data contract data, Bool.false_eq_true,
                if_false]
              exact counts
        simp only [List.foldl_cons, turn]
        exact ih later _
  have summarised : ∀ batch : List Arrival, batch.foldl count .default =
      S.summary (batch.map Arrival.datagram) := by
    intro batch
    simp only [count, summary_foldl, summary, ServerStats.default, List.length_map, List.map_map,
      Nat.zero_add]
    rfl
  have reports := Batches.foldl_report endsTransfer ServerStats.default count arrivals
  have start := loops (.default, [])
  rw [reports] at start
  simp only [summarised] at start
  exact start

/-- The line printed at the end of a transfer has the counters of the current batch. -/
theorem printedOn_end (contract : S.Contract) {pre : List Arrival} (formed : S.WellFormed pre)
    (addr : SocketAddr) : S.printedOn pre ⟨addr, []⟩ =
      [S.summary ((Batches.ofStream endsTransfer pre).current.map Arrival.datagram)] := by
  rw [printedOn, contract.turn_end, run_eq contract formed]
  simp only [ReportLoop.report, List.drop_left]

end ReportServer

/-! ## The two servers -/

theorem udpServer_contract : udpServer.Contract where
  turn_end := by
    intro s addr
    rfl
  turn_data := by
    intro s addr d data
    have nonzero : d.length ≠ 0 := fun zero => data.1 (List.length_eq_zero_iff.mp zero)
    simp only [udpServer, Udp.startUdpServer, recvFrom_of_le data.2, if_neg nonzero]
  data_ne := fun d data => data.1

theorem udpStopAndWaitServer_contract (profile : Profile) :
    (udpStopAndWaitServer profile).Contract where
  turn_end := by
    intro s addr
    rfl
  turn_data := by
    rintro s addr d ⟨p, carried, rfl⟩
    simp only [udpStopAndWaitServer, serveUdp_data profile s carried, UdpPayload.length_toBytes,
      Nat.add_sub_cancel_left]
  data_ne := by
    rintro d ⟨p, -, rfl⟩ empty
    have size := congrArg List.length empty
    rw [UdpPayload.length_toBytes, List.length_nil] at size
    omega

end PcdLab.Reports
