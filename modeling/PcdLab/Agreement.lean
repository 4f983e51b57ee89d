import PcdLab.Reports.Server
import PcdLab.StopAndWait.Ideal
import PcdLab.Transport.Connections

/-! # The five transports measure the same

Over an ideal channel every client returns the number of blocks and the bytes of the
file, and every server reports them. Framing counts nowhere, and no block is taken for
the end of a transfer.
-/

namespace PcdLab.Agreement

open Shared.Wire Shared.Socket Transport StopAndWait Reports Lib Client.File

variable (file : DataFile) (b : BlockSize)

/-- The whole stream, delivered as it was written. -/
def TcpMeasures (packets bytes : Nat) : Prop :=
  ∃ s connection, Tcp.handleTcp file b {} = .ok ⟨packets, bytes⟩ s ∧
    Tcp.handleConnection s.written = .ok connection ∧ connection.stats = ⟨packets, bytes⟩

/-- Every datagram, delivered once and in order, to a server with zero counters. -/
def UdpMeasures (packets bytes : Nat) : Prop :=
  ∃ s, Udp.handleUdp file b {} = .ok ⟨packets, bytes⟩ s ∧
    ∀ addr, (s.written.map fun d => (⟨addr, d⟩ : Arrival)).foldl Udp.startUdpServer .init =
      ⟨.default, [⟨packets, bytes⟩], .running⟩

def QuicMeasures (packets bytes : Nat) : Prop :=
  ∃ s, Quic.handleQuic file b {} = .ok ⟨packets, bytes⟩ s ∧
    s.written.foldl Quic.handleDatagram .init = ⟨⟨packets, bytes⟩, .ok ⟨packets, bytes⟩⟩

def UdpStopAndWaitMeasures (profile : Profile) (packets bytes : Nat) : Prop :=
  EndsWith (udpStopAndWait profile) file b ⟨packets, bytes⟩
    ⟨.default, [⟨packets, bytes⟩], .running⟩

def QuicStopAndWaitMeasures (packets bytes : Nat) : Prop :=
  EndsWith quicStopAndWait file b ⟨packets, bytes⟩ ⟨⟨packets, bytes⟩, .ok ⟨packets, bytes⟩⟩

theorem tcp_measures : TcpMeasures file b (file.buffer.length ⌈/⌉ b.val) file.buffer.length := by
  obtain ⟨s, ran, wrote⟩ := (Tcp.handleTcp_writes file b).clean
  have framable : ∀ chunk ∈ file.blocks b, Tcp.Framable chunk :=
    fun _ member => Tcp.block_framable member
  have read := Tcp.loop_stream framable .default [] []
  rw [List.append_nil] at read
  rw [ClientStats.countAll_blocks] at ran
  have served : Tcp.handleConnection s.written =
      .ok ⟨ServerStats.default.countAll (file.blocks b), [] ++ file.blocks b, []⟩ := by
    rw [Tcp.handleConnection, wrote, read]
  exact ⟨s, _, ran, served, ServerStats.countAll_blocks file b⟩

theorem udp_measures (fits : 8 + b.val ≤ maxBlockSize) :
    UdpMeasures file b (file.buffer.length ⌈/⌉ b.val) file.buffer.length := by
  obtain ⟨s, ran, wrote⟩ := (Udp.handleUdp_writes file b).clean
  rw [ClientStats.countAll_blocks] at ran
  refine ⟨s, ran, ?_⟩
  intro addr
  let arrival : Bytes → Arrival := fun d => ⟨addr, d⟩
  have data : ∀ x ∈ (file.blocks b).map arrival, udpServer.IsData x.datagram := by
    intro x member
    obtain ⟨chunk, block, rfl⟩ := List.mem_map.mp member
    obtain ⟨nonempty, size⟩ := DataFile.block_mem block
    have bound : chunk.length ≤ maxBlockSize := by omega
    exact ⟨nonempty, bound⟩
  have unmarked : ∀ x ∈ (file.blocks b).map arrival, ReportServer.endsTransfer x = false :=
    fun x member => ReportServer.endsTransfer_data udpServer_contract (data x member)
  have run := ReportServer.run_eq udpServer_contract fun x member => .inr (data x member)
  rw [Batches.ofStream, Batches.addAll_unmarked unmarked] at run
  have counted : udpServer.run ((file.blocks b).map arrival) =
      ⟨⟨file.buffer.length ⌈/⌉ b.val, file.buffer.length⟩, [], .running⟩ := by
    have back : ((file.blocks b).map arrival).map Arrival.datagram = file.blocks b := by
      rw [List.map_map]
      exact List.map_id _
    rw [run]
    simp only [List.nil_append, back, ReportServer.summary, DataFile.length_blocks, List.map_nil]
    congr 2
    exact DataFile.sum_length_blocks file b
  rw [wrote, List.map_append, List.foldl_append]
  exact congrArg ReportLoop.report counted

/-- The QUIC server counts the payloads of nonempty blocks, in whatever numbers they come. -/
theorem quic_counts {chunks : List Bytes} (full : ∀ chunk ∈ chunks, chunk ≠ []) (seq : UInt64)
    (stats : ServerStats) :
    ((payloads chunks seq).map UdpPayload.toBytes).foldl Quic.handleDatagram ⟨stats, .running⟩ =
      ⟨stats.countAll chunks, .running⟩ := by
  induction chunks generalizing seq stats with
  | nil => rfl
  | cons chunk chunks ih =>
      obtain ⟨here, later⟩ := List.forall_mem_cons.mp full
      have turn : Quic.handleDatagram ⟨stats, .running⟩ (UdpPayload.toBytes ⟨seq, chunk⟩) =
          ⟨stats.count chunk.length, .running⟩ := Quic.handleDatagram_data here _
      simp only [payloads, List.map_cons, List.foldl_cons, turn, ih later,
        ServerStats.count_countAll]

theorem quic_measures : QuicMeasures file b (file.buffer.length ⌈/⌉ b.val) file.buffer.length := by
  obtain ⟨s, ran, wrote⟩ := (Quic.handleQuic_writes file b).clean
  rw [ClientStats.countAll_blocks] at ran
  refine ⟨s, ran, ?_⟩
  have full : ∀ chunk ∈ file.blocks b, chunk ≠ [] := fun _ block => (DataFile.block_mem block).1
  have counted := quic_counts full 0 .default
  rw [ServerStats.countAll_blocks] at counted
  rw [wrote, List.foldl_append]
  have start : ConnectionLoop.init = ⟨.default, .running⟩ := rfl
  rw [start, counted, List.foldl_cons, List.foldl_nil, Quic.handleDatagram_end]
  rfl

/-- All five clients return, and all five servers report, one packet for each block and the
    bytes of the file, the empty file included. -/
theorem five_transports_agree (profile : Profile) (fits : 8 + b.val ≤ maxBlockSize) :
    TcpMeasures file b (file.buffer.length ⌈/⌉ b.val) file.buffer.length ∧
    UdpMeasures file b (file.buffer.length ⌈/⌉ b.val) file.buffer.length ∧
    UdpStopAndWaitMeasures file b profile (file.buffer.length ⌈/⌉ b.val) file.buffer.length ∧
    QuicMeasures file b (file.buffer.length ⌈/⌉ b.val) file.buffer.length ∧
    QuicStopAndWaitMeasures file b (file.buffer.length ⌈/⌉ b.val) file.buffer.length :=
  ⟨tcp_measures file b, udp_measures file b fits,
    (udp_reporting profile).ends (udp_contract profile) file b fits, quic_measures file b,
    quic_reporting.ends quic_contract file b fits⟩

/-- Two blocks, where the last step of both stop-and-wait runs is the ninth. -/
theorem five_transports_agree_two_blocks :
    TcpMeasures twoBlocks oneByte 2 2 ∧ UdpMeasures twoBlocks oneByte 2 2 ∧
      UdpStopAndWaitMeasures twoBlocks oneByte .release 2 2 ∧
      QuicMeasures twoBlocks oneByte 2 2 ∧ QuicStopAndWaitMeasures twoBlocks oneByte 2 2 := by
  have size : twoBlocks.buffer.length ⌈/⌉ oneByte.val = 2 := by decide
  have agree := five_transports_agree twoBlocks oneByte .release (by decide)
  rw [size] at agree
  exact agree

end PcdLab.Agreement
