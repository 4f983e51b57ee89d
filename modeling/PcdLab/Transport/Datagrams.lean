import PcdLab.Transport.Tcp

/-! # The datagram transports

The clients which only send, and the four server loops which read datagrams. The
UDP servers never end: an empty datagram makes them print a report and start over,
whoever it comes from. The QUIC servers run once for each connection, and return
their counters when an empty payload arrives or the peer closes.
-/

namespace PcdLab.Transport

open Shared.Wire Shared.Socket Lib Client.File

namespace Udp

abbrev bind : Output.Program Bytes IoError Unit := Output.act
abbrev sendTo : Bytes → Output.Program Bytes IoError Unit := Output.put

/-- The loop of `handle_udp` over the chunks. -/
def sendChunks : List Bytes → ClientStats → Output.Program Bytes IoError ClientStats
  | [], stats => pure stats
  | chunk :: chunks, stats => do
      sendTo chunk
      sendChunks chunks (stats.count chunk.length)

def handleUdp (file : DataFile) (blockSize : BlockSize) :
    Output.Program Bytes IoError ClientStats := do
  bind
  let stats ← sendChunks (file.blocks blockSize) .zero
  sendTo []
  return stats

end Udp

namespace Quic

abbrev connect : Output.Program Bytes IoError Unit := Output.act
abbrev sendDatagram : Bytes → Output.Program Bytes IoError Unit := Output.put

/-- The loop of `handle_quic` over the chunks. -/
def sendChunks : List Bytes → UInt64 → ClientStats →
    Output.Program Bytes IoError (UInt64 × ClientStats)
  | [], seq, stats => pure (seq, stats)
  | chunk :: chunks, seq, stats => do
      let payload : UdpPayload := ⟨seq, chunk⟩
      sendDatagram payload.toBytes
      sendChunks chunks (seq + 1) (stats.count payload.data.length)

def handleQuic (file : DataFile) (blockSize : BlockSize) :
    Output.Program Bytes IoError ClientStats := do
  connect
  let (seq, stats) ← sendChunks (file.blocks blockSize) 0 .zero
  sendDatagram (UdpPayload.toBytes ⟨seq, []⟩)
  return stats

end Quic

/-! ## The UDP servers -/

/-- A datagram as `recv_from` sees it arrive. -/
structure Arrival where
  addr : SocketAddr
  datagram : Bytes
  deriving Repr, DecidableEq

/-- A UDP server between two datagrams: the one set of counters, and the lines printed. -/
structure ReportLoop where
  stats : ServerStats
  printed : List ServerStats
  outcome : Outcome IoError Unit
  deriving Repr, DecidableEq

namespace ReportLoop

def init : ReportLoop := ⟨.default, [], .running⟩

/-- Print the counters, reset them, `continue`. -/
def report (s : ReportLoop) : ReportLoop :=
  { s with stats := .default, printed := s.printed ++ [s.stats] }

def count (s : ReportLoop) (bytes : Nat) : ReportLoop := { s with stats := s.stats.count bytes }

end ReportLoop

namespace Udp

/-- One turn of the loop of `start_udp_server`. The sender's address is ignored. -/
def startUdpServer (s : ReportLoop) (arrival : Arrival) : ReportLoop :=
  let (bytesReceived, _) := recvFrom maxBlockSize arrival.datagram
  if bytesReceived = 0 then s.report else s.count bytesReceived

end Udp

namespace UdpStopAndWait

/-- One turn of the loop of the server's `handle_udp_stop_and_wait`. The payload is decoded
    from the whole buffer, not from the part which was received. `ackSend` is the outcome
    of sending the ack; the second component is what was sent, and to whom. -/
def handleDatagram (profile : Profile) (s : ReportLoop) (arrival : Arrival)
    (ackSend : Option IoError) : ReportLoop × Option (SocketAddr × Bytes) :=
  let (bytesReceived, buff) := recvFrom maxBlockSize arrival.datagram
  if bytesReceived = 0 then (s.report, none)
  else
    match UdpPayload.fromBytes buff with
    | none => ({ s with outcome := .panicked }, none)
    | some payload =>
        let ack : UdpAck := ⟨payload.seq⟩
        match ackSend with
        | some e => ({ s with outcome := .err e }, none)
        | none =>
            match profile.sub bytesReceived 8 with
            | none => ({ s with outcome := .panicked }, some (arrival.addr, ack.toBytes))
            | some dataBytes => (s.count dataBytes, some (arrival.addr, ack.toBytes))

end UdpStopAndWait

/-! ## The QUIC servers -/

/-- What `read_datagram` reports when there is no further datagram. -/
inductive ReadError where
  | applicationClosed
  | other (e : IoError)
  deriving Repr, DecidableEq

/-- The server side of one QUIC connection between two datagrams. -/
structure ConnectionLoop where
  stats : ServerStats
  outcome : Outcome IoError ServerStats
  deriving Repr, DecidableEq

namespace ConnectionLoop

def init : ConnectionLoop := ⟨.default, .running⟩

def count (s : ConnectionLoop) (bytes : Nat) : ConnectionLoop :=
  { s with stats := s.stats.count bytes }

/-- `break`, and `Ok(stats)` after the loop. -/
def finish (s : ConnectionLoop) : ConnectionLoop := { s with outcome := .ok s.stats }

/-- The two error arms, which both `handle_connection`s share. -/
def readFails (s : ConnectionLoop) : ReadError → ConnectionLoop
  | .applicationClosed => s.finish
  | .other e => { s with outcome := .err e }

end ConnectionLoop

namespace Quic

/-- One datagram in the loop of `handle_connection` of `quic`. -/
def handleDatagram (s : ConnectionLoop) (bytes : Bytes) : ConnectionLoop :=
  match UdpPayload.fromBytes bytes with
  | none => { s with outcome := .panicked }
  | some payload => if payload.data.isEmpty then s.finish else s.count payload.data.length

end Quic

namespace QuicStopAndWait

/-- One datagram in the loop of `handle_connection` of `quic_stop_and_wait`. -/
def handleDatagram (s : ConnectionLoop) (bytes : Bytes) (ackSend : Option IoError) :
    ConnectionLoop × Option Bytes :=
  match UdpPayload.fromBytes bytes with
  | none => ({ s with outcome := .panicked }, none)
  | some payload =>
      if payload.data.isEmpty then (s.finish, none)
      else
        let ack : UdpAck := ⟨payload.seq⟩
        match ackSend with
        | some e => ({ s with outcome := .err e }, none)
        | none => (s.count payload.data.length, some ack.toBytes)

end QuicStopAndWait

/-! ## What the clients put out -/

theorem Udp.sendChunks_writes (chunks : List Bytes) (stats : ClientStats) :
    Output.Writes (Udp.sendChunks chunks stats) chunks (stats.countAll chunks) := by
  induction chunks generalizing stats with
  | nil => exact .pure stats
  | cons chunk chunks ih =>
      have rest := ih (stats.count chunk.length)
      rw [ClientStats.count_countAll] at rest
      exact .bind (.put chunk) rest

theorem Udp.handleUdp_writes (file : DataFile) (b : BlockSize) :
    Output.Writes (Udp.handleUdp file b) (file.blocks b ++ [[]])
      (ClientStats.zero.countAll (file.blocks b)) := by
  have sent := Udp.sendChunks_writes (file.blocks b) .zero
  have whole : Output.Writes (Udp.handleUdp file b) ([] ++ (file.blocks b ++ ([[]] ++ [])))
      (ClientStats.zero.countAll (file.blocks b)) :=
    .bind .act (.bind sent (.bind (.put []) (.pure _)))
  simpa only [List.nil_append, List.append_nil] using whole

/-- The payloads of consecutive blocks, numbered from `seq`. -/
def payloads : List Bytes → UInt64 → List UdpPayload
  | [], _ => []
  | chunk :: chunks, seq => ⟨seq, chunk⟩ :: payloads chunks (seq + 1)

/-- Datagrams which all are payloads are a list of payloads. -/
theorem exists_payloads {Q : UdpPayload → Prop} {datagrams : List Bytes}
    (each : ∀ d ∈ datagrams, ∃ p, Q p ∧ d = p.toBytes) :
    ∃ ps : List UdpPayload, (∀ p ∈ ps, Q p) ∧ datagrams = ps.map UdpPayload.toBytes := by
  induction datagrams with
  | nil => exact ⟨[], by simp, rfl⟩
  | cons d datagrams ih =>
      obtain ⟨p, holds, rfl⟩ := each d List.mem_cons_self
      obtain ⟨ps, all, rfl⟩ := ih fun d member => each d (List.mem_cons_of_mem _ member)
      exact ⟨p :: ps, List.forall_mem_cons.mpr ⟨holds, all⟩, rfl⟩

theorem payloads_data (chunks : List Bytes) (seq : UInt64) :
    (payloads chunks seq).map UdpPayload.data = chunks := by
  induction chunks generalizing seq with
  | nil => rfl
  | cons chunk chunks ih => simp only [payloads, List.map_cons, ih]

theorem length_payloads (chunks : List Bytes) (seq : UInt64) :
    (payloads chunks seq).length = chunks.length := by
  rw [← List.length_map UdpPayload.data, payloads_data]

theorem Quic.sendChunks_writes (chunks : List Bytes) (seq : UInt64) (stats : ClientStats) :
    Output.Writes (Quic.sendChunks chunks seq stats)
      ((payloads chunks seq).map UdpPayload.toBytes)
      (seq + UInt64.ofNat chunks.length, stats.countAll chunks) := by
  induction chunks generalizing seq stats with
  | nil =>
      have same : seq + UInt64.ofNat 0 = seq := by simp
      rw [List.length_nil, same]
      exact .pure (seq, stats)
  | cons chunk chunks ih =>
      have rest := ih (seq + 1) (stats.count chunk.length)
      have last : seq + 1 + UInt64.ofNat chunks.length =
          seq + UInt64.ofNat (chunk :: chunks).length := by
        rw [List.length_cons, UInt64.ofNat_add, UInt64.add_assoc, UInt64.add_comm 1]
        rfl
      rw [ClientStats.count_countAll, last] at rest
      exact .bind (.put _) rest

theorem Quic.handleQuic_writes (file : DataFile) (b : BlockSize) :
    Output.Writes (Quic.handleQuic file b)
      ((payloads (file.blocks b) 0).map UdpPayload.toBytes ++
        [UdpPayload.toBytes ⟨UInt64.ofNat (file.blocks b).length, []⟩])
      (ClientStats.zero.countAll (file.blocks b)) := by
  have sent := Quic.sendChunks_writes (file.blocks b) 0 .zero
  rw [UInt64.zero_add] at sent
  have whole : Output.Writes (Quic.handleQuic file b)
      ([] ++ ((payloads (file.blocks b) 0).map UdpPayload.toBytes ++
        ([UdpPayload.toBytes ⟨UInt64.ofNat (file.blocks b).length, []⟩] ++ [])))
      (ClientStats.zero.countAll (file.blocks b)) :=
    .bind .act (.bind sent (.bind (.put _) (.pure _)))
  simpa only [List.nil_append, List.append_nil] using whole

end PcdLab.Transport
