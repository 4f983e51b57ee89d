import PcdLab.StopAndWait.Exposed
import PcdLab.Transport.Connections

/-! # What the receivers decode

The decoders slice off eight bytes, whatever they are given. The QUIC loops give them
a datagram as it came, which may be shorter, and the UDP loops their receive buffer,
which is never shorter but is longer than most datagrams.
-/

namespace PcdLab.StopAndWait

open Shared.Wire Shared.Socket Transport Lib Lib.Runs Client.File

/-! ## Short datagrams -/

theorem Quic.onDatagram_eq_panic (seq : UInt64) (d : Bytes) :
    Quic.onDatagram seq d = .panic ↔ d.length < 8 := by
  rw [← UdpAck.fromBytes_eq_none, Quic.onDatagram]
  cases UdpAck.fromBytes d with
  | none => simp
  | some ack =>
      by_cases same : ack.seq = seq <;> simp [same]

/-- The client panics while it decodes an ack. -/
def DecodePanics (s : Exposed) (e : ClientEvent) : Prop :=
  ∃ attempt payload d, s.client.phase = .waiting attempt payload ∧ e = .read d ∧
    Quic.onDatagram payload.seq d = .panic

/-- It reads a datagram which is too short to be an ack. -/
def ReadsShort (e : ClientEvent) : Prop := ∃ d, e = .read d ∧ d.length < 8

theorem decodePanics_iff {s t : Exposed} {e : ClientEvent}
    (moved : quicStopAndWait.clientStep s e = some t) :
    DecodePanics s e ↔ ReadsShort e := by
  constructor
  · rintro ⟨_, payload, d, -, rfl, panics⟩
    exact ⟨d, rfl, (Quic.onDatagram_eq_panic payload.seq d).mp panics⟩
  · rintro ⟨d, rfl, short⟩
    simp only [Pair.clientStep] at moved
    split at moved
    · rename_i attempt payload phase
      exact ⟨attempt, payload, d, phase, rfl, (Quic.onDatagram_eq_panic payload.seq d).mpr short⟩
    · cases moved

/-- No loop panics as long as each datagram that it decodes has eight bytes, and any shorter
    one makes it panic. The servers decode up to the reading which ends their loop. -/
theorem quic_loops_panic_iff (readings : List Reading) (file : DataFile) (b : BlockSize)
    (events : List ClientEvent)
    (possible : (exec quicStopAndWait.clientStep (.start file b) events).isSome) :
    ((Quic.handleConnection readings).outcome ≠ .panicked ↔
      ∀ bytes r, .datagram bytes r ∈ readings.takeWhile (fun x => !Quic.leaves x) →
        8 ≤ bytes.length) ∧
    ((QuicStopAndWait.handleConnection readings).outcome ≠ .panicked ↔
      ∀ bytes r, .datagram bytes r ∈ readings.takeWhile (fun x => !QuicStopAndWait.leaves x) →
        8 ≤ bytes.length) ∧
    (¬ Somewhere quicStopAndWait.clientStep DecodePanics (.start file b) events ↔
      ∀ d, .read d ∈ events → 8 ≤ d.length) := by
  refine ⟨quic_decodes.readAll_panics readings rfl,
    quicStopAndWait_decodes.readAll_panics readings rfl, ?_⟩
  obtain ⟨s, ran⟩ := Option.isSome_iff_exists.mp possible
  have judged : ∀ s e t, quicStopAndWait.clientStep s e = some t →
      (DecodePanics s e ↔ ReadsShort e) := fun _ _ _ => decodePanics_iff
  rw [somewhere_iff_mem judged ran]
  constructor
  · intro never d member
    by_contra short
    exact never ⟨.read d, member, d, rfl, by omega⟩
  · rintro long ⟨e, member, d, rfl, short⟩
    have eight := long d member
    omega

/-- A transfer of one block, as both servers and the client see it. -/
theorem quic_loops_panic_never :
    (Quic.handleConnection (arriving [oneBlockData, oneBlockEnd])).outcome ≠ .panicked ∧
    (QuicStopAndWait.handleConnection (arriving [oneBlockData, oneBlockEnd])).outcome ≠
      .panicked ∧
    ¬ Somewhere quicStopAndWait.clientStep DecodePanics (.start oneBlock defaultBlockSize)
      [.send, .read (ack 0), .send, .close] := by
  have sizes : ∀ (q : Reading → Bool) bytes r, .datagram bytes r ∈
      (arriving [oneBlockData, oneBlockEnd]).takeWhile q → 8 ≤ bytes.length := by
    intro q bytes r member
    have sent := (List.takeWhile_subset q) member
    simp only [arriving, List.map_cons, List.map_nil, List.mem_cons, List.not_mem_nil, or_false,
      Reading.datagram.injEq] at sent
    rcases sent with ⟨rfl, -⟩ | ⟨rfl, -⟩ <;> decide
  obtain ⟨first, second, third⟩ := quic_loops_panic_iff (arriving [oneBlockData, oneBlockEnd])
    oneBlock defaultBlockSize [.send, .read (ack 0), .send, .close] (by decide +kernel)
  refine ⟨first.mpr (sizes _), second.mpr (sizes _), third.mpr ?_⟩
  intro d member
  have own : d = ack 0 := by simpa using member
  rw [own, ack, UdpAck.length_toBytes]

/-- One byte makes each of the three loops panic. -/
theorem short_datagram_panics :
    (Quic.handleConnection [.datagram [0] none]).outcome = .panicked ∧
    (QuicStopAndWait.handleConnection [.datagram [0] none]).outcome = .panicked ∧
    Somewhere quicStopAndWait.clientStep DecodePanics (.start oneBlock defaultBlockSize)
      [.send, .read [0]] := by
  have waits : (quicStopAndWait.clientStep (.start oneBlock defaultBlockSize) .send).map
      (fun s => s.client.phase) = some (.waiting 0 ⟨0, [1]⟩) := by
    decide +kernel
  obtain ⟨s, sent, phase⟩ := Option.map_eq_some_iff.mp waits
  have panics : Quic.onDatagram 0 [0] = .panic := (Quic.onDatagram_eq_panic 0 [0]).mpr (by decide)
  refine ⟨by decide +kernel, by decide +kernel, .inr ⟨s, sent, .inl ?_⟩⟩
  exact ⟨0, ⟨0, [1]⟩, [0], phase, rfl, panics⟩

/-! ## The decoded payload -/

/-- The payload which `handle_udp_stop_and_wait` of the server obtains from a datagram. -/
def UdpStopAndWait.payloadOf (datagram : Bytes) : Option UdpPayload :=
  UdpPayload.fromBytes (recvFrom maxBlockSize datagram).2

/-- The payload which `handle_connection` obtains, in both servers over QUIC. -/
def Quic.payloadOf (datagram : Bytes) : Option UdpPayload := UdpPayload.fromBytes datagram

def QuicStopAndWait.payloadOf (datagram : Bytes) : Option UdpPayload :=
  UdpPayload.fromBytes datagram

theorem UdpStopAndWait.handleDatagram_payloadOf (profile : Profile) (s : ReportLoop)
    (arrival : Arrival) (ackSend : Option IoError) :
    UdpStopAndWait.handleDatagram profile s arrival ackSend =
      if (recvFrom maxBlockSize arrival.datagram).1 = 0 then (s.report, none)
      else
        match payloadOf arrival.datagram with
        | none => ({ s with outcome := .panicked }, none)
        | some payload =>
            match ackSend with
            | some e => ({ s with outcome := .err e }, none)
            | none =>
                match profile.sub (recvFrom maxBlockSize arrival.datagram).1 8 with
                | none =>
                    ({ s with outcome := .panicked },
                      some (arrival.addr, UdpAck.toBytes ⟨payload.seq⟩))
                | some dataBytes =>
                    (s.count dataBytes, some (arrival.addr, UdpAck.toBytes ⟨payload.seq⟩)) := rfl

theorem Quic.handleDatagram_payloadOf (s : ConnectionLoop) (bytes : Bytes) :
    Quic.handleDatagram s bytes =
      match payloadOf bytes with
      | none => { s with outcome := .panicked }
      | some payload =>
          if payload.data.isEmpty then s.finish else s.count payload.data.length := rfl

theorem QuicStopAndWait.handleDatagram_payloadOf (s : ConnectionLoop) (bytes : Bytes)
    (ackSend : Option IoError) :
    QuicStopAndWait.handleDatagram s bytes ackSend =
      match payloadOf bytes with
      | none => ({ s with outcome := .panicked }, none)
      | some payload =>
          if payload.data.isEmpty then (s.finish, none)
          else
            match ackSend with
            | some e => ({ s with outcome := .err e }, none)
            | none => (s.count payload.data.length, some (UdpAck.toBytes ⟨payload.seq⟩)) := rfl

/-- The zeros behind the datagram are taken for data. -/
theorem UdpStopAndWait.payloadOf_toBytes {p : UdpPayload}
    (fits : p.toBytes.length ≤ maxBlockSize) :
    payloadOf p.toBytes =
      some ⟨p.seq, p.data ++ List.replicate (maxBlockSize - p.toBytes.length) 0⟩ := by
  rw [payloadOf, recvFrom_of_le fits, UdpPayload.fromBytes_toBytes_append]

/-- All three servers decode the payload that was sent iff it fills the receive buffer. Those
    over QUIC always do. -/
theorem decodes_what_was_sent_iff (p : UdpPayload) (fits : p.toBytes.length ≤ maxBlockSize) :
    (UdpStopAndWait.payloadOf p.toBytes = some p ∧ Quic.payloadOf p.toBytes = some p ∧
        QuicStopAndWait.payloadOf p.toBytes = some p ↔
      8 + p.data.length = maxBlockSize) ∧
    Quic.payloadOf p.toBytes = some p ∧ QuicStopAndWait.payloadOf p.toBytes = some p := by
  have exact : UdpPayload.fromBytes p.toBytes = some p := UdpPayload.fromBytes_toBytes p
  have size : p.toBytes.length = 8 + p.data.length := UdpPayload.length_toBytes p
  refine ⟨?_, exact, exact⟩
  rw [UdpStopAndWait.payloadOf_toBytes fits]
  constructor
  · rintro ⟨same, -⟩
    have data := congrArg UdpPayload.data (Option.some.inj same)
    have lengths := congrArg List.length data
    rw [List.length_append, List.length_replicate] at lengths
    omega
  · intro full
    have filled : maxBlockSize - p.toBytes.length = 0 := by omega
    rw [filled, List.replicate_zero, List.append_nil]
    exact ⟨rfl, exact, exact⟩

/-- Its datagram is as long as the receive buffer. -/
def largestPayload : UdpPayload := ⟨7, List.replicate 65527 1⟩

theorem length_largestPayload : largestPayload.data.length = 65527 := List.length_replicate

theorem decodes_what_was_sent_largest :
    UdpStopAndWait.payloadOf largestPayload.toBytes = some largestPayload := by
  have size := length_largestPayload
  have full : 8 + largestPayload.data.length = maxBlockSize := by unfold maxBlockSize; omega
  have fits := Nat.le_of_eq (largestPayload.length_toBytes.trans full)
  exact ((decodes_what_was_sent_iff largestPayload fits).1.mpr full).1

theorem padded_payload_decoded :
    ¬ ∀ p : UdpPayload, p.toBytes.length ≤ maxBlockSize →
      UdpStopAndWait.payloadOf p.toBytes = some p := by
  intro decodes
  have fits : (UdpPayload.toBytes ⟨0, [1]⟩).length ≤ maxBlockSize := by decide +kernel
  have same := decodes ⟨0, [1]⟩ fits
  rw [UdpStopAndWait.payloadOf_toBytes fits] at same
  have data := congrArg UdpPayload.data (Option.some.inj same)
  have lengths := congrArg List.length data
  rw [List.length_append, List.length_replicate, UdpPayload.length_toBytes] at lengths
  simp [maxBlockSize] at lengths

end PcdLab.StopAndWait
