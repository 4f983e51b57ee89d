import Mathlib.Data.List.Perm.Basic
import PcdLab.Transport.Datagrams

/-! # QUIC connections

`handle_connection` reads what its peer sends until an empty payload, an error or the
close of the connection makes it leave the loop. It takes the payloads in whatever
order they come, and it decodes each of them without looking at its length.
-/

namespace PcdLab.Transport

open Shared.Wire Shared.Socket Lib Client.File

/-- What `read_datagram` hands to the loop: a datagram, for which an ack may then be sent with
    the given outcome, or an error. -/
inductive Reading where
  | datagram (bytes : Bytes) (ackSend : Option IoError)
  | fails (e : ReadError)
  deriving Repr, DecidableEq

namespace ConnectionLoop

/-- One turn of the loop. -/
def read (handle : ConnectionLoop → Bytes → Option IoError → ConnectionLoop) (s : ConnectionLoop) :
    Reading → ConnectionLoop
  | .datagram bytes ackSend => handle s bytes ackSend
  | .fails e => s.readFails e

/-- The loop on all that arrives. What comes behind the end of the loop is not read. -/
def readAll (handle : ConnectionLoop → Bytes → Option IoError → ConnectionLoop) :
    ConnectionLoop → List Reading → ConnectionLoop
  | s, [] => s
  | s, reading :: later =>
      if s.outcome = .running then readAll handle (s.read handle reading) later else s

variable {handle : ConnectionLoop → Bytes → Option IoError → ConnectionLoop}

theorem readAll_stopped {s : ConnectionLoop} (stopped : s.outcome ≠ .running)
    (readings : List Reading) : readAll handle s readings = s := by
  cases readings with
  | nil => rfl
  | cons reading later => rw [readAll, if_neg stopped]

theorem readAll_append (s : ConnectionLoop) (first second : List Reading) :
    readAll handle s (first ++ second) = readAll handle (readAll handle s first) second := by
  induction first generalizing s with
  | nil => rfl
  | cons reading later ih =>
      by_cases runs : s.outcome = .running
      · rw [List.cons_append, readAll, if_pos runs, readAll, if_pos runs, ih]
      · rw [readAll_stopped runs, readAll_stopped runs, readAll_stopped runs]

end ConnectionLoop

/-- `handle_connection` of `quic`, which sends nothing. -/
def Quic.handleConnection (readings : List Reading) : ConnectionLoop :=
  ConnectionLoop.readAll (fun s bytes _ => Quic.handleDatagram s bytes) .init readings

/-- `handle_connection` of `quic_stop_and_wait`. -/
def QuicStopAndWait.handleConnection (readings : List Reading) : ConnectionLoop :=
  ConnectionLoop.readAll (fun s bytes ackSend => (handleDatagram s bytes ackSend).1) .init readings

/-! ## Payloads in any order -/

/-- All datagrams arrive whole, in this order. -/
def arriving (order : List Bytes) : List Reading := order.map fun bytes => .datagram bytes none

theorem Quic.handleDatagram_data {p : UdpPayload} (full : p.data ≠ []) (s : ConnectionLoop) :
    Quic.handleDatagram s p.toBytes = s.count p.data.length := by
  have data : p.data.isEmpty = false := List.isEmpty_eq_false_iff.mpr full
  simp only [Quic.handleDatagram, UdpPayload.fromBytes_toBytes, data, Bool.false_eq_true, if_false]

theorem Quic.handleDatagram_end (seq : UInt64) (s : ConnectionLoop) :
    Quic.handleDatagram s (UdpPayload.toBytes ⟨seq, []⟩) = s.finish := by
  simp only [Quic.handleDatagram, UdpPayload.fromBytes_toBytes, List.isEmpty_nil, if_true]

/-- Each payload is counted as it comes; its number is decoded and not looked at. -/
theorem Quic.readAll_data {ps : List UdpPayload} (full : ∀ p ∈ ps, p.data ≠ [])
    (stats : ServerStats) :
    ConnectionLoop.readAll (fun s bytes _ => Quic.handleDatagram s bytes) ⟨stats, .running⟩
        (arriving (ps.map UdpPayload.toBytes)) =
      ⟨stats.countAll (ps.map UdpPayload.data), .running⟩ := by
  induction ps generalizing stats with
  | nil => rfl
  | cons p ps ih =>
      obtain ⟨here, later⟩ := List.forall_mem_cons.mp full
      have turn : Quic.handleDatagram ⟨stats, .running⟩ p.toBytes =
          ⟨stats.count p.data.length, .running⟩ := Quic.handleDatagram_data here _
      have rest := ih later (stats.count p.data.length)
      rw [ServerStats.count_countAll] at rest
      simp only [arriving, List.map_cons, ConnectionLoop.readAll, if_true, ConnectionLoop.read,
        turn]
      exact rest

/-- What the server returns is settled by what comes ahead of the end datagram. -/
theorem Quic.handleConnection_end {ps : List UdpPayload} (full : ∀ p ∈ ps, p.data ≠ [])
    (seq : UInt64) (post : List Bytes) :
    (Quic.handleConnection (arriving
        (ps.map UdpPayload.toBytes ++ UdpPayload.toBytes ⟨seq, []⟩ :: post))).outcome =
      .ok (ServerStats.default.countAll (ps.map UdpPayload.data)) := by
  have counted := Quic.readAll_data full .default
  have start : ConnectionLoop.init = ⟨.default, .running⟩ := rfl
  rw [Quic.handleConnection, arriving, List.map_append, ConnectionLoop.readAll_append]
  unfold arriving at counted
  rw [start, counted, List.map_cons, ConnectionLoop.readAll]
  simp only [if_true, ConnectionLoop.read, Quic.handleDatagram_end]
  rw [ConnectionLoop.readAll_stopped]
  · rfl
  · simp only [ConnectionLoop.finish, ne_eq, reduceCtorEq, not_false_eq_true]

/-- What comes ahead of the end datagram and behind it are the payloads of the blocks. -/
theorem arrived_around {blocks : List UdpPayload} {last : Bytes} {pre post : List Bytes}
    (perm : (pre ++ last :: post).Perm (blocks.map UdpPayload.toBytes ++ [last])) :
    ∃ ahead behind : List UdpPayload, pre = ahead.map UdpPayload.toBytes ∧
      post = behind.map UdpPayload.toBytes ∧ (ahead ++ behind).Perm blocks := by
  have rest : (pre ++ post).Perm (blocks.map UdpPayload.toBytes) :=
    ((List.perm_middle.symm.trans perm).trans (List.perm_append_singleton _ _)).cons_inv
  have each : ∀ d ∈ pre ++ post, ∃ p : UdpPayload, True ∧ d = p.toBytes := by
    intro d member
    obtain ⟨p, -, rfl⟩ := List.mem_map.mp (rest.mem_iff.mp member)
    exact ⟨p, trivial, rfl⟩
  obtain ⟨ahead, -, rfl⟩ := exists_payloads fun d member => each d (List.mem_append_left _ member)
  obtain ⟨behind, -, rfl⟩ := exists_payloads fun d member => each d (List.mem_append_right _ member)
  refine ⟨ahead, behind, rfl, rfl, ?_⟩
  rw [← List.map_append] at rest
  exact (List.map_perm_map_iff fun _ _ same => UdpPayload.toBytes_injective same).mp rest

theorem ServerStats.countAll_perm {chunks chunks' : List Bytes} (perm : chunks.Perm chunks')
    (stats : ServerStats) : stats.countAll chunks = stats.countAll chunks' := by
  rw [countAll, countAll, perm.length_eq, (perm.map List.length).sum_eq]

/-- The server returns the counters of the client exactly when the end datagram comes last.
    Whatever comes behind it is not read. -/
theorem quic_counts_all_iff (file : DataFile) (b : BlockSize)
    (script : List (Option (Output.Fault IoError))) (stats : ClientStats)
    (s : Output.Sink Bytes IoError)
    (completed : Quic.handleQuic file b { faults := script } = .ok stats s) (order : List Bytes)
    (delivered : order.Perm s.written) :
    (Quic.handleConnection (arriving order)).outcome =
        .ok ⟨stats.packetsSent, stats.bytesSent⟩ ↔
      order.getLast? = some (UdpPayload.toBytes ⟨UInt64.ofNat (file.blocks b).length, []⟩) := by
  obtain ⟨rfl, wrote⟩ := (Quic.handleQuic_writes file b).of_ok completed
  rw [wrote, List.nil_append] at delivered
  have present := delivered.mem_iff.mpr (List.mem_append_right _ (List.mem_singleton.mpr rfl))
  obtain ⟨pre, post, rfl⟩ := List.append_of_mem present
  obtain ⟨ahead, behind, rfl, rfl, shuffled⟩ := arrived_around delivered
  have blocks : ((ahead ++ behind).map UdpPayload.data).Perm (file.blocks b) := by
    have same := shuffled.map UdpPayload.data
    rwa [payloads_data] at same
  have full : ∀ p ∈ ahead ++ behind, p.data ≠ [] := fun p member =>
    (DataFile.block_mem (blocks.mem_iff.mp (List.mem_map_of_mem member))).1
  rw [Quic.handleConnection_end fun p member => full p (List.mem_append_left _ member)]
  have last : (ahead.map UdpPayload.toBytes ++
      UdpPayload.toBytes ⟨UInt64.ofNat (file.blocks b).length, []⟩ ::
        behind.map UdpPayload.toBytes).getLast? =
      some (UdpPayload.toBytes ⟨UInt64.ofNat (file.blocks b).length, []⟩) ↔ behind = [] := by
    constructor
    · intro ends
      rcases List.eq_nil_or_concat behind with none | ⟨front, p, rfl⟩
      · exact none
      · rw [List.concat_eq_append, List.map_append, ← List.cons_append, ← List.append_assoc,
          List.map_singleton, List.getLast?_concat] at ends
        have same := UdpPayload.toBytes_injective (Option.some.inj ends)
        exact absurd (congrArg UdpPayload.data same) (full p (by simp))
    · rintro rfl
      rw [List.map_nil, List.getLast?_concat]
  rw [last]
  have total := blocks.length_eq
  simp only [List.map_append, List.length_append, List.length_map] at total
  constructor
  · intro same
    have packets := congrArg ServerStats.packetsReceived (Outcome.ok.inj same)
    simp only [ServerStats.countAll, ServerStats.default, ClientStats.countAll, ClientStats.zero,
      List.length_map] at packets
    exact List.length_eq_zero_iff.mp (by omega)
  · rintro rfl
    rw [List.append_nil] at blocks
    rw [ServerStats.countAll_perm blocks]
    rfl

/-- A transfer of one block. -/
def oneBlock : DataFile := ⟨[1], by decide⟩

def oneBlockData : Bytes := UdpPayload.toBytes ⟨0, [1]⟩

def oneBlockEnd : Bytes := UdpPayload.toBytes ⟨1, []⟩

theorem oneBlock_completed : ∃ s, Quic.handleQuic oneBlock defaultBlockSize { faults := [] } =
    .ok ⟨1, 1⟩ s ∧ s.written = [oneBlockData, oneBlockEnd] := by
  obtain ⟨s, ran, wrote⟩ := (Quic.handleQuic_writes oneBlock defaultBlockSize).clean
  have stats : ClientStats.zero.countAll (oneBlock.blocks defaultBlockSize) = ⟨1, 1⟩ := by
    decide +kernel
  have sent : (payloads (oneBlock.blocks defaultBlockSize) 0).map UdpPayload.toBytes ++
      [UdpPayload.toBytes ⟨UInt64.ofNat (oneBlock.blocks defaultBlockSize).length, []⟩] =
        [oneBlockData, oneBlockEnd] := by
    decide +kernel
  exact ⟨s, stats ▸ ran, wrote.trans sent⟩

theorem quic_counts_all_in_order :
    (Quic.handleConnection (arriving [oneBlockData, oneBlockEnd])).outcome = .ok ⟨1, 1⟩ := by
  obtain ⟨s, completed, wrote⟩ := oneBlock_completed
  have last : [oneBlockData, oneBlockEnd].getLast? =
      some (UdpPayload.toBytes ⟨UInt64.ofNat (oneBlock.blocks defaultBlockSize).length, []⟩) := by
    decide +kernel
  have delivered : [oneBlockData, oneBlockEnd].Perm s.written := by rw [wrote]
  exact (quic_counts_all_iff oneBlock defaultBlockSize [] ⟨1, 1⟩ s completed _ delivered).mpr last

theorem end_overtakes_data : ¬ ∀ (file : DataFile) (b : BlockSize) script stats s,
    Quic.handleQuic file b { faults := script } = .ok stats s → ∀ order : List Bytes,
      order.Perm s.written → (Quic.handleConnection (arriving order)).outcome =
        .ok ⟨stats.packetsSent, stats.bytesSent⟩ := by
  intro counts
  obtain ⟨s, completed, wrote⟩ := oneBlock_completed
  have swapped : [oneBlockEnd, oneBlockData].Perm s.written := by
    rw [wrote]
    exact .swap _ _ _
  exact absurd (counts _ _ _ _ _ completed _ swapped) (by decide +kernel)

/-! ## Short datagrams -/

/-- The reading takes `handle_connection` of `quic` out of its loop: an error, or a payload
    without data. -/
def Quic.leaves : Reading → Bool
  | .datagram bytes _ => bytes.length = 8
  | .fails _ => true

/-- As for `quic`; here an ack that cannot be sent ends the loop too. -/
def QuicStopAndWait.leaves : Reading → Bool
  | .datagram bytes ackSend => bytes.length = 8 ∨ (8 < bytes.length ∧ ackSend.isSome)
  | .fails _ => true

/-- What a loop does with a reading: it panics on a short datagram, and only there. -/
structure Decodes (handle : ConnectionLoop → Bytes → Option IoError → ConnectionLoop)
    (leaves : Reading → Bool) : Prop where
  fails : ∀ e, leaves (.fails e) = true
  long : ∀ bytes r, leaves (.datagram bytes r) = true → 8 ≤ bytes.length
  panics : ∀ s bytes r, bytes.length < 8 → (handle s bytes r).outcome = .panicked
  ends : ∀ s bytes r, leaves (.datagram bytes r) = true →
    (handle s bytes r).outcome ≠ .running ∧ (handle s bytes r).outcome ≠ .panicked
  goes : ∀ s bytes r, 8 ≤ bytes.length → leaves (.datagram bytes r) = false →
    (handle s bytes r).outcome = s.outcome

theorem decode_long {bytes : Bytes} (long : 8 ≤ bytes.length) :
    ∃ p, UdpPayload.fromBytes bytes = some p ∧ p.data.isEmpty = decide (bytes.length = 8) := by
  obtain ⟨p, decoded, same⟩ := UdpPayload.toBytes_fromBytes long
  refine ⟨p, decoded, ?_⟩
  have size : bytes.length = 8 + p.data.length := by rw [← same, UdpPayload.length_toBytes]
  rw [Bool.eq_iff_iff, List.isEmpty_iff_length_eq_zero, decide_eq_true_iff]
  omega

theorem quic_decodes : Decodes (fun s bytes _ => Quic.handleDatagram s bytes) Quic.leaves where
  fails := fun _ => rfl
  long := by
    intro bytes r leaves
    exact Nat.le_of_eq (of_decide_eq_true leaves).symm
  panics := by
    intro s bytes r short
    simp only [Quic.handleDatagram, (UdpPayload.fromBytes_eq_none bytes).mpr short]
  ends := by
    intro s bytes r leaves
    have eight := of_decide_eq_true leaves
    obtain ⟨p, decoded, empty⟩ := decode_long (Nat.le_of_eq eight.symm)
    rw [decide_eq_true eight] at empty
    simp [Quic.handleDatagram, decoded, empty, ConnectionLoop.finish]
  goes := by
    intro s bytes r long stays
    have more := of_decide_eq_false stays
    obtain ⟨p, decoded, full⟩ := decode_long long
    rw [decide_eq_false more] at full
    simp [Quic.handleDatagram, decoded, full, ConnectionLoop.count]

theorem quicStopAndWait_decodes :
    Decodes (fun s bytes r => (QuicStopAndWait.handleDatagram s bytes r).1)
      QuicStopAndWait.leaves where
  fails := fun _ => rfl
  long := by
    intro bytes r leaves
    rcases of_decide_eq_true leaves with eight | ⟨more, -⟩
    · exact Nat.le_of_eq eight.symm
    · exact Nat.le_of_lt more
  panics := by
    intro s bytes r short
    simp only [QuicStopAndWait.handleDatagram, (UdpPayload.fromBytes_eq_none bytes).mpr short]
  ends := by
    intro s bytes r leaves
    rcases of_decide_eq_true leaves with eight | ⟨more, failed⟩
    · obtain ⟨p, decoded, empty⟩ := decode_long (Nat.le_of_eq eight.symm)
      rw [decide_eq_true eight] at empty
      simp [QuicStopAndWait.handleDatagram, decoded, empty, ConnectionLoop.finish]
    · obtain ⟨p, decoded, full⟩ := decode_long (Nat.le_of_lt more)
      rw [decide_eq_false (Nat.ne_of_gt more)] at full
      obtain ⟨e, rfl⟩ := Option.isSome_iff_exists.mp failed
      simp [QuicStopAndWait.handleDatagram, decoded, full]
  goes := by
    intro s bytes r long stays
    have more := of_decide_eq_false stays
    obtain ⟨p, decoded, full⟩ := decode_long long
    rw [decide_eq_false (fun eight => more (.inl eight))] at full
    have sent : r = none := by
      cases r with
      | none => rfl
      | some e =>
          refine absurd (.inr ⟨?_, rfl⟩) more
          exact Nat.lt_of_le_of_ne long fun eight => more (.inl eight.symm)
    simp [QuicStopAndWait.handleDatagram, decoded, full, sent, ConnectionLoop.count]

/-- A loop panics unless every datagram ahead of the one that ends it has the eight bytes
    which the decoder slices off. -/
theorem Decodes.readAll_panics {handle : ConnectionLoop → Bytes → Option IoError → ConnectionLoop}
    {leaves : Reading → Bool} (decodes : Decodes handle leaves) (readings : List Reading)
    {s : ConnectionLoop} (runs : s.outcome = .running) :
    (ConnectionLoop.readAll handle s readings).outcome ≠ .panicked ↔
      ∀ bytes r, .datagram bytes r ∈ readings.takeWhile (fun x => !leaves x) →
        8 ≤ bytes.length := by
  induction readings generalizing s with
  | nil => simp [ConnectionLoop.readAll, runs]
  | cons reading later ih =>
      rw [ConnectionLoop.readAll, if_pos runs, List.takeWhile_cons]
      cases reading with
      | fails e =>
          have stopped : (s.readFails e).outcome ≠ .running := by
            cases e <;> simp [ConnectionLoop.readFails, ConnectionLoop.finish]
          have fine : (s.readFails e).outcome ≠ .panicked := by
            cases e <;> simp [ConnectionLoop.readFails, ConnectionLoop.finish]
          rw [ConnectionLoop.read, ConnectionLoop.readAll_stopped stopped]
          simp [decodes.fails, fine]
      | datagram bytes r =>
          rw [ConnectionLoop.read]
          by_cases short : bytes.length < 8
          · have panics := decodes.panics s bytes r short
            have stays : leaves (.datagram bytes r) = false := by
              by_contra leaves
              have long := decodes.long bytes r (Bool.eq_true_of_not_eq_false leaves)
              omega
            have stopped : (handle s bytes r).outcome ≠ .running := by simp [panics]
            rw [ConnectionLoop.readAll_stopped stopped, panics]
            simp only [stays, Bool.not_false, if_true, List.mem_cons, ne_eq, not_true_eq_false,
              false_iff]
            intro long
            have bound := long bytes r (.inl rfl)
            omega
          · cases ends : leaves (.datagram bytes r) with
            | true =>
                obtain ⟨stopped, fine⟩ := decodes.ends s bytes r ends
                rw [ConnectionLoop.readAll_stopped stopped]
                simp [fine]
            | false =>
                have goes := decodes.goes s bytes r (Nat.le_of_not_lt short) ends
                rw [ih (goes.trans runs)]
                simp only [Bool.not_false, if_true, List.mem_cons]
                constructor
                · rintro long bytes' r' (here | there)
                  · cases here
                    exact Nat.le_of_not_lt short
                  · exact long bytes' r' there
                · intro long bytes' r' there
                  exact long bytes' r' (.inr there)

end PcdLab.Transport
