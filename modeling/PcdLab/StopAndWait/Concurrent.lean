import PcdLab.StopAndWait.Accounting
import PcdLab.StopAndWait.Delivery
import PcdLab.Transport.TcpServer

/-! # Many stop-and-wait transfers over QUIC at once

Each client has its own connection, and the server a task for each. The network treats
every connection as it likes. What holds of one transfer with the server to itself holds
of each of them, and the line that is printed for it is about this transfer alone.
-/

namespace PcdLab.StopAndWait

open Shared.Wire Shared.Socket Transport Lib Lib.Runs Client.File

/-- The server with its clients: a task is the state of one connection, the client at its other
    end included. -/
def quicStopAndWaitPool :
    Tasks.Kind (DataFile × BlockSize) (Net ConnectionLoop) Event Line where
  start := fun transfer => quicStopAndWait.start transfer.1 transfer.2
  step := quicStopAndWait.step
  line := fun s => Line.ofOutcome s.server.outcome

/-- What `handle_connection` has returned are its counters. -/
def Returns (s : ConnectionLoop) : Prop := ∀ stats, s.outcome = .ok stats → stats = s.stats

theorem returns_turn {s : ConnectionLoop} (running : s.outcome = .running) (datagram : Bytes)
    (ackSend : Option IoError) :
    Returns (QuicStopAndWait.handleDatagram s datagram ackSend).1 := by
  intro stats ended
  cases decoded : UdpPayload.fromBytes datagram with
  | none => simp [QuicStopAndWait.handleDatagram, decoded] at ended
  | some payload =>
      by_cases empty : payload.data = []
      · simp [QuicStopAndWait.handleDatagram, decoded, empty, ConnectionLoop.finish] at ended ⊢
        exact ended.symm
      · cases ackSend with
        | none =>
            simp [QuicStopAndWait.handleDatagram, decoded, empty, ConnectionLoop.count,
              running] at ended
        | some e => simp [QuicStopAndWait.handleDatagram, decoded, empty] at ended

theorem returns_step {s t : Net ConnectionLoop} {e : Event} (returns : Returns s.server)
    (moved : quicStopAndWait.step s e = some t) : Returns t.server := by
  cases Pair.step_rule moved with
  | serve running _ => exact returns_turn (of_decide_eq_true running) _ _
  | @serverReadFails e running closed =>
      intro stats ended
      cases e with
      | applicationClosed => exact (Outcome.ok.inj ended).symm
      | other e => cases ended
  | _ => exact returns

/-- A datagram that carries more than its number. -/
def CarriesData (datagram : Bytes) : Bool := 8 < datagram.length

/-- A server which has not failed has counted every data datagram it has read, copies or not. -/
structure CountsAll (s : Net ConnectionLoop) : Prop where
  unended : s.server.outcome = .running → s.observed.ended = false
  counted : s.server.outcome = .running ∨ s.server.outcome = .ok s.server.stats →
    s.observed.counted = s.data.delivered.filter CarriesData

namespace CountsAll

variable {s t : Net ConnectionLoop}

theorem serve (all : CountsAll s) {datagram : Bytes} {ackSend : Option IoError}
    {data : Channel Bytes} (running : s.server.outcome = .running)
    (taken : s.data.deliver datagram = some data) {acks : Channel Bytes} :
    CountsAll { s with
      server := (QuicStopAndWait.handleDatagram s.server datagram ackSend).1
      data := data
      acks := acks
      observed := s.observed.serve (quicStopAndWait.isEnd datagram) datagram
        (QuicStopAndWait.handleDatagram s.server datagram ackSend).2 } := by
  have live := all.unended running
  have before := all.counted (.inl running)
  have read := Channel.deliver_delivered taken
  by_cases short : datagram.length < 8
  · have panics := (UdpPayload.fromBytes_eq_none datagram).mpr short
    constructor <;> simp [QuicStopAndWait.handleDatagram, panics]
  · obtain ⟨p, decoded, same⟩ := UdpPayload.toBytes_fromBytes (Nat.le_of_not_lt short)
    have size : datagram.length = 8 + p.data.length := by rw [← same, UdpPayload.length_toBytes]
    by_cases empty : p.data = []
    · have ending : CarriesData datagram = false := by simp [CarriesData, size, empty]
      constructor
      · simp [QuicStopAndWait.handleDatagram, decoded, empty, ConnectionLoop.finish]
      · intro _
        simp [QuicStopAndWait.handleDatagram, decoded, empty, Observed.serve, read, ending, before]
    · have more : CarriesData datagram = true := by
        simpa [CarriesData, size] using List.length_pos_of_ne_nil empty
      have data : p.data.isEmpty = false := List.isEmpty_eq_false_iff.mpr empty
      cases ackSend with
      | none =>
          constructor
          · simp [quicStopAndWait, decoded, data, Observed.serve, live]
          · intro _
            simp [QuicStopAndWait.handleDatagram, decoded, empty, Observed.serve, live, read, more,
              before]
      | some e => constructor <;> simp [QuicStopAndWait.handleDatagram, decoded, empty]

theorem step (all : CountsAll s) {e : Event} (moved : quicStopAndWait.step s e = some t) :
    CountsAll t := by
  cases Pair.step_rule moved with
  | @sendBlock attempt payload _ =>
      have observed := s.observed.send_counted attempt
      exact ⟨fun running => observed.2.trans (all.unended running),
        fun fine => observed.1.trans (all.counted fine)⟩
  | serve running taken => exact all.serve (of_decide_eq_true running) taken
  | @serverReadFails e running closed =>
      have before := all.counted (.inl (of_decide_eq_true running))
      cases e <;> exact ⟨nofun, fun _ => before⟩
  | dataFault fault =>
      refine ⟨all.unended, ?_⟩
      simp only [Channel.fault_delivered fault]
      exact all.counted
  | _ => exact ⟨all.unended, all.counted⟩

end CountsAll

theorem quicStopAndWaitPool_ends : quicStopAndWaitPool.Ends := by
  constructor
  · intro transfer
    rfl
  · intro s e t moved ended
    have returned : s.server.outcome ≠ .running := by
      intro running
      simp [quicStopAndWaitPool, running, Line.ofOutcome] at ended
    have same : t.server = s.server := by
      cases Pair.step_rule moved with
      | serve running _ => exact absurd (of_decide_eq_true running) returned
      | serverReadFails running _ => exact absurd (of_decide_eq_true running) returned
      | _ => rfl
    exact congrArg (fun s => Line.ofOutcome s.outcome) same

/-- In every state of every run with any number of transfers, each is delivered as if it had
    the server to itself, and gets at most one line. Where its connection does not duplicate,
    the line of a transfer that succeeded counts the datagrams with data which have reached the
    server: each of its blocks, and the further copies of them, but nothing of another
    transfer. -/
theorem concurrent_quic_transfers (es : List (Tasks.Event (DataFile × BlockSize) Event))
    (s : Tasks.Pool (Net ConnectionLoop) Line)
    (ran : exec quicStopAndWaitPool.pool {} es = some s) (i : Nat) (t : Net ConnectionLoop)
    (found : s.tasks[i]? = some t) : ∃ transfer : DataFile × BlockSize,
      (Tasks.spawned es)[i]? = some transfer ∧
      s.lines i = (Line.ofOutcome t.server.outcome).toList ∧
      (8 + transfer.2.val ≤ maxBlockSize →
        (∀ p ∈ quicStopAndWait.received t,
          (transfer.1.blocks transfer.2)[p.seq.toNat]? = some p.data) ∧
        (t.client.phase = .ok → ∀ k chunk, (transfer.1.blocks transfer.2)[k]? = some chunk →
          ∃ p ∈ quicStopAndWait.received t, p.seq.toNat = k ∧ p.data = chunk) ∧
        ((∀ e ∈ Tasks.own i es, e.duplicates = false) → t.client.phase = .ok →
          ∀ stats, s.lines i = [.report stats] → ∃ extra : List UdpPayload,
            (∀ p ∈ extra, (transfer.1.blocks transfer.2)[p.seq.toNat]? = some p.data) ∧
            (t.data.delivered.filter CarriesData).Perm
              ((payloads (transfer.1.blocks transfer.2) 0 ++ extra).map UdpPayload.toBytes) ∧
            stats = ⟨transfer.1.buffer.length ⌈/⌉ transfer.2.val + extra.length,
              transfer.1.buffer.length + (extra.map fun p => p.data.length).sum⟩ ∧
            stats.packetsReceived ≤ t.client.stats.packetsSent ∧
            stats.bytesReceived ≤ t.client.stats.bytesSent)) := by
  obtain ⟨transfer, param, alone, lines⟩ := Tasks.exec_task quicStopAndWaitPool_ends ran found
  refine ⟨transfer, param, lines, ?_⟩
  intro fits
  have reached : Reach quicStopAndWait.step anyStep
      (quicStopAndWait.start transfer.1 transfer.2) t := Reach.of_exec alone
  obtain ⟨-, carries, delivers⟩ := quic_contract.delivers transfer.1 transfer.2 fits t reached
  refine ⟨carries, delivers, ?_⟩
  intro single done stats printed
  have once : Reach quicStopAndWait.step noDuplicates
      (quicStopAndWait.start transfer.1 transfer.2) t :=
    Reach.of_labels alone fun e member _ => single e member
  obtain ⟨-, extra, numbered, split, tally, packets, bytes⟩ :=
    quic_counting.every_copy quic_contract transfer.1 transfer.2 fits t once done
  have returned : Returns t.server := by
    apply exec_invariant (fun s => Returns s.server) (fun _ _ _ returns moved =>
      returns_step returns moved) _ alone
    intro stats ended
    cases ended
  have all : CountsAll t :=
    exec_invariant CountsAll (fun _ _ _ all moved => all.step moved) ⟨fun _ => rfl, fun _ => rfl⟩
      alone
  have own : t.server.outcome = .ok stats := by
    rw [lines] at printed
    cases ended : t.server.outcome with
    | ok value =>
        simp [quicStopAndWaitPool, ended, Line.ofOutcome] at printed
        rw [printed]
    | _ => simp [quicStopAndWaitPool, ended, Line.ofOutcome] at printed
  have same : quicStopAndWait.tally t.server = stats := (returned stats own).symm
  rw [same] at tally packets bytes
  have counted := all.counted (.inr (own.trans (congrArg Outcome.ok same.symm)))
  exact ⟨extra, numbered, counted ▸ split, tally, packets, bytes⟩

/-- Two transfers of the same file in turns. The first block of the first one is sent, received
    and counted twice, because its ack is late. -/
def interleaved : List (Tasks.Event (DataFile × BlockSize) Event) :=
  [.spawn (twoBlocks, oneByte), .task 0 .send, .spawn (twoBlocks, oneByte),
    .task 0 (.serve (block 0 1) none), .task 1 .send, .task 0 .elapsed, .task 0 .send,
    .task 1 (.serve (block 0 1) none), .task 0 (.serve (block 0 1) none), .task 0 (.read (ack 0)),
    .task 0 (.ackFault (.drop (ack 0))), .task 0 .send, .task 0 (.serve (block 1 2) none),
    .task 0 (.read (ack 1)), .task 0 .send, .task 0 (.serve (UdpPayload.toBytes ⟨2, []⟩) none),
    .task 0 .close]

theorem concurrent_quic_transfers_interleaved : ∃ (s : Tasks.Pool (Net ConnectionLoop) Line)
    (t : Net ConnectionLoop) (extra : List UdpPayload),
    exec quicStopAndWaitPool.pool {} interleaved = some s ∧ s.tasks[0]? = some t ∧
      s.lines 0 = [.report ⟨2 + extra.length, 2 + (extra.map fun p => p.data.length).sum⟩] ∧
      2 + extra.length ≤ t.client.stats.packetsSent := by
  have replayed : ((exec quicStopAndWaitPool.pool {} interleaved).bind fun s =>
      s.tasks[0]?.map fun t => (s.lines 0, t.client.phase)) =
        some ([.report ⟨3, 3⟩], .ok) := by
    decide +kernel
  obtain ⟨s, ran, there⟩ := Option.bind_eq_some_iff.mp replayed
  obtain ⟨t, found, same⟩ := Option.map_eq_some_iff.mp there
  obtain ⟨lines, done⟩ := Prod.mk.inj same
  obtain ⟨transfer, param, -, holds⟩ := concurrent_quic_transfers interleaved s ran 0 t found
  have own : transfer = (twoBlocks, oneByte) := (Option.some.inj param).symm
  subst own
  have single : ∀ e ∈ Tasks.own 0 interleaved, e.duplicates = false := by decide +kernel
  obtain ⟨extra, -, -, stats, packets, -⟩ :=
    (holds (by decide)).2.2 single done ⟨3, 3⟩ lines
  refine ⟨s, t, extra, ran, found, ?_, ?_⟩
  · rw [lines, stats]
    rfl
  · rw [stats] at packets
    exact packets

end PcdLab.StopAndWait
