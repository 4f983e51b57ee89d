import PcdLab.Loss.QuicClose
import PcdLab.Transport.TcpServer

/-! # The QUIC servers

`start_quic_server` and `start_quic_stop_and_wait_server` spawn a task for each connection
that comes in. A task may panic: its counters are lost then, and nothing is printed. No
task reads, counts or acknowledges what another connection carries.
-/

namespace PcdLab.Transport

open Shared.Wire Shared.Socket Lib Lib.Runs Client.File Loss

namespace QuicServer

/-- `handle_connection` with the `await` of the handshake in front of it. Of the stop-and-wait
    server also the acks are kept which it has sent on its connection. -/
structure Task where
  connected : Bool
  loop : ConnectionLoop
  acks : List Bytes
  deriving Repr, DecidableEq

def Task.start : Task := ⟨false, .init, []⟩

inductive ConnectionEvent where
  | connected
  | handshakeFails (e : IoError)
  | reading (r : Reading)
  deriving Repr, DecidableEq

/-- The turn of the loop for a datagram: `handle_connection` with the ack it sends, if any. -/
abbrev Turn := ConnectionLoop → Bytes → Option IoError → ConnectionLoop × Option Bytes

def Turn.loop (handle : Turn) : ConnectionLoop → Bytes → Option IoError → ConnectionLoop :=
  fun s bytes ackSend => (handle s bytes ackSend).1

def Turn.ack (handle : Turn) (s : ConnectionLoop) : Reading → Option Bytes
  | .datagram bytes ackSend => (handle s bytes ackSend).2
  | .fails _ => none

def Task.step (handle : Turn) (t : Task) : ConnectionEvent → Option Task
  | .connected =>
      if t.connected = false ∧ t.loop.outcome = .running then some { t with connected := true }
      else none
  | .handshakeFails e =>
      if t.connected = false ∧ t.loop.outcome = .running then
        some { t with loop := { t.loop with outcome := .err e } }
      else none
  | .reading r =>
      if t.connected = true ∧ t.loop.outcome = .running then
        some { t with
          loop := t.loop.read handle.loop r
          acks := t.acks ++ (handle.ack t.loop r).toList }
      else none

/-- The accept loop of both servers. A task that panics prints nothing. -/
def kind (handle : Turn) : Tasks.Kind Unit Task ConnectionEvent Line where
  start := fun _ => .start
  step := Task.step handle
  line := fun t => Line.ofOutcome t.loop.outcome

def startQuicServer : Tasks.Kind Unit Task ConnectionEvent Line :=
  kind fun s bytes _ => (Quic.handleDatagram s bytes, none)

def startQuicStopAndWaitServer : Tasks.Kind Unit Task ConnectionEvent Line :=
  kind QuicStopAndWait.handleDatagram

/-! ## One task -/

/-- What a task has read. -/
def ConnectionEvent.reading? : ConnectionEvent → Option Reading
  | .reading r => some r
  | _ => none

def readings (es : List ConnectionEvent) : List Reading := es.filterMap ConnectionEvent.reading?

/-- The ack for a datagram: its sequence number, unless it carries no data, or the ack cannot
    be sent. -/
def ackFor : Reading → Option Bytes
  | .datagram bytes none => if 8 < bytes.length then some (bytes.take 8) else none
  | _ => none

/-- What the proofs use of a server: when its loop panics, and what it sends. -/
structure Turn.Contract (handle : Turn) (leaves : Reading → Bool)
    (ackOf : Reading → Option Bytes) : Prop where
  decodes : Decodes handle.loop leaves
  ack : ∀ s r, handle.ack s r = ackOf r

theorem quic_contract : Turn.Contract (fun s bytes _ => (Quic.handleDatagram s bytes, none))
    Quic.leaves (fun _ => none) where
  decodes := quic_decodes
  ack := by
    intro s r
    cases r <;> rfl

theorem quicStopAndWait_contract :
    Turn.Contract QuicStopAndWait.handleDatagram QuicStopAndWait.leaves ackFor where
  decodes := quicStopAndWait_decodes
  ack := by
    intro s r
    cases r with
    | fails e => rfl
    | datagram bytes ackSend =>
        unfold Turn.ack QuicStopAndWait.handleDatagram
        by_cases short : bytes.length < 8
        · have stops : ackFor (.datagram bytes ackSend) = none := by
            cases ackSend with
            | none => exact if_neg (by omega)
            | some e => rfl
          simp only [(UdpPayload.fromBytes_eq_none bytes).mpr short, stops]
        · obtain ⟨p, decoded, same⟩ := UdpPayload.toBytes_fromBytes (Nat.le_of_not_lt short)
          have front : bytes.take 8 = UdpAck.toBytes ⟨p.seq⟩ := by
            rw [← same]
            exact List.take_left' (length_seqBytes p.seq)
          have size : bytes.length = 8 + p.data.length := by
            rw [← same, UdpPayload.length_toBytes]
          simp only [decoded]
          by_cases empty : p.data = []
          · have eight : bytes.length = 8 := by simp [size, empty]
            cases ackSend <;> simp [empty, ackFor, eight]
          · have more : 8 < bytes.length := by
              have nonempty := List.length_pos_of_ne_nil empty
              omega
            cases ackSend <;> simp [empty, ackFor, more, front]

variable {handle : Turn} {leaves : Reading → Bool} {ackOf : Reading → Option Bytes}

/-- What the events of a connection make of its task. -/
structure Task.Follows (handle : Turn) (ackOf : Reading → Option Bytes)
    (es : List ConnectionEvent) (t : Task) : Prop where
  connected : t.connected = true ↔ .connected ∈ es
  loop : t.connected = true → t.loop = ConnectionLoop.readAll handle.loop .init (readings es)
  early : t.connected = false → readings es = [] ∧
    (t.loop = .init ∨ ∃ e, .handshakeFails e ∈ es ∧ t.loop = ⟨.default, .err e⟩)
  acks : t.acks = (readings es).filterMap ackOf
  panics : t.loop.outcome = .panicked ↔
    ∃ bytes r, .datagram bytes r ∈ readings es ∧ bytes.length < 8

/-- A turn panics on a short datagram, and on nothing else. -/
theorem Turn.Contract.panics (contract : handle.Contract leaves ackOf) (s : ConnectionLoop)
    (running : s.outcome = .running) (r : Reading) :
    (s.read handle.loop r).outcome = .panicked ↔
      ∃ bytes ackSend, r = .datagram bytes ackSend ∧ bytes.length < 8 := by
  cases r with
  | fails e =>
      cases e <;> simp [ConnectionLoop.read, ConnectionLoop.readFails, ConnectionLoop.finish]
  | datagram bytes ackSend =>
      simp only [ConnectionLoop.read]
      by_cases short : bytes.length < 8
      · exact iff_of_true (contract.decodes.panics s bytes ackSend short)
          ⟨bytes, ackSend, rfl, short⟩
      · have fine : (handle.loop s bytes ackSend).outcome ≠ .panicked := by
          cases ends : leaves (.datagram bytes ackSend) with
          | true => exact (contract.decodes.ends s bytes ackSend ends).2
          | false =>
              rw [contract.decodes.goes s bytes ackSend (Nat.le_of_not_lt short) ends, running]
              simp
        apply iff_of_false fine
        rintro ⟨bytes', ackSend', same, short'⟩
        cases same
        exact short short'

theorem Task.Follows.step (contract : handle.Contract leaves ackOf) {es : List ConnectionEvent}
    {t u : Task} {e : ConnectionEvent} (follows : t.Follows handle ackOf es)
    (moved : t.step handle e = some u) : u.Follows handle ackOf (es ++ [e]) := by
  cases e with
  | connected =>
      have same : readings (es ++ [.connected]) = readings es := by
        simp [readings, ConnectionEvent.reading?]
      simp only [Task.step] at moved
      split at moved
      · rename_i allowed
        cases Option.some.inj moved
        obtain ⟨unread, fresh⟩ := follows.early allowed.1
        have init : t.loop = .init := by
          rcases fresh with same | ⟨e, -, failed⟩
          · exact same
          · have running := allowed.2
            rw [failed] at running
            cases running
        constructor
        · simp
        · intro _
          rw [same, unread]
          exact init
        · intro unconnected
          cases unconnected
        · rw [same]
          exact follows.acks
        · rw [same]
          exact follows.panics
      · cases moved
  | handshakeFails e =>
      have same : readings (es ++ [.handshakeFails e]) = readings es := by
        simp [readings, ConnectionEvent.reading?]
      simp only [Task.step] at moved
      split at moved
      · rename_i allowed
        cases Option.some.inj moved
        obtain ⟨unread, fresh⟩ := follows.early allowed.1
        have stats : t.loop.stats = .default := by
          rcases fresh with same | ⟨e, -, failed⟩
          · rw [same]
            rfl
          · rw [failed]
        constructor
        · simpa using follows.connected
        · intro connected
          rw [allowed.1] at connected
          cases connected
        · intro _
          exact ⟨same.trans unread, .inr ⟨e, by simp, by rw [stats]⟩⟩
        · rw [same]
          exact follows.acks
        · rw [same, unread]
          simp
      · cases moved
  | reading r =>
      have more : readings (es ++ [.reading r]) = readings es ++ [r] := by
        simp [readings, ConnectionEvent.reading?]
      simp only [Task.step] at moved
      split at moved
      · rename_i allowed
        cases Option.some.inj moved
        have before := follows.loop allowed.1
        constructor
        · simpa using follows.connected
        · intro _
          rw [more, ConnectionLoop.readAll_append, ← before, ConnectionLoop.readAll,
            if_pos allowed.2]
          rfl
        · intro unconnected
          rw [allowed.1] at unconnected
          cases unconnected
        · rw [more, List.filterMap_append, ← follows.acks]
          cases sent : ackOf r <;> simp [contract.ack, sent]
        · have quiet : ¬ ∃ bytes r, .datagram bytes r ∈ readings es ∧ bytes.length < 8 := by
            rw [← follows.panics, allowed.2]
            simp
          simp only [more, contract.panics t.loop allowed.2, List.mem_append, List.mem_singleton]
          constructor
          · rintro ⟨bytes, ackSend, rfl, short⟩
            exact ⟨bytes, ackSend, .inr rfl, short⟩
          · rintro ⟨bytes, ackSend, old | new, short⟩
            · exact absurd ⟨bytes, ackSend, old, short⟩ quiet
            · exact ⟨bytes, ackSend, new.symm, short⟩
      · cases moved

theorem Task.Follows.run (contract : handle.Contract leaves ackOf) {es : List ConnectionEvent}
    {t : Task} (ran : exec (Task.step handle) .start es = some t) : t.Follows handle ackOf es := by
  have empty : Task.start.Follows handle ackOf [] := by
    constructor
    · simp [Task.start]
    · intro connected
      cases connected
    · intro _
      exact ⟨rfl, .inl rfl⟩
    · rfl
    · simp [Task.start, ConnectionLoop.init, readings]
  exact exec_history (fun es t => Task.Follows handle ackOf es t)
    (fun _ _ _ _ follows moved => follows.step contract moved) empty ran

/-! ## All connections -/

theorem kind_ends (handle : Turn) : (kind handle).Ends := by
  constructor
  · intro k
    rfl
  · intro t e u moved ended
    have returned : t.loop.outcome ≠ .running := by
      intro running
      simp [kind, running, Line.ofOutcome] at ended
    cases e <;> simp [kind, Task.step, returned] at moved

/-- What a connection gets: all that its task is follows from the events of the connection, its
    line is printed when the task returns, and a connection that is up can always be closed
    with the line of what has been counted on it. -/
structure Serves (handle : Turn) (ackOf : Reading → Option Bytes) (s : Tasks.Pool Task Line)
    (i : Nat) (es : List ConnectionEvent) (t : Task) : Prop where
  follows : t.Follows handle ackOf es
  lines : s.lines i = (Line.ofOutcome t.loop.outcome).toList
  live : t.connected = true → t.loop.outcome = .running →
    ∃ r, (kind handle).pool s (.task i (.reading (.fails .applicationClosed))) = some r ∧
      r.lines i = [.report t.loop.stats]

theorem Turn.Contract.serves (contract : handle.Contract leaves ackOf)
    {es : List (Tasks.Event Unit ConnectionEvent)} {s : Tasks.Pool Task Line}
    (ran : exec (kind handle).pool {} es = some s) {i : Nat} {t : Task}
    (found : s.tasks[i]? = some t) : Serves handle ackOf s i (Tasks.own i es) t := by
  obtain ⟨_, _, alone, lines⟩ := Tasks.exec_task (kind_ends handle) ran found
  constructor
  case follows => exact .run contract alone
  case lines => exact lines
  case live =>
    intro connected running
    have closes : exec (Task.step handle) t [.reading (.fails .applicationClosed)] =
        some { t with loop := t.loop.finish } := by
      simp [exec, Task.step, connected, running, ConnectionLoop.read, ConnectionLoop.readFails,
        Turn.ack]
    obtain ⟨r, further, tasks⟩ := Tasks.exec_alone (K := kind handle) found closes
    obtain ⟨q, moved, last⟩ := exec_cons.mp further
    cases Option.some.inj last
    have inside : i < s.tasks.length := (List.getElem?_eq_some_iff.mp found).1
    have there : r.tasks[i]? = some { t with loop := t.loop.finish } := by
      rw [tasks]
      exact List.getElem?_set_self inside
    obtain ⟨_, _, _, printed⟩ :=
      Tasks.exec_task (kind_ends handle) (exec_append ran further) there
    exact ⟨r, moved, printed⟩

/-- Whatever the other connections carry, and whichever of their tasks panic, the counters, the
    acks and the line of a connection are those of what was read on it, it panics iff one of
    its own datagrams is too short, and then it is not reported. -/
theorem quic_servers_isolate_connections :
    (∀ es s, exec startQuicServer.pool {} es = some s → ∀ i t, s.tasks[i]? = some t →
      Serves (fun s bytes _ => (Quic.handleDatagram s bytes, none)) (fun _ => none) s i
        (Tasks.own i es) t) ∧
    (∀ es s, exec startQuicStopAndWaitServer.pool {} es = some s → ∀ i t, s.tasks[i]? = some t →
      Serves QuicStopAndWait.handleDatagram ackFor s i (Tasks.own i es) t) :=
  ⟨fun _ _ ran _ _ found => quic_contract.serves ran found,
    fun _ _ ran _ _ found => quicStopAndWait_contract.serves ran found⟩

/-- Two connections: the task of the second panics on a datagram that is too short, between the
    datagrams of the first, whose only data is lost. -/
def overlapping : List (Tasks.Event Unit ConnectionEvent) :=
  [.spawn (), .spawn (), .task 1 .connected, .task 0 .connected,
    .task 1 (.reading (.datagram [7] none)), .task 0 (.reading (.fails .applicationClosed))]

theorem overlapping_runs : ∃ s t, exec startQuicServer.pool {} overlapping = some s ∧
    s.tasks[0]? = some t ∧ t.connected = true ∧ t.loop.outcome ≠ .running := by
  have replayed : ((exec startQuicServer.pool {} overlapping).bind fun s => s.tasks[0]?).map
      (fun t => (t.connected, t.loop.outcome)) = some (true, .ok ⟨0, 0⟩) := by
    decide +kernel
  obtain ⟨t, there, same⟩ := Option.map_eq_some_iff.mp replayed
  obtain ⟨s, ran, found⟩ := Option.bind_eq_some_iff.mp there
  obtain ⟨connected, ended⟩ := Prod.mk.inj same
  exact ⟨s, t, ran, found, connected, by simp [ended]⟩

theorem quic_servers_isolate_connections_overlapping : ∃ s t,
    exec startQuicServer.pool {} overlapping = some s ∧
      Serves (fun s bytes _ => (Quic.handleDatagram s bytes, none)) (fun _ => none) s 0
        [.connected, .reading (.fails .applicationClosed)] t := by
  obtain ⟨s, t, ran, found, -⟩ := overlapping_runs
  exact ⟨s, t, ran, quic_servers_isolate_connections.1 overlapping s ran 0 t found⟩

end QuicServer

end PcdLab.Transport
