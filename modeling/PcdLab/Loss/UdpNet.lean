import Mathlib.Algebra.BigOperators.Group.List.Basic
import Mathlib.Algebra.GroupWithZero.Nat
import PcdLab.StopAndWait.Net
import PcdLab.StopAndWait.Truncation

/-! # A UDP transfer over a network

`handle_udp` sends its datagrams and returns. What becomes of them is between the
channel and `start_udp_server`. The states in between are those of a machine which
does one operation of the client, or one turn of the server, at a time.
-/

namespace PcdLab.Loss

open Shared.Wire Shared.Socket Transport StopAndWait Lib Lib.Runs Client.File

/-- Where `handle_udp` stands: ahead of its socket, in the loop over the chunks (or behind it,
    when none is left), or at an end. -/
inductive UdpPhase where
  | binding
  | sending
  | ok
  | err (e : IoError)
  deriving Repr, DecidableEq

structure UdpClient where
  rest : List Bytes
  stats : ClientStats
  phase : UdpPhase
  deriving Repr, DecidableEq

structure UdpNet where
  client : UdpClient
  server : ReportLoop
  data : Channel Bytes
  deriving Repr, DecidableEq

/-- The client's operations with their outcome, the server's receive calls, and what the
    network does. -/
inductive UdpEvent where
  | bind (result : Option IoError)
  | sendTo (result : Option IoError)
  | serve (datagram : Bytes)
  | serverReadFails (e : IoError)
  | dataFault (f : Channel.Fault Bytes)
  deriving Repr, DecidableEq

namespace UdpClient

def bound (c : UdpClient) : Option IoError → UdpClient
  | none => { c with phase := .sending }
  | some e => { c with phase := .err e }

/-- The datagram which the next `send_to` puts on the network. -/
def next (c : UdpClient) : Bytes := c.rest.headD []

/-- The send succeeded. A chunk is counted; behind the last one the client returns. -/
def sent (c : UdpClient) : UdpClient :=
  match c.rest with
  | [] => { c with phase := .ok }
  | chunk :: rest => { c with rest := rest, stats := c.stats.count chunk.length }

end UdpClient

namespace UdpNet

def start (file : DataFile) (b : BlockSize) : UdpNet :=
  ⟨⟨file.blocks b, .zero, .binding⟩, .init, {}⟩

def step (s : UdpNet) : UdpEvent → Option UdpNet
  | .bind result =>
      if s.client.phase = .binding then some { s with client := s.client.bound result } else none
  | .sendTo result =>
      if s.client.phase = .sending then
        match result with
        | none => some { s with client := s.client.sent, data := s.data.send s.client.next }
        | some e => some { s with client := { s.client with phase := .err e } }
      else none
  | .serve datagram =>
      if s.server.outcome = .running then
        (s.data.deliver datagram).map fun data =>
          { s with server := Udp.startUdpServer s.server ⟨clientAddr, datagram⟩, data := data }
      else none
  | .serverReadFails e =>
      if s.server.outcome = .running then
        some { s with server := { s.server with outcome := .err e } }
      else none
  | .dataFault f => (s.data.fault f).map fun data => { s with data := data }

/-- What one step can do. -/
inductive Step (s : UdpNet) : UdpEvent → UdpNet → Prop where
  | bind {result} (phase : s.client.phase = .binding) :
      Step s (.bind result) { s with client := s.client.bound result }
  | send (phase : s.client.phase = .sending) :
      Step s (.sendTo none) { s with client := s.client.sent, data := s.data.send s.client.next }
  | sendFails {e} (phase : s.client.phase = .sending) :
      Step s (.sendTo (some e)) { s with client := { s.client with phase := .err e } }
  | serve {datagram data} (running : s.server.outcome = .running)
      (taken : s.data.deliver datagram = some data) :
      Step s (.serve datagram)
        { s with server := Udp.startUdpServer s.server ⟨clientAddr, datagram⟩, data := data }
  | serverReadFails {e} (running : s.server.outcome = .running) :
      Step s (.serverReadFails e) { s with server := { s.server with outcome := .err e } }
  | dataFault {f data} (moved : s.data.fault f = some data) :
      Step s (.dataFault f) { s with data := data }

theorem step_rule {s t : UdpNet} {e : UdpEvent} (moved : s.step e = some t) : s.Step e t := by
  cases e with
  | bind result =>
      obtain ⟨phase, same⟩ := Option.ite_none_right_eq_some.mp moved
      exact Option.some.inj same ▸ .bind phase
  | sendTo result =>
      obtain ⟨phase, same⟩ := Option.ite_none_right_eq_some.mp moved
      cases result with
      | none => exact Option.some.inj same ▸ .send phase
      | some e => exact Option.some.inj same ▸ .sendFails phase
  | serve datagram =>
      obtain ⟨running, same⟩ := Option.ite_none_right_eq_some.mp moved
      obtain ⟨data, taken, rfl⟩ := Option.map_eq_some_iff.mp same
      exact .serve running taken
  | serverReadFails e =>
      obtain ⟨running, same⟩ := Option.ite_none_right_eq_some.mp moved
      exact Option.some.inj same ▸ .serverReadFails running
  | dataFault f =>
      obtain ⟨data, done, rfl⟩ := Option.map_eq_some_iff.mp moved
      exact .dataFault done

end UdpNet

/-- The channel drops, delays and reorders, but does not duplicate. -/
def UdpEvent.duplicates : UdpEvent → Bool
  | .dataFault f => f.duplicates
  | _ => false

def udpNoDuplicates : UdpNet → UdpEvent → Prop := fun _ e => e.duplicates = false

/-! ## The machine runs the program -/

/-- Where a run of the program has left the client, and what it has put out. -/
def UdpNet.AfterProgram (s : UdpNet) : EStateM.Result IoError (Output.Sink Bytes IoError)
    ClientStats → Prop
  | .ok stats sink => s.client.phase = .ok ∧ s.client.stats = stats ∧ s.data.sent = sink.written
  | .error e sink => s.client.phase = .err e ∧ s.data.sent = sink.written

/-- The client has come to the end of `handle_udp`'s loop and goes on with `last`. -/
theorem UdpNet.sendChunks_runs (chunks : List Bytes) (stats : ClientStats) (server : ReportLoop)
    (data : Channel Bytes) (sink : Output.Sink Bytes IoError) (same : data.sent = sink.written) :
    ∃ events s, exec step ⟨⟨chunks, stats, .sending⟩, server, data⟩ events = some s ∧
      s.AfterProgram ((do
        let stats ← Udp.sendChunks chunks stats
        Udp.sendTo []
        return stats) sink) := by
  induction chunks generalizing stats data sink with
  | nil =>
      rcases Output.put_cases (ε := IoError) [] sink with ⟨t, ran, wrote⟩ | ⟨e, t, failed, wrote⟩
      · refine ⟨[.sendTo none], _, rfl, ?_⟩
        simp [AfterProgram, Udp.sendChunks, Udp.sendTo, EStateM.bind, bind, pure, EStateM.pure,
          ran, wrote, same, UdpClient.sent, UdpClient.next]
      · refine ⟨[.sendTo (some e)], _, rfl, ?_⟩
        simp [AfterProgram, Udp.sendChunks, Udp.sendTo, EStateM.bind, bind, pure, EStateM.pure,
          failed, wrote, same]
  | cons chunk chunks ih =>
      rcases Output.put_cases (ε := IoError) chunk sink with
        ⟨t, ran, wrote⟩ | ⟨e, t, failed, wrote⟩
      · have more : (data.send chunk).sent = t.written := by
          rw [Channel.send_sent, same, wrote]
        obtain ⟨events, s, rest, after⟩ := ih (stats.count chunk.length) (data.send chunk) t more
        refine ⟨.sendTo none :: events, s, rest, ?_⟩
        simpa [Udp.sendChunks, Udp.sendTo, EStateM.bind, bind, ran] using after
      · refine ⟨[.sendTo (some e)], _, rfl, ?_⟩
        simp [AfterProgram, Udp.sendChunks, Udp.sendTo, EStateM.bind, bind, failed, wrote, same]

/-- Whatever fails in a run of `handle_udp`, the machine can do the same. -/
theorem UdpNet.handleUdp_runs (file : DataFile) (b : BlockSize)
    (script : List (Option (Output.Fault IoError))) :
    ∃ events s, exec step (.start file b) events = some s ∧
      s.AfterProgram (Udp.handleUdp file b { faults := script }) := by
  rcases Output.act_cases (α := Bytes) { faults := script } with
    ⟨t, ran, wrote⟩ | ⟨e, t, failed, wrote⟩
  · obtain ⟨events, s, rest, after⟩ := sendChunks_runs (file.blocks b) .zero .init {} t wrote.symm
    refine ⟨.bind none :: events, s, rest, ?_⟩
    simpa [Udp.handleUdp, Udp.bind, EStateM.bind, bind, ran] using after
  · refine ⟨[.bind (some e)], _, rfl, ?_⟩
    simp [AfterProgram, Udp.handleUdp, Udp.bind, EStateM.bind, bind, failed, wrote,
      UdpClient.bound, start]

end PcdLab.Loss
