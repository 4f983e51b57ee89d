import PcdLab.Lib.Channel
import PcdLab.Lib.Runs
import PcdLab.StopAndWait.Client

/-! # A stop-and-wait transfer over a network

One client, its server, and the two channels between them. An event is one thing
that happens: a send, a datagram read by either side, a timeout, a failure of the
socket, or something the network does to a datagram in flight. Every interleaving
is a list of events.
-/

namespace PcdLab.StopAndWait

open Shared.Wire Shared.Socket Transport Lib Client.File

/-- One of the two client and server pairs, as far as they differ. -/
structure Pair (σ : Type) where
  loop : RetryLoop
  /-- The datagram which `handle_*_stop_and_wait` sends behind its loop, for the last `seq`. -/
  endMarker : UInt64 → Bytes
  init : σ
  running : σ → Bool
  /-- One datagram in the server loop, and the outcome of the ack it may try to send. -/
  serve : σ → Bytes → Option IoError → σ × Option Bytes
  /-- The server's receive call returns an error. -/
  readFails : σ → ReadError → σ
  /-- The part of a datagram which the server's receive call hands over. -/
  view : Bytes → Bytes
  /-- The server takes this datagram for the end of the transfer. -/
  isEnd : Bytes → Bool
  /-- The counters of the transfer: those of its report, or before it the current ones. -/
  tally : σ → ServerStats

/-- The client's socket is the only one the server hears from here. -/
def clientAddr : SocketAddr := ⟨0x7f000001, 50000⟩

/-- `handle_udp_stop_and_wait` of the client and of the server. -/
def udpStopAndWait (profile : Profile) : Pair ReportLoop where
  loop := Udp.sendAndWaitForAck
  endMarker := fun _ => []
  init := .init
  running := fun s => s.outcome = .running
  serve := fun s datagram ackSend =>
    let (s', ack) := UdpStopAndWait.handleDatagram profile s ⟨clientAddr, datagram⟩ ackSend
    (s', ack.map Prod.snd)
  readFails := fun s e =>
    match e with
    | .applicationClosed => s
    | .other e => { s with outcome := .err e }
  view := fun datagram => (recvFrom maxBlockSize datagram).2.take (recvFrom maxBlockSize datagram).1
  isEnd := fun datagram => (recvFrom maxBlockSize datagram).1 = 0
  tally := fun s => s.printed.headD s.stats

/-- `handle_quic_stop_and_wait` and `handle_connection` of `quic_stop_and_wait`. -/
def quicStopAndWait : Pair ConnectionLoop where
  loop := Quic.sendAndWaitForAck
  endMarker := fun seq => UdpPayload.toBytes ⟨seq, []⟩
  init := .init
  running := fun s => s.outcome = .running
  serve := QuicStopAndWait.handleDatagram
  readFails := ConnectionLoop.readFails
  view := id
  isEnd := fun datagram =>
    match UdpPayload.fromBytes datagram with
    | none => false
    | some payload => payload.data.isEmpty
  tally := ConnectionLoop.stats

inductive Event where
  /-- The send which the client is about to do succeeds, or fails. -/
  | send
  | sendFails (e : IoError)
  /-- The client's wait ends: by its timeout, with a datagram, or with an error. -/
  | elapsed
  | read (datagram : Bytes)
  | readFails (e : IoError)
  /-- The client is done with the connection, and returns. -/
  | close
  /-- The server reads a datagram; its ack, if it tries to send one, goes out or not. -/
  | serve (datagram : Bytes) (ackSend : Option IoError)
  | serverReadFails (e : ReadError)
  /-- The network loses or duplicates a datagram. -/
  | dataFault (f : Channel.Fault Bytes)
  | ackFault (f : Channel.Fault Bytes)
  deriving Repr, DecidableEq

/-- What the statements observe of a run. No part of the programs reads it. -/
structure Observed where
  /-- The blocks whose sending has started. -/
  started : Nat := 0
  /-- The ack timeouts which have fired: all of them, and those of the current block. -/
  timeouts : Nat := 0
  blockTimeouts : Nat := 0
  /-- The data datagrams which the server counted before it first saw an end marker. -/
  counted : List Bytes := []
  ended : Bool := false
  deriving Repr, DecidableEq

structure Net (σ : Type) where
  client : Client
  server : σ
  data : Channel Bytes
  acks : Channel Bytes
  observed : Observed
  deriving Repr, DecidableEq

variable {σ : Type}

/-- Before anything has happened, for a file cut into blocks. -/
def Pair.start (P : Pair σ) (file : DataFile) (b : BlockSize) : Net σ :=
  ⟨.start (file.blocks b), P.init, {}, {}, {}⟩

def Observed.send (o : Observed) : Nat → Observed
  | 0 => { o with started := o.started + 1, blockTimeouts := 0 }
  | _ + 1 => o

def Observed.elapsed (o : Observed) : Observed :=
  { o with timeouts := o.timeouts + 1, blockTimeouts := o.blockTimeouts + 1 }

def Observed.serve (o : Observed) (isEnd : Bool) (datagram : Bytes) (ack : Option Bytes) :
    Observed :=
  { o with
    counted := if o.ended = false ∧ ack.isSome then o.counted ++ [datagram] else o.counted
    ended := o.ended || isEnd }

def Pair.step (P : Pair σ) (s : Net σ) : Event → Option (Net σ)
  | .send =>
      match s.client.phase with
      | .sending attempt payload =>
          some { s with
            client := s.client.sent attempt payload
            data := s.data.send payload.toBytes
            observed := s.observed.send attempt }
      | .finishing =>
          some { s with
            client := { s.client with phase := .closing }
            data := s.data.send (P.endMarker s.client.seq) }
      | _ => none
  | .sendFails e =>
      match s.client.phase with
      | .sending _ _ | .finishing => some { s with client := s.client.fail (.io e) }
      | _ => none
  | .elapsed =>
      match s.client.phase with
      | .waiting attempt payload =>
          some { s with
            client := P.loop.elapsed s.client attempt payload
            observed := s.observed.elapsed }
      | _ => none
  | .read datagram =>
      match s.client.phase with
      | .waiting attempt payload =>
          (s.acks.deliver datagram).map fun acks =>
            { s with client := P.loop.receive s.client attempt payload datagram, acks := acks }
      | _ => none
  | .readFails e =>
      match s.client.phase with
      | .waiting _ _ => some { s with client := s.client.fail (.io e) }
      | _ => none
  | .close =>
      match s.client.phase with
      | .closing => some { s with client := { s.client with phase := .ok } }
      | _ => none
  | .serve datagram ackSend =>
      if P.running s.server then
        (s.data.deliver datagram).map fun data =>
          let (server, ack) := P.serve s.server datagram ackSend
          { s with
            server := server
            data := data
            acks := ack.elim s.acks s.acks.send
            observed := s.observed.serve (P.isEnd datagram) datagram ack }
      else none
  | .serverReadFails e =>
      if P.running s.server ∧ (e = .applicationClosed → s.client.phase.returned) then
        some { s with server := P.readFails s.server e }
      else none
  | .dataFault f => (s.data.fault f).map fun data => { s with data := data }
  | .ackFault f => (s.acks.fault f).map fun acks => { s with acks := acks }

/-- What one step can do, one rule for each way in which it can go. -/
inductive Pair.Step (P : Pair σ) (s : Net σ) : Event → Net σ → Prop where
  | sendBlock {attempt payload} (phase : s.client.phase = .sending attempt payload) :
      Step P s .send { s with
        client := s.client.sent attempt payload
        data := s.data.send payload.toBytes
        observed := s.observed.send attempt }
  | sendEnd (phase : s.client.phase = .finishing) :
      Step P s .send { s with
        client := { s.client with phase := .closing }
        data := s.data.send (P.endMarker s.client.seq) }
  | sendFails {e} (phase : (∃ attempt payload, s.client.phase = .sending attempt payload) ∨
        s.client.phase = .finishing) :
      Step P s (.sendFails e) { s with client := s.client.fail (.io e) }
  | elapsed {attempt payload} (phase : s.client.phase = .waiting attempt payload) :
      Step P s .elapsed { s with
        client := P.loop.elapsed s.client attempt payload
        observed := s.observed.elapsed }
  | read {attempt payload datagram acks} (phase : s.client.phase = .waiting attempt payload)
      (taken : s.acks.deliver datagram = some acks) :
      Step P s (.read datagram) { s with
        client := P.loop.receive s.client attempt payload datagram, acks := acks }
  | readFails {e attempt payload} (phase : s.client.phase = .waiting attempt payload) :
      Step P s (.readFails e) { s with client := s.client.fail (.io e) }
  | close (phase : s.client.phase = .closing) :
      Step P s .close { s with client := { s.client with phase := .ok } }
  | serve {datagram ackSend data} (running : P.running s.server)
      (taken : s.data.deliver datagram = some data) :
      Step P s (.serve datagram ackSend) { s with
        server := (P.serve s.server datagram ackSend).1
        data := data
        acks := (P.serve s.server datagram ackSend).2.elim s.acks s.acks.send
        observed := s.observed.serve (P.isEnd datagram) datagram
          (P.serve s.server datagram ackSend).2 }
  | serverReadFails {e} (running : P.running s.server)
      (closed : e = .applicationClosed → s.client.phase.returned) :
      Step P s (.serverReadFails e) { s with server := P.readFails s.server e }
  | dataFault {f data} (moved : s.data.fault f = some data) :
      Step P s (.dataFault f) { s with data := data }
  | ackFault {f acks} (moved : s.acks.fault f = some acks) :
      Step P s (.ackFault f) { s with acks := acks }

/-- Every invariant below is derived from the rules, and none unfolds `step` again. -/
theorem Pair.step_rule {P : Pair σ} {s t : Net σ} {e : Event} (moved : P.step s e = some t) :
    P.Step s e t := by
  cases e with
  | send =>
      simp only [step] at moved
      split at moved
      · rename_i phase
        exact Option.some.inj moved ▸ .sendBlock phase
      · rename_i phase
        exact Option.some.inj moved ▸ .sendEnd phase
      · cases moved
  | sendFails e =>
      simp only [step] at moved
      split at moved
      · rename_i phase
        exact Option.some.inj moved ▸ .sendFails (.inl ⟨_, _, phase⟩)
      · rename_i phase
        exact Option.some.inj moved ▸ .sendFails (.inr phase)
      · cases moved
  | elapsed =>
      simp only [step] at moved
      split at moved
      · rename_i phase
        exact Option.some.inj moved ▸ .elapsed phase
      · cases moved
  | read datagram =>
      simp only [step] at moved
      split at moved
      · rename_i phase
        obtain ⟨acks, taken, rfl⟩ := Option.map_eq_some_iff.mp moved
        exact .read phase taken
      · cases moved
  | readFails e =>
      simp only [step] at moved
      split at moved
      · rename_i phase
        exact Option.some.inj moved ▸ .readFails phase
      · cases moved
  | close =>
      simp only [step] at moved
      split at moved
      · rename_i phase
        exact Option.some.inj moved ▸ .close phase
      · cases moved
  | serve datagram ackSend =>
      simp only [step] at moved
      split at moved
      · rename_i running
        obtain ⟨data, taken, rfl⟩ := Option.map_eq_some_iff.mp moved
        exact .serve running taken
      · cases moved
  | serverReadFails e =>
      simp only [step] at moved
      split at moved
      · rename_i allowed
        exact Option.some.inj moved ▸ .serverReadFails allowed.1 allowed.2
      · cases moved
  | dataFault f =>
      obtain ⟨data, done, rfl⟩ := Option.map_eq_some_iff.mp moved
      exact .dataFault done
  | ackFault f =>
      obtain ⟨acks, done, rfl⟩ := Option.map_eq_some_iff.mp moved
      exact .ackFault done

/-! ## Runs -/

def Event.duplicates : Event → Bool
  | .dataFault f | .ackFault f => f.duplicates
  | _ => false

/-- The channels drop, delay and reorder, but do not duplicate. -/
def noDuplicates : Net σ → Event → Prop := fun _ e => e.duplicates = false

/-- The data datagrams which the server has received so far, decoded. -/
def Pair.received (P : Pair σ) (s : Net σ) : List UdpPayload :=
  (s.data.delivered.filter fun datagram => !P.isEnd datagram).filterMap fun datagram =>
    UdpPayload.fromBytes (P.view datagram)

/-! ## Small transfers

The concrete runs below transfer two bytes, one a block. -/

def twoBlocks : DataFile := ⟨[1, 2], by decide⟩

def oneByte : BlockSize := ⟨1, by decide, by decide⟩

/-- The datagram of a block of one byte. -/
def block (seq : UInt64) (byte : UInt8) : Bytes := UdpPayload.toBytes ⟨seq, [byte]⟩

def ack (seq : UInt64) : Bytes := UdpAck.toBytes ⟨seq⟩

end PcdLab.StopAndWait
