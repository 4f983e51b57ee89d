import PcdLab.Transport.Datagrams

/-! # The stop-and-wait clients

Both clients run `send_and_wait_for_ack` once for each block. The two versions of
that loop differ in how often they try, in what they make of a datagram that is
read, and in their error texts; these differences are a `RetryLoop`. Everything
else (the send that counts itself, the retry after a timeout, the panic behind the
loop, the end marker after the last block) is one state machine.
-/

namespace PcdLab.StopAndWait

open Shared.Wire Shared.Socket Transport

inductive ErrorKind where
  | other
  | timedOut
  deriving Repr, DecidableEq

/-- What a client returns as `Err`: an error it makes up itself, or one from below. -/
inductive ClientError where
  | new (kind : ErrorKind) (text : String)
  | boxed (text : String)
  | io (e : IoError)
  deriving Repr, DecidableEq

/-- What the loop does with a datagram which it has read in time. -/
inductive Verdict where
  | accept
  | reject (e : ClientError)
  | ignore
  | panic
  deriving Repr, DecidableEq

structure RetryLoop where
  attempts : Nat
  onDatagram : UInt64 → Bytes → Verdict
  timedOut : ClientError

namespace Udp

def invalidAckLength : ClientError := .new .other "Invalid ack length"

def invalidAckSequence : ClientError := .new .other "Invalid ack sequence"

/-- The datagram is cut to the eight bytes of `ack_buffer` before it is checked. -/
def onDatagram (seq : UInt64) (datagram : Bytes) : Verdict :=
  let (bytesReceived, ackBuffer) := recvFrom 8 datagram
  if bytesReceived ≠ 8 then .reject invalidAckLength
  else
    match UdpAck.fromBytes ackBuffer with
    | none => .panic
    | some ack => if ack.seq ≠ seq then .reject invalidAckSequence else .accept

def sendAndWaitForAck : RetryLoop where
  attempts := 2
  onDatagram := onDatagram
  timedOut := .new .timedOut "Timed out waiting for UDP ack"

end Udp

namespace Quic

/-- An ack of another block is passed over: the body of the loop ends, and so does the attempt. -/
def onDatagram (seq : UInt64) (ackBytes : Bytes) : Verdict :=
  match UdpAck.fromBytes ackBytes with
  | none => .panic
  | some ack => if ack.seq = seq then .accept else .ignore

def sendAndWaitForAck : RetryLoop where
  attempts := 5
  onDatagram := onDatagram
  timedOut := .boxed "Timed out waiting for QUIC datagram ack"

end Quic

/-! ## The state machine -/

/-- Where the client stands between two events: about to send the payload for the given
    attempt, waiting for its ack, about to send the end marker, past it, or at an end. -/
inductive Phase where
  | sending (attempt : Nat) (payload : UdpPayload)
  | waiting (attempt : Nat) (payload : UdpPayload)
  | finishing
  | closing
  | ok
  | err (e : ClientError)
  | panicked
  deriving Repr, DecidableEq

namespace Phase

/-- The client has returned, or panicked. -/
def returned : Phase → Bool
  | .ok | .err _ | .panicked => true
  | _ => false

end Phase

/-- The locals of `handle_*_stop_and_wait`: the chunks still in the iterator, `seq`, `stats`. -/
structure Client where
  rest : List Bytes
  seq : UInt64
  stats : ClientStats
  phase : Phase
  deriving Repr, DecidableEq

namespace Client

/-- The head of the `for` loop over the chunks. -/
def nextBlock (c : Client) : Client :=
  match c.rest with
  | [] => { c with phase := .finishing }
  | chunk :: rest => { c with rest := rest, phase := .sending 0 ⟨c.seq, chunk⟩ }

def start (chunks : List Bytes) : Client := nextBlock ⟨chunks, 0, .zero, .finishing⟩

/-- The send succeeded: it is counted, and the wait for the ack begins. -/
def sent (c : Client) (attempt : Nat) (payload : UdpPayload) : Client :=
  { c with stats := c.stats.count payload.data.length, phase := .waiting attempt payload }

def fail (c : Client) (e : ClientError) : Client := { c with phase := .err e }

/-- `send_and_wait_for_ack` returned `Ok`: on to the next block. -/
def acked (c : Client) : Client := nextBlock { c with seq := c.seq + 1 }

end Client

namespace RetryLoop

/-- The end of the loop body without a `return`: the next attempt, or behind the loop the
    `unreachable!()`. -/
def again (loop : RetryLoop) (c : Client) (attempt : Nat) (payload : UdpPayload) : Client :=
  if attempt + 1 < loop.attempts then { c with phase := .sending (attempt + 1) payload }
  else { c with phase := .panicked }

/-- The timeout fired. -/
def elapsed (loop : RetryLoop) (c : Client) (attempt : Nat) (payload : UdpPayload) : Client :=
  if attempt + 1 = loop.attempts then c.fail loop.timedOut else loop.again c attempt payload

/-- A datagram was read in time. -/
def receive (loop : RetryLoop) (c : Client) (attempt : Nat) (payload : UdpPayload)
    (datagram : Bytes) : Client :=
  match loop.onDatagram payload.seq datagram with
  | .accept => c.acked
  | .reject e => c.fail e
  | .ignore => loop.again c attempt payload
  | .panic => { c with phase := .panicked }

end RetryLoop

theorem Client.nextBlock_phase (c : Client) :
    c.nextBlock.phase = .finishing ∨ ∃ p, c.nextBlock.phase = .sending 0 p := by
  unfold nextBlock
  cases c.rest with
  | nil => exact .inl rfl
  | cons chunk rest => exact .inr ⟨_, rfl⟩

@[simp] theorem Client.nextBlock_seq (c : Client) : c.nextBlock.seq = c.seq := by
  unfold nextBlock
  split <;> rfl

@[simp] theorem Client.nextBlock_stats (c : Client) : c.nextBlock.stats = c.stats := by
  unfold nextBlock
  split <;> rfl

@[simp] theorem Client.acked_stats (c : Client) : c.acked.stats = c.stats := nextBlock_stats _

theorem Client.nextBlock_elim {C : Phase → Prop} (ended : C .finishing)
    (more : ∀ p, C (.sending 0 p)) (c : Client) : C c.nextBlock.phase := by
  cases c.nextBlock_phase with
  | inl same => exact same ▸ ended
  | inr first =>
      obtain ⟨p, same⟩ := first
      exact same ▸ more p

/-- Going on to the next block is no way to return. -/
theorem Client.nextBlock_ne (c : Client) {phase : Phase} (returned : phase.returned = true) :
    c.nextBlock.phase ≠ phase := by
  intro same
  have goes : c.nextBlock.phase.returned = false :=
    nextBlock_elim (C := fun phase => phase.returned = false) rfl (fun _ => rfl) c
  rw [same, returned] at goes
  cases goes

/-! ## What the loops make of an ack -/

theorem Udp.onDatagram_ack (seq i : UInt64) :
    Udp.onDatagram seq (UdpAck.toBytes ⟨i⟩) =
      if i = seq then .accept else .reject Udp.invalidAckSequence := by
  have size : (UdpAck.toBytes ⟨i⟩).length = 8 := UdpAck.length_toBytes _
  have whole : recvFrom 8 (UdpAck.toBytes ⟨i⟩) = (8, UdpAck.toBytes ⟨i⟩) := by
    rw [recvFrom_of_le (Nat.le_of_eq size), size]
    simp only [Nat.sub_self, List.replicate_zero, List.append_nil]
  simp only [Udp.onDatagram, whole, ne_eq, not_true_eq_false, if_false, UdpAck.fromBytes_toBytes]
  split <;> simp_all

theorem Quic.onDatagram_ack (seq i : UInt64) :
    Quic.onDatagram seq (UdpAck.toBytes ⟨i⟩) = if i = seq then .accept else .ignore := by
  simp only [Quic.onDatagram, UdpAck.fromBytes_toBytes]

end PcdLab.StopAndWait
