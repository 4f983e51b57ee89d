import Mathlib.Algebra.BigOperators.Group.List.Basic
import PcdLab.StopAndWait.Exposed
import PcdLab.StopAndWait.Retries

/-! # The stop-and-wait clients as programs

The state machine of a client has one step for each thing that can happen to it. The
source is a loop over the chunks around a loop over the attempts. Here is the source as
it stands, run against a script of what its sends and its waits come to. The two agree
on every script: the machine does what the program does, and nothing else. Both end,
whatever the script.
-/

namespace PcdLab.StopAndWait

open Shared.Wire Shared.Socket Transport Lib Lib.Runs Client.File

variable {σ : Type}

/-! ## The program -/

/-- How a wait for an ack ends. -/
inductive Wait where
  | elapsed
  | datagram (bytes : Bytes)
  | fails (e : IoError)
  deriving Repr, DecidableEq

/-- The outcomes of the sends and of the waits to come. Behind the script all sends succeed,
    and nothing arrives any more. -/
structure Script where
  sends : List (Option IoError) := []
  waits : List Wait := []
  deriving Repr, DecidableEq

/-- A program runs on the script, and puts out datagrams and counts. -/
structure World where
  script : Script
  sent : List Bytes
  stats : ClientStats
  deriving Repr, DecidableEq

inductive Stop where
  | err (e : ClientError)
  | panicked
  deriving Repr, DecidableEq

abbrev Program := EStateM Stop World

def send (d : Bytes) : Program Unit := fun w =>
  match w.script.sends with
  | some e :: later => .error (.err (.io e)) { w with script.sends := later }
  | later => .ok () { w with script.sends := later.tail, sent := w.sent ++ [d] }

def wait : Program Wait := fun w =>
  match w.script.waits with
  | answer :: later => .ok answer { w with script.waits := later }
  | [] => .ok .elapsed w

def count (bytes : Nat) : Program Unit := fun w =>
  .ok () { w with stats := w.stats.count bytes }

/-- The `match` on the outcome of the wait. `again` is the rest of the loop. -/
def judge (loop : RetryLoop) (payload : UdpPayload) (attempt : Nat) (again : Program Unit) :
    Wait → Program Unit
  | .datagram bytes =>
      match loop.onDatagram payload.seq bytes with
      | .accept => pure ()
      | .reject e => throw (.err e)
      | .ignore => again
      | .panic => throw .panicked
  | .fails e => throw (.err (.io e))
  | .elapsed => if attempt + 1 = loop.attempts then throw (.err loop.timedOut) else again

/-- The loop over the attempts, with the `unreachable!()` behind it. -/
def tries (loop : RetryLoop) (payload : UdpPayload) : List Nat → Program Unit
  | [] => throw .panicked
  | attempt :: later => do
      send payload.toBytes
      count payload.data.length
      let answer ← wait
      judge loop payload attempt (tries loop payload later) answer

def sendAndWait (loop : RetryLoop) (payload : UdpPayload) : Program Unit :=
  tries loop payload (List.range loop.attempts)

/-- The loop over the chunks. -/
def transfer (loop : RetryLoop) : List Bytes → UInt64 → Program UInt64
  | [], seq => pure seq
  | chunk :: chunks, seq => do
      sendAndWait loop ⟨seq, chunk⟩
      transfer loop chunks (seq + 1)

/-- The end marker, and `Ok(stats)`. -/
def finish (P : Pair σ) (seq : UInt64) : Program ClientStats := do
  send (P.endMarker seq)
  return (← get).stats

/-- `handle_udp_stop_and_wait` and `handle_quic_stop_and_wait` of the client. -/
def handle (P : Pair σ) (file : DataFile) (blockSize : BlockSize) : Program ClientStats := do
  let seq ← transfer P.loop (file.blocks blockSize) 0
  finish P seq

/-! ## What is left of the program -/

/-- The rest of the program in a state of the machine. -/
def resume (P : Pair σ) (c : Client) : Program ClientStats :=
  match c.phase with
  | .sending attempt payload => do
      tries P.loop payload (List.range' attempt (P.loop.attempts - attempt))
      let seq ← transfer P.loop c.rest (c.seq + 1)
      finish P seq
  | .waiting attempt payload => do
      let answer ← wait
      judge P.loop payload attempt
        (tries P.loop payload (List.range' (attempt + 1) (P.loop.attempts - (attempt + 1)))) answer
      let seq ← transfer P.loop c.rest (c.seq + 1)
      finish P seq
  | .finishing => finish P c.seq
  | .closing | .ok => do return (← get).stats
  | .err e => throw (.err e)
  | .panicked => throw .panicked

/-- The script on which this happens first. -/
def ClientEvent.ahead (e : ClientEvent) (script : Script) : Script :=
  match e with
  | .send => { script with sends := none :: script.sends }
  | .sendFails error => { script with sends := some error :: script.sends }
  | .elapsed => { script with waits := .elapsed :: script.waits }
  | .read bytes => { script with waits := .datagram bytes :: script.waits }
  | .readFails error => { script with waits := .fails error :: script.waits }
  | .close => script

/-- A script goes on for ever: all sends behind it succeed, and nothing arrives. Some of this is
    spelled out in `padded`. -/
def Script.Pads (script padded : Script) : Prop :=
  ∃ m n, padded =
    ⟨script.sends ++ List.replicate m none, script.waits ++ List.replicate n .elapsed⟩

namespace Script.Pads

theorem refl (script : Script) : script.Pads script := ⟨0, 0, by simp⟩

theorem trans {script padded further : Script} (first : script.Pads padded)
    (second : padded.Pads further) : script.Pads further := by
  obtain ⟨m, n, rfl⟩ := first
  obtain ⟨m', n', rfl⟩ := second
  exact ⟨m + m', n + n', by simp only [List.append_assoc, List.replicate_append_replicate]⟩

theorem ahead {script padded : Script} (pads : script.Pads padded) (e : ClientEvent) :
    (e.ahead script).Pads (e.ahead padded) := by
  obtain ⟨m, n, rfl⟩ := pads
  exact ⟨m, n, by cases e <;> rfl⟩

theorem send (waits : List Wait) : Script.Pads ⟨[], waits⟩ ⟨[none], waits⟩ := ⟨1, 0, by simp⟩

theorem wait (sends : List (Option IoError)) : Script.Pads ⟨sends, []⟩ ⟨sends, [.elapsed]⟩ :=
  ⟨0, 1, by simp⟩

end Script.Pads

def Exposed.world (s : Exposed) (script : Script) : World := ⟨script, s.sent, s.client.stats⟩

/-- What one event can do, one rule for each way in which it can go. -/
inductive Pair.ClientStep (P : Pair σ) (s : Exposed) : ClientEvent → Exposed → Prop where
  | sendBlock {attempt payload} (phase : s.client.phase = .sending attempt payload) :
      ClientStep P s .send ⟨s.client.sent attempt payload, s.sent ++ [payload.toBytes]⟩
  | sendEnd (phase : s.client.phase = .finishing) :
      ClientStep P s .send
        ⟨{ s.client with phase := .closing }, s.sent ++ [P.endMarker s.client.seq]⟩
  | sendFails {e} (phase : (∃ attempt payload, s.client.phase = .sending attempt payload) ∨
        s.client.phase = .finishing) :
      ClientStep P s (.sendFails e) { s with client := s.client.fail (.io e) }
  | elapsed {attempt payload} (phase : s.client.phase = .waiting attempt payload) :
      ClientStep P s .elapsed { s with client := P.loop.elapsed s.client attempt payload }
  | read {attempt payload bytes} (phase : s.client.phase = .waiting attempt payload) :
      ClientStep P s (.read bytes) { s with
        client := P.loop.receive s.client attempt payload bytes }
  | readFails {e attempt payload} (phase : s.client.phase = .waiting attempt payload) :
      ClientStep P s (.readFails e) { s with client := s.client.fail (.io e) }
  | close (phase : s.client.phase = .closing) :
      ClientStep P s .close { s with client := { s.client with phase := .ok } }

theorem clientStep_rule {P : Pair σ} {s t : Exposed} {e : ClientEvent}
    (moved : P.clientStep s e = some t) : P.ClientStep s e t := by
  cases e with
  | send =>
      simp only [Pair.clientStep] at moved
      split at moved
      · rename_i phase
        exact Option.some.inj moved ▸ .sendBlock phase
      · rename_i phase
        exact Option.some.inj moved ▸ .sendEnd phase
      · cases moved
  | sendFails e =>
      simp only [Pair.clientStep] at moved
      split at moved
      · rename_i phase
        exact Option.some.inj moved ▸ .sendFails (.inl ⟨_, _, phase⟩)
      · rename_i phase
        exact Option.some.inj moved ▸ .sendFails (.inr phase)
      · cases moved
  | elapsed =>
      simp only [Pair.clientStep] at moved
      split at moved
      · rename_i phase
        exact Option.some.inj moved ▸ .elapsed phase
      · cases moved
  | read bytes =>
      simp only [Pair.clientStep] at moved
      split at moved
      · rename_i phase
        exact Option.some.inj moved ▸ .read phase
      · cases moved
  | readFails e =>
      simp only [Pair.clientStep] at moved
      split at moved
      · rename_i phase
        exact Option.some.inj moved ▸ .readFails phase
      · cases moved
  | close =>
      simp only [Pair.clientStep] at moved
      split at moved
      · rename_i phase
        exact Option.some.inj moved ▸ .close phase
      · cases moved

theorem Pair.ClientStep.moves {P : Pair σ} {s t : Exposed} {e : ClientEvent}
    (rule : P.ClientStep s e t) : P.clientStep s e = some t := by
  cases rule with
  | sendFails phase =>
      rcases phase with ⟨attempt, payload, phase⟩ | phase <;> simp only [Pair.clientStep, phase]
  | sendBlock phase | sendEnd phase | elapsed phase | read phase | readFails phase | close phase =>
      simp only [Pair.clientStep, phase]

theorem resume_nextBlock (P : Pair σ) (c : Client) :
    resume P c.nextBlock = (do
      let seq ← transfer P.loop c.rest c.seq
      finish P seq) := by
  unfold Client.nextBlock
  cases left : c.rest with
  | nil =>
      simp only [resume, transfer]
      rfl
  | cons chunk rest =>
      simp only [resume, transfer, sendAndWait, List.range_eq_range', Nat.sub_zero, bind_assoc]

theorem resume_again (P : Pair σ) (c : Client) (attempt : Nat) (payload : UdpPayload) :
    resume P (P.loop.again c attempt payload) = (do
      tries P.loop payload (List.range' (attempt + 1) (P.loop.attempts - (attempt + 1)))
      let seq ← transfer P.loop c.rest (c.seq + 1)
      finish P seq) := by
  unfold RetryLoop.again
  split
  · rfl
  · rename_i last
    have exhausted : P.loop.attempts - (attempt + 1) = 0 := by omega
    rw [exhausted]
    rfl

theorem resume_waiting {P : Pair σ} {s : Exposed} {attempt : Nat} {payload : UdpPayload}
    (phase : s.client.phase = .waiting attempt payload) {script : Script} {answer : Wait}
    {later : List Wait} (next : script.waits = answer :: later) :
    resume P s.client (s.world script) = (do
      judge P.loop payload attempt (tries P.loop payload
        (List.range' (attempt + 1) (P.loop.attempts - (attempt + 1)))) answer
      let seq ← transfer P.loop s.client.rest (s.client.seq + 1)
      finish P seq) (s.world { script with waits := later }) := by
  simp only [resume, phase]
  have taken : wait (s.world script) = .ok answer (s.world { script with waits := later }) := by
    simp only [wait, Exposed.world, next]
  simp only [bind, EStateM.bind, taken]

theorem again_world (loop : RetryLoop) (s : Exposed) (attempt : Nat) (payload : UdpPayload)
    (script : Script) :
    Exposed.world { s with client := loop.again s.client attempt payload } script =
      s.world script := by
  simp only [Exposed.world, RetryLoop.again]
  split <;> rfl

/-- One event of the machine is the next thing that happens to the program. -/
theorem resume_step {P : Pair σ} {s t : Exposed} {e : ClientEvent}
    (within : s.client.phase.Within P.loop.attempts) (moved : P.clientStep s e = some t)
    (script : Script) :
    resume P s.client (s.world (e.ahead script)) = resume P t.client (t.world script) := by
  have more : ∀ attempt payload, s.client.phase = .sending attempt payload →
      P.loop.attempts - attempt = (P.loop.attempts - (attempt + 1)) + 1 := by
    intro attempt payload phase
    rw [phase] at within
    simp only [Phase.Within] at within
    omega
  cases clientStep_rule moved with
  | @sendBlock attempt payload phase =>
      simp only [resume, phase, more attempt payload phase, List.range'_succ, tries, Client.sent,
        bind_assoc]
      rfl
  | sendEnd phase =>
      simp only [resume, phase]
      rfl
  | @sendFails error phase =>
      rcases phase with ⟨attempt, payload, phase⟩ | phase
      · simp only [resume, phase, more attempt payload phase, List.range'_succ, tries, Client.fail,
          bind_assoc]
        rfl
      · simp only [resume, phase]
        rfl
  | @elapsed attempt payload phase =>
      rw [resume_waiting phase rfl]
      by_cases last : attempt + 1 = P.loop.attempts
      · simp only [judge, RetryLoop.elapsed, if_pos last]
        rfl
      · simp only [judge, RetryLoop.elapsed, if_neg last, resume_again]
        rw [again_world]
        rfl
  | @read attempt payload bytes phase =>
      rw [resume_waiting phase rfl]
      simp only [judge, RetryLoop.receive]
      cases P.loop.onDatagram payload.seq bytes with
      | accept =>
          simp only [Client.acked, resume_nextBlock, Exposed.world, Client.nextBlock_stats]
          rfl
      | reject error => rfl
      | ignore =>
          simp only [resume_again]
          rw [again_world]
          rfl
      | panic => rfl
  | readFails phase =>
      rw [resume_waiting phase rfl]
      rfl
  | close phase =>
      simp only [resume, phase]
      rfl

/-! ## Both end -/

/-- The events which a client can still take part in, at most. -/
def Client.left (attempts : Nat) (c : Client) : Nat :=
  match c.phase with
  | .sending attempt _ => 2 * (attempts - attempt) + 2 * attempts * c.rest.length + 2
  | .waiting attempt _ => 2 * (attempts - attempt) - 1 + 2 * attempts * c.rest.length + 2
  | .finishing => 2
  | .closing => 1
  | .ok | .err _ | .panicked => 0

/-- What a client can still send of its blocks, at most, if a block of `n` bytes is worth `f n`. -/
def Client.owes (attempts : Nat) (f : Nat → Nat) (c : Client) : Nat :=
  match c.phase with
  | .sending attempt payload =>
      (attempts - attempt) * f payload.data.length +
        attempts * (c.rest.map fun chunk => f chunk.length).sum
  | .waiting attempt payload =>
      (attempts - (attempt + 1)) * f payload.data.length +
        attempts * (c.rest.map fun chunk => f chunk.length).sum
  | _ => 0

theorem Client.nextBlock_left (attempts : Nat) (c : Client) :
    c.nextBlock.left attempts = 2 * attempts * c.rest.length + 2 := by
  unfold nextBlock
  cases left : c.rest with
  | nil => rfl
  | cons chunk rest =>
      simp only [Client.left, List.length_cons, Nat.sub_zero, Nat.mul_add, Nat.mul_one]
      omega

theorem Client.nextBlock_owes (attempts : Nat) (f : Nat → Nat) (c : Client) :
    c.nextBlock.owes attempts f = attempts * (c.rest.map fun chunk => f chunk.length).sum := by
  unfold nextBlock
  cases left : c.rest with
  | nil => rfl
  | cons chunk rest =>
      simp only [Client.owes, List.map_cons, List.sum_cons, Nat.sub_zero, Nat.mul_add]

theorem RetryLoop.again_left (loop : RetryLoop) (c : Client) (attempt : Nat)
    (payload : UdpPayload) :
    (loop.again c attempt payload).left loop.attempts <
      2 * (loop.attempts - attempt) - 1 + 2 * loop.attempts * c.rest.length + 2 := by
  unfold again
  split
  · simp only [Client.left]
    omega
  · simp only [Client.left]
    omega

theorem RetryLoop.again_owes (loop : RetryLoop) (f : Nat → Nat) (c : Client) (attempt : Nat)
    (payload : UdpPayload) :
    (loop.again c attempt payload).owes loop.attempts f ≤
      (loop.attempts - (attempt + 1)) * f payload.data.length +
        loop.attempts * (c.rest.map fun chunk => f chunk.length).sum := by
  unfold again
  split
  · exact Nat.le_refl _
  · exact Nat.zero_le _

theorem clientStep_within {P : Pair σ} (some_ : 0 < P.loop.attempts) {s t : Exposed}
    {e : ClientEvent} (within : s.client.phase.Within P.loop.attempts)
    (moved : P.clientStep s e = some t) : t.client.phase.Within P.loop.attempts := by
  cases clientStep_rule moved with
  | sendBlock phase => exact (phase ▸ within :)
  | elapsed phase =>
      simp only [RetryLoop.elapsed]
      split
      · trivial
      · exact P.loop.again_within _ _ _
  | read phase =>
      simp only [RetryLoop.receive]
      split
      · exact Client.nextBlock_within some_ _
      · trivial
      · exact P.loop.again_within _ _ _
      · trivial
  | _ => trivial

/-- Every event leaves fewer to come. -/
theorem clientStep_left {P : Pair σ} {s t : Exposed} {e : ClientEvent}
    (within : s.client.phase.Within P.loop.attempts) (moved : P.clientStep s e = some t) :
    t.client.left P.loop.attempts < s.client.left P.loop.attempts := by
  have waits : ∀ attempt payload, s.client.phase = .waiting attempt payload →
      attempt < P.loop.attempts ∧ s.client.left P.loop.attempts =
        2 * (P.loop.attempts - attempt) - 1 +
          2 * P.loop.attempts * s.client.rest.length + 2 := by
    intro attempt payload phase
    rw [phase] at within
    exact ⟨within, by simp only [Client.left, phase]⟩
  cases clientStep_rule moved with
  | @sendBlock attempt payload phase =>
      rw [phase] at within
      simp only [Phase.Within] at within
      simp only [Client.left, Client.sent, phase]
      omega
  | sendEnd phase => simp [Client.left, phase]
  | sendFails phase =>
      rcases phase with ⟨attempt, payload, phase⟩ | phase <;>
        simp [Client.left, Client.fail, phase]
  | @elapsed attempt payload phase =>
      obtain ⟨before, here⟩ := waits attempt payload phase
      rw [here]
      simp only [RetryLoop.elapsed]
      split
      · simp [Client.left, Client.fail]
      · exact P.loop.again_left s.client attempt payload
  | @read attempt payload bytes phase =>
      obtain ⟨before, here⟩ := waits attempt payload phase
      rw [here]
      simp only [RetryLoop.receive]
      split
      · have next : s.client.acked.left P.loop.attempts =
            2 * P.loop.attempts * s.client.rest.length + 2 := Client.nextBlock_left _ _
        omega
      · simp [Client.left, Client.fail]
      · exact P.loop.again_left s.client attempt payload
      · simp [Client.left]
  | @readFails error attempt payload phase =>
      rw [(waits attempt payload phase).2]
      simp [Client.left, Client.fail]
  | close phase => simp [Client.left, phase]

/-- What has been counted, and what can still be sent, do not grow together. -/
theorem clientStep_owes {P : Pair σ} (f : Nat → Nat) (g : ClientStats → Nat)
    (counts : ∀ stats bytes, g (ClientStats.count stats bytes) = g stats + f bytes) {s t : Exposed}
    {e : ClientEvent} (within : s.client.phase.Within P.loop.attempts)
    (moved : P.clientStep s e = some t) :
    g t.client.stats + t.client.owes P.loop.attempts f ≤
      g s.client.stats + s.client.owes P.loop.attempts f := by
  have waits : ∀ attempt payload, s.client.phase = .waiting attempt payload →
      s.client.owes P.loop.attempts f =
        (P.loop.attempts - (attempt + 1)) * f payload.data.length +
          P.loop.attempts * (s.client.rest.map fun chunk => f chunk.length).sum := by
    intro attempt payload phase
    simp only [Client.owes, phase]
  cases clientStep_rule moved with
  | @sendBlock attempt payload phase =>
      rw [phase] at within
      simp only [Phase.Within] at within
      have one : P.loop.attempts - attempt = (P.loop.attempts - (attempt + 1)) + 1 := by omega
      simp only [Client.owes, Client.sent, phase, counts, one, Nat.add_mul, Nat.one_mul]
      omega
  | sendEnd phase => simp [Client.owes, phase]
  | sendFails phase =>
      exact Nat.add_le_add_left (Nat.zero_le _) _
  | @elapsed attempt payload phase =>
      rw [waits attempt payload phase]
      simp only [RetryLoop.elapsed]
      split
      · exact Nat.add_le_add_left (Nat.zero_le _) _
      · rw [RetryLoop.again_stats]
        exact Nat.add_le_add_left (P.loop.again_owes f s.client attempt payload) _
  | @read attempt payload bytes phase =>
      rw [waits attempt payload phase]
      simp only [RetryLoop.receive]
      split
      · rw [Client.acked_stats]
        have next : s.client.acked.owes P.loop.attempts f =
            P.loop.attempts * (s.client.rest.map fun chunk => f chunk.length).sum :=
          Client.nextBlock_owes _ _ _
        omega
      · exact Nat.add_le_add_left (Nat.zero_le _) _
      · rw [RetryLoop.again_stats]
        exact Nat.add_le_add_left (P.loop.again_owes f s.client attempt payload) _
      · exact Nat.add_le_add_left (Nat.zero_le _) _
  | readFails phase => exact Nat.add_le_add_left (Nat.zero_le _) _
  | close phase => exact Nat.add_le_add_left (Nat.zero_le _) _

/-! ## Whole runs -/

section Whole

variable {P : Pair σ} {file : DataFile} {b : BlockSize}

theorem start_left (P : Pair σ) (file : DataFile) (b : BlockSize) :
    (Exposed.start file b).client.left P.loop.attempts =
      2 * P.loop.attempts * (file.blocks b).length + 2 :=
  Client.nextBlock_left _ _

/-- What a run keeps: each event has taken one of those that were left. -/
theorem run_left (some_ : 0 < P.loop.attempts) {es : List ClientEvent} {s t : Exposed}
    (within : s.client.phase.Within P.loop.attempts) (ran : exec P.clientStep s es = some t) :
    t.client.phase.Within P.loop.attempts ∧
      es.length + t.client.left P.loop.attempts ≤ s.client.left P.loop.attempts := by
  induction es generalizing s with
  | nil =>
      cases Option.some.inj ran
      exact ⟨within, by simp⟩
  | cons e es ih =>
      obtain ⟨u, moved, rest⟩ := exec_cons.mp ran
      obtain ⟨kept, fewer⟩ := ih (clientStep_within some_ within moved) rest
      have one := clientStep_left within moved
      refine ⟨kept, ?_⟩
      simp only [List.length_cons]
      omega

/-- The first thing that the script has for the client, whatever state it is in. -/
theorem next_event (P : Pair σ) {s : Exposed} (runs : s.client.phase.returned = false)
    (within : s.client.phase.Within P.loop.attempts) (script : Script) :
    ∃ e t rest, P.clientStep s e = some t ∧ script.Pads (e.ahead rest) ∧
      resume P s.client (s.world script) = resume P t.client (t.world rest) := by
  have follows : ∀ {e t} (rest : Script), P.ClientStep s e t → script.Pads (e.ahead rest) →
      resume P s.client (s.world script) = resume P s.client (s.world (e.ahead rest)) →
      ∃ e t rest, P.clientStep s e = some t ∧ script.Pads (e.ahead rest) ∧
        resume P s.client (s.world script) = resume P t.client (t.world rest) :=
    fun rest rule pads same =>
      ⟨_, _, rest, rule.moves, pads, same.trans (resume_step within rule.moves rest)⟩
  obtain ⟨sends, waits⟩ := script
  cases phase : s.client.phase with
  | sending attempt payload =>
      cases sends with
      | nil =>
          apply follows ⟨[], waits⟩ (.sendBlock phase) (.send waits)
          rw [phase] at within
          have more : P.loop.attempts - attempt = (P.loop.attempts - (attempt + 1)) + 1 := by
            simp only [Phase.Within] at within
            omega
          simp only [resume, phase, more, List.range'_succ, tries, bind_assoc]
          rfl
      | cons outcome sends =>
          cases outcome with
          | none => exact follows ⟨sends, waits⟩ (.sendBlock phase) (.refl _) rfl
          | some e =>
              exact follows (e := .sendFails e) ⟨sends, waits⟩ (.sendFails (.inl ⟨_, _, phase⟩))
                (.refl _) rfl
  | waiting attempt payload =>
      cases waits with
      | nil =>
          apply follows ⟨sends, []⟩ (.elapsed phase) (.wait sends)
          simp only [resume, phase]
          rfl
      | cons answer waits =>
          cases answer with
          | elapsed => exact follows ⟨sends, waits⟩ (.elapsed phase) (.refl _) rfl
          | datagram bytes =>
              exact follows (e := .read bytes) ⟨sends, waits⟩ (.read phase) (.refl _) rfl
          | fails e =>
              exact follows (e := .readFails e) ⟨sends, waits⟩ (.readFails phase) (.refl _) rfl
  | finishing =>
      cases sends with
      | nil =>
          apply follows ⟨[], waits⟩ (.sendEnd phase) (.send waits)
          simp only [resume, phase]
          rfl
      | cons outcome sends =>
          cases outcome with
          | none => exact follows ⟨sends, waits⟩ (.sendEnd phase) (.refl _) rfl
          | some e =>
              exact follows (e := .sendFails e) ⟨sends, waits⟩ (.sendFails (.inr phase))
                (.refl _) rfl
  | closing => exact follows ⟨sends, waits⟩ (.close phase) (.refl _) rfl
  | _ =>
      rw [phase] at runs
      cases runs

/-- A client that is left alone goes on by itself. -/
theorem goes_on (P : Pair σ) {s : Exposed} (runs : s.client.phase.returned = false) :
    ∃ e t, (e = .send ∨ e = .elapsed ∨ e = .close) ∧ P.clientStep s e = some t := by
  cases phase : s.client.phase with
  | sending attempt payload =>
      exact ⟨.send, _, .inl rfl, (Pair.ClientStep.sendBlock phase).moves⟩
  | waiting attempt payload =>
      exact ⟨.elapsed, _, .inr (.inl rfl), (Pair.ClientStep.elapsed phase).moves⟩
  | finishing => exact ⟨.send, _, .inl rfl, (Pair.ClientStep.sendEnd phase).moves⟩
  | closing => exact ⟨.close, _, .inr (.inr rfl), (Pair.ClientStep.close phase).moves⟩
  | _ =>
      rw [phase] at runs
      cases runs

/-- From a state of the machine, the script leads to an end, and there the program stops. -/
theorem runs_to_end (some_ : 0 < P.loop.attempts) {s : Exposed}
    (within : s.client.phase.Within P.loop.attempts) (script : Script) :
    ∃ es t rest, exec P.clientStep s es = some t ∧ t.client.phase.returned = true ∧
      script.Pads (es.foldr ClientEvent.ahead rest) ∧
      resume P s.client (s.world script) = resume P t.client (t.world rest) := by
  induction fewer : s.client.left P.loop.attempts using Nat.strongRecOn
    generalizing s script with
  | ind n ih =>
      cases runs : s.client.phase.returned with
      | true => exact ⟨[], s, script, rfl, runs, .refl script, rfl⟩
      | false =>
          obtain ⟨e, u, rest, moved, pads, same⟩ := next_event P runs within script
          obtain ⟨es, t, last, ran, returned, further, ends⟩ :=
            ih _ (fewer ▸ clientStep_left within moved) (clientStep_within some_ within moved) rest
              rfl
          exact ⟨e :: es, t, last, exec_cons.mpr ⟨u, moved, ran⟩, returned,
            pads.trans (further.ahead e), same.trans ends⟩

theorem goes_to_end (some_ : 0 < P.loop.attempts) {s : Exposed}
    (within : s.client.phase.Within P.loop.attempts) :
    ∃ es t, (∀ e ∈ es, e = .send ∨ e = .elapsed ∨ e = .close) ∧ exec P.clientStep s es = some t ∧
      t.client.phase.returned = true := by
  induction fewer : s.client.left P.loop.attempts using Nat.strongRecOn generalizing s with
  | ind n ih =>
      cases runs : s.client.phase.returned with
      | true => exact ⟨[], s, List.forall_mem_nil _, rfl, runs⟩
      | false =>
          obtain ⟨e, u, alone, moved⟩ := goes_on P runs
          obtain ⟨es, t, each, ran, returned⟩ :=
            ih _ (fewer ▸ clientStep_left within moved) (clientStep_within some_ within moved) rfl
          exact ⟨e :: es, t, List.forall_mem_cons.mpr ⟨alone, each⟩,
            exec_cons.mpr ⟨u, moved, ran⟩, returned⟩

theorem run_owes (some_ : 0 < P.loop.attempts) (f : Nat → Nat) (g : ClientStats → Nat)
    (counts : ∀ stats bytes, g (ClientStats.count stats bytes) = g stats + f bytes)
    {es : List ClientEvent} {s t : Exposed} (within : s.client.phase.Within P.loop.attempts)
    (ran : exec P.clientStep s es = some t) :
    g t.client.stats ≤ g s.client.stats + s.client.owes P.loop.attempts f := by
  have both : t.client.phase.Within P.loop.attempts ∧
      g t.client.stats + t.client.owes P.loop.attempts f ≤
        g s.client.stats + s.client.owes P.loop.attempts f := by
    apply exec_invariant (fun u => u.client.phase.Within P.loop.attempts ∧
      g u.client.stats + u.client.owes P.loop.attempts f ≤
        g s.client.stats + s.client.owes P.loop.attempts f) _ ⟨within, Nat.le_refl _⟩ ran
    rintro u e v ⟨kept, bound⟩ moved
    exact ⟨clientStep_within some_ kept moved,
      Nat.le_trans (clientStep_owes f g counts kept moved) bound⟩
  exact Nat.le_trans (Nat.le_add_right _ _) both.2

end Whole

/-- However it is answered, a client takes part in no more than this many events and sends each
    of its blocks no more often than the loop has attempts. From every state that it gets to it
    ends by itself, if nobody answers any more. -/
structure Ends (P : Pair σ) (file : DataFile) (b : BlockSize) : Prop where
  bounded : ∀ es s, exec P.clientStep (.start file b) es = some s →
    es.length ≤ 2 * P.loop.attempts * (file.blocks b).length + 2 ∧
      s.client.stats.packetsSent ≤ P.loop.attempts * (file.blocks b).length ∧
      s.client.stats.bytesSent ≤ P.loop.attempts * file.buffer.length
  net : ∀ es s, exec P.step (P.start file b) es = some s →
    (es.filterMap Event.client).length ≤ 2 * P.loop.attempts * (file.blocks b).length + 2 ∧
      s.client.stats.packetsSent ≤ P.loop.attempts * (file.blocks b).length ∧
      s.client.stats.bytesSent ≤ P.loop.attempts * file.buffer.length
  alone : ∀ s, Reach P.clientStep anyStep (.start file b) s → ∃ es t,
    (∀ e ∈ es, e = .send ∨ e = .elapsed ∨ e = .close) ∧ exec P.clientStep s es = some t ∧
      t.client.phase.returned = true

/-- The part of the client in a run of the network is a run of the client alone. -/
theorem exec_exposed {P : Pair σ} {es : List Event} {s t : Net σ}
    (ran : exec P.step s es = some t) :
    exec P.clientStep s.exposed (es.filterMap Event.client) = some t.exposed := by
  induction es generalizing s with
  | nil =>
      cases Option.some.inj ran
      rfl
  | cons e es ih =>
      obtain ⟨u, moved, rest⟩ := exec_cons.mp ran
      have own := step_exposed moved
      have behind := ih rest
      cases part : e.client with
      | none =>
          rw [part] at own
          rw [List.filterMap_cons_none part]
          exact own ▸ behind
      | some e' =>
          rw [part] at own
          rw [List.filterMap_cons_some part]
          exact exec_cons.mpr ⟨_, own, behind⟩

theorem ends_of_attempts {P : Pair σ} (some_ : 0 < P.loop.attempts) (file : DataFile)
    (b : BlockSize) : Ends P file b := by
  have within : (Exposed.start file b).client.phase.Within P.loop.attempts :=
    Client.nextBlock_within some_ _
  have stats : (Exposed.start file b).client.stats = .zero := Client.nextBlock_stats _
  have owes : ∀ f : Nat → Nat, (Exposed.start file b).client.owes P.loop.attempts f =
      P.loop.attempts * ((file.blocks b).map fun chunk => f chunk.length).sum :=
    fun f => Client.nextBlock_owes _ _ _
  have bounded : ∀ es s, exec P.clientStep (.start file b) es = some s →
      es.length ≤ 2 * P.loop.attempts * (file.blocks b).length + 2 ∧
        s.client.stats.packetsSent ≤ P.loop.attempts * (file.blocks b).length ∧
        s.client.stats.bytesSent ≤ P.loop.attempts * file.buffer.length := by
    intro es s ran
    have events := (run_left some_ within ran).2
    rw [start_left] at events
    have packets := run_owes some_ (fun _ => 1) ClientStats.packetsSent (fun _ _ => rfl) within ran
    have bytes := run_owes some_ id ClientStats.bytesSent (fun _ _ => rfl) within ran
    rw [stats, owes] at packets bytes
    refine ⟨by omega, ?_, ?_⟩
    · simpa [ClientStats.zero] using packets
    · have whole : ((file.blocks b).map fun chunk => id chunk.length).sum = file.buffer.length :=
        DataFile.sum_length_blocks file b
      rw [whole] at bytes
      simpa [ClientStats.zero] using bytes
  constructor
  case bounded => exact bounded
  case net =>
    intro es s ran
    exact bounded _ _ (exec_exposed ran)
  case alone =>
    intro s reached
    apply goes_to_end some_
    apply reached.invariant (fun s => s.client.phase.Within P.loop.attempts) within
    intro s e t kept _ moved
    exact clientStep_within some_ kept moved

/-- Nobody, on the network or at its other end, can keep a stop-and-wait client busy for ever. -/
theorem stop_and_wait_ends (profile : Profile) (file : DataFile) (b : BlockSize) :
    Ends (udpStopAndWait profile) file b ∧ Ends quicStopAndWait file b :=
  ⟨ends_of_attempts (udp_attempts profile) file b, ends_of_attempts quic_attempts file b⟩

/-! ## The machine and the program -/

/-- What the program returns where a client has returned, with the rest of the script. -/
def Exposed.result (s : Exposed) (script : Script) : EStateM.Result Stop World ClientStats :=
  match s.client.phase with
  | .err e => .error (.err e) (s.world script)
  | .panicked => .error .panicked (s.world script)
  | _ => .ok s.client.stats (s.world script)

theorem resume_returned (P : Pair σ) {s : Exposed} (returned : s.client.phase.returned = true)
    (script : Script) : resume P s.client (s.world script) = s.result script := by
  cases phase : s.client.phase with
  | ok =>
      simp only [resume, phase, Exposed.result]
      rfl
  | err e =>
      simp only [resume, phase, Exposed.result]
      rfl
  | panicked =>
      simp only [resume, phase, Exposed.result]
      rfl
  | _ =>
      rw [phase] at returned
      cases returned

/-- The machine and the program are the same: every run of the machine to an end is the run of
    the program on what has happened in it, and on every script the machine has the run which
    the program takes, with the events of the script. -/
structure Agrees (P : Pair σ) (file : DataFile) (b : BlockSize) : Prop where
  sound : ∀ es s, exec P.clientStep (.start file b) es = some s →
    s.client.phase.returned = true → ∀ script,
      handle P file b ⟨es.foldr ClientEvent.ahead script, [], .zero⟩ = s.result script
  complete : ∀ script, ∃ es s rest, exec P.clientStep (.start file b) es = some s ∧
    s.client.phase.returned = true ∧ script.Pads (es.foldr ClientEvent.ahead rest) ∧
    handle P file b ⟨script, [], .zero⟩ = s.result rest

theorem resume_start (P : Pair σ) (file : DataFile) (b : BlockSize) (script : Script) :
    resume P (Exposed.start file b).client ((Exposed.start file b).world script) =
      handle P file b ⟨script, [], .zero⟩ := by
  simp only [Exposed.start, Client.start, resume_nextBlock, Exposed.world, Client.nextBlock_stats]
  rfl

theorem resume_run {P : Pair σ} (some_ : 0 < P.loop.attempts) {es : List ClientEvent}
    {s t : Exposed} (within : s.client.phase.Within P.loop.attempts)
    (ran : exec P.clientStep s es = some t) (script : Script) :
    resume P s.client (s.world (es.foldr ClientEvent.ahead script)) =
      resume P t.client (t.world script) := by
  induction es generalizing s with
  | nil =>
      cases Option.some.inj ran
      rfl
  | cons e es ih =>
      obtain ⟨u, moved, rest⟩ := exec_cons.mp ran
      exact (resume_step within moved _).trans (ih (clientStep_within some_ within moved) rest)

theorem agrees_of_attempts {P : Pair σ} (some_ : 0 < P.loop.attempts) (file : DataFile)
    (b : BlockSize) : Agrees P file b := by
  have within : (Exposed.start file b).client.phase.Within P.loop.attempts :=
    Client.nextBlock_within some_ _
  constructor
  case sound =>
    intro es s ran returned script
    rw [← resume_start, resume_run some_ within ran, resume_returned P returned]
  case complete =>
    intro script
    obtain ⟨es, s, rest, ran, returned, pads, same⟩ := runs_to_end some_ within script
    exact ⟨es, s, rest, ran, returned, pads, by
      rw [← resume_start, same, resume_returned P returned]⟩

theorem clients_run_the_program (profile : Profile) (file : DataFile) (b : BlockSize) :
    Agrees (udpStopAndWait profile) file b ∧ Agrees quicStopAndWait file b :=
  ⟨agrees_of_attempts (udp_attempts profile) file b, agrees_of_attempts quic_attempts file b⟩

end PcdLab.StopAndWait
