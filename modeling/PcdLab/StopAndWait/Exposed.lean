import PcdLab.StopAndWait.Net

/-! # A client and whoever answers it

A client cannot know who is at the other end: any bytes may reach its socket at any
time. The client alone, against arbitrary answers, does all that it does against its
own server, so what holds of it here holds of it in every transfer.
-/

namespace PcdLab.StopAndWait

open Shared.Wire Shared.Socket Transport Lib Lib.Runs Client.File

variable {σ : Type}

/-- What can happen to a client. What it reads may come from anywhere. -/
inductive ClientEvent where
  | send
  | sendFails (e : IoError)
  | elapsed
  | read (datagram : Bytes)
  | readFails (e : IoError)
  | close
  deriving Repr, DecidableEq

/-- A client, and the datagrams which it has sent. -/
structure Exposed where
  client : Client
  sent : List Bytes
  deriving Repr, DecidableEq

def Exposed.start (file : DataFile) (b : BlockSize) : Exposed := ⟨.start (file.blocks b), []⟩

def Pair.clientStep (P : Pair σ) (s : Exposed) : ClientEvent → Option Exposed
  | .send =>
      match s.client.phase with
      | .sending attempt payload =>
          some ⟨s.client.sent attempt payload, s.sent ++ [payload.toBytes]⟩
      | .finishing =>
          some ⟨{ s.client with phase := .closing }, s.sent ++ [P.endMarker s.client.seq]⟩
      | _ => none
  | .sendFails e =>
      match s.client.phase with
      | .sending _ _ | .finishing => some { s with client := s.client.fail (.io e) }
      | _ => none
  | .elapsed =>
      match s.client.phase with
      | .waiting attempt payload =>
          some { s with client := P.loop.elapsed s.client attempt payload }
      | _ => none
  | .read datagram =>
      match s.client.phase with
      | .waiting attempt payload =>
          some { s with client := P.loop.receive s.client attempt payload datagram }
      | _ => none
  | .readFails e =>
      match s.client.phase with
      | .waiting _ _ => some { s with client := s.client.fail (.io e) }
      | _ => none
  | .close =>
      match s.client.phase with
      | .closing => some { s with client := { s.client with phase := .ok } }
      | _ => none

/-! ## Transfers seen from the client -/

def Net.exposed (s : Net σ) : Exposed := ⟨s.client, s.data.sent⟩

/-- The client's part in an event; the others happen behind its back. -/
def Event.client : Event → Option ClientEvent
  | .send => some .send
  | .sendFails e => some (.sendFails e)
  | .elapsed => some .elapsed
  | .read datagram => some (.read datagram)
  | .readFails e => some (.readFails e)
  | .close => some .close
  | .serve _ _ | .serverReadFails _ | .dataFault _ | .ackFault _ => none

theorem step_exposed {P : Pair σ} {s t : Net σ} {e : Event} (moved : P.step s e = some t) :
    match e.client with
    | some own => P.clientStep s.exposed own = some t.exposed
    | none => t.exposed = s.exposed := by
  cases Pair.step_rule moved with
  | sendBlock phase => simp [Event.client, Pair.clientStep, Net.exposed, phase]
  | sendEnd phase => simp [Event.client, Pair.clientStep, Net.exposed, phase]
  | sendFails phase =>
      rcases phase with ⟨attempt, payload, phase⟩ | phase <;>
        simp [Event.client, Pair.clientStep, Net.exposed, phase]
  | elapsed phase => simp [Event.client, Pair.clientStep, Net.exposed, phase]
  | read phase _ => simp [Event.client, Pair.clientStep, Net.exposed, phase]
  | readFails phase => simp [Event.client, Pair.clientStep, Net.exposed, phase]
  | close phase => simp [Event.client, Pair.clientStep, Net.exposed, phase]
  | serve _ taken => simp [Event.client, Net.exposed, Channel.deliver_sent taken]
  | serverReadFails _ _ => rfl
  | dataFault fault => simp [Event.client, Net.exposed, Channel.fault_sent fault]
  | ackFault _ => rfl

/-! ## What a client sends -/

/-- Where the client gets its datagrams from. -/
structure Emits (P : Pair σ) (blocks : List Bytes) (s : Exposed) : Prop where
  rest : ∀ chunk ∈ s.client.rest, chunk ∈ blocks
  current : ∀ attempt payload, s.client.phase = .sending attempt payload ∨
    s.client.phase = .waiting attempt payload → payload.data ∈ blocks
  sent : ∀ d ∈ s.sent, (∃ p : UdpPayload, p.data ∈ blocks ∧ d = p.toBytes) ∨
    ∃ seq, d = P.endMarker seq

namespace Emits

variable {P : Pair σ} {blocks : List Bytes} {s t : Exposed}

theorem of_nextBlock {c : Client} (rest : ∀ chunk ∈ c.rest, chunk ∈ blocks) :
    (∀ chunk ∈ c.nextBlock.rest, chunk ∈ blocks) ∧
      ∀ attempt payload, c.nextBlock.phase = .sending attempt payload ∨
        c.nextBlock.phase = .waiting attempt payload → payload.data ∈ blocks := by
  unfold Client.nextBlock
  cases left : c.rest with
  | nil => simp
  | cons chunk later =>
      rw [left] at rest
      obtain ⟨here, behind⟩ := List.forall_mem_cons.mp rest
      refine ⟨behind, ?_⟩
      rintro attempt payload (same | same)
      · cases same
        exact here
      · cases same

theorem start (P : Pair σ) (file : DataFile) (b : BlockSize) :
    Emits P (file.blocks b) (.start file b) := by
  have every : ∀ chunk ∈ file.blocks b, chunk ∈ file.blocks b := fun _ member => member
  have first := of_nextBlock (c := ⟨file.blocks b, 0, .zero, .finishing⟩) every
  exact ⟨first.1, first.2, fun d member => absurd member List.not_mem_nil⟩

/-- The client stays at its block, or has given up. -/
theorem same_block (emits : Emits P blocks s) {attempt : Nat} {payload : UdpPayload}
    (phase : s.client.phase = .waiting attempt payload) {c : Client}
    (rest : c.rest = s.client.rest)
    (stays : ∀ k p, c.phase = .sending k p ∨ c.phase = .waiting k p → p = payload) :
    Emits P blocks { s with client := c } where
  rest := rest ▸ emits.rest
  current := by
    intro k p at_p
    exact stays k p at_p ▸ emits.current attempt payload (.inr phase)
  sent := emits.sent

theorem step (emits : Emits P blocks s) {e : ClientEvent} (moved : P.clientStep s e = some t) :
    Emits P blocks t := by
  have failed : ∀ (c : Client), (∀ k p, c.phase ≠ .sending k p ∧ c.phase ≠ .waiting k p) →
      c.rest = s.client.rest → Emits P blocks { s with client := c } := by
    intro c done rest
    refine ⟨rest ▸ emits.rest, ?_, emits.sent⟩
    rintro k p (same | same)
    · exact absurd same (done k p).1
    · exact absurd same (done k p).2
  cases e with
  | send =>
      simp only [Pair.clientStep] at moved
      split at moved
      · rename_i attempt payload phase
        cases moved
        have block := emits.current attempt payload (.inl phase)
        refine ⟨emits.rest, ?_, ?_⟩
        · rintro k p (same | same)
          · cases same
          · cases same
            exact block
        · intro d member
          cases List.mem_append.mp member with
          | inl old => exact emits.sent d old
          | inr new => exact .inl ⟨payload, block, List.mem_singleton.mp new⟩
      · cases moved
        refine ⟨emits.rest, ?_, ?_⟩
        · rintro k p (same | same) <;> cases same
        · intro d member
          cases List.mem_append.mp member with
          | inl old => exact emits.sent d old
          | inr new => exact .inr ⟨_, List.mem_singleton.mp new⟩
      · cases moved
  | sendFails e =>
      simp only [Pair.clientStep] at moved
      split at moved
      · cases moved
        exact failed _ (by simp [Client.fail]) rfl
      · cases moved
        exact failed _ (by simp [Client.fail]) rfl
      · cases moved
  | elapsed =>
      simp only [Pair.clientStep] at moved
      split at moved
      · rename_i attempt payload phase
        cases moved
        apply emits.same_block phase
        · unfold RetryLoop.elapsed RetryLoop.again
          split
          · rfl
          · split <;> rfl
        · intro k p
          unfold RetryLoop.elapsed RetryLoop.again
          split
          · simp [Client.fail]
          · split <;> simp_all
      · cases moved
  | read datagram =>
      simp only [Pair.clientStep] at moved
      split at moved
      · rename_i attempt payload phase
        cases moved
        unfold RetryLoop.receive
        split
        · have next := of_nextBlock (c := { s.client with seq := s.client.seq + 1 }) emits.rest
          exact ⟨next.1, next.2, emits.sent⟩
        · exact failed _ (by simp [Client.fail]) rfl
        · apply emits.same_block phase
          · unfold RetryLoop.again
            split <;> rfl
          · intro k p
            unfold RetryLoop.again
            split <;> simp_all
        · exact failed _ (by simp) rfl
      · cases moved
  | readFails e =>
      simp only [Pair.clientStep] at moved
      split at moved
      · cases moved
        exact failed _ (by simp [Client.fail]) rfl
      · cases moved
  | close =>
      simp only [Pair.clientStep] at moved
      split at moved
      · cases moved
        exact failed _ (by simp) rfl
      · cases moved

/-- Whoever answers it, a client sends blocks of its file and end markers. -/
theorem reach {file : DataFile} {b : BlockSize} {guard : Exposed → ClientEvent → Prop}
    (reached : Reach P.clientStep guard (.start file b) s) : Emits P (file.blocks b) s :=
  reached.invariant (Emits P (file.blocks b)) (start P file b)
    fun _ _ _ emits _ moved => emits.step moved

end Emits

end PcdLab.StopAndWait
