import PcdLab.StopAndWait.Invariant

/-! # Late acks and the retry loops

A block which is sent twice may be acked twice, and the second ack may come in while
the client waits for a later block. The UDP client gives up over such an ack. The
QUIC client takes it for the end of an attempt: it sends again at once, and on its
last attempt it runs into the `unreachable!()` behind the loop. Nothing else can go
wrong in these ways, so each run is judged by the late acks read in it.
-/

namespace PcdLab.StopAndWait

open Shared.Wire Shared.Socket Transport Lib Lib.Runs Client.File

variable {σ : Type}

/-- The step in which a client that waits for the ack of one block reads the ack of another,
    on an attempt of the given kind. -/
def LateAck (on : Nat → Prop) (s : Net σ) (e : Event) : Prop :=
  ∃ attempt payload datagram ack, on attempt ∧ s.client.phase = .waiting attempt payload ∧
    e = .read datagram ∧ UdpAck.fromBytes datagram = some ack ∧ ack.seq ≠ payload.seq

section Acks

variable {on : Nat → Prop} {s t : Net σ} {attempt : Nat} {payload : UdpPayload}

theorem lateAck_read (phase : s.client.phase = .waiting attempt payload) (i : UInt64) :
    LateAck on s (.read (UdpAck.toBytes ⟨i⟩)) ↔ on attempt ∧ i ≠ payload.seq := by
  constructor
  · rintro ⟨k, p, datagram, ack, kind, waiting, same, decoded, other⟩
    cases phase.symm.trans waiting
    cases same
    rw [UdpAck.fromBytes_toBytes] at decoded
    cases decoded
    exact ⟨kind, other⟩
  · rintro ⟨kind, other⟩
    exact ⟨attempt, payload, _, ⟨i⟩, kind, phase, rfl, UdpAck.fromBytes_toBytes _, other⟩

theorem not_lateAck {e : Event} (other : ∀ d, e ≠ .read d) : ¬ LateAck on s e := by
  rintro ⟨-, -, datagram, -, -, -, same, -, -⟩
  exact other datagram same

/-- All that a client can read are acks. -/
theorem Inv.read_ack {P : Pair σ} {file : DataFile} {b : BlockSize} (inv : Inv P (file.blocks b) s)
    {datagram : Bytes} {acks : Channel Bytes} (taken : s.acks.deliver datagram = some acks) :
    ∃ i, datagram = UdpAck.toBytes ⟨i⟩ := by
  have inFlight := (Channel.deliver_eq_some.mp taken).1
  obtain ⟨p, -, -, rfl⟩ := inv.acked datagram (inv.acks_genuine.flight _ inFlight)
  exact ⟨p.seq, rfl⟩

end Acks

/-! ## What the loops do with an ack -/

theorem udp_attempts (profile : Profile) : 0 < (udpStopAndWait profile).loop.attempts :=
  Nat.zero_lt_two

theorem quic_attempts : 0 < quicStopAndWait.loop.attempts := Nat.zero_lt_succ 4

theorem udp_receive (profile : Profile) (c : Client) (attempt : Nat) (payload : UdpPayload)
    (i : UInt64) : (udpStopAndWait profile).loop.receive c attempt payload (UdpAck.toBytes ⟨i⟩) =
      if i = payload.seq then c.acked else c.fail Udp.invalidAckSequence := by
  have verdict := Udp.onDatagram_ack payload.seq i
  unfold RetryLoop.receive
  rw [udp_onDatagram, verdict]
  by_cases same : i = payload.seq
  · rw [if_pos same, if_pos same]
  · rw [if_neg same, if_neg same]

theorem quic_receive (c : Client) (attempt : Nat) (payload : UdpPayload) (i : UInt64) :
    quicStopAndWait.loop.receive c attempt payload (UdpAck.toBytes ⟨i⟩) =
      if i = payload.seq then c.acked else Quic.sendAndWaitForAck.again c attempt payload := by
  have verdict := Quic.onDatagram_ack payload.seq i
  unfold RetryLoop.receive
  rw [quic_onDatagram, verdict]
  by_cases same : i = payload.seq
  · rw [if_pos same, if_pos same]
  · rw [if_neg same, if_neg same]
    rfl

/-! ## Attempts -/

/-- No attempt is counted beyond the bound of the loop. -/
def Phase.Within (attempts : Nat) : Phase → Prop
  | .sending attempt _ | .waiting attempt _ => attempt < attempts
  | _ => True

theorem Client.nextBlock_within {attempts : Nat} (some_ : 0 < attempts) (c : Client) :
    c.nextBlock.phase.Within attempts :=
  nextBlock_elim trivial (fun _ => some_) c

theorem RetryLoop.again_within (loop : RetryLoop) (c : Client) (attempt : Nat)
    (payload : UdpPayload) : (loop.again c attempt payload).phase.Within loop.attempts := by
  unfold again
  split
  · rename_i more
    exact more
  · trivial

theorem within_step {P : Pair σ} (some_ : 0 < P.loop.attempts) {s t : Net σ} {e : Event}
    (within : s.client.phase.Within P.loop.attempts) (moved : P.step s e = some t) :
    t.client.phase.Within P.loop.attempts := by
  cases Pair.step_rule moved with
  | sendBlock phase =>
      rw [phase] at within
      exact within
  | sendEnd _ => trivial
  | sendFails _ => trivial
  | elapsed _ =>
      simp only [RetryLoop.elapsed]
      split
      · trivial
      · exact RetryLoop.again_within _ _ _ _
  | read _ _ =>
      simp only [RetryLoop.receive]
      split
      · exact Client.nextBlock_within some_ _
      · trivial
      · exact RetryLoop.again_within _ _ _ _
      · trivial
  | readFails _ => trivial
  | close _ => trivial
  | serve _ _ => exact within
  | serverReadFails _ _ => exact within
  | dataFault _ => exact within
  | ackFault _ => exact within

/-- What the proofs about the loops use of every state. -/
structure Steady (P : Pair σ) (blocks : List Bytes) (s : Net σ) : Prop where
  inv : Inv P blocks s
  within : s.client.phase.Within P.loop.attempts

namespace Steady

variable {P : Pair σ} {file : DataFile} {b : BlockSize} {s t : Net σ}

theorem start (some_ : 0 < P.loop.attempts) : Steady P (file.blocks b) (P.start file b) :=
  ⟨Inv.start P file b, Client.nextBlock_within some_ _⟩

theorem step (contract : P.Contract) (some_ : 0 < P.loop.attempts)
    (answers : P.Answers (file.blocks b)) {e : Event} (steady : Steady P (file.blocks b) s)
    (moved : P.step s e = some t) : Steady P (file.blocks b) t :=
  ⟨steady.inv.step_answered contract answers moved, within_step some_ steady.within moved⟩

theorem attempt_lt {attempt : Nat} {payload : UdpPayload} (steady : Steady P (file.blocks b) s)
    (phase : s.client.phase = .waiting attempt payload) : attempt < P.loop.attempts := by
  have within := steady.within
  rwa [phase] at within

end Steady

/-! ## The panic behind the loop -/

theorem RetryLoop.again_panics {loop : RetryLoop} {c : Client} {attempt : Nat}
    {payload : UdpPayload} (within : attempt < loop.attempts) :
    (loop.again c attempt payload).phase = .panicked ↔ attempt + 1 = loop.attempts := by
  unfold again
  split
  · simp only [reduceCtorEq, false_iff]
    omega
  · simp only [true_iff]
    omega

/-- The timeout on the last attempt returns an error, so no timeout leaves the loop behind. -/
theorem RetryLoop.elapsed_not_panicked {loop : RetryLoop} {c : Client} {attempt : Nat}
    {payload : UdpPayload} (within : attempt < loop.attempts) :
    (loop.elapsed c attempt payload).phase ≠ .panicked := by
  unfold elapsed
  split
  · simp [Client.fail]
  · rename_i notLast
    rw [Ne, again_panics within]
    exact notLast

/-- A client panics only when it reads a datagram, and is not over before. -/
theorem panicked_step {P : Pair σ} {file : DataFile} {b : BlockSize} {s t : Net σ} {e : Event}
    (steady : Steady P (file.blocks b) s) (moved : P.step s e = some t) :
    t.client.phase = .panicked ↔ s.client.phase = .panicked ∨
      ∃ attempt payload i, s.client.phase = .waiting attempt payload ∧
        e = .read (UdpAck.toBytes ⟨i⟩) ∧
        (P.loop.receive s.client attempt payload (UdpAck.toBytes ⟨i⟩)).phase = .panicked := by
  cases Pair.step_rule moved with
  | sendBlock phase => simp [phase, Client.sent]
  | sendEnd phase => simp [phase]
  | sendFails phase =>
      rcases phase with ⟨attempt, payload, phase⟩ | phase <;> simp [phase, Client.fail]
  | elapsed phase =>
      simp [phase, RetryLoop.elapsed_not_panicked (steady.attempt_lt phase)]
  | read phase taken =>
      obtain ⟨i, rfl⟩ := steady.inv.read_ack taken
      simp only [phase, reduceCtorEq, false_or]
      constructor
      · intro panicked
        exact ⟨_, _, i, rfl, rfl, panicked⟩
      · rintro ⟨attempt, payload, j, waiting, same, panicked⟩
        cases waiting
        rw [Event.read.inj same]
        exact panicked
  | readFails phase => simp [phase, Client.fail]
  | close phase => simp [phase]
  | serve _ _ => simp
  | serverReadFails _ _ => simp
  | dataFault _ => simp
  | ackFault _ => simp

theorem quic_panicked_step {file : DataFile} {b : BlockSize} {s t : Net ConnectionLoop}
    {e : Event} (steady : Steady quicStopAndWait (file.blocks b) s)
    (moved : quicStopAndWait.step s e = some t) :
    t.client.phase = .panicked ↔
      s.client.phase = .panicked ∨ LateAck (fun attempt => attempt + 1 = 5) s e := by
  rw [panicked_step steady moved]
  apply or_congr_right
  constructor
  · rintro ⟨attempt, payload, i, phase, rfl, panicked⟩
    rw [quic_receive] at panicked
    rw [lateAck_read phase]
    by_cases same : i = payload.seq
    · rw [if_pos same] at panicked
      exact absurd panicked (Client.nextBlock_ne _ rfl)
    · rw [if_neg same] at panicked
      exact ⟨(RetryLoop.again_panics (steady.attempt_lt phase)).mp panicked, same⟩
  · rintro ⟨attempt, payload, datagram, ack, last, phase, rfl, decoded, other⟩
    cases Pair.step_rule moved with
    | read _ taken =>
        obtain ⟨i, rfl⟩ := steady.inv.read_ack taken
        refine ⟨attempt, payload, i, phase, rfl, ?_⟩
        rw [UdpAck.fromBytes_toBytes] at decoded
        cases decoded
        rw [quic_receive, if_neg other]
        exact (RetryLoop.again_panics (steady.attempt_lt phase)).mpr last

theorem udp_panicked_step {profile : Profile} {file : DataFile} {b : BlockSize}
    {s t : Net ReportLoop} {e : Event} (steady : Steady (udpStopAndWait profile) (file.blocks b) s)
    (moved : (udpStopAndWait profile).step s e = some t)
    (fine : s.client.phase ≠ .panicked) : t.client.phase ≠ .panicked := by
  rw [Ne, panicked_step steady moved]
  rintro (before | ⟨attempt, payload, i, -, -, panicked⟩)
  · exact fine before
  · rw [udp_receive] at panicked
    by_cases same : i = payload.seq
    · rw [if_pos same] at panicked
      exact Client.nextBlock_ne _ rfl panicked
    · rw [if_neg same] at panicked
      cases panicked

/-- The UDP client never panics. The QUIC client does in exactly those runs in which it reads
    a late ack on its fifth attempt. -/
theorem stop_and_wait_panics_iff (profile : Profile) (file : DataFile) (b : BlockSize)
    (fits : 8 + b.val ≤ maxBlockSize) :
    (∀ s, Reach (udpStopAndWait profile).step anyStep ((udpStopAndWait profile).start file b) s →
      s.client.phase ≠ .panicked) ∧
    ∀ events s, exec quicStopAndWait.step (quicStopAndWait.start file b) events = some s →
      (s.client.phase ≠ .panicked ↔ ¬ Somewhere quicStopAndWait.step
        (LateAck fun attempt => attempt + 1 = 5) (quicStopAndWait.start file b) events) := by
  constructor
  · intro s reached
    have never : Steady (udpStopAndWait profile) (file.blocks b) s ∧
        s.client.phase ≠ .panicked := by
      apply reached.invariant (fun s => Steady (udpStopAndWait profile) (file.blocks b) s ∧
        s.client.phase ≠ .panicked)
      · exact ⟨Steady.start (udp_attempts profile), Client.nextBlock_ne _ rfl⟩
      · rintro s e t ⟨steady, fine⟩ - moved
        exact ⟨steady.step (udp_contract profile) (udp_attempts profile)
          ((udp_contract profile).answers fits) moved, udp_panicked_step steady moved fine⟩
    exact never.2
  · intro events s ran
    have raised := flag_iff_somewhere (Steady quicStopAndWait (file.blocks b))
      (fun s => s.client.phase = .panicked)
      (fun _ _ _ steady moved => steady.step quic_contract quic_attempts quic_answers moved)
      (fun _ _ _ steady moved => quic_panicked_step steady moved)
      (Steady.start quic_attempts) ran
    have first : (quicStopAndWait.start file b).client.phase ≠ .panicked :=
      Client.nextBlock_ne _ rfl
    rw [Ne, raised, or_iff_right first]

/-- The first block is acked twice; the second ack is read as that of the second block, on
    the fifth attempt. -/
def lateOnLastAttempt : List Event :=
  [.send, .serve (block 0 1) none, .elapsed, .send, .serve (block 0 1) none, .read (ack 0),
    .send, .elapsed, .send, .elapsed, .send, .elapsed, .send, .elapsed, .send, .read (ack 0)]

theorem lateOnLastAttempt_panics :
    (exec quicStopAndWait.step (quicStopAndWait.start twoBlocks oneByte)
      lateOnLastAttempt).map (fun s => s.client.phase) = some .panicked := by
  decide +kernel

theorem stop_and_wait_panics_late : Somewhere quicStopAndWait.step
    (LateAck fun attempt => attempt + 1 = 5) (quicStopAndWait.start twoBlocks oneByte)
    lateOnLastAttempt := by
  obtain ⟨s, ran, panicked⟩ := Option.map_eq_some_iff.mp lateOnLastAttempt_panics
  by_contra timely
  exact ((stop_and_wait_panics_iff .release twoBlocks oneByte (by decide)).2
    lateOnLastAttempt s ran).mpr timely panicked

theorem unreachable_reached : ¬ ∀ s, Reach quicStopAndWait.step noDuplicates
    (quicStopAndWait.start twoBlocks oneByte) s → s.client.phase ≠ .panicked := by
  intro never
  obtain ⟨s, ran, panicked⟩ := Option.map_eq_some_iff.mp lateOnLastAttempt_panics
  have single : ∀ e ∈ lateOnLastAttempt, e.duplicates = false := by decide
  exact never s (Reach.of_labels ran fun e member _ => single e member) panicked

/-! ## Retransmissions without a timeout -/

/-- A further send of the block is due. -/
def Phase.owed : Phase → Nat
  | .sending (_ + 1) _ => 1
  | _ => 0

def Phase.failed : Phase → Bool
  | .err _ | .panicked => true
  | _ => false

/-- The client has sent no more than the blocks and the timeouts account for. -/
def Paced (s : Net σ) : Prop :=
  s.client.stats.packetsSent + s.client.phase.owed ≤ s.observed.started + s.observed.timeouts

/-- The client has failed, or has sent `k` datagrams more than these account for. -/
def Ahead (k : Nat) (s : Net σ) : Prop :=
  s.client.phase.failed = true ∨
    s.observed.started + s.observed.timeouts + k ≤
      s.client.stats.packetsSent + s.client.phase.owed

theorem Client.nextBlock_owed (c : Client) : c.nextBlock.phase.owed = 0 :=
  nextBlock_elim (C := fun phase => phase.owed = 0) rfl (fun _ => rfl) c

theorem Observed.send_paced (o : Observed) (attempt : Nat) (payload : UdpPayload) :
    (o.send attempt).started + (Phase.sending attempt payload).owed = o.started + 1 ∧
      (o.send attempt).timeouts = o.timeouts := by
  cases attempt <;> exact ⟨rfl, rfl⟩

theorem RetryLoop.again_owed_le (loop : RetryLoop) (c : Client) (attempt : Nat)
    (payload : UdpPayload) : (loop.again c attempt payload).phase.owed ≤ 1 := by
  unfold again
  split
  · exact Nat.le_refl 1
  · exact Nat.zero_le 1

theorem RetryLoop.again_owed (loop : RetryLoop) (c : Client) (attempt : Nat)
    (payload : UdpPayload) : (loop.again c attempt payload).phase.failed = true ∨
      (loop.again c attempt payload).phase.owed = 1 := by
  unfold again
  split
  · exact .inr rfl
  · exact .inl rfl

theorem start_paced (P : Pair σ) (file : DataFile) (b : BlockSize) :
    Paced (P.start file b) ∧ Ahead 0 (P.start file b) := by
  have owed : (P.start file b).client.phase.owed = 0 := Client.nextBlock_owed _
  have stats : (P.start file b).client.stats = .zero := Client.nextBlock_stats _
  unfold Paced Ahead
  rw [owed, stats]
  exact ⟨Nat.le_refl 0, .inr (Nat.le_refl 0)⟩

/-- Without a late ack on an attempt before the last one, every step keeps the pace. -/
theorem quic_paced_step {file : DataFile} {b : BlockSize} {s t : Net ConnectionLoop} {e : Event}
    (steady : Steady quicStopAndWait (file.blocks b) s)
    (moved : quicStopAndWait.step s e = some t)
    (timely : ¬ LateAck (fun attempt => attempt + 1 < 5) s e) (paced : Paced s) : Paced t := by
  unfold Paced at paced ⊢
  cases Pair.step_rule moved with
  | @sendBlock attempt payload phase =>
      have observed := s.observed.send_paced attempt payload
      have count : (s.client.sent attempt payload).stats.packetsSent =
          s.client.stats.packetsSent + 1 := rfl
      have owing : (s.client.sent attempt payload).phase.owed = 0 := rfl
      rw [phase] at paced
      simp only
      omega
  | sendEnd phase =>
      rw [phase] at paced
      exact paced
  | sendFails _ => exact (Nat.le_add_right _ _).trans paced
  | @elapsed attempt payload phase =>
      have fired : s.observed.elapsed.timeouts = s.observed.timeouts + 1 := rfl
      have same : s.observed.elapsed.started = s.observed.started := rfl
      simp only [RetryLoop.elapsed]
      split
      · have owing : (s.client.fail quicStopAndWait.loop.timedOut).phase.owed = 0 := rfl
        have stats : (s.client.fail quicStopAndWait.loop.timedOut).stats = s.client.stats := rfl
        rw [stats]
        omega
      · have due := RetryLoop.again_owed_le quicStopAndWait.loop s.client attempt payload
        rw [RetryLoop.again_stats]
        omega
  | @read attempt payload _ _ phase taken =>
      obtain ⟨i, rfl⟩ := steady.inv.read_ack taken
      rw [lateAck_read phase] at timely
      simp only [quic_receive]
      by_cases same : i = payload.seq
      · rw [if_pos same, Client.acked, Client.nextBlock_owed, Client.nextBlock_stats]
        exact (Nat.le_add_right _ _).trans paced
      · have last : ¬ attempt + 1 < Quic.sendAndWaitForAck.attempts :=
          fun early => timely ⟨early, same⟩
        rw [if_neg same, RetryLoop.again, if_neg last]
        exact (Nat.le_add_right _ _).trans paced
  | readFails _ => exact (Nat.le_add_right _ _).trans paced
  | close phase =>
      rw [phase] at paced
      exact paced
  | serve _ _ => exact paced
  | serverReadFails _ _ => exact paced
  | dataFault _ => exact paced
  | ackFault _ => exact paced

/-- A lead over the timeouts is never made up for, short of a failure. -/
theorem quic_ahead_step {file : DataFile} {b : BlockSize} {s t : Net ConnectionLoop} {e : Event}
    {k : Nat} (steady : Steady quicStopAndWait (file.blocks b) s) (ahead : Ahead k s)
    (moved : quicStopAndWait.step s e = some t) : Ahead k t := by
  have kept : ∀ {u : Net ConnectionLoop}, s.client.phase.failed = false →
      (u.client.phase.failed = true ∨
        u.observed.started + u.observed.timeouts + s.client.stats.packetsSent +
            s.client.phase.owed ≤
          s.observed.started + s.observed.timeouts + u.client.stats.packetsSent +
            u.client.phase.owed) → Ahead k u := by
    intro u runs change
    rcases ahead with failed | lead
    · cases runs.symm.trans failed
    · rcases change with failed | grown
      · exact .inl failed
      · exact .inr (by omega)
  cases Pair.step_rule moved with
  | @sendBlock attempt payload phase =>
      have observed := s.observed.send_paced attempt payload
      have count : (s.client.sent attempt payload).stats.packetsSent =
          s.client.stats.packetsSent + 1 := rfl
      have owing : (s.client.sent attempt payload).phase.owed = 0 := rfl
      apply kept (by rw [phase]; rfl) (.inr _)
      rw [phase]
      simp only
      omega
  | sendEnd phase =>
      apply kept (by rw [phase]; rfl) (.inr _)
      rw [phase]
      exact Nat.le_refl _
  | sendFails _ => exact .inl rfl
  | @elapsed attempt payload phase =>
      have fired : s.observed.elapsed.timeouts = s.observed.timeouts + 1 := rfl
      have same : s.observed.elapsed.started = s.observed.started := rfl
      apply kept (by rw [phase]; rfl)
      simp only [RetryLoop.elapsed]
      split
      · exact .inl rfl
      · cases quicStopAndWait.loop.again_owed s.client attempt payload with
        | inl failed => exact .inl failed
        | inr due =>
            right
            rw [RetryLoop.again_stats, phase]
            have waits : (Phase.waiting attempt payload).owed = 0 := rfl
            omega
  | @read attempt payload _ _ phase taken =>
      obtain ⟨i, rfl⟩ := steady.inv.read_ack taken
      have waits : (Phase.waiting attempt payload).owed = 0 := rfl
      apply kept (by rw [phase]; rfl)
      simp only [quic_receive]
      by_cases same : i = payload.seq
      · right
        rw [if_pos same, Client.acked, Client.nextBlock_owed, Client.nextBlock_stats, phase]
        exact Nat.le_refl _
      · rw [if_neg same]
        cases Quic.sendAndWaitForAck.again_owed s.client attempt payload with
        | inl failed => exact .inl failed
        | inr due =>
            right
            rw [RetryLoop.again_stats, phase]
            omega
  | readFails _ => exact .inl rfl
  | close phase =>
      apply kept (by rw [phase]; rfl) (.inr _)
      rw [phase]
      exact Nat.le_refl _
  | serve _ _ => exact ahead
  | serverReadFails _ _ => exact ahead
  | dataFault _ => exact ahead
  | ackFault _ => exact ahead

/-- A late ack puts the client ahead, unless the attempt was its last. -/
theorem quic_late_ahead {file : DataFile} {b : BlockSize} {s t : Net ConnectionLoop} {e : Event}
    {k : Nat} (steady : Steady quicStopAndWait (file.blocks b) s) (ahead : Ahead k s)
    (late : LateAck (fun attempt => attempt + 1 < 5) s e)
    (moved : quicStopAndWait.step s e = some t) : Ahead (k + 1) t := by
  obtain ⟨attempt, payload, datagram, ack, early, phase, rfl, decoded, other⟩ := late
  cases Pair.step_rule moved with
  | @read k' p' _ acks waiting taken =>
      cases phase.symm.trans waiting
      obtain ⟨i, rfl⟩ := steady.inv.read_ack taken
      rw [UdpAck.fromBytes_toBytes] at decoded
      cases decoded
      have again : quicStopAndWait.loop.receive s.client attempt payload
          (UdpAck.toBytes ⟨i⟩) = { s.client with phase := .sending (attempt + 1) payload } := by
        rw [quic_receive, if_neg other]
        exact if_pos early
      rw [again]
      unfold Ahead at ahead
      rw [phase] at ahead
      rcases ahead with failed | lead
      · cases failed
      · exact .inr (Nat.succ_le_succ lead)

/-- As long as no late ack is read on one of the first four attempts, the QUIC client retransmits
    only after timeouts. Behind such an ack, and the retransmission due to it, it has sent
    more than the timeouts account for until it fails. -/
theorem quic_retransmits_after_timeouts (file : DataFile) (b : BlockSize) (events : List Event)
    (s : Net ConnectionLoop)
    (ran : exec quicStopAndWait.step (quicStopAndWait.start file b) events = some s) :
    (¬ Somewhere quicStopAndWait.step (LateAck fun attempt => attempt + 1 < 5)
        (quicStopAndWait.start file b) events →
      s.client.stats.packetsSent ≤ s.observed.started + s.observed.timeouts) ∧
    (s.client.phase.failed = false → s.client.phase.owed = 0 →
      s.client.stats.packetsSent ≤ s.observed.started + s.observed.timeouts →
      ¬ Somewhere quicStopAndWait.step (LateAck fun attempt => attempt + 1 < 5)
        (quicStopAndWait.start file b) events) := by
  have initially : Steady quicStopAndWait (file.blocks b) (quicStopAndWait.start file b) :=
    Steady.start quic_attempts
  have first := start_paced quicStopAndWait file b
  constructor
  · intro timely
    have paced : Steady quicStopAndWait (file.blocks b) s ∧ Paced s := by
      apply (Reach.of_never ran timely).invariant
        (fun s => Steady quicStopAndWait (file.blocks b) s ∧ Paced s) ⟨initially, first.1⟩
      intro u e v holds now moved
      exact ⟨holds.1.step quic_contract quic_attempts quic_answers moved,
        quic_paced_step holds.1 moved now holds.2⟩
    exact (Nat.le_add_right _ _).trans paced.2
  · intro runs none bound late
    have ahead : Ahead 1 s := by
      apply flag_of_somewhere
        (fun s => Steady quicStopAndWait (file.blocks b) s ∧ Ahead 0 s) (Ahead 1) _ _ _
        ⟨initially, first.2⟩ ran late
      · intro u e v holds moved
        exact ⟨holds.1.step quic_contract quic_attempts quic_answers moved,
          quic_ahead_step holds.1 holds.2 moved⟩
      · intro u e v holds lead moved
        exact quic_ahead_step holds.1 lead moved
      · intro u e v holds now moved
        exact quic_late_ahead holds.1 holds.2 now moved
    rcases ahead with failed | lead
    · cases runs.symm.trans failed
    · omega

/-- One late ack, and the retransmission which it sets off. -/
def lateRetransmission : List Event :=
  [.send, .serve (block 0 1) none, .elapsed, .send, .serve (block 0 1) none, .read (ack 0),
    .send, .read (ack 0), .send]

theorem quic_retransmits_after_timeouts_once : ∃ s, exec quicStopAndWait.step
      (quicStopAndWait.start twoBlocks oneByte) [.send, .elapsed, .send] = some s ∧
    ¬ Somewhere quicStopAndWait.step (LateAck fun attempt => attempt + 1 < 5)
      (quicStopAndWait.start twoBlocks oneByte) [.send, .elapsed, .send] := by
  have replayed : ((exec quicStopAndWait.step (quicStopAndWait.start twoBlocks oneByte)
      [.send, .elapsed, .send]).map fun s => (s.client.phase.failed, s.client.phase.owed,
        s.client.stats.packetsSent, s.observed.started + s.observed.timeouts)) =
      some (false, 0, 2, 2) := by
    decide +kernel
  obtain ⟨s, ran, ends⟩ := Option.map_eq_some_iff.mp replayed
  simp only [Prod.mk.injEq] at ends
  obtain ⟨runs, none, sent, due⟩ := ends
  exact ⟨s, ran, (quic_retransmits_after_timeouts twoBlocks oneByte _ s ran).2
    runs none (by omega)⟩

theorem late_ack_retransmits : ¬ ∀ s, Reach quicStopAndWait.step noDuplicates
    (quicStopAndWait.start twoBlocks oneByte) s →
      s.client.stats.packetsSent ≤ s.observed.started + s.observed.timeouts := by
  intro bounded
  have replayed : ((exec quicStopAndWait.step (quicStopAndWait.start twoBlocks oneByte)
      lateRetransmission).map fun s => (s.client.stats.packetsSent,
        s.observed.started + s.observed.timeouts)) = some (4, 3) := by
    decide +kernel
  obtain ⟨s, ran, ends⟩ := Option.map_eq_some_iff.mp replayed
  obtain ⟨sent, due⟩ := Prod.mk.inj ends
  have single : ∀ e ∈ lateRetransmission, e.duplicates = false := by decide
  have bound := bounded s (Reach.of_labels ran fun e member _ => single e member)
  omega

/-! ## Transfers given up -/

/-- How the UDP client's block has been timed so far, and which errors it returns. -/
def Patient (s : Net σ) : Prop :=
  match s.client.phase with
  | .waiting attempt _ => s.observed.blockTimeouts = attempt
  | .sending (attempt + 1) _ => s.observed.blockTimeouts = attempt + 1
  | .err e => (e = Udp.sendAndWaitForAck.timedOut ∧
      s.observed.blockTimeouts = Udp.sendAndWaitForAck.attempts) ∨
      (∃ i, e = .io i) ∨ e = Udp.invalidAckSequence
  | _ => True

/-- The only way to fail is a block which timed out on every attempt, or the socket. -/
def FailsOnlyByTimeoutOrIo (s : Net σ) : Prop :=
  s.client.phase ≠ .err Udp.invalidAckSequence ∧ s.client.phase ≠ .err Udp.invalidAckLength ∧
    ∀ e, s.client.phase = .err e →
      (e = Udp.sendAndWaitForAck.timedOut ∧
        s.observed.blockTimeouts = Udp.sendAndWaitForAck.attempts) ∨ ∃ i, e = .io i

theorem Patient.of_nextBlock {s : Net σ} {c : Client} (client : s.client = c.nextBlock) :
    Patient s := by
  unfold Patient
  rw [client]
  cases c.nextBlock_phase with
  | inl ended =>
      rw [ended]
      trivial
  | inr more =>
      obtain ⟨p, first⟩ := more
      rw [first]
      trivial

theorem udp_patient_step {profile : Profile} {file : DataFile} {b : BlockSize}
    {s t : Net ReportLoop} {e : Event} (steady : Steady (udpStopAndWait profile) (file.blocks b) s)
    (patient : Patient s) (moved : (udpStopAndWait profile).step s e = some t) : Patient t := by
  cases Pair.step_rule moved with
  | @sendBlock attempt payload phase =>
      unfold Patient at patient
      rw [phase] at patient
      cases attempt with
      | zero => exact rfl
      | succ attempt => exact patient
  | sendEnd _ => trivial
  | sendFails _ => exact .inr (.inl ⟨_, rfl⟩)
  | @elapsed attempt payload phase =>
      unfold Patient at patient
      rw [phase] at patient
      have fired : s.observed.elapsed.blockTimeouts = attempt + 1 := congrArg (· + 1) patient
      unfold RetryLoop.elapsed
      split
      · rename_i last
        exact .inl ⟨rfl, fired.trans last⟩
      · unfold RetryLoop.again
        split
        · exact fired
        · trivial
  | @read attempt payload _ _ phase taken =>
      obtain ⟨i, rfl⟩ := steady.inv.read_ack taken
      rw [udp_receive]
      by_cases same : i = payload.seq
      · rw [if_pos same]
        exact Patient.of_nextBlock rfl
      · rw [if_neg same]
        exact .inr (.inr rfl)
  | readFails _ => exact .inr (.inl ⟨_, rfl⟩)
  | close _ => trivial
  | serve _ _ => exact patient
  | serverReadFails _ _ => exact patient
  | dataFault _ => exact patient
  | ackFault _ => exact patient

/-- The client gives up over an ack exactly when the ack is late. -/
theorem udp_aborted_step {profile : Profile} {file : DataFile} {b : BlockSize}
    {s t : Net ReportLoop} {e : Event} (steady : Steady (udpStopAndWait profile) (file.blocks b) s)
    (moved : (udpStopAndWait profile).step s e = some t) :
    t.client.phase = .err Udp.invalidAckSequence ↔
      s.client.phase = .err Udp.invalidAckSequence ∨ LateAck (fun _ => True) s e := by
  have other : ∀ {i : IoError}, ClientError.io i ≠ Udp.invalidAckSequence := by
    intro i same
    cases same
  cases Pair.step_rule moved with
  | sendBlock phase => simp [phase, Client.sent, not_lateAck]
  | sendEnd phase => simp [phase, not_lateAck]
  | sendFails phase =>
      rcases phase with ⟨attempt, payload, phase⟩ | phase <;>
        simp [phase, Client.fail, not_lateAck, other]
  | @elapsed attempt payload phase =>
      have waits : ((udpStopAndWait profile).loop.elapsed s.client attempt payload).phase ≠
          .err Udp.invalidAckSequence := by
        unfold RetryLoop.elapsed
        split
        · intro same
          cases same
        · unfold RetryLoop.again
          split <;> exact Phase.noConfusion
      simp [phase, waits, not_lateAck]
  | @read attempt payload _ _ phase taken =>
      obtain ⟨i, rfl⟩ := steady.inv.read_ack taken
      rw [lateAck_read phase, udp_receive, phase]
      by_cases same : i = payload.seq
      · have goes : s.client.acked.phase ≠ .err Udp.invalidAckSequence := Client.nextBlock_ne _ rfl
        simp [same, goes]
      · simp [same, Client.fail]
  | readFails phase => simp [phase, Client.fail, not_lateAck, other]
  | close phase => simp [phase, not_lateAck]
  | serve _ _ => simp [not_lateAck]
  | serverReadFails _ _ => simp [not_lateAck]
  | dataFault _ => simp [not_lateAck]
  | ackFault _ => simp [not_lateAck]

/-- A UDP transfer fails by its timeouts and its socket alone in exactly those runs in which
    the client reads no late ack. -/
theorem udp_survives_iff (profile : Profile) (file : DataFile) (b : BlockSize)
    (fits : 8 + b.val ≤ maxBlockSize) (events : List Event) (s : Net ReportLoop)
    (ran : exec (udpStopAndWait profile).step ((udpStopAndWait profile).start file b) events =
      some s) :
    FailsOnlyByTimeoutOrIo s ↔ ¬ Somewhere (udpStopAndWait profile).step
      (LateAck fun _ => True) ((udpStopAndWait profile).start file b) events := by
  have steady_step : ∀ (u : Net ReportLoop) e v,
      Steady (udpStopAndWait profile) (file.blocks b) u →
      (udpStopAndWait profile).step u e = some v →
      Steady (udpStopAndWait profile) (file.blocks b) v :=
    fun _ _ _ steady moved => steady.step (udp_contract profile) (udp_attempts profile)
      ((udp_contract profile).answers fits) moved
  have initially : Steady (udpStopAndWait profile) (file.blocks b)
      ((udpStopAndWait profile).start file b) := Steady.start (udp_attempts profile)
  have aborted := flag_iff_somewhere (Steady (udpStopAndWait profile) (file.blocks b))
    (fun s => s.client.phase = .err Udp.invalidAckSequence) steady_step
    (fun _ _ _ steady moved => udp_aborted_step steady moved) initially ran
  have first : ((udpStopAndWait profile).start file b).client.phase ≠
      .err Udp.invalidAckSequence := Client.nextBlock_ne _ rfl
  rw [or_iff_right first] at aborted
  have patient : Patient s := by
    have both := exec_invariant
      (fun s => Steady (udpStopAndWait profile) (file.blocks b) s ∧ Patient s)
      (fun u e v holds moved =>
        ⟨steady_step u e v holds.1 moved, udp_patient_step holds.1 holds.2 moved⟩)
      ⟨initially, Patient.of_nextBlock rfl⟩ ran
    exact both.2
  constructor
  · intro survives late
    exact survives.1 (aborted.mpr late)
  · intro timely
    have errors : ∀ e, s.client.phase = .err e →
        (e = Udp.sendAndWaitForAck.timedOut ∧
          s.observed.blockTimeouts = Udp.sendAndWaitForAck.attempts) ∨ ∃ i, e = .io i := by
      intro e failed
      unfold Patient at patient
      rw [failed] at patient
      rcases patient with timeout | io | late
      · exact .inl timeout
      · exact .inr io
      · exact absurd (aborted.mp (late ▸ failed)) timely
    refine ⟨fun late => timely (aborted.mp late), ?_, errors⟩
    intro length
    rcases errors _ length with ⟨same, -⟩ | ⟨i, same⟩
    · exact absurd same (by decide)
    · cases same

/-- The first block is acked twice, and the second ack comes in during the second block. -/
def lateAbort : List Event :=
  [.send, .serve (block 0 1) none, .elapsed, .send, .serve (block 0 1) none, .read (ack 0),
    .send, .read (ack 0)]

theorem lateAbort_fails : (exec (udpStopAndWait .release).step
    ((udpStopAndWait .release).start twoBlocks oneByte) lateAbort).map
      (fun s => s.client.phase) = some (.err Udp.invalidAckSequence) := by
  decide +kernel

theorem udp_survives_late : Somewhere (udpStopAndWait .release).step (LateAck fun _ => True)
    ((udpStopAndWait .release).start twoBlocks oneByte) lateAbort := by
  obtain ⟨s, ran, failed⟩ := Option.map_eq_some_iff.mp lateAbort_fails
  by_contra timely
  have survives := (udp_survives_iff .release twoBlocks oneByte (by decide) lateAbort s ran).mpr
    timely
  exact survives.1 failed

theorem late_ack_aborts : ¬ ∀ s, Reach (udpStopAndWait .release).step noDuplicates
    ((udpStopAndWait .release).start twoBlocks oneByte) s → FailsOnlyByTimeoutOrIo s := by
  intro survives
  obtain ⟨s, ran, failed⟩ := Option.map_eq_some_iff.mp lateAbort_fails
  have single : ∀ e ∈ lateAbort, e.duplicates = false := by decide
  exact (survives s (Reach.of_labels ran fun e member _ => single e member)).1 failed

end PcdLab.StopAndWait
