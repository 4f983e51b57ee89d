import PcdLab.StopAndWait.Delivery
import PcdLab.StopAndWait.Truncation

/-! # Datagrams of third parties

The socket of the UDP client is bound to a port and connected to nobody, so what
anyone sends there is queued for `recv_from`, which also says who sent it. The client
looks at the datagram only, and at no more of it than fits its buffer of eight bytes.
-/

namespace PcdLab.StopAndWait

open Shared.Wire Shared.Socket Transport Lib Lib.Runs Client.File

/-- `ADDRESSES[Transport::UdpStopAndWait]`. -/
def serverAddr : SocketAddr := ⟨0x7f000001, 8082⟩

inductive OpenEvent where
  /-- Something happens among the client, its server and the network between them. -/
  | own (e : Event)
  /-- A third party sends a datagram to the client, from its own address. -/
  | intrude (addr : SocketAddr) (datagram : Bytes)
  /-- The client's wait ends with a datagram of a third party. -/
  | readOther (addr : SocketAddr) (datagram : Bytes)
  deriving Repr, DecidableEq

/-- A transfer whose client can be reached by anyone. -/
structure OpenNet where
  net : Net ReportLoop
  /-- What third parties have sent to the client. -/
  others : Channel (SocketAddr × Bytes)
  /-- All that the client has read, and from where. No part of the programs reads it. -/
  reads : List (SocketAddr × Bytes)
  deriving Repr, DecidableEq

namespace OpenNet

def start (profile : Profile) (file : DataFile) (b : BlockSize) : OpenNet :=
  ⟨(udpStopAndWait profile).start file b, {}, []⟩

end OpenNet

/-- What the client reads from its server in an event. -/
def Event.fromServer : Event → List (SocketAddr × Bytes)
  | .read datagram => [(serverAddr, datagram)]
  | _ => []

def openStep (profile : Profile) (s : OpenNet) : OpenEvent → Option OpenNet
  | .own e =>
      ((udpStopAndWait profile).step s.net e).map fun net =>
        { s with net := net, reads := s.reads ++ e.fromServer }
  | .intrude addr datagram =>
      if addr = serverAddr then none
      else some { s with others := s.others.send (addr, datagram) }
  | .readOther addr datagram =>
      match s.net.client.phase with
      | .waiting attempt payload =>
          (s.others.deliver (addr, datagram)).map fun others =>
            { net := { s.net with
                client := Udp.sendAndWaitForAck.receive s.net.client attempt payload datagram }
              others := others
              reads := s.reads ++ [(addr, datagram)] }
      | _ => none

/-- What one step can do, one rule for each way in which it can go. -/
inductive OpenStep (profile : Profile) (s : OpenNet) : OpenEvent → OpenNet → Prop where
  | own {e net} (moved : (udpStopAndWait profile).step s.net e = some net) :
      OpenStep profile s (.own e) { s with net := net, reads := s.reads ++ e.fromServer }
  | intrude {addr datagram} (other : addr ≠ serverAddr) :
      OpenStep profile s (.intrude addr datagram)
        { s with others := s.others.send (addr, datagram) }
  | readOther {addr datagram attempt payload others}
      (phase : s.net.client.phase = .waiting attempt payload)
      (taken : s.others.deliver (addr, datagram) = some others) :
      OpenStep profile s (.readOther addr datagram)
        { net := { s.net with
            client := Udp.sendAndWaitForAck.receive s.net.client attempt payload datagram }
          others := others
          reads := s.reads ++ [(addr, datagram)] }

theorem openStep_rule {profile : Profile} {s t : OpenNet} {e : OpenEvent}
    (moved : openStep profile s e = some t) : OpenStep profile s e t := by
  cases e with
  | own e =>
      obtain ⟨net, own, rfl⟩ := Option.map_eq_some_iff.mp moved
      exact .own own
  | intrude addr datagram =>
      simp only [openStep] at moved
      split at moved
      · cases moved
      · rename_i other
        exact Option.some.inj moved ▸ .intrude other
  | readOther addr datagram =>
      simp only [openStep] at moved
      split at moved
      · rename_i phase
        obtain ⟨others, taken, rfl⟩ := Option.map_eq_some_iff.mp moved
        exact .readOther phase taken
      · cases moved

/-! ## What the client and its server take -/

theorem Udp.onDatagram_short {d : Bytes} (short : d.length < 8) (seq : UInt64) :
    Udp.onDatagram seq d = .reject Udp.invalidAckLength := by
  have received : (recvFrom 8 d).1 = d.length := Nat.min_eq_left (by omega)
  have other : d.length ≠ 8 := by omega
  simp only [Udp.onDatagram, received, ne_eq, other, not_false_eq_true, if_true]

/-- The check of the length cannot see what has been cut off. -/
theorem Udp.onDatagram_take {d : Bytes} (long : 8 ≤ d.length) (seq : UInt64) :
    Udp.onDatagram seq d = Udp.onDatagram seq (d.take 8) := by
  have eight : 8 ≤ (d.take 8).length := by rw [List.length_take_of_le long]
  simp only [Udp.onDatagram, recvFrom_of_ge long, recvFrom_of_ge eight, List.take_take,
    Nat.min_self]

/-- The client takes a datagram for its ack iff its first eight bytes are those of the ack. -/
theorem Udp.onDatagram_accept_iff (seq : UInt64) (d : Bytes) :
    Udp.onDatagram seq d = .accept ↔ d.take 8 = UdpAck.toBytes ⟨seq⟩ := by
  by_cases long : 8 ≤ d.length
  · obtain ⟨ack, -, front⟩ := UdpAck.toBytes_fromBytes long
    rw [Udp.onDatagram_take long, ← front, Udp.onDatagram_ack]
    constructor
    · intro accepted
      by_contra other
      have number : ack.seq ≠ seq := fun same => other (same ▸ rfl)
      rw [if_neg number] at accepted
      cases accepted
    · intro same
      exact if_pos (congrArg UdpAck.seq (UdpAck.toBytes_injective same))
  · rw [Udp.onDatagram_short (by omega)]
    constructor
    · intro accepted
      cases accepted
    · intro front
      have eight := congrArg List.length front
      rw [UdpAck.length_toBytes, List.length_take] at eight
      omega

/-- The server answers every block, also one that its buffer cannot hold. -/
theorem udp_answers (profile : Profile) (blocks : List Bytes) :
    (udpStopAndWait profile).Answers blocks := by
  intro s p r _
  rw [udp_serve, UdpStopAndWait.handleDatagram_eq profile (UdpPayload.fromBytes_toBytes p)]
  cases r <;> rfl

/-! ## Runs among third parties -/

/-- The client is taken in: while it waits for an ack it reads a datagram of a third party which
    starts with the eight bytes of that ack. -/
def TakenIn (s : OpenNet) (e : OpenEvent) : Prop :=
  ∃ attempt payload addr datagram, s.net.client.phase = .waiting attempt payload ∧
    e = .readOther addr datagram ∧ datagram.take 8 = UdpAck.toBytes ⟨payload.seq⟩

instance TakenIn.decidable : (s : OpenNet) → (e : OpenEvent) → Decidable (TakenIn s e)
  | _, .own _ => .isFalse (by simp [TakenIn])
  | _, .intrude _ _ => .isFalse (by simp [TakenIn])
  | s, .readOther addr datagram =>
      match phase : s.net.client.phase with
      | .waiting attempt payload =>
          decidable_of_iff (datagram.take 8 = UdpAck.toBytes ⟨payload.seq⟩)
            (by simp [TakenIn, phase])
      | .sending _ _ | .finishing | .closing | .ok | .err _ | .panicked =>
          .isFalse (by simp [TakenIn, phase])

/-- The client is past a block only with an ack of it from the server's address, and has
    returned `Ok` only if the server has received all blocks. -/
structure OnlyGenuineAcks (blocks : List Bytes) (s : OpenNet) : Prop where
  acked : ∀ i < s.net.client.seq.toNat,
    (serverAddr, UdpAck.toBytes ⟨UInt64.ofNat i⟩) ∈ s.reads
  delivered : s.net.client.phase = .ok → ∀ i < blocks.length,
    ∃ p, Numbered blocks p ∧ p.seq.toNat = i ∧ p.toBytes ∈ s.net.data.delivered

/-- Beyond the invariant of the transfer: third parties are not at the server's address, and
    the server's acks which have been read are those of the blocks that are behind. -/
structure OpenInv (profile : Profile) (blocks : List Bytes) (s : OpenNet) : Prop where
  net : Inv (udpStopAndWait profile) blocks s.net
  others : ∀ x ∈ s.others.flight, x.1 ≠ serverAddr
  acked : ∀ i < s.net.client.seq.toNat,
    (serverAddr, UdpAck.toBytes ⟨UInt64.ofNat i⟩) ∈ s.reads
  behind : ∀ d, (serverAddr, d) ∈ s.reads →
    ∃ i : UInt64, i.toNat < s.net.client.seq.toNat ∧ d = UdpAck.toBytes ⟨i⟩

section Steps

variable {profile : Profile} {file : DataFile} {b : BlockSize}

/-- An ack on its way is one of a block which the client has come to. -/
theorem Inv.ack_le {s : Net ReportLoop} (inv : Inv (udpStopAndWait profile) (file.blocks b) s)
    {a : Bytes} (inFlight : a ∈ s.acks.flight) :
    ∃ i : UInt64, i.toNat ≤ s.client.seq.toNat ∧ a = UdpAck.toBytes ⟨i⟩ := by
  obtain ⟨p, -, arrived, rfl⟩ := inv.acked a (inv.acks_genuine.flight a inFlight)
  refine ⟨p.seq, ?_, rfl⟩
  cases inv.delivered arrived with
  | inl block =>
      obtain ⟨q, -, reached, same⟩ := block
      exact UdpPayload.toBytes_injective same ▸ reached
  | inr ended =>
      obtain ⟨seq, same⟩ := ended
      have size := congrArg List.length same
      rw [UdpPayload.length_toBytes, udp_endMarker, List.length_nil] at size
      omega

/-- A datagram that the client takes for its ack takes it to the next block. -/
theorem Inv.receive_seq {P : Pair ReportLoop} {s : Net ReportLoop}
    (inv : Inv P (file.blocks b) s) {attempt : Nat} {payload : UdpPayload} {d : Bytes}
    (phase : s.client.phase = .waiting attempt payload)
    (accepted : P.loop.onDatagram payload.seq d = .accept) :
    (P.loop.receive s.client attempt payload d).seq.toNat = s.client.seq.toNat + 1 := by
  obtain ⟨seq, numbered, -⟩ := inv.waiting phase
  have inside := numbered.lt
  rw [seq] at inside
  rw [RetryLoop.receive_accept accepted]
  exact Client.acked_seq inside

/-- The client moves on with a datagram only. -/
theorem step_seq {s t : Net ReportLoop} {e : Event}
    (moved : (udpStopAndWait profile).step s e = some t) (unread : e.fromServer = []) :
    t.client.seq = s.client.seq := by
  cases Pair.step_rule moved with
  | sendBlock _ => rfl
  | sendEnd _ => rfl
  | sendFails _ => rfl
  | elapsed _ => exact RetryLoop.elapsed_seq _ _ _ _
  | read _ _ => cases unread
  | readFails _ => rfl
  | close _ => rfl
  | serve _ _ => rfl
  | serverReadFails _ _ => rfl
  | dataFault _ => rfl
  | ackFault _ => rfl

namespace OpenInv

variable {s t : OpenNet}

theorem start (profile : Profile) (file : DataFile) (b : BlockSize) :
    OpenInv profile (file.blocks b) (.start profile file b) where
  net := .start (udpStopAndWait profile) file b
  others := by
    intro x member
    exact absurd member List.not_mem_nil
  acked := by
    intro i inside
    have zero : (OpenNet.start profile file b).net.client.seq.toNat = 0 := by
      show (Client.nextBlock _).seq.toNat = 0
      rw [Client.nextBlock_seq]
      rfl
    omega
  behind := by
    intro d member
    exact absurd member List.not_mem_nil

theorem genuine (inv : OpenInv profile (file.blocks b) s) :
    OnlyGenuineAcks (file.blocks b) s where
  acked := inv.acked
  delivered := by
    intro done i inside
    have last := inv.net.behind (.inr (.inr done))
    exact inv.net.confirmed i (last ▸ inside)

/-- The client stays at its block, and what it has read of the server is behind it. -/
theorem same_block (inv : OpenInv profile (file.blocks b) s) {net : Net ReportLoop}
    {others : Channel (SocketAddr × Bytes)} {more : List (SocketAddr × Bytes)}
    (after : Inv (udpStopAndWait profile) (file.blocks b) net)
    (foreign : ∀ x ∈ others.flight, x.1 ≠ serverAddr)
    (seq : net.client.seq = s.net.client.seq)
    (late : ∀ d, (serverAddr, d) ∈ more →
      ∃ i : UInt64, i.toNat < s.net.client.seq.toNat ∧ d = UdpAck.toBytes ⟨i⟩) :
    OpenInv profile (file.blocks b) ⟨net, others, s.reads ++ more⟩ where
  net := after
  others := foreign
  acked := by
    intro i inside
    simp only [seq] at inside
    exact List.mem_append_left more (inv.acked i inside)
  behind := by
    intro d member
    simp only [seq]
    cases List.mem_append.mp member with
    | inl old => exact inv.behind d old
    | inr new => exact late d new

/-- The server's ack of the current block takes the client to the next one. -/
theorem accept (inv : OpenInv profile (file.blocks b) s) {net : Net ReportLoop} {i : UInt64}
    (after : Inv (udpStopAndWait profile) (file.blocks b) net) (current : i = s.net.client.seq)
    (next : net.client.seq.toNat = s.net.client.seq.toNat + 1) :
    OpenInv profile (file.blocks b)
      ⟨net, s.others, s.reads ++ [(serverAddr, UdpAck.toBytes ⟨i⟩)]⟩ where
  net := after
  others := inv.others
  acked := by
    intro j inside
    simp only [next] at inside
    rw [List.mem_append]
    by_cases here : j = s.net.client.seq.toNat
    · right
      rw [here, UInt64.ofNat_toNat, current]
      exact List.mem_singleton.mpr rfl
    · left
      exact inv.acked j (by omega)
  behind := by
    intro d member
    simp only [next]
    cases List.mem_append.mp member with
    | inl old =>
        obtain ⟨j, before, same⟩ := inv.behind d old
        exact ⟨j, by omega, same⟩
    | inr new =>
        obtain ⟨-, same⟩ := Prod.mk.inj (List.mem_singleton.mp new)
        exact ⟨i, by rw [current]; omega, same⟩

/-- The client reads a datagram of its server. -/
theorem read (inv : OpenInv profile (file.blocks b) s) {d : Bytes} {net : Net ReportLoop}
    (moved : (udpStopAndWait profile).step s.net (.read d) = some net) :
    OpenInv profile (file.blocks b)
      { s with net := net, reads := s.reads ++ [(serverAddr, d)] } := by
  have after := inv.net.step_answered (udp_contract profile) (udp_answers profile _) moved
  cases Pair.step_rule moved with
  | @read attempt payload _ acks phase taken =>
      obtain ⟨seq, -, -⟩ := inv.net.waiting phase
      obtain ⟨i, reached, rfl⟩ := inv.net.ack_le (Channel.deliver_eq_some.mp taken).1
      by_cases same : i = payload.seq
      · have accepted := ((udp_contract profile).accept_ack payload.seq i).mpr same
        have next := inv.net.receive_seq phase accepted
        exact inv.accept after (same.trans seq) next
      · have refused := mt ((udp_contract profile).accept_ack payload.seq i).mp same
        obtain ⟨-, stays⟩ := RetryLoop.receive_follows phase inv.net.follows refused
        have other : i.toNat ≠ s.net.client.seq.toNat := by
          intro equal
          exact same ((UInt64.toNat_inj.mp equal).trans seq.symm)
        apply inv.same_block after inv.others stays
        intro d member
        obtain ⟨-, rfl⟩ := Prod.mk.inj (List.mem_singleton.mp member)
        exact ⟨i, by omega, rfl⟩

theorem step (inv : OpenInv profile (file.blocks b) s) {e : OpenEvent}
    (safe : ¬ TakenIn s e) (moved : openStep profile s e = some t) :
    OpenInv profile (file.blocks b) t := by
  cases openStep_rule moved with
  | @own e net own =>
      have after := inv.net.step_answered (udp_contract profile) (udp_answers profile _) own
      by_cases unread : e.fromServer = []
      · apply inv.same_block after inv.others (step_seq own unread)
        intro d member
        rw [unread] at member
        exact absurd member List.not_mem_nil
      · cases e with
        | read d => exact inv.read own
        | _ => exact absurd rfl unread
  | intrude other =>
      refine ⟨inv.net, ?_, inv.acked, inv.behind⟩
      intro x member
      cases List.mem_append.mp member with
      | inl old => exact inv.others x old
      | inr new => exact List.mem_singleton.mp new ▸ other
  | @readOther addr datagram attempt payload others phase taken =>
      have refused : Udp.sendAndWaitForAck.onDatagram payload.seq datagram ≠ .accept := by
        intro accepted
        exact safe ⟨attempt, payload, addr, datagram, phase, rfl,
          (Udp.onDatagram_accept_iff payload.seq datagram).mp accepted⟩
      obtain ⟨follows, seq⟩ := RetryLoop.receive_follows phase inv.net.follows refused
      refine inv.same_block (inv.net.client_only follows seq) ?_ seq ?_
      · intro x member
        exact inv.others x (Channel.mem_flight_of_deliver taken member)
      · intro d member
        have server := (Prod.mk.inj (List.mem_singleton.mp member)).1
        exact absurd server.symm (inv.others _ (Channel.deliver_eq_some.mp taken).1)

/-- Once it has been taken in, the client is past a block without an ack of it. -/
theorem taken_in (inv : OpenInv profile (file.blocks b) s) {e : OpenEvent}
    (bad : TakenIn s e) (moved : openStep profile s e = some t) :
    ¬ OnlyGenuineAcks (file.blocks b) t := by
  obtain ⟨attempt, payload, addr, datagram, phase, rfl, front⟩ := bad
  cases openStep_rule moved with
  | @readOther _ _ attempt' payload' others phase' taken =>
      obtain ⟨rfl, rfl⟩ := Phase.waiting.inj (phase.symm.trans phase')
      have accepted := (Udp.onDatagram_accept_iff payload.seq datagram).mpr front
      have next := inv.net.receive_seq phase accepted
      intro genuine
      have acked := genuine.acked s.net.client.seq.toNat (next ▸ Nat.lt_succ_self _)
      rw [UInt64.ofNat_toNat] at acked
      cases List.mem_append.mp acked with
      | inl old =>
          obtain ⟨i, before, same⟩ := inv.behind _ old
          have number : s.net.client.seq = i :=
            congrArg UdpAck.seq (UdpAck.toBytes_injective same)
          rw [number] at before
          exact Nat.lt_irrefl _ before
      | inr new =>
          have server := (Prod.mk.inj (List.mem_singleton.mp new)).1
          exact inv.others _ (Channel.deliver_eq_some.mp taken).1 server.symm

end OpenInv

end Steps

/-- In every state of a run the client is past no block, and has returned, without the server's
    acks, exactly if in no step of the run it is taken in. -/
theorem only_genuine_acks_iff (profile : Profile) (file : DataFile) (b : BlockSize)
    (events : List OpenEvent)
    (possible : (exec (openStep profile) (.start profile file b) events).isSome) :
    Throughout (openStep profile) (OnlyGenuineAcks (file.blocks b))
        (.start profile file b) events ↔
      ¬ Somewhere (openStep profile) TakenIn (.start profile file b) events := by
  obtain ⟨t, ran⟩ := Option.isSome_iff_exists.mp possible
  apply throughout_iff_never (OpenInv profile (file.blocks b))
  · exact fun s inv => inv.genuine
  · exact fun s e t inv safe moved => inv.step safe moved
  · exact fun s e t inv bad moved => inv.taken_in bad moved
  · exact .start profile file b
  · exact ran

/-- A third party on the host of the client. -/
def thirdParty : SocketAddr := ⟨0x7f000001, 40000⟩

/-- A transfer during which a third party sends an ack that is never read. -/
def unreadForgery : List OpenEvent :=
  [.intrude thirdParty (ack 1), .own .send, .own (.serve (block 0 1) none), .own (.read (ack 0)),
    .own .send, .own (.serve (block 1 2) none), .own (.read (ack 1)), .own .send, .own .close]

theorem only_genuine_acks_unread :
    Throughout (openStep .release) (OnlyGenuineAcks (twoBlocks.blocks oneByte))
      (.start .release twoBlocks oneByte) unreadForgery :=
  (only_genuine_acks_iff .release twoBlocks oneByte unreadForgery (by decide +kernel)).mpr
    (by decide +kernel)

/-- Both blocks are lost, and a third party acknowledges them, the second one with a datagram of
    nine bytes. -/
def forgery : List OpenEvent :=
  [.intrude thirdParty (ack 0), .intrude thirdParty (ack 1 ++ [0]), .own .send,
    .own (.dataFault (.drop (block 0 1))), .readOther thirdParty (ack 0), .own .send,
    .own (.dataFault (.drop (block 1 2))), .readOther thirdParty (ack 1 ++ [0]), .own .send,
    .own .close]

/-- The client returns `Ok`, and the server has received nothing. -/
theorem forged_acks_accepted :
    (∃ s, exec (openStep .release) (.start .release twoBlocks oneByte) forgery = some s ∧
      s.net.client.phase = .ok ∧ s.net.data.delivered = []) ∧
    ¬ Throughout (openStep .release) (OnlyGenuineAcks (twoBlocks.blocks oneByte))
      (.start .release twoBlocks oneByte) forgery := by
  have replayed : ((exec (openStep .release) (.start .release twoBlocks oneByte) forgery).map
      fun s => (s.net.client.phase, s.net.data.delivered)) = some (.ok, []) := by
    decide +kernel
  obtain ⟨s, ran, ending⟩ := Option.map_eq_some_iff.mp replayed
  obtain ⟨done, nothing⟩ := Prod.mk.inj ending
  refine ⟨⟨s, ran, done, nothing⟩, ?_⟩
  intro throughout
  obtain ⟨p, -, -, arrived⟩ := (throughout.last ran).delivered done 0 (by decide +kernel)
  rw [nothing] at arrived
  cases arrived

end PcdLab.StopAndWait
