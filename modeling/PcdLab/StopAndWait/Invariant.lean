import PcdLab.StopAndWait.Net

/-! # What holds in every state of a transfer

The invariant follows the data: a data datagram exists only for a block which the
client has come to, an ack exists only for a block which the server has received,
and the client has come past a block only with such an ack. Both pairs satisfy it,
because all it needs of them is the contract below.
-/

namespace PcdLab.StopAndWait

open Shared.Wire Shared.Socket Transport Lib Lib.Runs Client.File

/-- A payload that reaches its server whole, and is no end marker there. -/
def Carried (p : UdpPayload) : Prop := p.data ≠ [] ∧ 8 + p.data.length ≤ maxBlockSize

/-- The payload is a block of the file under its own number. -/
def Numbered (blocks : List Bytes) (p : UdpPayload) : Prop :=
  blocks[p.seq.toNat]? = some p.data

/-- What the proofs use of a pair: how the two sides take each other's datagrams. -/
structure Pair.Contract {σ : Type} (P : Pair σ) : Prop where
  accept_ack : ∀ seq i, P.loop.onDatagram seq (UdpAck.toBytes ⟨i⟩) = .accept ↔ i = seq
  serve_data : ∀ s p r, Carried p →
    (P.serve s p.toBytes r).2 = if r = none then some (UdpAck.toBytes ⟨p.seq⟩) else none
  serve_end : ∀ s seq r, (P.serve s (P.endMarker seq) r).2 = none
  data_isEnd : ∀ p, Carried p → P.isEnd p.toBytes = false
  end_isEnd : ∀ seq, P.isEnd (P.endMarker seq) = true
  view_data : ∀ p, Carried p → P.view p.toBytes = p.toBytes

/-! ## The two pairs -/

theorem Carried.received {p : UdpPayload} (h : Carried p) :
    recvFrom maxBlockSize p.toBytes = (8 + p.data.length,
      p.toBytes ++ List.replicate (maxBlockSize - (8 + p.data.length)) 0) := by
  have size : p.toBytes.length = 8 + p.data.length := UdpPayload.length_toBytes p
  rw [recvFrom_of_le (by rw [size]; exact h.2), size]

/-- The server's turn on a data datagram: the ack first, then the counters. -/
theorem serveUdp_data (profile : Profile) (s : ReportLoop) {p : UdpPayload} (h : Carried p)
    (addr : SocketAddr) (r : Option IoError) :
    UdpStopAndWait.handleDatagram profile s ⟨addr, p.toBytes⟩ r =
      match r with
      | none => (s.count p.data.length, some (addr, UdpAck.toBytes ⟨p.seq⟩))
      | some e => ({ s with outcome := .err e }, none) := by
  have fits := h.2
  have nonzero : 8 + p.data.length ≠ 0 := by omega
  have data : profile.sub (8 + p.data.length) 8 = some p.data.length := by
    rw [Profile.sub_of_le profile (by omega) (by unfold maxBlockSize at fits; omega)]
    congr 1
    omega
  unfold UdpStopAndWait.handleDatagram
  simp only [h.received, if_neg nonzero, UdpPayload.fromBytes_toBytes_append, data]
  cases r <;> rfl

theorem serveUdp_end (profile : Profile) (s : ReportLoop) (addr : SocketAddr)
    (r : Option IoError) :
    UdpStopAndWait.handleDatagram profile s ⟨addr, []⟩ r = (s.report, none) := rfl

theorem serveQuic_data (s : ConnectionLoop) {p : UdpPayload} (full : p.data ≠ [])
    (r : Option IoError) :
    QuicStopAndWait.handleDatagram s p.toBytes r =
      match r with
      | none => (s.count p.data.length, some (UdpAck.toBytes ⟨p.seq⟩))
      | some e => ({ s with outcome := .err e }, none) := by
  have nonempty : p.data.isEmpty = false := List.isEmpty_eq_false_iff.mpr full
  unfold QuicStopAndWait.handleDatagram
  simp only [UdpPayload.fromBytes_toBytes, nonempty, Bool.false_eq_true, if_false]
  cases r <;> rfl

theorem serveQuic_end (s : ConnectionLoop) (seq : UInt64) (r : Option IoError) :
    QuicStopAndWait.handleDatagram s (UdpPayload.toBytes ⟨seq, []⟩) r = (s.finish, none) := by
  unfold QuicStopAndWait.handleDatagram
  simp only [UdpPayload.fromBytes_toBytes, List.isEmpty_nil, if_true]

theorem udp_onDatagram (profile : Profile) (seq : UInt64) (datagram : Bytes) :
    (udpStopAndWait profile).loop.onDatagram seq datagram = Udp.onDatagram seq datagram := rfl

theorem udp_serve (profile : Profile) (s : ReportLoop) (datagram : Bytes) (r : Option IoError) :
    (udpStopAndWait profile).serve s datagram r =
      ((UdpStopAndWait.handleDatagram profile s ⟨clientAddr, datagram⟩ r).1,
        (UdpStopAndWait.handleDatagram profile s ⟨clientAddr, datagram⟩ r).2.map Prod.snd) := rfl

theorem udp_endMarker (profile : Profile) (seq : UInt64) :
    (udpStopAndWait profile).endMarker seq = [] := rfl

theorem quic_onDatagram (seq : UInt64) (datagram : Bytes) :
    quicStopAndWait.loop.onDatagram seq datagram = Quic.onDatagram seq datagram := rfl

theorem quic_serve (s : ConnectionLoop) (datagram : Bytes) (r : Option IoError) :
    quicStopAndWait.serve s datagram r = QuicStopAndWait.handleDatagram s datagram r := rfl

theorem quic_endMarker (seq : UInt64) :
    quicStopAndWait.endMarker seq = UdpPayload.toBytes ⟨seq, []⟩ := rfl

theorem udp_contract (profile : Profile) : (udpStopAndWait profile).Contract where
  accept_ack := by
    intro seq i
    rw [udp_onDatagram, Udp.onDatagram_ack]
    split <;> simp_all
  serve_data := by
    intro s p r h
    rw [udp_serve, serveUdp_data profile s h]
    cases r <;> rfl
  serve_end := by
    intro s seq r
    rw [udp_serve, udp_endMarker, serveUdp_end]
    rfl
  data_isEnd := by
    intro p h
    show decide ((recvFrom maxBlockSize p.toBytes).1 = 0) = false
    rw [h.received, decide_eq_false_iff_not]
    simp only
    omega
  end_isEnd := by
    intro seq
    rfl
  view_data := by
    intro p h
    show (recvFrom maxBlockSize p.toBytes).2.take (recvFrom maxBlockSize p.toBytes).1 = _
    rw [h.received]
    exact List.take_left' (UdpPayload.length_toBytes p)

theorem quic_contract : quicStopAndWait.Contract where
  accept_ack := by
    intro seq i
    rw [quic_onDatagram, Quic.onDatagram_ack]
    split <;> simp_all
  serve_data := by
    intro s p r h
    rw [quic_serve, serveQuic_data s h.1]
    cases r <;> rfl
  serve_end := by
    intro s seq r
    rw [quic_serve, quic_endMarker, serveQuic_end]
  data_isEnd := by
    intro p h
    simp only [quicStopAndWait, UdpPayload.fromBytes_toBytes, List.isEmpty_eq_false_iff]
    exact h.1
  end_isEnd := by
    intro seq
    simp only [quicStopAndWait, UdpPayload.fromBytes_toBytes, List.isEmpty_nil]
  view_data := by
    intro p _
    rfl

/-! ## Numbers -/

section Numbers

variable {file : DataFile} {b : BlockSize}

theorem Numbered.lt {blocks : List Bytes} {p : UdpPayload} (h : Numbered blocks p) :
    p.seq.toNat < blocks.length := by
  obtain ⟨inside, -⟩ := List.getElem?_eq_some_iff.mp h
  exact inside

theorem Numbered.carried {p : UdpPayload} (h : Numbered (file.blocks b) p)
    (fits : 8 + b.val ≤ maxBlockSize) : Carried p := by
  obtain ⟨nonempty, size⟩ := DataFile.block_mem (List.mem_of_getElem? h)
  exact ⟨nonempty, by omega⟩

/-- A sequence number tells the blocks of a file apart. -/
theorem Numbered.unique {blocks : List Bytes} {p q : UdpPayload} (hp : Numbered blocks p)
    (hq : Numbered blocks q) (same : p.seq.toNat = q.seq.toNat) : p = q := by
  have data : p.data = q.data := by
    unfold Numbered at hp hq
    rw [same, hq] at hp
    exact (Option.some.inj hp).symm
  cases p
  cases q
  simp only [UdpPayload.mk.injEq]
  exact ⟨UInt64.toNat_inj.mp same, data⟩

/-- The server answers every block with its ack, if the ack can be sent. -/
def Pair.Answers {σ : Type} (P : Pair σ) (blocks : List Bytes) : Prop :=
  ∀ s p r, Numbered blocks p →
    (P.serve s p.toBytes r).2 = if r = none then some (UdpAck.toBytes ⟨p.seq⟩) else none

theorem Pair.Contract.answers {σ : Type} {P : Pair σ} (contract : P.Contract)
    (fits : 8 + b.val ≤ maxBlockSize) : P.Answers (file.blocks b) :=
  fun s p r numbered => contract.serve_data s p r (numbered.carried fits)

/-- Over QUIC a block may be as long as it likes. -/
theorem quic_answers : quicStopAndWait.Answers (file.blocks b) := by
  intro s p r numbered
  have full : p.data ≠ [] := (DataFile.block_mem (List.mem_of_getElem? numbered)).1
  rw [quic_serve, serveQuic_data s full]
  cases r <;> rfl

/-- The ack that a client accepts is one of its current block. -/
theorem Pair.Contract.accepted_block {σ : Type} {P : Pair σ} {blocks : List Bytes}
    (contract : P.Contract) {p q : UdpPayload} (current : Numbered blocks p)
    (found : Numbered blocks q)
    (accepted : P.loop.onDatagram p.seq (UdpAck.toBytes ⟨q.seq⟩) = .accept) : q = p := by
  have same : q.seq = p.seq := (contract.accept_ack p.seq q.seq).mp accepted
  exact found.unique current (congrArg UInt64.toNat same)

theorem toNat_succ {seq : UInt64} (inside : seq.toNat < (file.blocks b).length) :
    (seq + 1).toNat = seq.toNat + 1 := by
  have count := DataFile.length_blocks_lt file b
  rw [UInt64.toNat_add]
  exact Nat.mod_eq_of_lt (by simp; omega)

theorem Client.acked_seq {c : Client} (inside : c.seq.toNat < (file.blocks b).length) :
    c.acked.seq.toNat = c.seq.toNat + 1 := by
  rw [acked, nextBlock_seq]
  exact toNat_succ inside

theorem getElem?_payloads (chunks : List Bytes) (seq : UInt64) (i : Nat) :
    (payloads chunks seq)[i]? =
      chunks[i]?.map fun chunk => ⟨seq + UInt64.ofNat i, chunk⟩ := by
  induction chunks generalizing seq i with
  | nil => rfl
  | cons chunk chunks ih =>
      cases i with
      | zero => simp [payloads]
      | succ i =>
          have later : seq + 1 + UInt64.ofNat i = seq + UInt64.ofNat (i + 1) := by
            rw [UInt64.ofNat_add, UInt64.add_assoc, UInt64.add_comm 1]
            rfl
          simp only [payloads, List.getElem?_cons_succ, ih, later]

theorem payloads_numbered {p : UdpPayload} (member : p ∈ payloads (file.blocks b) 0) :
    Numbered (file.blocks b) p := by
  obtain ⟨i, at_i⟩ := List.mem_iff_getElem?.mp member
  rw [getElem?_payloads] at at_i
  obtain ⟨chunk, block, rfl⟩ := Option.map_eq_some_iff.mp at_i
  have count := DataFile.length_blocks_lt file b
  obtain ⟨inside, -⟩ := List.getElem?_eq_some_iff.mp block
  have number : (0 + UInt64.ofNat i).toNat = i := by
    rw [UInt64.zero_add]
    exact UInt64.toNat_ofNat_of_lt' (by simp [UInt64.size]; omega)
  unfold Numbered
  rw [number, block]

/-- No two blocks of a file travel as the same datagram. -/
theorem payloads_nodup (file : DataFile) (b : BlockSize) :
    ((payloads (file.blocks b) 0).map UdpPayload.toBytes).Nodup := by
  have distinct : (payloads (file.blocks b) 0).Nodup := by
    rw [List.nodup_iff_getElem?_ne_getElem?]
    intro i j before inside same
    rw [length_payloads] at inside
    have count := DataFile.length_blocks_lt file b
    simp only [getElem?_payloads, List.getElem?_eq_getElem inside,
      List.getElem?_eq_getElem (before.trans inside), Option.map_some, Option.some.injEq,
      UdpPayload.mk.injEq, UInt64.zero_add] at same
    have numbers := congrArg UInt64.toNat same.1
    rw [UInt64.toNat_ofNat_of_lt' (by simp [UInt64.size]; omega),
      UInt64.toNat_ofNat_of_lt' (by simp [UInt64.size]; omega)] at numbers
    omega
  exact distinct.map fun _ _ same => UdpPayload.toBytes_injective same

end Numbers

/-! ## The invariant -/

/-- The client is where its `seq` says: at that block, or behind the last one. -/
def Client.Follows (blocks : List Bytes) (c : Client) : Prop :=
  match c.phase with
  | .sending _ p | .waiting _ p =>
      p.seq = c.seq ∧ Numbered blocks p ∧ c.rest = blocks.drop (c.seq.toNat + 1)
  | .finishing | .closing | .ok => c.seq.toNat = blocks.length
  | .err _ | .panicked => True

variable {σ : Type}

structure Inv (P : Pair σ) (blocks : List Bytes) (s : Net σ) : Prop where
  follows : s.client.Follows blocks
  seq_le : s.client.seq.toNat ≤ blocks.length
  data_genuine : s.data.Genuine
  acks_genuine : s.acks.Genuine
  sent : ∀ d ∈ s.data.sent,
    (∃ p, Numbered blocks p ∧ p.seq.toNat ≤ s.client.seq.toNat ∧ d = p.toBytes) ∨
      (d = P.endMarker s.client.seq ∧ s.client.seq.toNat = blocks.length)
  acked : ∀ a ∈ s.acks.sent, ∃ p, Numbered blocks p ∧ p.toBytes ∈ s.data.delivered ∧
    a = UdpAck.toBytes ⟨p.seq⟩
  confirmed : ∀ i < s.client.seq.toNat, ∃ p, Numbered blocks p ∧ p.seq.toNat = i ∧
    p.toBytes ∈ s.data.delivered

theorem Client.follows_nextBlock {blocks : List Bytes} {c : Client}
    (rest : c.rest = blocks.drop c.seq.toNat) (le : c.seq.toNat ≤ blocks.length) :
    c.nextBlock.Follows blocks := by
  unfold nextBlock
  cases left : c.rest with
  | nil =>
      have ended : blocks.length ≤ c.seq.toNat := List.drop_eq_nil_iff.mp (rest ▸ left)
      exact Nat.le_antisymm le ended
  | cons chunk later =>
      have here : blocks.drop c.seq.toNat = chunk :: later := rest ▸ left
      have inside : c.seq.toNat < blocks.length := by
        by_contra past
        rw [List.drop_eq_nil_of_le (by omega)] at here
        cases here
      rw [List.drop_eq_getElem_cons inside] at here
      obtain ⟨rfl, rfl⟩ := List.cons.inj here
      exact ⟨rfl, List.getElem?_eq_getElem inside, rfl⟩

namespace Inv

variable {P : Pair σ} {file : DataFile} {b : BlockSize} {s : Net σ}

/-- While a block is under way, nothing but blocks has been sent. -/
theorem sent_block {p : UdpPayload} (inv : Inv P (file.blocks b) s)
    (current : Numbered (file.blocks b) p) (seq : p.seq = s.client.seq) :
    ∀ d ∈ s.data.sent, ∃ p, Numbered (file.blocks b) p ∧
      p.seq.toNat ≤ s.client.seq.toNat ∧ d = p.toBytes := by
  intro d member
  rcases inv.sent d member with block | ⟨-, ended⟩
  · exact block
  · have inside := current.lt
    rw [seq] at inside
    omega

/-- The client moves on only with an ack of the block it is at, so that block has arrived. -/
theorem arrived {p : UdpPayload} {datagram : Bytes} (inv : Inv P (file.blocks b) s)
    (contract : P.Contract) (current : Numbered (file.blocks b) p)
    (taken : datagram ∈ s.acks.flight)
    (accepted : P.loop.onDatagram p.seq datagram = .accept) :
    p.toBytes ∈ s.data.delivered := by
  obtain ⟨q, numbered, delivered, rfl⟩ := inv.acked datagram (inv.acks_genuine.flight _ taken)
  exact contract.accepted_block current numbered accepted ▸ delivered

theorem start (P : Pair σ) (file : DataFile) (b : BlockSize) :
    Inv P (file.blocks b) (P.start file b) where
  follows := Client.follows_nextBlock rfl (Nat.zero_le _)
  seq_le := by
    show (Client.nextBlock _).seq.toNat ≤ _
    rw [Client.nextBlock_seq]
    exact Nat.zero_le _
  data_genuine := .empty
  acks_genuine := .empty
  sent := by
    intro d member
    exact absurd member List.not_mem_nil
  acked := by
    intro a member
    exact absurd member List.not_mem_nil
  confirmed := by
    intro i inside
    have zero : (P.start file b).client.seq.toNat = 0 := by
      show (Client.nextBlock _).seq.toNat = 0
      rw [Client.nextBlock_seq]
      rfl
    omega

/-- A step which neither sends nor moves on keeps the invariant: at most, it delivers. -/
theorem frame (inv : Inv P (file.blocks b) s) {t : Net σ}
    (follows : t.client.Follows (file.blocks b)) (seq : t.client.seq = s.client.seq)
    (data : t.data.Genuine) (dataSent : t.data.sent = s.data.sent)
    (delivered : ∀ d ∈ s.data.delivered, d ∈ t.data.delivered)
    (acks : t.acks.Genuine) (acksSent : t.acks.sent = s.acks.sent) :
    Inv P (file.blocks b) t where
  follows := follows
  seq_le := seq ▸ inv.seq_le
  data_genuine := data
  acks_genuine := acks
  sent := by
    rw [dataSent, seq]
    exact inv.sent
  acked := by
    intro a member
    obtain ⟨p, numbered, arrived, rfl⟩ := inv.acked a (acksSent ▸ member)
    exact ⟨p, numbered, delivered _ arrived, rfl⟩
  confirmed := by
    intro i inside
    obtain ⟨p, numbered, number, arrived⟩ := inv.confirmed i (seq ▸ inside)
    exact ⟨p, numbered, number, delivered _ arrived⟩

/-- As `frame`, where the channels stay as they are. -/
theorem client_only (inv : Inv P (file.blocks b) s) {c : Client} {o : Observed}
    (follows : c.Follows (file.blocks b)) (seq : c.seq = s.client.seq) :
    Inv P (file.blocks b) { s with client := c, observed := o } :=
  inv.frame follows seq inv.data_genuine rfl (fun _ member => member) inv.acks_genuine rfl

/-- One datagram more has been sent: of a block which the client has come to, or the end. -/
theorem send (inv : Inv P (file.blocks b) s) {c : Client} {d : Bytes} {o : Observed}
    (follows : c.Follows (file.blocks b)) (seq : c.seq = s.client.seq)
    (known : (∃ p, Numbered (file.blocks b) p ∧ p.seq.toNat ≤ s.client.seq.toNat ∧
        d = p.toBytes) ∨
      (d = P.endMarker s.client.seq ∧ s.client.seq.toNat = (file.blocks b).length)) :
    Inv P (file.blocks b) { s with client := c, data := s.data.send d, observed := o } where
  follows := follows
  seq_le := seq ▸ inv.seq_le
  data_genuine := inv.data_genuine.send d
  acks_genuine := inv.acks_genuine
  sent := by
    intro x member
    rw [seq]
    cases List.mem_append.mp member with
    | inl old => exact inv.sent x old
    | inr new => exact List.mem_singleton.mp new ▸ known
  acked := inv.acked
  confirmed := by
    intro i inside
    exact inv.confirmed i (seq ▸ inside)

/-- The ack of the current block has come in: that block has arrived too. -/
theorem accept {p : UdpPayload} {acks : Channel Bytes} (inv : Inv P (file.blocks b) s)
    (current : Numbered (file.blocks b) p) (seq : p.seq = s.client.seq)
    (rest : s.client.rest = (file.blocks b).drop (s.client.seq.toNat + 1))
    (arrived : p.toBytes ∈ s.data.delivered)
    (genuine : acks.Genuine) (acksSent : acks.sent = s.acks.sent) :
    Inv P (file.blocks b) { s with client := s.client.acked, acks := acks } := by
  have inside : s.client.seq.toNat < (file.blocks b).length := seq ▸ current.lt
  have next : (s.client.seq + 1).toNat = s.client.seq.toNat + 1 := toNat_succ inside
  have moved := Client.acked_seq inside
  constructor
  case follows =>
    apply Client.follows_nextBlock
    · exact next ▸ rest
    · exact next ▸ inside
  case seq_le =>
    simp only [moved]
    exact inside
  case data_genuine => exact inv.data_genuine
  case acks_genuine => exact genuine
  case sent =>
    intro d member
    obtain ⟨q, numbered, before, rfl⟩ := inv.sent_block current seq d member
    simp only [moved]
    exact .inl ⟨q, numbered, by omega, rfl⟩
  case acked => exact acksSent ▸ inv.acked
  case confirmed =>
    intro i before
    simp only [moved] at before
    by_cases here : i = s.client.seq.toNat
    · exact ⟨p, current, by rw [here, seq], arrived⟩
    · exact inv.confirmed i (by omega)

/-- An ack has been sent, for a block which has arrived. -/
theorem ack {p : UdpPayload} (inv : Inv P (file.blocks b) s)
    (numbered : Numbered (file.blocks b) p) (arrived : p.toBytes ∈ s.data.delivered) :
    Inv P (file.blocks b) { s with acks := s.acks.send (UdpAck.toBytes ⟨p.seq⟩) } where
  follows := inv.follows
  seq_le := inv.seq_le
  data_genuine := inv.data_genuine
  acks_genuine := inv.acks_genuine.send _
  sent := inv.sent
  acked := by
    intro a member
    cases List.mem_append.mp member with
    | inl old => exact inv.acked a old
    | inr new => exact ⟨p, numbered, arrived, List.mem_singleton.mp new⟩
  confirmed := inv.confirmed

/-- The server has taken a datagram, and perhaps has sent an ack. -/
theorem serve (inv : Inv P (file.blocks b) s) (contract : P.Contract)
    (answers : P.Answers (file.blocks b)) {datagram : Bytes} {ackSend : Option IoError}
    {data : Channel Bytes} {server : σ} {o : Observed}
    (taken : s.data.deliver datagram = some data) :
    Inv P (file.blocks b) { s with
      server := server
      data := data
      acks := (P.serve s.server datagram ackSend).2.elim s.acks s.acks.send
      observed := o } := by
  have arrived : datagram ∈ data.delivered := by
    rw [Channel.deliver_delivered taken]
    exact List.mem_append_right _ (List.mem_singleton.mpr rfl)
  have inFlight : datagram ∈ s.data.flight := (Channel.deliver_eq_some.mp taken).1
  have quiet : Inv P (file.blocks b) { s with server := server, data := data, observed := o } := by
    refine inv.frame inv.follows rfl (inv.data_genuine.deliver taken)
      (Channel.deliver_sent taken) ?_ inv.acks_genuine rfl
    intro d member
    simp only [Channel.deliver_delivered taken]
    exact List.mem_append_left _ member
  cases inv.sent datagram (inv.data_genuine.flight _ inFlight) with
  | inr ended =>
      have silent := contract.serve_end s.server s.client.seq ackSend
      rw [ended.1, silent]
      exact quiet
  | inl block =>
      obtain ⟨p, numbered, -, rfl⟩ := block
      rw [answers s.server p ackSend numbered]
      by_cases sends : ackSend = none
      · rw [if_pos sends]
        exact quiet.ack numbered arrived
      · rw [if_neg sends]
        exact quiet

end Inv

namespace RetryLoop

/-- Behind an attempt the client is where it was, or has given up. -/
theorem again_follows {blocks : List Bytes} {loop : RetryLoop} {c : Client} {attempt : Nat}
    {payload : UdpPayload} (phase : c.phase = .waiting attempt payload)
    (follows : c.Follows blocks) : (loop.again c attempt payload).Follows blocks := by
  unfold Client.Follows at follows
  rw [phase] at follows
  unfold again
  split
  · exact follows
  · trivial

@[simp] theorem again_seq (loop : RetryLoop) (c : Client) (attempt : Nat) (payload : UdpPayload) :
    (loop.again c attempt payload).seq = c.seq := by
  unfold again
  split <;> rfl

theorem elapsed_follows {blocks : List Bytes} {loop : RetryLoop} {c : Client} {attempt : Nat}
    {payload : UdpPayload} (phase : c.phase = .waiting attempt payload)
    (follows : c.Follows blocks) : (loop.elapsed c attempt payload).Follows blocks := by
  unfold elapsed
  split
  · trivial
  · exact again_follows phase follows

@[simp] theorem elapsed_seq (loop : RetryLoop) (c : Client) (attempt : Nat)
    (payload : UdpPayload) : (loop.elapsed c attempt payload).seq = c.seq := by
  unfold elapsed
  split
  · rfl
  · exact again_seq loop c attempt payload

theorem receive_accept {loop : RetryLoop} {c : Client} {attempt : Nat} {payload : UdpPayload}
    {datagram : Bytes} (accepted : loop.onDatagram payload.seq datagram = .accept) :
    loop.receive c attempt payload datagram = c.acked := by
  unfold receive
  rw [accepted]

/-- Any other datagram leaves the client at its block, or ends it. -/
theorem receive_follows {blocks : List Bytes} {loop : RetryLoop} {c : Client} {attempt : Nat}
    {payload : UdpPayload} {datagram : Bytes} (phase : c.phase = .waiting attempt payload)
    (follows : c.Follows blocks)
    (refused : loop.onDatagram payload.seq datagram ≠ .accept) :
    (loop.receive c attempt payload datagram).Follows blocks ∧
      (loop.receive c attempt payload datagram).seq = c.seq := by
  unfold receive
  split
  · contradiction
  · exact ⟨trivial, rfl⟩
  · exact ⟨again_follows phase follows, again_seq loop c attempt payload⟩
  · exact ⟨trivial, rfl⟩

@[simp] theorem again_stats (loop : RetryLoop) (c : Client) (attempt : Nat)
    (payload : UdpPayload) : (loop.again c attempt payload).stats = c.stats := by
  unfold again
  split <;> rfl

@[simp] theorem elapsed_stats (loop : RetryLoop) (c : Client) (attempt : Nat)
    (payload : UdpPayload) : (loop.elapsed c attempt payload).stats = c.stats := by
  unfold elapsed
  split
  · rfl
  · exact again_stats loop c attempt payload

end RetryLoop

namespace Inv

variable {P : Pair σ} {file : DataFile} {b : BlockSize} {s t : Net σ}

theorem waiting {attempt : Nat} {payload : UdpPayload} (inv : Inv P (file.blocks b) s)
    (phase : s.client.phase = .waiting attempt payload) :
    payload.seq = s.client.seq ∧ Numbered (file.blocks b) payload ∧
      s.client.rest = (file.blocks b).drop (s.client.seq.toNat + 1) := by
  have follows := inv.follows
  unfold Client.Follows at follows
  rwa [phase] at follows

theorem sending {attempt : Nat} {payload : UdpPayload} (inv : Inv P (file.blocks b) s)
    (phase : s.client.phase = .sending attempt payload) :
    payload.seq = s.client.seq ∧ Numbered (file.blocks b) payload ∧
      s.client.rest = (file.blocks b).drop (s.client.seq.toNat + 1) := by
  have follows := inv.follows
  unfold Client.Follows at follows
  rwa [phase] at follows

theorem behind (inv : Inv P (file.blocks b) s)
    (phase : s.client.phase = .finishing ∨ s.client.phase = .closing ∨ s.client.phase = .ok) :
    s.client.seq.toNat = (file.blocks b).length := by
  have follows := inv.follows
  unfold Client.Follows at follows
  rcases phase with phase | phase | phase <;> rwa [phase] at follows

theorem step_answered (contract : P.Contract) (answers : P.Answers (file.blocks b)) {e : Event}
    (inv : Inv P (file.blocks b) s) (moved : P.step s e = some t) : Inv P (file.blocks b) t := by
  cases Pair.step_rule moved with
  | sendBlock phase =>
      obtain ⟨seq, numbered, rest⟩ := inv.sending phase
      exact inv.send ⟨seq, numbered, rest⟩ rfl (.inl ⟨_, numbered, by rw [seq], rfl⟩)
  | sendEnd phase =>
      have last := inv.behind (.inl phase)
      exact inv.send last rfl (.inr ⟨rfl, last⟩)
  | sendFails _ => exact inv.client_only trivial rfl
  | elapsed phase =>
      exact inv.client_only (RetryLoop.elapsed_follows phase inv.follows)
        (RetryLoop.elapsed_seq _ _ _ _)
  | @read attempt payload datagram acks phase taken =>
      obtain ⟨seq, numbered, rest⟩ := inv.waiting phase
      have genuine := inv.acks_genuine.deliver taken
      have acksSent := Channel.deliver_sent taken
      have inFlight := (Channel.deliver_eq_some.mp taken).1
      by_cases accepted : P.loop.onDatagram payload.seq datagram = .accept
      · rw [RetryLoop.receive_accept accepted]
        exact inv.accept numbered seq rest (inv.arrived contract numbered inFlight accepted)
          genuine acksSent
      · obtain ⟨follows, same⟩ := RetryLoop.receive_follows phase inv.follows accepted
        exact inv.frame follows same inv.data_genuine rfl (fun _ member => member) genuine acksSent
  | readFails _ => exact inv.client_only trivial rfl
  | close phase => exact inv.client_only (inv.behind (.inr (.inl phase))) rfl
  | serve _ taken => exact inv.serve contract answers taken
  | serverReadFails _ _ =>
      exact inv.frame inv.follows rfl inv.data_genuine rfl (fun _ member => member)
        inv.acks_genuine rfl
  | dataFault fault =>
      refine inv.frame inv.follows rfl (inv.data_genuine.fault fault)
        (Channel.fault_sent fault) ?_ inv.acks_genuine rfl
      intro d member
      simp only [Channel.fault_delivered fault]
      exact member
  | ackFault fault =>
      exact inv.frame inv.follows rfl inv.data_genuine rfl (fun _ member => member)
        (inv.acks_genuine.fault fault) (Channel.fault_sent fault)

theorem step (contract : P.Contract) (fits : 8 + b.val ≤ maxBlockSize) {e : Event}
    (inv : Inv P (file.blocks b) s) (moved : P.step s e = some t) : Inv P (file.blocks b) t :=
  inv.step_answered contract (contract.answers fits) moved

/-- The invariant holds whatever the network does. -/
theorem reach (contract : P.Contract) (fits : 8 + b.val ≤ maxBlockSize)
    {guard : Net σ → Event → Prop} (reached : Reach P.step guard (P.start file b) s) :
    Inv P (file.blocks b) s :=
  reached.invariant (Inv P (file.blocks b)) (start P file b)
    fun _ _ _ inv _ moved => inv.step contract fits moved

end Inv

end PcdLab.StopAndWait
