import Mathlib.Data.Finset.Lattice.Fold
import Mathlib.Order.Lattice.Nat
import PcdLab.Lib.Handover
import PcdLab.StopAndWait.Invariant

/-! # A transfer delivers what it reports

Both pairs refine a handover of the blocks of the file, one at a time, however the
network loses, delays, reorders and duplicates datagrams. The sequence numbers which
the server has received are therefore an initial segment, which ends at the client's
current block or right before it.
-/

namespace PcdLab.StopAndWait

open Shared.Wire Shared.Socket Transport Lib Lib.Runs Client.File

variable {σ : Type}

/-- One more than the greatest sequence number which the server has received. -/
def Pair.held (P : Pair σ) (s : Net σ) : Nat :=
  (P.received s).toFinset.sup fun p => p.seq.toNat + 1

/-- The handover which a state of the network stands for. -/
def Pair.handover (P : Pair σ) (s : Net σ) : Handover := ⟨P.held s, s.client.seq.toNat⟩

section Received

variable {P : Pair σ} {file : DataFile} {b : BlockSize} {s t : Net σ}

/-- A datagram that reaches the server is a block under its own number, or an end marker. -/
theorem Inv.delivered (inv : Inv P (file.blocks b) s) {d : Bytes} (member : d ∈ s.data.delivered) :
    (∃ p, Numbered (file.blocks b) p ∧ p.seq.toNat ≤ s.client.seq.toNat ∧ d = p.toBytes) ∨
      ∃ seq, d = P.endMarker seq := by
  cases inv.sent d (inv.data_genuine.delivered d member) with
  | inl block => exact .inl block
  | inr ended => exact .inr ⟨_, ended.1⟩

theorem Inv.mem_received (inv : Inv P (file.blocks b) s) (contract : P.Contract)
    (fits : 8 + b.val ≤ maxBlockSize) (p : UdpPayload) :
    p ∈ P.received s ↔ Numbered (file.blocks b) p ∧ p.toBytes ∈ s.data.delivered := by
  simp only [Pair.received, List.mem_filterMap, List.mem_filter, Bool.not_eq_true']
  constructor
  · rintro ⟨d, ⟨member, data⟩, decoded⟩
    cases inv.delivered member with
    | inl block =>
        obtain ⟨q, numbered, -, rfl⟩ := block
        rw [contract.view_data q (numbered.carried fits), UdpPayload.fromBytes_toBytes] at decoded
        cases decoded
        exact ⟨numbered, member⟩
    | inr ended =>
        obtain ⟨seq, rfl⟩ := ended
        rw [contract.end_isEnd] at data
        cases data
  · rintro ⟨numbered, member⟩
    have carried := numbered.carried fits
    refine ⟨p.toBytes, ⟨member, contract.data_isEnd p carried⟩, ?_⟩
    rw [contract.view_data p carried, UdpPayload.fromBytes_toBytes]

theorem lt_held {p : UdpPayload} (member : p ∈ P.received s) : p.seq.toNat < P.held s :=
  Finset.le_sup (f := fun p : UdpPayload => p.seq.toNat + 1) (List.mem_toFinset.mpr member)

theorem held_le {k : Nat} (below : ∀ p ∈ P.received s, p.seq.toNat < k) : P.held s ≤ k := by
  apply Finset.sup_le
  intro p member
  exact below p (List.mem_toFinset.mp member)

theorem received_append {d : Bytes} (delivered : t.data.delivered = s.data.delivered ++ [d]) :
    P.received t = P.received s ∨
      ∃ p, UdpPayload.fromBytes (P.view d) = some p ∧ P.isEnd d = false ∧
        P.received t = P.received s ++ [p] := by
  simp only [Pair.received, delivered, List.filter_append, List.filterMap_append]
  by_cases ended : P.isEnd d
  · left
    simp [ended]
  · cases decoded : UdpPayload.fromBytes (P.view d) with
    | none =>
        left
        simp [decoded, ended]
    | some p =>
        right
        exact ⟨p, rfl, by simpa using ended, by simp [ended, decoded]⟩

theorem received_same (delivered : t.data.delivered = s.data.delivered) :
    P.received t = P.received s := by
  simp only [Pair.received, delivered]

theorem held_append {p : UdpPayload} (more : P.received t = P.received s ++ [p]) :
    P.held t = max (P.held s) (p.seq.toNat + 1) := by
  simp only [Pair.held, more, List.toFinset_append, Finset.sup_union, List.toFinset_cons,
    List.toFinset_nil, insert_empty_eq, Finset.sup_singleton]

/-- The client's `seq` counts blocks which the server has received. -/
theorem Inv.seq_le_held (inv : Inv P (file.blocks b) s) (contract : P.Contract)
    (fits : 8 + b.val ≤ maxBlockSize) : s.client.seq.toNat ≤ P.held s := by
  by_contra less
  obtain ⟨p, numbered, number, arrived⟩ := inv.confirmed (P.held s) (by omega)
  have below := lt_held ((inv.mem_received contract fits p).mpr ⟨numbered, arrived⟩)
  omega

end Received

/-! ## The refinement -/

section Refinement

variable {P : Pair σ} {file : DataFile} {b : BlockSize} {s t : Net σ}

theorem handover_same (client : t.client.seq = s.client.seq)
    (delivered : t.data.delivered = s.data.delivered) : P.handover t = P.handover s := by
  simp only [Pair.handover, Pair.held, received_same delivered, client]

/-- A datagram taken by the server hands over the current block, or nothing new. -/
theorem Inv.serve_handover (inv : Inv P (file.blocks b) s) (contract : P.Contract)
    (fits : 8 + b.val ≤ maxBlockSize) {datagram : Bytes}
    (inFlight : datagram ∈ s.data.flight) (client : t.client.seq = s.client.seq)
    (delivered : t.data.delivered = s.data.delivered ++ [datagram]) :
    Handover.Steps (file.blocks b).length (P.handover s) (P.handover t) := by
  cases received_append delivered (P := P) with
  | inl same =>
      have stays : P.handover t = P.handover s := by
        simp only [Pair.handover, Pair.held, same, client]
      rw [stays]
  | inr more =>
      obtain ⟨p, decoded, data, received⟩ := more
      have confirmed := inv.seq_le_held contract fits
      cases inv.sent datagram (inv.data_genuine.flight _ inFlight) with
      | inr ended =>
          rw [ended.1, contract.end_isEnd] at data
          cases data
      | inl block =>
          obtain ⟨q, numbered, current, rfl⟩ := block
          rw [contract.view_data q (numbered.carried fits), UdpPayload.fromBytes_toBytes]
            at decoded
          cases decoded
          have inside := numbered.lt
          have held := held_append received (P := P)
          by_cases known : p.seq.toNat < P.held s
          · have stays : P.handover t = P.handover s := by
              simp only [Pair.handover, held, client, Handover.mk.injEq, and_true]
              omega
            rw [stays]
          · have here : p.seq.toNat = P.held s ∧ s.client.seq.toNat = P.held s := by omega
            have before : P.handover s = ⟨P.held s, P.held s⟩ := by
              simp only [Pair.handover, here.2]
            have after : P.handover t = ⟨P.held s + 1, P.held s⟩ := by
              simp only [Pair.handover, held, client, here.1, here.2, Handover.mk.injEq, and_true]
              omega
            rw [before, after]
            exact .single (.hand (here.1 ▸ inside))

/-- Each step of the network is a step of the handover, or none. -/
theorem Inv.step_handover (inv : Inv P (file.blocks b) s) (contract : P.Contract)
    (fits : 8 + b.val ≤ maxBlockSize) {e : Event} (moved : P.step s e = some t) :
    Handover.Steps (file.blocks b).length (P.handover s) (P.handover t) := by
  have still : ∀ {u : Net σ}, u.client.seq = s.client.seq →
      u.data.delivered = s.data.delivered →
      Handover.Steps (file.blocks b).length (P.handover s) (P.handover u) := by
    intro u client delivered
    rw [handover_same client delivered]
  cases Pair.step_rule moved with
  | sendBlock _ => exact still rfl rfl
  | sendEnd _ => exact still rfl rfl
  | sendFails _ => exact still rfl rfl
  | elapsed _ => exact still (RetryLoop.elapsed_seq _ _ _ _) rfl
  | @read _ _ _ acks phase taken =>
      obtain ⟨seq, numbered, -⟩ := inv.waiting phase
      have inFlight := (Channel.deliver_eq_some.mp taken).1
      unfold RetryLoop.receive
      split
      · rename_i accepted
        have arrived := inv.arrived contract numbered inFlight accepted
        have handed := lt_held ((inv.mem_received contract fits _).mpr ⟨numbered, arrived⟩)
        have next := Client.acked_seq (seq ▸ numbered.lt)
        rw [seq] at handed
        have after : P.handover { s with client := s.client.acked, acks := acks } =
            ⟨P.held s, s.client.seq.toNat + 1⟩ := by
          simp only [Pair.handover, next, Pair.held, Pair.received]
        rw [after]
        exact .single (.confirm handed)
      · exact still rfl rfl
      · exact still (RetryLoop.again_seq _ _ _ _) rfl
      · exact still rfl rfl
  | readFails _ => exact still rfl rfl
  | close _ => exact still rfl rfl
  | serve _ taken =>
      exact inv.serve_handover contract fits (Channel.deliver_eq_some.mp taken).1 rfl
        (Channel.deliver_delivered taken)
  | serverReadFails _ _ => exact still rfl rfl
  | dataFault fault => exact still rfl (Channel.fault_delivered fault)
  | ackFault _ => exact still rfl rfl

/-- The network refines the handover. -/
theorem handover_refined (contract : P.Contract) (fits : 8 + b.val ≤ maxBlockSize)
    {guard : Net σ → Event → Prop} (reached : Reach P.step guard (P.start file b) s) :
    Handover.Steps (file.blocks b).length .start (P.handover s) := by
  have initial : P.handover (P.start file b) = .start := by
    simp only [Pair.handover, Pair.start, Client.start, Client.nextBlock_seq]
    rfl
  rw [← initial]
  exact reached.simulates (Inv.start P file b)
    (fun _ _ _ inv _ moved => inv.step contract fits moved)
    (fun _ _ _ inv _ moved => inv.step_handover contract fits moved)

end Refinement

/-! ## Delivery -/

/-- What the server has received, in every state of every run from the start. -/
def DeliversWhatItReports (P : Pair σ) (file : DataFile) (b : BlockSize) : Prop :=
  ∀ s, Reach P.step anyStep (P.start file b) s →
    (∃ k, s.client.seq.toNat ≤ k ∧ k ≤ s.client.seq.toNat + 1 ∧
      ∀ i, (∃ p ∈ P.received s, p.seq.toNat = i) ↔ i < k) ∧
    (∀ p ∈ P.received s, (file.blocks b)[p.seq.toNat]? = some p.data) ∧
    (s.client.phase = .ok → ∀ i chunk, (file.blocks b)[i]? = some chunk →
      ∃ p ∈ P.received s, p.seq.toNat = i ∧ p.data = chunk)

theorem Pair.Contract.delivers {P : Pair σ} (contract : P.Contract) (file : DataFile)
    (b : BlockSize) (fits : 8 + b.val ≤ maxBlockSize) : DeliversWhatItReports P file b := by
  intro s reached
  have inv := Inv.reach contract fits reached
  have bounds := (handover_refined contract fits reached).bounds
  have confirmed : s.client.seq.toNat ≤ P.held s := bounds.confirmed_le
  have ahead : P.held s ≤ s.client.seq.toNat + 1 := bounds.held_le
  have segment : ∀ i, (∃ p ∈ P.received s, p.seq.toNat = i) ↔ i < P.held s := by
    intro i
    constructor
    · rintro ⟨p, member, rfl⟩
      exact lt_held member
    · intro below
      by_cases known : i < s.client.seq.toNat
      · obtain ⟨p, numbered, number, arrived⟩ := inv.confirmed i known
        exact ⟨p, (inv.mem_received contract fits p).mpr ⟨numbered, arrived⟩, number⟩
      · -- only the current block is left, and were it missing, so would be its number
        by_contra missing
        have short : P.held s ≤ i := by
          apply held_le
          intro p member
          have inside := lt_held member
          have other : p.seq.toNat ≠ i := fun same => missing ⟨p, member, same⟩
          omega
        omega
  have carries : ∀ p ∈ P.received s, (file.blocks b)[p.seq.toNat]? = some p.data := by
    intro p member
    exact ((inv.mem_received contract fits p).mp member).1
  refine ⟨⟨P.held s, confirmed, ahead, segment⟩, carries, ?_⟩
  intro done i chunk block
  have last : s.client.seq.toNat = (file.blocks b).length := inv.behind (.inr (.inr done))
  have full : P.held s = (file.blocks b).length := bounds.complete last
  obtain ⟨inside, -⟩ := List.getElem?_eq_some_iff.mp block
  obtain ⟨p, member, number⟩ := (segment i).mpr (full ▸ inside)
  have data := carries p member
  rw [number, block] at data
  exact ⟨p, member, number, (Option.some.inj data).symm⟩

/-- Whatever the network loses, delays, reorders or duplicates, the numbers received are an
    initial segment that ends with the current block or before it, each block arrives as it
    is in the file, and a client that returns `Ok` has delivered all of them. -/
theorem stop_and_wait_delivers (profile : Profile) (file : DataFile) (b : BlockSize)
    (fits : 8 + b.val ≤ maxBlockSize) :
    DeliversWhatItReports (udpStopAndWait profile) file b ∧
      DeliversWhatItReports quicStopAndWait file b :=
  ⟨(udp_contract profile).delivers file b fits, quic_contract.delivers file b fits⟩

/-- Two blocks, the first one sent twice because its first datagram was lost, and then
    duplicated by the network: the client returns `Ok`, and both blocks have arrived. -/
theorem stop_and_wait_delivers_two_blocks :
    ∃ s, Reach (udpStopAndWait .release).step anyStep ((udpStopAndWait .release).start twoBlocks
        oneByte) s ∧ s.client.phase = .ok ∧
      ∀ i chunk, (twoBlocks.blocks oneByte)[i]? = some chunk →
        ∃ p ∈ (udpStopAndWait .release).received s, p.seq.toNat = i ∧ p.data = chunk := by
  have replayed : ((exec (udpStopAndWait .release).step
      ((udpStopAndWait .release).start twoBlocks oneByte)
      [.send, .dataFault (.drop (block 0 1)), .elapsed, .send,
        .dataFault (.duplicate (block 0 1)), .serve (block 0 1) none, .serve (block 0 1) none,
        .read (ack 0), .send, .serve (block 1 2) none, .ackFault (.drop (ack 0)),
        .read (ack 1), .send, .close]).map fun s => s.client.phase) = some .ok := by
    decide +kernel
  obtain ⟨s, ran, done⟩ := Option.map_eq_some_iff.mp replayed
  have reached := Reach.of_exec ran
  exact ⟨s, reached, done,
    ((stop_and_wait_delivers .release twoBlocks oneByte (by decide)).1 s reached).2.2 done⟩

end PcdLab.StopAndWait
