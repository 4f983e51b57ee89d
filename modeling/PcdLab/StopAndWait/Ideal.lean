import PcdLab.StopAndWait.Invariant

/-! # A transfer over an ideal channel

Nothing is lost, no timeout fires, and every call of a socket succeeds. The client and
its server then take turns: every run has the same length, however the two sides are
interleaved at its end, and it ends with the same counters on both sides.
-/

namespace PcdLab.StopAndWait

open Shared.Wire Shared.Socket Transport Lib Lib.Runs Client.File

variable {σ : Type}

/-- What happens when nothing goes wrong. -/
def Event.ideal : Event → Bool
  | .send | .read _ | .serve _ none | .close => true
  | _ => false

/-- The states of a server that counts, and that has reported the end of the transfer. -/
structure Pair.Reporting (P : Pair σ) (counting reported : ServerStats → σ) : Prop where
  init : P.init = counting .default
  running : ∀ stats, P.running (counting stats)
  data : ∀ stats p, Carried p → P.serve (counting stats) p.toBytes none =
    (counting (stats.count p.data.length), some (UdpAck.toBytes ⟨p.seq⟩))
  finish : ∀ stats seq, P.serve (counting stats) (P.endMarker seq) none = (reported stats, none)

theorem udp_reporting (profile : Profile) : (udpStopAndWait profile).Reporting
    (fun stats => ⟨stats, [], .running⟩) (fun stats => ⟨.default, [stats], .running⟩) where
  init := rfl
  running := fun _ => rfl
  data := by
    intro stats p carried
    rw [udp_serve, serveUdp_data profile _ carried]
    rfl
  finish := by
    intro stats seq
    rw [udp_serve, udp_endMarker, serveUdp_end]
    rfl

theorem quic_reporting : quicStopAndWait.Reporting
    (fun stats => ⟨stats, .running⟩) (fun stats => ⟨stats, .ok stats⟩) where
  init := rfl
  running := fun _ => rfl
  data := by
    intro stats p carried
    rw [quic_serve, serveQuic_data _ carried.1]
    rfl
  finish := by
    intro stats seq
    rw [quic_serve, quic_endMarker, serveQuic_end]
    rfl

/-- Where an ideal run is, and how many steps are left of it. A block goes from the client to
    the server, and its ack comes back; then the end goes to the server. -/
inductive Stage (P : Pair σ) (counting reported : ServerStats → σ) (blocks : List Bytes)
    (s : Net σ) : Nat → Prop where
  | sending {p} (phase : s.client.phase = .sending 0 p)
      (data : s.data.flight = []) (acks : s.acks.flight = [])
      (sent : s.client.stats = ClientStats.zero.countAll (blocks.take s.client.seq.toNat))
      (server : s.server =
        counting (ServerStats.default.countAll (blocks.take s.client.seq.toNat))) :
      Stage P counting reported blocks s (3 * (blocks.length - s.client.seq.toNat) + 3)
  | toServer {p} (phase : s.client.phase = .waiting 0 p)
      (data : s.data.flight = [p.toBytes]) (acks : s.acks.flight = [])
      (sent : s.client.stats = ClientStats.zero.countAll (blocks.take (s.client.seq.toNat + 1)))
      (server : s.server =
        counting (ServerStats.default.countAll (blocks.take s.client.seq.toNat))) :
      Stage P counting reported blocks s (3 * (blocks.length - s.client.seq.toNat) + 2)
  | toClient {p} (phase : s.client.phase = .waiting 0 p)
      (data : s.data.flight = []) (acks : s.acks.flight = [UdpAck.toBytes ⟨p.seq⟩])
      (sent : s.client.stats = ClientStats.zero.countAll (blocks.take (s.client.seq.toNat + 1)))
      (server : s.server =
        counting (ServerStats.default.countAll (blocks.take (s.client.seq.toNat + 1)))) :
      Stage P counting reported blocks s (3 * (blocks.length - s.client.seq.toNat) + 1)
  | finishing (phase : s.client.phase = .finishing)
      (data : s.data.flight = []) (acks : s.acks.flight = [])
      (sent : s.client.stats = ClientStats.zero.countAll blocks)
      (server : s.server = counting (ServerStats.default.countAll blocks)) :
      Stage P counting reported blocks s 3
  | ending {seq left} (phase : s.client.phase = .closing ∧ left = 2 ∨
        s.client.phase = .ok ∧ left = 1)
      (data : s.data.flight = [P.endMarker seq]) (acks : s.acks.flight = [])
      (sent : s.client.stats = ClientStats.zero.countAll blocks)
      (server : s.server = counting (ServerStats.default.countAll blocks)) :
      Stage P counting reported blocks s left
  | reported {left} (phase : s.client.phase = .closing ∧ left = 1 ∨
        s.client.phase = .ok ∧ left = 0)
      (data : s.data.flight = []) (acks : s.acks.flight = [])
      (sent : s.client.stats = ClientStats.zero.countAll blocks)
      (server : s.server = reported (ServerStats.default.countAll blocks)) :
      Stage P counting reported blocks s left

theorem ClientStats.countAll_take {blocks : List Bytes} {k : Nat} {chunk : Bytes}
    (block : blocks[k]? = some chunk) (stats : ClientStats) :
    (stats.countAll (blocks.take k)).count chunk.length =
      stats.countAll (blocks.take (k + 1)) := by
  simp only [ClientStats.countAll, ClientStats.count, List.take_add_one, block, Option.toList_some,
    List.length_append, List.map_append, List.sum_append, List.length_singleton,
    List.map_singleton, List.sum_singleton, ClientStats.mk.injEq]
  omega

theorem ServerStats.countAll_take {blocks : List Bytes} {k : Nat} {chunk : Bytes}
    (block : blocks[k]? = some chunk) (stats : ServerStats) :
    (stats.countAll (blocks.take k)).count chunk.length =
      stats.countAll (blocks.take (k + 1)) := by
  simp only [ServerStats.countAll, ServerStats.count, List.take_add_one, block, Option.toList_some,
    List.length_append, List.map_append, List.sum_append, List.length_singleton,
    List.map_singleton, List.sum_singleton, ServerStats.mk.injEq]
  omega

/-- The only message in flight is the one that is taken. -/
theorem deliver_only {c d : Channel Bytes} {m x : Bytes} (only : c.flight = [m])
    (taken : c.deliver x = some d) : x = m ∧ d.flight = [] := by
  obtain ⟨inFlight, rfl⟩ := Channel.deliver_eq_some.mp taken
  rw [only] at inFlight
  cases List.mem_singleton.mp inFlight
  refine ⟨rfl, ?_⟩
  simp only [only, List.erase_cons_head]

theorem deliver_none {c d : Channel Bytes} {x : Bytes} (empty : c.flight = [])
    (taken : c.deliver x = some d) : False := by
  obtain ⟨inFlight, -⟩ := Channel.deliver_eq_some.mp taken
  rw [empty] at inFlight
  cases inFlight

theorem deliver_single {c : Channel Bytes} {m : Bytes} (only : c.flight = [m]) :
    ∃ d, c.deliver m = some d :=
  ⟨_, Channel.deliver_eq_some.mpr ⟨only ▸ List.mem_singleton.mpr rfl, rfl⟩⟩

namespace Stage

variable {P : Pair σ} {counting reported : ServerStats → σ} {file : DataFile} {b : BlockSize}
  {s t : Net σ} {left : Nat}

theorem start (reporting : P.Reporting counting reported) :
    Stage P counting reported (file.blocks b) (P.start file b)
      (3 * (file.blocks b).length + 3) := by
  have seq : (P.start file b).client.seq = 0 := Client.nextBlock_seq _
  have stats : (P.start file b).client.stats = .zero := Client.nextBlock_stats _
  have inv := Inv.start P file b
  cases Client.nextBlock_phase ⟨file.blocks b, 0, .zero, .finishing⟩ with
  | inl ended =>
      have nothing : file.blocks b = [] := by
        have length := inv.behind (.inl ended)
        rw [seq] at length
        exact List.length_eq_zero_iff.mp length.symm
      have finishing : Stage P counting reported (file.blocks b) (P.start file b) 3 :=
        .finishing ended rfl rfl (by rw [stats, nothing]; rfl)
          (by rw [nothing]; exact reporting.init)
      simpa only [nothing, List.length_nil] using finishing
  | inr more =>
      obtain ⟨p, first⟩ := more
      have sending : Stage P counting reported (file.blocks b) (P.start file b)
          (3 * ((file.blocks b).length - (P.start file b).client.seq.toNat) + 3) :=
        .sending first rfl rfl (by rw [stats, seq]; rfl) (by rw [seq]; exact reporting.init)
      have zero : (P.start file b).client.seq.toNat = 0 := by rw [seq]; rfl
      simpa only [zero, Nat.sub_zero] using sending

/-- The ack of the current block takes the client to the next one, or behind the last. -/
theorem accept {p : UdpPayload} {acks : Channel Bytes} (contract : P.Contract)
    (fits : 8 + b.val ≤ maxBlockSize) (inv : Inv P (file.blocks b) s)
    (moved : P.step s (.read (UdpAck.toBytes ⟨p.seq⟩)) =
      some { s with client := s.client.acked, acks := acks })
    (phase : s.client.phase = .waiting 0 p) (data : s.data.flight = []) (drained : acks.flight = [])
    (sent : s.client.stats =
      ClientStats.zero.countAll ((file.blocks b).take (s.client.seq.toNat + 1)))
    (server : s.server =
      counting (ServerStats.default.countAll ((file.blocks b).take (s.client.seq.toNat + 1)))) :
    Stage P counting reported (file.blocks b) { s with client := s.client.acked, acks := acks }
      (3 * ((file.blocks b).length - s.client.seq.toNat)) := by
  obtain ⟨seq, numbered, -⟩ := inv.waiting phase
  have after := inv.step contract fits moved
  have inside : s.client.seq.toNat < (file.blocks b).length := seq ▸ numbered.lt
  have next := Client.acked_seq inside
  have stats := s.client.acked_stats
  cases Client.nextBlock_phase { s.client with seq := s.client.seq + 1 } with
  | inl ended =>
      have last := after.behind (.inl ended)
      simp only [next] at last
      have all : (file.blocks b).take (s.client.seq.toNat + 1) = file.blocks b :=
        List.take_of_length_le (Nat.le_of_eq last.symm)
      rw [all] at sent server
      have finishing : Stage P counting reported (file.blocks b)
          { s with client := s.client.acked, acks := acks } 3 :=
        .finishing ended data drained (stats.trans sent) server
      have three : 3 * ((file.blocks b).length - s.client.seq.toNat) = 3 := by omega
      rw [three]
      exact finishing
  | inr more =>
      obtain ⟨q, first⟩ := more
      have sending : Stage P counting reported (file.blocks b)
          { s with client := s.client.acked, acks := acks }
          (3 * ((file.blocks b).length - s.client.acked.seq.toNat) + 3) :=
        .sending first data drained (by rw [stats, sent, next]) (by rw [next]; exact server)
      have same : 3 * ((file.blocks b).length - s.client.acked.seq.toNat) + 3 =
          3 * ((file.blocks b).length - s.client.seq.toNat) := by omega
      rw [← same]
      exact sending

/-- Each ideal step leads to the next stage. -/
theorem step (contract : P.Contract) (reporting : P.Reporting counting reported)
    (fits : 8 + b.val ≤ maxBlockSize) {e : Event} (inv : Inv P (file.blocks b) s)
    (stage : Stage P counting reported (file.blocks b) s left) (fine : e.ideal = true)
    (moved : P.step s e = some t) :
    ∃ later, left = later + 1 ∧ Stage P counting reported (file.blocks b) t later := by
  cases Pair.step_rule moved with
  | @sendBlock attempt payload going =>
      cases stage with
      | @sending p phase data acks sent server =>
          cases going.symm.trans phase
          obtain ⟨seq, numbered, -⟩ := inv.sending phase
          have block : (file.blocks b)[s.client.seq.toNat]? = some payload.data := seq ▸ numbered
          refine ⟨_, rfl, .toServer rfl ?_ acks ?_ server⟩
          · simp only [Channel.send, data, List.nil_append]
          · simp only [Client.sent, sent, ClientStats.countAll_take block]
      | toServer phase _ _ _ _ => cases going.symm.trans phase
      | toClient phase _ _ _ _ => cases going.symm.trans phase
      | finishing phase _ _ _ _ => cases going.symm.trans phase
      | ending phase _ _ _ _ => rcases phase with h | h <;> cases going.symm.trans h.1
      | reported phase _ _ _ _ => rcases phase with h | h <;> cases going.symm.trans h.1
  | sendEnd going =>
      cases stage with
      | sending phase _ _ _ _ => cases going.symm.trans phase
      | toServer phase _ _ _ _ => cases going.symm.trans phase
      | toClient phase _ _ _ _ => cases going.symm.trans phase
      | finishing phase data acks sent server =>
          have flight : (s.data.send (P.endMarker s.client.seq)).flight =
              [P.endMarker s.client.seq] := by
            simp only [Channel.send, data, List.nil_append]
          exact ⟨2, rfl, .ending (.inl ⟨rfl, rfl⟩) flight acks sent server⟩
      | ending phase _ _ _ _ => rcases phase with h | h <;> cases going.symm.trans h.1
      | reported phase _ _ _ _ => rcases phase with h | h <;> cases going.symm.trans h.1
  | @read _ payload _ _ going taken =>
      cases stage with
      | sending phase _ _ _ _ => cases going.symm.trans phase
      | toServer phase _ acks _ _ => exact (deliver_none acks taken).elim
      | @toClient p phase data acks sent server =>
          cases going.symm.trans phase
          obtain ⟨rfl, drained⟩ := deliver_only acks taken
          have accepts : P.loop.onDatagram payload.seq (UdpAck.toBytes ⟨payload.seq⟩) = .accept :=
            (contract.accept_ack _ _).mpr rfl
          have goes : P.loop.receive s.client 0 payload (UdpAck.toBytes ⟨payload.seq⟩) =
              s.client.acked := by
            simp only [RetryLoop.receive, accepts]
          rw [goes] at moved ⊢
          exact ⟨_, rfl, accept contract fits inv moved phase data drained sent server⟩
      | finishing phase _ _ _ _ => cases going.symm.trans phase
      | ending phase _ _ _ _ => rcases phase with h | h <;> cases going.symm.trans h.1
      | reported phase _ _ _ _ => rcases phase with h | h <;> cases going.symm.trans h.1
  | close going =>
      cases stage with
      | sending phase _ _ _ _ => cases going.symm.trans phase
      | toServer phase _ _ _ _ => cases going.symm.trans phase
      | toClient phase _ _ _ _ => cases going.symm.trans phase
      | finishing phase _ _ _ _ => cases going.symm.trans phase
      | ending phase data acks sent server =>
          rcases phase with ⟨-, rfl⟩ | ⟨phase, -⟩
          · exact ⟨1, rfl, .ending (.inr ⟨rfl, rfl⟩) data acks sent server⟩
          · cases going.symm.trans phase
      | reported phase data acks sent server =>
          rcases phase with ⟨-, rfl⟩ | ⟨phase, -⟩
          · exact ⟨0, rfl, .reported (.inr ⟨rfl, rfl⟩) data acks sent server⟩
          · cases going.symm.trans phase
  | @serve datagram ackSend channel running taken =>
      cases ackSend with
      | some e => cases fine
      | none =>
          cases stage with
          | sending _ data _ _ _ => exact (deliver_none data taken).elim
          | @toServer p phase data acks sent server =>
              obtain ⟨rfl, drained⟩ := deliver_only data taken
              obtain ⟨seq, numbered, -⟩ := inv.waiting phase
              have block : (file.blocks b)[s.client.seq.toNat]? = some p.data := seq ▸ numbered
              have turn := reporting.data
                (ServerStats.default.countAll ((file.blocks b).take s.client.seq.toNat)) p
                (numbered.carried fits)
              rw [ServerStats.countAll_take block, ← server] at turn
              simp only [turn]
              refine ⟨_, rfl, .toClient phase drained ?_ sent rfl⟩
              simp only [Option.elim_some, Channel.send, acks, List.nil_append]
          | toClient _ data _ _ _ => exact (deliver_none data taken).elim
          | finishing _ data _ _ _ => exact (deliver_none data taken).elim
          | @ending seq _ phase data acks sent server =>
              obtain ⟨rfl, drained⟩ := deliver_only data taken
              have turn := reporting.finish (ServerStats.default.countAll (file.blocks b)) seq
              rw [← server] at turn
              simp only [turn]
              rcases phase with ⟨phase, rfl⟩ | ⟨phase, rfl⟩
              · exact ⟨1, rfl, .reported (.inl ⟨phase, rfl⟩) drained acks sent rfl⟩
              · exact ⟨0, rfl, .reported (.inr ⟨phase, rfl⟩) drained acks sent rfl⟩
          | reported _ data _ _ _ => exact (deliver_none data taken).elim
  | sendFails _ => cases fine
  | elapsed _ => cases fine
  | readFails _ => cases fine
  | serverReadFails _ _ => cases fine
  | dataFault _ => cases fine
  | ackFault _ => cases fine

/-- As long as steps are left, one can be taken. -/
theorem progress (reporting : P.Reporting counting reported)
    (stage : Stage P counting reported (file.blocks b) s (left + 1)) :
    ∃ e t, e.ideal = true ∧ P.step s e = some t := by
  have sends : ∀ {p}, s.client.phase = .sending 0 p ∨ s.client.phase = .finishing →
      ∃ t, P.step s .send = some t := by
    intro p phase
    simp only [Pair.step]
    rcases phase with phase | phase <;> rw [phase] <;> exact ⟨_, rfl⟩
  have serves : ∀ {stats m}, s.server = counting stats → s.data.flight = [m] →
      ∃ t, P.step s (.serve m none) = some t := by
    intro stats m server data
    have running : P.running s.server = true := server ▸ reporting.running stats
    obtain ⟨d, taken⟩ := deliver_single data
    simp only [Pair.step, running, taken, if_true, Option.map_some]
    exact ⟨_, rfl⟩
  cases stage with
  | sending phase _ _ _ _ =>
      obtain ⟨t, moved⟩ := sends (.inl phase)
      exact ⟨.send, t, rfl, moved⟩
  | toServer _ data _ _ server =>
      obtain ⟨t, moved⟩ := serves server data
      exact ⟨_, t, rfl, moved⟩
  | @toClient p phase _ acks _ _ =>
      obtain ⟨d, taken⟩ := deliver_single acks
      refine ⟨.read (UdpAck.toBytes ⟨p.seq⟩),
        { s with client := P.loop.receive s.client 0 p (UdpAck.toBytes ⟨p.seq⟩), acks := d },
        rfl, ?_⟩
      simp only [Pair.step, phase, taken, Option.map_some]
  | finishing phase _ _ _ _ =>
      obtain ⟨t, moved⟩ := sends (p := ⟨0, []⟩) (.inr phase)
      exact ⟨.send, t, rfl, moved⟩
  | ending _ data _ _ server =>
      obtain ⟨t, moved⟩ := serves server data
      exact ⟨_, t, rfl, moved⟩
  | reported phase _ _ _ _ =>
      rcases phase with ⟨phase, -⟩ | ⟨-, impossible⟩
      · refine ⟨.close, { s with client := { s.client with phase := .ok } }, rfl, ?_⟩
        simp only [Pair.step, phase]
      · cases impossible

/-- When no step is left, both sides are done, with the same counters. -/
theorem complete (stage : Stage P counting reported (file.blocks b) s 0) :
    s.client.phase = .ok ∧ s.client.stats = ClientStats.zero.countAll (file.blocks b) ∧
      s.server = reported (ServerStats.default.countAll (file.blocks b)) := by
  cases stage with
  | ending phase _ _ _ _ => rcases phase with ⟨-, impossible⟩ | ⟨-, impossible⟩ <;> cases impossible
  | reported phase _ _ sent server =>
      rcases phase with ⟨-, impossible⟩ | ⟨phase, -⟩
      · cases impossible
      · exact ⟨phase, sent, server⟩

theorem run (contract : P.Contract) (reporting : P.Reporting counting reported)
    (fits : 8 + b.val ≤ maxBlockSize) {events : List Event} (inv : Inv P (file.blocks b) s)
    (stage : Stage P counting reported (file.blocks b) s left)
    (fine : ∀ e ∈ events, e.ideal = true) (ran : exec P.step s events = some t) :
    ∃ later, left = later + events.length ∧ Stage P counting reported (file.blocks b) t later := by
  induction events generalizing s left with
  | nil =>
      cases ran
      exact ⟨left, rfl, stage⟩
  | cons e events ih =>
      obtain ⟨u, first, rest⟩ := exec_cons.mp ran
      obtain ⟨here, others⟩ := List.forall_mem_cons.mp fine
      obtain ⟨next, rfl, stage'⟩ := stage.step contract reporting fits inv here first
      obtain ⟨later, rfl, last⟩ := ih (inv.step contract fits first) stage' others rest
      exact ⟨later, rfl, last⟩

end Stage

/-- Every ideal run ends after the same number of steps, and wherever it stops before that it
    can go on; at its end the client has returned `Ok` with the counters of the file, and
    the server has reported the same. -/
def EndsWith (P : Pair σ) (file : DataFile) (b : BlockSize) (sent : ClientStats)
    (server : σ) : Prop :=
  ∀ events s, (∀ e ∈ events, e.ideal = true) → exec P.step (P.start file b) events = some s →
    events.length ≤ 3 * (file.blocks b).length + 3 ∧
      ((∃ e t, e.ideal = true ∧ P.step s e = some t) ∨
        s.client.phase = .ok ∧ s.client.stats = sent ∧ s.server = server)

theorem Pair.Reporting.ends {P : Pair σ} {counting reported : ServerStats → σ}
    (reporting : P.Reporting counting reported) (contract : P.Contract) (file : DataFile)
    (b : BlockSize) (fits : 8 + b.val ≤ maxBlockSize) :
    EndsWith P file b ⟨file.buffer.length ⌈/⌉ b.val, file.buffer.length⟩
      (reported ⟨file.buffer.length ⌈/⌉ b.val, file.buffer.length⟩) := by
  intro events s fine ran
  obtain ⟨later, total, stage⟩ := Stage.run contract reporting fits (Inv.start P file b)
    (Stage.start reporting) fine ran
  refine ⟨by omega, ?_⟩
  cases later with
  | zero =>
      obtain ⟨phase, sent, server⟩ := stage.complete
      rw [ClientStats.countAll_blocks] at sent
      rw [ServerStats.countAll_blocks] at server
      exact .inr ⟨phase, sent, server⟩
  | succ later => exact .inl (stage.progress reporting)

end PcdLab.StopAndWait
