import Mathlib.Data.List.Nodup
import PcdLab.StopAndWait.Invariant

/-! # What the servers count

Neither server remembers which block it has counted: a retransmitted block which
reaches it twice is counted twice. The counters are therefore those of the file and
of the surplus copies which arrived before the end marker, and nothing else.
-/

namespace PcdLab.StopAndWait

open Shared.Wire Shared.Socket Transport Lib Lib.Runs Client.File

variable {σ : Type}

/-- What the proofs use of a server's counters. `closed` tells whether the end marker was
    processed, as long as the server runs. -/
structure Pair.Counting (P : Pair σ) (closed : σ → Bool) : Prop where
  init : closed P.init = false ∧ P.tally P.init = .default
  data : ∀ s p r, Carried p → closed s = false →
    closed (P.serve s p.toBytes r).1 = false ∧
      P.tally (P.serve s p.toBytes r).1 =
        if r = none then (P.tally s).count p.data.length else P.tally s
  frozen : ∀ s p r, Carried p → P.running s → closed s = true →
    closed (P.serve s p.toBytes r).1 = true ∧ P.tally (P.serve s p.toBytes r).1 = P.tally s
  finish : ∀ s seq r, closed (P.serve s (P.endMarker seq) r).1 = true ∧
    P.tally (P.serve s (P.endMarker seq) r).1 = P.tally s
  readFails : ∀ s e, P.tally (P.readFails s e) = P.tally s ∧
    (P.running (P.readFails s e) → closed (P.readFails s e) = closed s)

/-! ## The two servers -/

/-- The first report has been printed. -/
def reported (s : ReportLoop) : Bool := !s.printed.isEmpty

def returned (s : ConnectionLoop) : Bool :=
  match s.outcome with
  | .ok _ => true
  | _ => false

theorem tally_count (s : ReportLoop) (bytes : Nat) (silent : reported s = false) :
    (s.count bytes).printed.headD (s.count bytes).stats =
      (s.printed.headD s.stats).count bytes := by
  cases s with
  | mk stats printed outcome =>
      cases printed with
      | nil => rfl
      | cons line lines => simp [reported] at silent

theorem tally_frozen {s t : ReportLoop} (done : reported s = true) (same : t.printed = s.printed) :
    t.printed.headD t.stats = s.printed.headD s.stats := by
  cases s with
  | mk stats printed outcome =>
      cases printed with
      | nil => simp [reported] at done
      | cons line lines =>
          simp only at same
          rw [same]
          rfl

theorem tally_report (s : ReportLoop) :
    s.report.printed.headD s.report.stats = s.printed.headD s.stats := by
  cases s with
  | mk stats printed outcome => cases printed <;> rfl

theorem udp_counting (profile : Profile) : (udpStopAndWait profile).Counting reported where
  init := ⟨rfl, rfl⟩
  data := by
    intro s p r carried silent
    rw [udp_serve, serveUdp_data profile s carried]
    cases r with
    | none => exact ⟨silent, tally_count s _ silent⟩
    | some e => exact ⟨silent, rfl⟩
  frozen := by
    intro s p r carried _ done
    rw [udp_serve, serveUdp_data profile s carried]
    cases r with
    | none => exact ⟨done, tally_frozen (t := s.count _) done rfl⟩
    | some e => exact ⟨done, rfl⟩
  finish := by
    intro s seq r
    rw [udp_serve, udp_endMarker, serveUdp_end]
    refine ⟨?_, tally_report s⟩
    simp [reported, ReportLoop.report]
  readFails := by
    intro s e
    cases e with
    | applicationClosed => exact ⟨rfl, fun _ => rfl⟩
    | other e => exact ⟨rfl, fun _ => rfl⟩

theorem quic_counting : quicStopAndWait.Counting returned where
  init := ⟨rfl, rfl⟩
  data := by
    intro s p r carried silent
    rw [quic_serve, serveQuic_data s carried.1]
    cases r with
    | none => exact ⟨silent, rfl⟩
    | some e => exact ⟨rfl, rfl⟩
  frozen := by
    intro s p r _ running done
    have runs : s.outcome = .running := of_decide_eq_true running
    simp only [returned, runs, Bool.false_eq_true] at done
  finish := by
    intro s seq r
    rw [quic_serve, quic_endMarker, serveQuic_end]
    exact ⟨rfl, rfl⟩
  readFails := by
    intro s e
    have stopped : ¬ quicStopAndWait.running (quicStopAndWait.readFails s e) := by
      cases e <;> exact Bool.false_ne_true
    refine ⟨?_, fun running => absurd running stopped⟩
    cases e <;> rfl

/-! ## The invariant -/

/-- What a data datagram adds to a counter which adds up `f` of the data bytes. -/
def Pair.charge (P : Pair σ) (f : Nat → Nat) (datagram : Bytes) : Nat :=
  if P.isEnd datagram then 0 else f (datagram.length - 8)

/-- The counters on both sides are sums over datagrams, and the client has come past a block
    only when the server has counted it. -/
structure Books (P : Pair σ) (closed : σ → Bool) (blocks : List Bytes) (s : Net σ) : Prop where
  conserved : s.data.Conserved
  packetsSent : s.client.stats.packetsSent = (s.data.sent.map (P.charge fun _ => 1)).sum
  bytesSent : s.client.stats.bytesSent = (s.data.sent.map (P.charge id)).sum
  counted_sub : s.observed.counted.Sublist s.data.delivered
  counted_data : ∀ d ∈ s.observed.counted, ∃ p, Numbered blocks p ∧ d = p.toBytes
  packets : (P.tally s.server).packetsReceived =
    (s.observed.counted.map (P.charge fun _ => 1)).sum
  bytes : (P.tally s.server).bytesReceived = (s.observed.counted.map (P.charge id)).sum
  agree : P.running s.server → closed s.server = s.observed.ended
  past : s.observed.ended = true → s.client.seq.toNat = blocks.length
  acked : s.observed.ended = false → ∀ a ∈ s.acks.sent,
    ∃ p, Numbered blocks p ∧ p.toBytes ∈ s.observed.counted ∧ a = UdpAck.toBytes ⟨p.seq⟩
  confirmed : ∀ i < s.client.seq.toNat,
    ∃ p, Numbered blocks p ∧ p.seq.toNat = i ∧ p.toBytes ∈ s.observed.counted

theorem Observed.serve_silent (o : Observed) (isEnd : Bool) (d : Bytes) :
    o.serve isEnd d none = { o with ended := o.ended || isEnd } := by
  simp [serve]

theorem Observed.serve_late {o : Observed} (ended : o.ended = true) (d : Bytes)
    (ack : Option Bytes) : o.serve false d ack = o := by
  cases o
  simp_all [serve]

theorem Observed.serve_counted {o : Observed} (live : o.ended = false) (d a : Bytes) :
    o.serve false d (some a) = { o with counted := o.counted ++ [d] } := by
  simp [serve, live]

namespace Books

variable {P : Pair σ} {closed : σ → Bool} {file : DataFile} {b : BlockSize} {s t : Net σ}

theorem charge_data (contract : P.Contract) {p : UdpPayload} (carried : Carried p)
    (f : Nat → Nat) : P.charge f p.toBytes = f p.data.length := by
  unfold Pair.charge
  rw [contract.data_isEnd p carried, UdpPayload.length_toBytes, Nat.add_sub_cancel_left]
  rfl

theorem charge_end (contract : P.Contract) (seq : UInt64) (f : Nat → Nat) :
    P.charge f (P.endMarker seq) = 0 := by
  unfold Pair.charge
  rw [contract.end_isEnd]
  rfl

theorem start (counting : P.Counting closed) (file : DataFile) (b : BlockSize) :
    Books P closed (file.blocks b) (P.start file b) := by
  have zero : (P.start file b).client.stats = .zero := Client.nextBlock_stats _
  have first : (P.start file b).client.seq = 0 := Client.nextBlock_seq _
  have nothing : P.tally (P.start file b).server = .default := counting.init.2
  constructor
  case conserved => exact .empty
  case packetsSent => rw [zero]; rfl
  case bytesSent => rw [zero]; rfl
  case counted_sub => exact .slnil
  case counted_data => exact fun d member => absurd member List.not_mem_nil
  case packets => rw [nothing]; rfl
  case bytes => rw [nothing]; rfl
  case agree => exact fun _ => counting.init.1
  case past => exact fun ended => Bool.noConfusion ended
  case acked => exact fun _ a member => absurd member List.not_mem_nil
  case confirmed =>
    intro i below
    rw [first] at below
    exact absurd below (Nat.not_lt_zero i)

/-- A step that neither counts anything nor moves on keeps the books. -/
theorem frame (books : Books P closed (file.blocks b) s)
    (seq : t.client.seq = s.client.seq) (stats : t.client.stats = s.client.stats)
    (conserved : t.data.Conserved) (sent : t.data.sent = s.data.sent)
    (delivered : s.data.delivered.Sublist t.data.delivered)
    (tally : P.tally t.server = P.tally s.server)
    (agree : P.running t.server → closed t.server = t.observed.ended)
    (acks : t.acks.sent = s.acks.sent) (counted : t.observed.counted = s.observed.counted)
    (ended : t.observed.ended = s.observed.ended ∨
      s.client.seq.toNat = (file.blocks b).length ∧ t.observed.ended = true) :
    Books P closed (file.blocks b) t := by
  constructor
  case conserved => exact conserved
  case packetsSent => rw [stats, sent]; exact books.packetsSent
  case bytesSent => rw [stats, sent]; exact books.bytesSent
  case counted_sub => rw [counted]; exact books.counted_sub.trans delivered
  case counted_data => rw [counted]; exact books.counted_data
  case packets => rw [tally, counted]; exact books.packets
  case bytes => rw [tally, counted]; exact books.bytes
  case agree => exact agree
  case past =>
    intro now
    rw [seq]
    cases ended with
    | inl same => exact books.past (same ▸ now)
    | inr behind => exact behind.1
  case acked =>
    intro open_
    rw [acks, counted]
    cases ended with
    | inl same => exact books.acked (same ▸ open_)
    | inr behind =>
        rw [behind.2] at open_
        cases open_
  case confirmed => rw [seq, counted]; exact books.confirmed

/-- A data datagram, or the end marker, has been sent. -/
theorem send (books : Books P closed (file.blocks b) s) {c : Client} {d : Bytes} {o : Observed}
    (seq : c.seq = s.client.seq)
    (packets : c.stats.packetsSent = s.client.stats.packetsSent + P.charge (fun _ => 1) d)
    (bytes : c.stats.bytesSent = s.client.stats.bytesSent + P.charge id d)
    (counted : o.counted = s.observed.counted) (ended : o.ended = s.observed.ended) :
    Books P closed (file.blocks b)
      { s with client := c, data := s.data.send d, observed := o } := by
  constructor
  case conserved => exact books.conserved.send d
  case packetsSent =>
    simp only [Channel.send_sent, List.map_append, List.sum_append, List.map_cons, List.map_nil,
      List.sum_singleton, packets, books.packetsSent]
  case bytesSent =>
    simp only [Channel.send_sent, List.map_append, List.sum_append, List.map_cons, List.map_nil,
      List.sum_singleton, bytes, books.bytesSent]
  case counted_sub => simp only [counted]; exact books.counted_sub
  case counted_data => simp only [counted]; exact books.counted_data
  case packets => simp only [counted]; exact books.packets
  case bytes => simp only [counted]; exact books.bytes
  case agree => simp only [ended]; exact books.agree
  case past => simp only [ended, seq]; exact books.past
  case acked => simp only [ended, counted]; exact books.acked
  case confirmed => simp only [seq, counted]; exact books.confirmed

/-- The client has read an ack of its current block, which the server has counted. -/
theorem accept (books : Books P closed (file.blocks b) s) (inv : Inv P (file.blocks b) s)
    (contract : P.Contract) {attempt : Nat} {payload : UdpPayload} {datagram : Bytes}
    {acks : Channel Bytes} (phase : s.client.phase = .waiting attempt payload)
    (taken : s.acks.deliver datagram = some acks)
    (accepted : P.loop.onDatagram payload.seq datagram = .accept) :
    Books P closed (file.blocks b) { s with client := s.client.acked, acks := acks } := by
  obtain ⟨seq, numbered, -⟩ := inv.waiting phase
  have inside : s.client.seq.toNat < (file.blocks b).length := seq ▸ numbered.lt
  have next := Client.acked_seq inside
  have stats := s.client.acked_stats
  have live : s.observed.ended = false := by
    by_contra ended
    have behind := books.past (Bool.eq_true_of_not_eq_false ended)
    omega
  have counted : payload.toBytes ∈ s.observed.counted := by
    have inFlight := (Channel.deliver_eq_some.mp taken).1
    obtain ⟨q, found, member, rfl⟩ := books.acked live datagram
      (inv.acks_genuine.flight _ inFlight)
    exact contract.accepted_block numbered found accepted ▸ member
  constructor
  case conserved => exact books.conserved
  case packetsSent => simp only [stats]; exact books.packetsSent
  case bytesSent => simp only [stats]; exact books.bytesSent
  case counted_sub => exact books.counted_sub
  case counted_data => exact books.counted_data
  case packets => exact books.packets
  case bytes => exact books.bytes
  case agree => exact books.agree
  case past => exact fun ended => absurd (live.symm.trans ended) Bool.false_ne_true
  case acked => simp only [Channel.deliver_sent taken]; exact books.acked
  case confirmed =>
    intro i below
    rw [next] at below
    by_cases here : i = s.client.seq.toNat
    · exact ⟨payload, numbered, by rw [here, seq], counted⟩
    · exact books.confirmed i (by omega)

/-- The server has counted a block, and acked it. -/
theorem count (books : Books P closed (file.blocks b) s) (contract : P.Contract)
    (counting : P.Counting closed) (fits : 8 + b.val ≤ maxBlockSize) {p : UdpPayload}
    {data : Channel Bytes} (numbered : Numbered (file.blocks b) p)
    (open_ : closed s.server = false) (live : s.observed.ended = false)
    (taken : s.data.deliver p.toBytes = some data) :
    Books P closed (file.blocks b) { s with
      server := (P.serve s.server p.toBytes none).1
      data := data
      acks := s.acks.send (UdpAck.toBytes ⟨p.seq⟩)
      observed := { s.observed with counted := s.observed.counted ++ [p.toBytes] } } := by
  have carried := numbered.carried fits
  obtain ⟨stays, tally⟩ := counting.data s.server p none carried open_
  rw [if_pos rfl] at tally
  have here : p.toBytes ∈ s.observed.counted ++ [p.toBytes] :=
    List.mem_append_right _ (List.mem_singleton.mpr rfl)
  constructor
  case conserved => exact books.conserved.deliver taken
  case packetsSent => simp only [Channel.deliver_sent taken]; exact books.packetsSent
  case bytesSent => simp only [Channel.deliver_sent taken]; exact books.bytesSent
  case counted_sub =>
    simp only [Channel.deliver_delivered taken]
    exact books.counted_sub.append (List.Sublist.refl _)
  case counted_data =>
    intro d member
    cases List.mem_append.mp member with
    | inl old => exact books.counted_data d old
    | inr new => exact ⟨p, numbered, List.mem_singleton.mp new⟩
  case packets =>
    simp only [tally, ServerStats.count, books.packets, List.map_append, List.sum_append,
      List.map_cons, List.map_nil, List.sum_singleton, charge_data contract carried]
  case bytes =>
    simp only [tally, ServerStats.count, books.bytes, List.map_append, List.sum_append,
      List.map_cons, List.map_nil, List.sum_singleton, charge_data contract carried, id]
  case agree => exact fun _ => stays.trans live.symm
  case past => exact books.past
  case acked =>
    intro _ a member
    cases List.mem_append.mp member with
    | inl old =>
        obtain ⟨q, found, counted, same⟩ := books.acked live a old
        exact ⟨q, found, List.mem_append_left _ counted, same⟩
    | inr new => exact ⟨p, numbered, here, List.mem_singleton.mp new⟩
  case confirmed =>
    intro i below
    obtain ⟨q, found, number, counted⟩ := books.confirmed i below
    exact ⟨q, found, number, List.mem_append_left _ counted⟩

/-- The server has acked a block which comes too late to be part of the report. -/
theorem late (books : Books P closed (file.blocks b) s) (ended : s.observed.ended = true)
    (a : Bytes) : Books P closed (file.blocks b) { s with acks := s.acks.send a } :=
  { books with
    acked := fun live => absurd (ended.symm.trans live) Bool.false_ne_true.symm }

/-- One datagram at the server. -/
theorem serve (books : Books P closed (file.blocks b) s) (inv : Inv P (file.blocks b) s)
    (contract : P.Contract) (counting : P.Counting closed) (fits : 8 + b.val ≤ maxBlockSize)
    {datagram : Bytes} {ackSend : Option IoError} {data : Channel Bytes}
    (running : P.running s.server) (taken : s.data.deliver datagram = some data) :
    Books P closed (file.blocks b) { s with
      server := (P.serve s.server datagram ackSend).1
      data := data
      acks := (P.serve s.server datagram ackSend).2.elim s.acks s.acks.send
      observed := s.observed.serve (P.isEnd datagram) datagram
        (P.serve s.server datagram ackSend).2 } := by
  have inFlight : datagram ∈ s.data.flight := (Channel.deliver_eq_some.mp taken).1
  have delivered : s.data.delivered.Sublist data.delivered := by
    rw [Channel.deliver_delivered taken]
    exact List.sublist_append_left _ _
  have agree := books.agree running
  cases inv.sent datagram (inv.data_genuine.flight _ inFlight) with
  | inr marker =>
      obtain ⟨rfl, last⟩ := marker
      obtain ⟨done, tally⟩ := counting.finish s.server s.client.seq ackSend
      rw [contract.serve_end, contract.end_isEnd, Observed.serve_silent, Bool.or_true]
      exact books.frame rfl rfl (books.conserved.deliver taken) (Channel.deliver_sent taken)
        delivered tally (fun _ => done) rfl rfl (.inr ⟨last, rfl⟩)
  | inl block =>
      obtain ⟨p, numbered, -, rfl⟩ := block
      have carried := numbered.carried fits
      have answer := contract.serve_data s.server p ackSend carried
      rw [contract.data_isEnd p carried]
      cases ended : s.observed.ended with
      | true =>
          rw [Observed.serve_late ended]
          obtain ⟨done, tally⟩ := counting.frozen s.server p ackSend carried running
            (agree.trans ended)
          have quiet : Books P closed (file.blocks b) { s with
              server := (P.serve s.server p.toBytes ackSend).1, data := data } :=
            books.frame rfl rfl (books.conserved.deliver taken) (Channel.deliver_sent taken)
              delivered tally (fun _ => done.trans ended.symm) rfl rfl (.inl rfl)
          rw [answer]
          split
          · exact quiet.late ended _
          · exact quiet
      | false =>
          have open_ : closed s.server = false := agree.trans ended
          cases ackSend with
          | none =>
              rw [if_pos rfl] at answer
              rw [answer, Observed.serve_counted ended]
              exact books.count contract counting fits numbered open_ ended taken
          | some e =>
              rw [if_neg (Option.some_ne_none e)] at answer
              obtain ⟨stays, tally⟩ := counting.data s.server p (some e) carried open_
              rw [if_neg (Option.some_ne_none e)] at tally
              rw [answer, Observed.serve_silent, Bool.or_false]
              exact books.frame rfl rfl (books.conserved.deliver taken)
                (Channel.deliver_sent taken) delivered tally (fun _ => stays.trans ended.symm)
                rfl rfl (.inl rfl)

/-- The client's turn, apart from a send and from an ack that it accepts. -/
theorem client_only (books : Books P closed (file.blocks b) s) {c : Client}
    {acks : Channel Bytes} {o : Observed} (seq : c.seq = s.client.seq)
    (stats : c.stats = s.client.stats) (acksSent : acks.sent = s.acks.sent)
    (counted : o.counted = s.observed.counted) (ended : o.ended = s.observed.ended) :
    Books P closed (file.blocks b) { s with client := c, acks := acks, observed := o } :=
  books.frame seq stats books.conserved rfl (List.Sublist.refl _) rfl
    (fun running => (books.agree running).trans ended.symm) acksSent counted (.inl ended)

end Books

theorem Observed.send_counted (o : Observed) (attempt : Nat) :
    (o.send attempt).counted = o.counted ∧ (o.send attempt).ended = o.ended := by
  cases attempt <;> exact ⟨rfl, rfl⟩

namespace Books

variable {P : Pair σ} {closed : σ → Bool} {file : DataFile} {b : BlockSize} {s t : Net σ}

theorem step (contract : P.Contract) (counting : P.Counting closed)
    (fits : 8 + b.val ≤ maxBlockSize) {e : Event} (inv : Inv P (file.blocks b) s)
    (books : Books P closed (file.blocks b) s) (single : noDuplicates s e)
    (moved : P.step s e = some t) : Books P closed (file.blocks b) t := by
  cases Pair.step_rule moved with
  | @sendBlock attempt payload phase =>
      have carried := (inv.sending phase).2.1.carried fits
      have observed := s.observed.send_counted attempt
      refine books.send rfl ?_ ?_ observed.1 observed.2
      · rw [charge_data contract carried]
        rfl
      · rw [charge_data contract carried]
        rfl
  | sendEnd _ =>
      refine books.send rfl ?_ ?_ rfl rfl
      · rw [charge_end contract]
        rfl
      · rw [charge_end contract]
        rfl
  | sendFails _ => exact books.client_only rfl rfl rfl rfl rfl
  | elapsed _ =>
      exact books.client_only (RetryLoop.elapsed_seq _ _ _ _) (RetryLoop.elapsed_stats _ _ _ _)
        rfl rfl rfl
  | read phase taken =>
      unfold RetryLoop.receive
      split
      · rename_i accepted
        exact books.accept inv contract phase taken accepted
      · exact books.client_only rfl rfl (Channel.deliver_sent taken) rfl rfl
      · exact books.client_only (RetryLoop.again_seq _ _ _ _) (RetryLoop.again_stats _ _ _ _)
          (Channel.deliver_sent taken) rfl rfl
      · exact books.client_only rfl rfl (Channel.deliver_sent taken) rfl rfl
  | readFails _ => exact books.client_only rfl rfl rfl rfl rfl
  | close _ => exact books.client_only rfl rfl rfl rfl rfl
  | serve running taken => exact books.serve inv contract counting fits running taken
  | @serverReadFails e running _ =>
      obtain ⟨tally, stays⟩ := counting.readFails s.server e
      exact books.frame rfl rfl books.conserved rfl (List.Sublist.refl _) tally
        (fun runs => (stays runs).trans (books.agree running)) rfl rfl (.inl rfl)
  | @dataFault f data fault =>
      have same : s.data.delivered.Sublist data.delivered := by
        rw [Channel.fault_delivered fault]
      exact books.frame rfl rfl (books.conserved.fault single fault) (Channel.fault_sent fault)
        same rfl books.agree rfl rfl (.inl rfl)
  | ackFault fault => exact books.client_only rfl rfl (Channel.fault_sent fault) rfl rfl

theorem reach (contract : P.Contract) (counting : P.Counting closed)
    (fits : 8 + b.val ≤ maxBlockSize) (reached : Reach P.step noDuplicates (P.start file b) s) :
    Books P closed (file.blocks b) s := by
  have both : Inv P (file.blocks b) s ∧ Books P closed (file.blocks b) s := by
    apply reached.invariant (fun s => Inv P (file.blocks b) s ∧
      Books P closed (file.blocks b) s) ⟨Inv.start P file b, start counting file b⟩
    rintro s e t ⟨inv, books⟩ single moved
    exact ⟨inv.step contract fits moved, books.step contract counting fits inv single moved⟩
  exact both.2

/-! ## The surplus -/

/-- Behind the last block, every block has been counted; what else was counted are copies. -/
theorem surplus (books : Books P closed (file.blocks b) s)
    (behind : s.client.seq.toNat = (file.blocks b).length) :
    ∃ extra : List UdpPayload, (∀ p ∈ extra, Numbered (file.blocks b) p) ∧
      s.observed.counted.Perm ((payloads (file.blocks b) 0 ++ extra).map UdpPayload.toBytes) := by
  have counted : (payloads (file.blocks b) 0).map UdpPayload.toBytes ⊆ s.observed.counted := by
    intro d member
    obtain ⟨p, here, rfl⟩ := List.mem_map.mp member
    have numbered := payloads_numbered here
    obtain ⟨q, found, number, arrived⟩ := books.confirmed p.seq.toNat (behind ▸ numbered.lt)
    exact found.unique numbered number ▸ arrived
  obtain ⟨blocks, same, sub⟩ := (payloads_nodup file b).subperm counted
  obtain ⟨copies, rest⟩ := sub.exists_perm_append
  have each : ∀ d ∈ copies, ∃ p, Numbered (file.blocks b) p ∧ d = p.toBytes := by
    intro d member
    exact books.counted_data d (rest.mem_iff.mpr (List.mem_append_right _ member))
  obtain ⟨extra, numbered, rfl⟩ := exists_payloads each
  refine ⟨extra, numbered, rest.trans ?_⟩
  rw [List.map_append]
  exact same.append_right _

/-- A counter of the server, once the datagrams behind it are told apart. -/
theorem sum_charge (contract : P.Contract) (fits : 8 + b.val ≤ maxBlockSize)
    {counted : List Bytes} {extra : List UdpPayload}
    (numbered : ∀ p ∈ extra, Numbered (file.blocks b) p)
    (split : counted.Perm ((payloads (file.blocks b) 0 ++ extra).map UdpPayload.toBytes))
    (f : Nat → Nat) : (counted.map (P.charge f)).sum =
      ((file.blocks b).map fun chunk => f chunk.length).sum +
        (extra.map fun p => f p.data.length).sum := by
  have each : ∀ p ∈ payloads (file.blocks b) 0 ++ extra,
      (P.charge f ∘ UdpPayload.toBytes) p =
        ((fun chunk => f chunk.length) ∘ UdpPayload.data) p := by
    intro p member
    cases List.mem_append.mp member with
    | inl block => exact charge_data contract ((payloads_numbered block).carried fits) f
    | inr copy => exact charge_data contract ((numbered p copy).carried fits) f
  rw [(split.map _).sum_eq, List.map_map, List.map_congr_left each, List.map_append,
    List.sum_append, ← List.map_map, payloads_data]
  rfl

/-- No more is counted than was sent, by whatever measure. -/
theorem counted_le_sent (books : Books P closed (file.blocks b) s) (f : Nat → Nat) :
    (s.observed.counted.map (P.charge f)).sum ≤ (s.data.sent.map (P.charge f)).sum :=
  ((books.counted_sub.map (P.charge f)).sum_le_sum fun _ _ => Nat.zero_le _).trans
    (books.conserved.sum_delivered_le _)

end Books

/-! ## The counters of a successful transfer -/

/-- Each block is counted once, whatever was lost and sent again. -/
def CountsEachBlockOnce (P : Pair σ) (file : DataFile) (b : BlockSize) : Prop :=
  ∀ s, Reach P.step noDuplicates (P.start file b) s → s.client.phase = .ok →
    P.tally s.server = ⟨file.buffer.length ⌈/⌉ b.val, file.buffer.length⟩

/-- Each block is counted, and so is every further copy which the server has acked before
    the end marker: `extra`, at most as much as the client has sent on top. -/
def CountsEveryCopy (P : Pair σ) (file : DataFile) (b : BlockSize) : Prop :=
  ∀ s, Reach P.step noDuplicates (P.start file b) s → s.client.phase = .ok →
    s.observed.counted.Sublist s.data.delivered ∧
      ∃ extra : List UdpPayload, (∀ p ∈ extra, (file.blocks b)[p.seq.toNat]? = some p.data) ∧
        s.observed.counted.Perm
          ((payloads (file.blocks b) 0 ++ extra).map UdpPayload.toBytes) ∧
        P.tally s.server = ⟨file.buffer.length ⌈/⌉ b.val + extra.length,
          file.buffer.length + (extra.map fun p => p.data.length).sum⟩ ∧
        (P.tally s.server).packetsReceived ≤ s.client.stats.packetsSent ∧
        (P.tally s.server).bytesReceived ≤ s.client.stats.bytesSent

theorem Pair.Counting.every_copy {P : Pair σ} {closed : σ → Bool} (counting : P.Counting closed)
    (contract : P.Contract) (file : DataFile) (b : BlockSize) (fits : 8 + b.val ≤ maxBlockSize) :
    CountsEveryCopy P file b := by
  intro s reached done
  have inv := Inv.reach contract fits reached
  have books := Books.reach contract counting fits reached
  obtain ⟨extra, numbered, split⟩ := books.surplus (inv.behind (.inr (.inr done)))
  have sums := Books.sum_charge contract fits numbered split
  refine ⟨books.counted_sub, extra, numbered, split, ?_, ?_, ?_⟩
  · have packets := books.packets.trans (sums fun _ => 1)
    have bytes := books.bytes.trans (sums id)
    rw [List.map_const', List.map_const', List.sum_replicate, List.sum_replicate, smul_eq_mul,
      smul_eq_mul, Nat.mul_one, Nat.mul_one, DataFile.length_blocks] at packets
    rw [show ((file.blocks b).map fun chunk => id chunk.length).sum = file.buffer.length from
      DataFile.sum_length_blocks file b] at bytes
    cases total : P.tally s.server with
    | mk packetsReceived bytesReceived =>
        rw [total] at packets bytes
        exact congrArg₂ ServerStats.mk packets bytes
  · rw [books.packets, books.packetsSent]
    exact books.counted_le_sent _
  · rw [books.bytes, books.bytesSent]
    exact books.counted_le_sent _

theorem stop_and_wait_counts (profile : Profile) (file : DataFile) (b : BlockSize)
    (fits : 8 + b.val ≤ maxBlockSize) :
    CountsEveryCopy (udpStopAndWait profile) file b ∧ CountsEveryCopy quicStopAndWait file b :=
  ⟨(udp_counting profile).every_copy (udp_contract profile) file b fits,
    quic_counting.every_copy quic_contract file b fits⟩

/-! ## A block counted twice -/

/-- The ack of the first block is late: the block is sent, received, acked and counted again,
    and the second ack is lost. -/
def ackDelayed : List Event :=
  [.send, .serve (block 0 1) none, .elapsed, .send, .serve (block 0 1) none, .read (ack 0),
    .ackFault (.drop (ack 0)), .send, .serve (block 1 2) none, .read (ack 1), .send, .close]

theorem ackDelayed_reaches (P : Pair σ) (stats : ServerStats)
    (replayed : (exec P.step (P.start twoBlocks oneByte) ackDelayed).map
      (fun s => (s.client.phase, P.tally s.server)) = some (.ok, stats)) :
    ∃ s, Reach P.step noDuplicates (P.start twoBlocks oneByte) s ∧ s.client.phase = .ok ∧
      P.tally s.server = stats := by
  obtain ⟨s, ran, ends⟩ := Option.map_eq_some_iff.mp replayed
  obtain ⟨done, tally⟩ := Prod.mk.inj ends
  have single : ∀ e ∈ ackDelayed, e.duplicates = false := by decide
  exact ⟨s, Reach.of_labels ran fun e member _ => single e member, done, tally⟩

theorem stop_and_wait_counts_delayed :
    ∃ s, Reach (udpStopAndWait .release).step noDuplicates
        ((udpStopAndWait .release).start twoBlocks oneByte) s ∧
      ∃ extra : List UdpPayload, ((udpStopAndWait .release).tally s.server).packetsReceived =
          2 + extra.length ∧
        ((udpStopAndWait .release).tally s.server).packetsReceived ≤
          s.client.stats.packetsSent := by
  obtain ⟨s, reached, done, -⟩ := ackDelayed_reaches (udpStopAndWait .release) ⟨3, 3⟩
    (by decide +kernel)
  obtain ⟨-, extra, -, -, tally, bound, -⟩ :=
    (stop_and_wait_counts .release twoBlocks oneByte (by decide)).1 s reached done
  refine ⟨s, reached, extra, ?_, bound⟩
  rw [tally]
  rfl

theorem retransmission_counted_twice :
    ¬ CountsEachBlockOnce (udpStopAndWait .release) twoBlocks oneByte ∧
      ¬ CountsEachBlockOnce quicStopAndWait twoBlocks oneByte := by
  constructor
  · intro once
    obtain ⟨s, reached, done, twice⟩ := ackDelayed_reaches (udpStopAndWait .release) ⟨3, 3⟩
      (by decide +kernel)
    exact absurd (twice.symm.trans (once s reached done)) (by decide)
  · intro once
    obtain ⟨s, reached, done, twice⟩ := ackDelayed_reaches quicStopAndWait ⟨3, 3⟩
      (by decide +kernel)
    exact absurd (twice.symm.trans (once s reached done)) (by decide)

end PcdLab.StopAndWait
