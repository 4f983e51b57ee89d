import PcdLab.Reports.Server

/-! # Two clients at one server

Two clients send a transfer each, and their datagrams interleave at the server's
socket. What the server prints at the end of one transfer is that client's own
counters exactly when the other transfer does not overlap with it.
-/

namespace PcdLab.Reports

open Shared.Wire Shared.Socket Transport StopAndWait Lib

/-- An interleaving of a transfer of client `a` and one of client `b`: nothing is lost, each
    client's own order is kept, and nobody else sends. -/
structure Concurrent (S : ReportServer) (a b : SocketAddr) (dataA dataB : List Bytes)
    (arrivals : List Arrival) : Prop where
  distinct : a ≠ b
  dataA_ok : ∀ d ∈ dataA, S.IsData d
  dataB_ok : ∀ d ∈ dataB, S.IsData d
  senders : ∀ x ∈ arrivals, x.addr = a ∨ x.addr = b
  orderA : (arrivals.filter fun x => x.addr = a).map Arrival.datagram = dataA ++ [[]]
  orderB : (arrivals.filter fun x => x.addr = b).map Arrival.datagram = dataB ++ [[]]

/-- What is printed at the end of `a`'s transfer, behind the arrivals `pre`: the same as if
    `a` alone had sent, namely the number and the bytes of `a`'s own data datagrams. -/
def OwnReport (S : ReportServer) (a : SocketAddr) (dataA : List Bytes) (pre : List Arrival) :
    Prop :=
  S.printedOn pre ⟨a, []⟩ = S.printedOn (pre.filter fun x => x.addr = a) ⟨a, []⟩ ∧
    S.printedOn pre ⟨a, []⟩ = [⟨dataA.length, (dataA.map S.dataBytes).sum⟩]

/-- Before the end of `a`'s transfer there is nothing of `b`'s transfer, or all of it, and
    that ahead of everything from `a`. -/
def Apart (a b : SocketAddr) (pre : List Arrival) : Prop :=
  (∀ x ∈ pre, x.addr = a) ∨
    ∃ before after, pre = before ++ ⟨b, []⟩ :: after ∧ (∀ x ∈ before, x.addr = b) ∧
      ∀ x ∈ after, x.addr = a

/-- An element which is new at the end occurs there only. -/
theorem ends_once {α : Type*} {front back whole : List α} {x : α}
    (split : front ++ x :: back = whole ++ [x]) (fresh : x ∉ whole) :
    front = whole ∧ back = [] := by
  induction front generalizing whole with
  | nil =>
      cases whole with
      | nil => exact ⟨rfl, (List.cons.inj split).2⟩
      | cons y whole =>
          have same : x = y := (List.cons.inj split).1
          exact absurd (same ▸ List.mem_cons_self) fresh
  | cons y front ih =>
      cases whole with
      | nil =>
          have short := congrArg List.length (List.cons.inj split).2
          simp at short
      | cons z whole =>
          obtain ⟨rfl, rest⟩ := List.cons.inj split
          obtain ⟨rfl, nobody⟩ := ih rest fun member => fresh (List.mem_cons_of_mem _ member)
          exact ⟨rfl, nobody⟩

namespace Concurrent

variable {S : ReportServer} {a b : SocketAddr} {dataA dataB : List Bytes}
  {pre post : List Arrival}

/-- Before its end, client `a` has sent its data. -/
theorem own (c : Concurrent S a b dataA dataB (pre ++ ⟨a, []⟩ :: post)) (contract : S.Contract) :
    (pre.filter fun x => x.addr = a).map Arrival.datagram = dataA := by
  have order := c.orderA
  rw [List.filter_append, List.filter_cons_of_pos (by simp), List.map_append, List.map_cons]
    at order
  exact (ends_once order fun empty => contract.data_ne _ (c.dataA_ok _ empty) rfl).1

/-- Behind its end, client `b` sends nothing, and before it only data. -/
theorem other {before after : List Arrival}
    (c : Concurrent S a b dataA dataB (pre ++ ⟨a, []⟩ :: post)) (contract : S.Contract)
    (split : pre = before ++ ⟨b, []⟩ :: after) :
    (before.filter fun x => x.addr = b).map Arrival.datagram = dataB ∧
      ∀ x ∈ after, x.addr = a := by
  have order := c.orderB
  have joined : pre ++ ⟨a, []⟩ :: post = before ++ ⟨b, []⟩ :: (after ++ ⟨a, []⟩ :: post) := by
    rw [split, List.append_assoc, List.cons_append]
  rw [joined, List.filter_append, List.filter_cons_of_pos (by simp), List.map_append,
    List.map_cons] at order
  obtain ⟨data, nothing⟩ := ends_once order fun empty => contract.data_ne _ (c.dataB_ok _ empty) rfl
  refine ⟨data, ?_⟩
  intro x member
  have here : x ∈ after ++ ⟨a, []⟩ :: post := List.mem_append_left _ member
  have nobody := List.filter_eq_nil_iff.mp (List.map_eq_nil_iff.mp nothing) x here
  have sender := c.senders x (joined ▸ List.mem_append_right _ (List.mem_cons_of_mem _ here))
  cases sender with
  | inl first => exact first
  | inr second => exact absurd (decide_eq_true second) nobody

theorem formed (c : Concurrent S a b dataA dataB (pre ++ ⟨a, []⟩ :: post)) :
    S.WellFormed pre := by
  intro x member
  have here : x ∈ pre ++ ⟨a, []⟩ :: post := List.mem_append_left _ member
  cases c.senders x here with
  | inl first =>
      have sent : x.datagram ∈ dataA ++ [[]] :=
        c.orderA ▸ List.mem_map_of_mem (List.mem_filter.mpr ⟨here, decide_eq_true first⟩)
      cases List.mem_append.mp sent with
      | inl data => exact .inr (c.dataA_ok _ data)
      | inr ended => exact .inl (List.mem_singleton.mp ended)
  | inr second =>
      have sent : x.datagram ∈ dataB ++ [[]] :=
        c.orderB ▸ List.mem_map_of_mem (List.mem_filter.mpr ⟨here, decide_eq_true second⟩)
      cases List.mem_append.mp sent with
      | inl data => exact .inr (c.dataB_ok _ data)
      | inr ended => exact .inl (List.mem_singleton.mp ended)

/-- What `a` has sent before its end is data, so none of it ends a transfer. -/
theorem own_unmarked (c : Concurrent S a b dataA dataB (pre ++ ⟨a, []⟩ :: post))
    (contract : S.Contract) {x : Arrival} (member : x ∈ pre) (mine : x.addr = a) :
    ReportServer.endsTransfer x = false := by
  have sent : x.datagram ∈ dataA :=
    c.own contract ▸ List.mem_map_of_mem (List.mem_filter.mpr ⟨member, decide_eq_true mine⟩)
  exact ReportServer.endsTransfer_data contract (c.dataA_ok _ sent)

/-- The report is `a`'s own when the current batch is what `a` has sent. -/
theorem ownReport_of_current (c : Concurrent S a b dataA dataB (pre ++ ⟨a, []⟩ :: post))
    (contract : S.Contract)
    (current : (Batches.ofStream ReportServer.endsTransfer pre).current =
      pre.filter fun x => x.addr = a) : OwnReport S a dataA pre := by
  have formedA : S.WellFormed (pre.filter fun x => x.addr = a) := by
    intro x member
    exact c.formed x (List.mem_filter.mp member).1
  have alone : (Batches.ofStream ReportServer.endsTransfer
      (pre.filter fun x => x.addr = a)).current = pre.filter fun x => x.addr = a := by
    apply Batches.current_unmarked
    intro x member
    obtain ⟨here, mine⟩ := List.mem_filter.mp member
    exact c.own_unmarked contract here (of_decide_eq_true mine)
  have printed : S.printedOn pre ⟨a, []⟩ = [S.summary dataA] := by
    rw [ReportServer.printedOn_end contract c.formed, current, c.own contract]
  refine ⟨?_, printed⟩
  rw [printed, ReportServer.printedOn_end contract formedA, alone, c.own contract]

/-- The transfers are told apart by the length of the current batch alone. -/
theorem apart_of_length (c : Concurrent S a b dataA dataB (pre ++ ⟨a, []⟩ :: post))
    (contract : S.Contract)
    (length : (Batches.ofStream ReportServer.endsTransfer pre).current.length =
      dataA.length) : Apart a b pre := by
  have count : (pre.filter fun x => x.addr = a).length = dataA.length := by
    rw [← List.length_map Arrival.datagram, c.own contract]
  by_cases ended : ⟨b, []⟩ ∈ pre
  · obtain ⟨before, after, split⟩ := List.append_of_mem ended
    obtain ⟨-, mine⟩ := c.other contract split
    have behind : (Batches.ofStream ReportServer.endsTransfer pre).current = after := by
      rw [split]
      apply Batches.current_after_marker rfl
      intro x member
      exact c.own_unmarked contract
        (split ▸ List.mem_append_right _ (List.mem_cons_of_mem _ member)) (mine x member)
    have all : (after.filter fun x => x.addr = a) = after :=
      List.filter_eq_self.mpr fun x member => decide_eq_true (mine x member)
    rw [split, List.filter_append, List.filter_cons_of_neg (by simpa using c.distinct.symm),
      List.length_append, all] at count
    rw [behind] at length
    have nothing : (before.filter fun x => x.addr = a) = [] :=
      List.length_eq_zero_iff.mp (by omega)
    refine .inr ⟨before, after, split, ?_, mine⟩
    intro x member
    have here : x ∈ pre ++ ⟨a, []⟩ :: post :=
      List.mem_append_left _ (split ▸ List.mem_append_left _ member)
    cases c.senders x here with
    | inl first =>
        exact absurd (decide_eq_true first) (List.filter_eq_nil_iff.mp nothing x member)
    | inr second => exact second
  · have unmarked : ∀ x ∈ pre, ReportServer.endsTransfer x = false := by
      intro x member
      by_contra marked
      have empty : x.datagram = [] := List.isEmpty_iff.mp (Bool.eq_true_of_not_eq_false marked)
      cases c.senders x (List.mem_append_left _ member) with
      | inl first => exact marked (c.own_unmarked contract member first)
      | inr second =>
          apply ended
          rw [← second, ← empty]
          exact member
    rw [Batches.current_unmarked unmarked] at length
    have all := List.length_filter_eq_length_iff.mp (count.trans length.symm)
    exact .inl fun x member => of_decide_eq_true (all x member)

theorem current_of_apart (c : Concurrent S a b dataA dataB (pre ++ ⟨a, []⟩ :: post))
    (contract : S.Contract) (apart : Apart a b pre) :
    (Batches.ofStream ReportServer.endsTransfer pre).current =
      pre.filter fun x => x.addr = a := by
  rcases apart with alone | ⟨before, after, split, theirs, mine⟩
  · have all : (pre.filter fun x => x.addr = a) = pre :=
      List.filter_eq_self.mpr fun x member => decide_eq_true (alone x member)
    rw [all]
    apply Batches.current_unmarked
    intro x member
    exact c.own_unmarked contract member (alone x member)
  · have unmarked : ∀ x ∈ after, ReportServer.endsTransfer x = false := by
      intro x member
      exact c.own_unmarked contract
        (split ▸ List.mem_append_right _ (List.mem_cons_of_mem _ member)) (mine x member)
    have absent : (before.filter fun x => x.addr = a) = [] := by
      apply List.filter_eq_nil_iff.mpr
      intro x member first
      exact c.distinct ((of_decide_eq_true first).symm.trans (theirs x member))
    have all : (after.filter fun x => x.addr = a) = after :=
      List.filter_eq_self.mpr fun x member => decide_eq_true (mine x member)
    rw [split, Batches.current_after_marker rfl unmarked, List.filter_append, absent,
      List.filter_cons_of_neg (by simpa using c.distinct.symm), all, List.nil_append]

theorem ownReport_iff (c : Concurrent S a b dataA dataB (pre ++ ⟨a, []⟩ :: post))
    (contract : S.Contract) : OwnReport S a dataA pre ↔ Apart a b pre := by
  constructor
  · rintro ⟨-, printed⟩
    apply c.apart_of_length contract
    rw [ReportServer.printedOn_end contract c.formed] at printed
    have stats := List.singleton_inj.mp printed
    have packets := congrArg ServerStats.packetsReceived stats
    simpa only [ReportServer.summary, List.length_map] using packets
  · intro apart
    exact c.ownReport_of_current contract (c.current_of_apart contract apart)

end Concurrent

/-- Both UDP servers report `a`'s transfer as its own exactly when `b`'s transfer does not
    overlap with it. -/
theorem concurrent_report_iff (profile : Profile) (a b : SocketAddr) (dataA dataB : List Bytes)
    (pre post : List Arrival) :
    (Concurrent udpServer a b dataA dataB (pre ++ ⟨a, []⟩ :: post) →
      (OwnReport udpServer a dataA pre ↔ Apart a b pre)) ∧
    (Concurrent (udpStopAndWaitServer profile) a b dataA dataB (pre ++ ⟨a, []⟩ :: post) →
      (OwnReport (udpStopAndWaitServer profile) a dataA pre ↔ Apart a b pre)) :=
  ⟨fun c => c.ownReport_iff udpServer_contract,
    fun c => c.ownReport_iff (udpStopAndWaitServer_contract profile)⟩

/-! ## Two transfers of one datagram each -/

def clientA : SocketAddr := ⟨0x7f000001, 40001⟩

def clientB : SocketAddr := ⟨0x7f000001, 40002⟩

/-- Both data datagrams arrive before the end of either transfer. -/
def overlapping (d e : Bytes) : List Arrival := [⟨clientB, e⟩, ⟨clientA, d⟩]

/-- The transfer of `clientB` is over before that of `clientA` begins. -/
def succeeding (d e : Bytes) : List Arrival := [⟨clientB, e⟩, ⟨clientB, []⟩, ⟨clientA, d⟩]

theorem overlapping_concurrent {S : ReportServer} {d e : Bytes} (dataA : S.IsData d)
    (dataB : S.IsData e) : Concurrent S clientA clientB [d] [e]
      (overlapping d e ++ ⟨clientA, []⟩ :: [⟨clientB, []⟩]) where
  distinct := by decide
  dataA_ok := by simpa using dataA
  dataB_ok := by simpa using dataB
  senders := by simp [overlapping]
  orderA := rfl
  orderB := rfl

theorem succeeding_concurrent {S : ReportServer} {d e : Bytes} (dataA : S.IsData d)
    (dataB : S.IsData e) : Concurrent S clientA clientB [d] [e]
      (succeeding d e ++ ⟨clientA, []⟩ :: []) where
  distinct := by decide
  dataA_ok := by simpa using dataA
  dataB_ok := by simpa using dataB
  senders := by simp [succeeding]
  orderA := rfl
  orderB := rfl

theorem udp_byte_data (byte : UInt8) : udpServer.IsData [byte] :=
  ⟨List.cons_ne_nil _ _, by simp [maxBlockSize]⟩

theorem stop_and_wait_byte_data (profile : Profile) (seq : UInt64) (byte : UInt8) :
    (udpStopAndWaitServer profile).IsData (block seq byte) :=
  ⟨⟨seq, [byte]⟩, ⟨List.cons_ne_nil _ _, by simp [maxBlockSize]⟩, rfl⟩

theorem concurrent_report_succeeding :
    OwnReport udpServer clientA [[1]] (succeeding [1] [2]) ∧
      OwnReport (udpStopAndWaitServer .release) clientA [block 0 1]
        (succeeding (block 0 1) (block 0 2)) := by
  have apart : ∀ d e, Apart clientA clientB (succeeding d e) := by
    intro d e
    exact .inr ⟨[⟨clientB, e⟩], [⟨clientA, d⟩], rfl, by simp, by simp⟩
  constructor
  · have c := succeeding_concurrent (udp_byte_data 1) (udp_byte_data 2)
    exact ((concurrent_report_iff .release _ _ _ _ _ _).1 c).mpr (apart _ _)
  · have c := succeeding_concurrent (stop_and_wait_byte_data .release 0 1)
      (stop_and_wait_byte_data .release 0 2)
    exact ((concurrent_report_iff .release _ _ _ _ _ _).2 c).mpr (apart _ _)

theorem overlapping_report_mixed :
    (¬ ∀ a b dataA dataB pre post,
      Concurrent udpServer a b dataA dataB (pre ++ ⟨a, []⟩ :: post) →
        OwnReport udpServer a dataA pre) ∧
    ¬ ∀ a b dataA dataB pre post, Concurrent (udpStopAndWaitServer .release) a b dataA dataB
      (pre ++ ⟨a, []⟩ :: post) → OwnReport (udpStopAndWaitServer .release) a dataA pre := by
  constructor
  · intro own
    have c := overlapping_concurrent (udp_byte_data 1) (udp_byte_data 2)
    exact absurd (own _ _ _ _ _ _ c).2 (by decide +kernel)
  · intro own
    have c := overlapping_concurrent (stop_and_wait_byte_data .release 0 1)
      (stop_and_wait_byte_data .release 0 2)
    exact absurd (own _ _ _ _ _ _ c).2 (by decide +kernel)

end PcdLab.Reports
