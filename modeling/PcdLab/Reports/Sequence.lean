import PcdLab.Reports.Server

/-! # Transfers one after another

Transfers run strictly one after another against one server, and each of them may
lose datagrams or be given up midway. A line covers what came since the line before
it, so it mixes two transfers exactly when both got data through, and no end datagram
arrived between them.
-/

namespace PcdLab.Reports

open Shared.Wire Shared.Socket Transport StopAndWait Lib Lib.Runs Client.File

/-! ## What arrives of one transfer -/

/-- What arrives of a run of `handle_udp`, whose sends may fail as scripted: some of what it
    has sent, in order. -/
def UdpTransfer (arrived : List Bytes) : Prop :=
  ∃ file b script, b.val ≤ maxBlockSize ∧
    arrived.Sublist (Output.output (Udp.handleUdp file b) script)

/-- The server's own socket does not fail. -/
def serverRuns {σ : Type} : Net σ → Event → Prop := fun _ e =>
  match e with
  | .serve _ (some _) | .serverReadFails _ => False
  | _ => True

/-- What arrives of a run of the stop-and-wait client against the server, up to the point
    where the client has returned: some of what it has sent, in order. -/
def UdpStopAndWaitTransfer (profile : Profile) (arrived : List Bytes) : Prop :=
  ∃ file b s, 8 + b.val ≤ maxBlockSize ∧
    Reach (udpStopAndWait profile).step serverRuns ((udpStopAndWait profile).start file b) s ∧
    s.client.phase.returned = true ∧ arrived = s.data.delivered ∧
    s.data.delivered.Sublist s.data.sent

/-- Data, and behind it perhaps the end. -/
def ReportServer.IsTransfer (S : ReportServer) (arrived : List Bytes) : Prop :=
  ∃ data, (∀ d ∈ data, S.IsData d) ∧ (arrived = data ∨ arrived = data ++ [[]])

theorem ReportServer.IsTransfer.of_sublist {S : ReportServer} {arrived sent data : List Bytes}
    (each : ∀ d ∈ data, S.IsData d) (sends : sent <+: data ++ [[]])
    (sub : arrived.Sublist sent) : S.IsTransfer arrived := by
  obtain ⟨front, back, rfl, inData, inEnd⟩ :=
    List.sublist_append_iff.mp (sub.trans sends.sublist)
  refine ⟨front, fun d member => each d (inData.subset member), ?_⟩
  cases List.sublist_singleton.mp inEnd with
  | inl none => exact .inl (by rw [none, List.append_nil])
  | inr ended => exact .inr (by rw [ended])

theorem UdpTransfer.isTransfer {arrived : List Bytes} (h : UdpTransfer arrived) :
    udpServer.IsTransfer arrived := by
  obtain ⟨file, b, script, fits, sub⟩ := h
  apply ReportServer.IsTransfer.of_sublist _ ((Udp.handleUdp_writes file b).output_beginning script)
    sub
  intro d member
  obtain ⟨nonempty, size⟩ := DataFile.block_mem member
  exact ⟨nonempty, by omega⟩

section Sent

variable {σ : Type} {P : Pair σ} {file : DataFile} {b : BlockSize} {s t : Net σ}

/-- The client sends blocks, and the end marker last. -/
def SendsInOrder (P : Pair σ) (blocks : List Bytes) (s : Net σ) : Prop :=
  ∃ ps : List UdpPayload, (∀ p ∈ ps, Numbered blocks p) ∧
    (s.data.sent = ps.map UdpPayload.toBytes ∨
      ((s.client.phase = .closing ∨ s.client.phase = .ok) ∧
        ∃ seq, s.data.sent = ps.map UdpPayload.toBytes ++ [P.endMarker seq]))

theorem SendsInOrder.frame {blocks : List Bytes} (order : SendsInOrder P blocks s)
    (sent : t.data.sent = s.data.sent)
    (past : s.client.phase = .closing ∨ s.client.phase = .ok →
      t.client.phase = .closing ∨ t.client.phase = .ok) : SendsInOrder P blocks t := by
  obtain ⟨ps, numbered, before | ⟨behind, seq, ended⟩⟩ := order
  · exact ⟨ps, numbered, .inl (sent.trans before)⟩
  · exact ⟨ps, numbered, .inr ⟨past behind, seq, sent.trans ended⟩⟩

theorem SendsInOrder.step {e : Event} (inv : Inv P (file.blocks b) s)
    (order : SendsInOrder P (file.blocks b) s) (moved : P.step s e = some t) :
    SendsInOrder P (file.blocks b) t := by
  cases Pair.step_rule moved with
  | @sendBlock attempt payload phase =>
      obtain ⟨ps, numbered, before | ⟨behind, -⟩⟩ := order
      · refine ⟨ps ++ [payload], ?_, .inl ?_⟩
        · intro p member
          cases List.mem_append.mp member with
          | inl old => exact numbered p old
          | inr new => exact List.mem_singleton.mp new ▸ (inv.sending phase).2.1
        · simp only [Channel.send_sent, before, List.map_append, List.map_cons, List.map_nil]
      · simp [phase] at behind
  | sendEnd phase =>
      obtain ⟨ps, numbered, before | ⟨behind, -⟩⟩ := order
      · exact ⟨ps, numbered, .inr ⟨.inl rfl, s.client.seq, by
          simp only [Channel.send_sent, before]⟩⟩
      · simp [phase] at behind
  | sendFails phase =>
      refine order.frame rfl fun behind => ?_
      rcases phase with ⟨attempt, payload, phase⟩ | phase <;> simp [phase] at behind
  | elapsed phase => exact order.frame rfl fun behind => by simp [phase] at behind
  | read phase _ => exact order.frame rfl fun behind => by simp [phase] at behind
  | readFails phase => exact order.frame rfl fun behind => by simp [phase] at behind
  | close _ => exact order.frame rfl fun _ => .inr rfl
  | serve _ taken => exact order.frame (Channel.deliver_sent taken) id
  | serverReadFails _ _ => exact order.frame rfl id
  | dataFault fault => exact order.frame (Channel.fault_sent fault) id
  | ackFault _ => exact order.frame rfl id

theorem SendsInOrder.reach (contract : P.Contract) (fits : 8 + b.val ≤ maxBlockSize)
    {guard : Net σ → Event → Prop} (reached : Reach P.step guard (P.start file b) s) :
    SendsInOrder P (file.blocks b) s := by
  have both : Inv P (file.blocks b) s ∧ SendsInOrder P (file.blocks b) s := by
    apply reached.invariant (fun s => Inv P (file.blocks b) s ∧ SendsInOrder P (file.blocks b) s)
    · exact ⟨Inv.start P file b, [], by simp, .inl rfl⟩
    · intro u e v holds _ moved
      exact ⟨holds.1.step contract fits moved, holds.2.step holds.1 moved⟩
  exact both.2

end Sent

theorem UdpStopAndWaitTransfer.isTransfer {profile : Profile} {arrived : List Bytes}
    (h : UdpStopAndWaitTransfer profile arrived) :
    (udpStopAndWaitServer profile).IsTransfer arrived := by
  obtain ⟨file, b, s, fits, reached, -, rfl, sub⟩ := h
  obtain ⟨ps, numbered, order⟩ := SendsInOrder.reach (udp_contract profile) fits reached
  have each : ∀ d ∈ ps.map UdpPayload.toBytes, (udpStopAndWaitServer profile).IsData d := by
    intro d member
    obtain ⟨p, here, rfl⟩ := List.mem_map.mp member
    exact ⟨p, (numbered p here).carried fits, rfl⟩
  apply ReportServer.IsTransfer.of_sublist each _ sub
  rcases order with data | ⟨-, seq, ended⟩
  · rw [data]
    exact List.prefix_append _ _
  · rw [ended]
    exact List.prefix_rfl

/-! ## What the lines of the server cover -/

/-- The stream at the server, each datagram with the number of its transfer. -/
def tagged (transfers : List (List Bytes)) : List (Nat × Bytes) :=
  transfers.zipIdx.flatMap fun transfer => transfer.1.map fun d => (transfer.2, d)

/-- The server, what it has counted since its last line, and what each line covers. -/
structure Watched where
  server : ReportLoop
  counted : List (Nat × Bytes)
  lines : List (List (Nat × Bytes))

/-- One datagram at the server. If a line comes out, it covers what was counted so far. -/
def ReportServer.watch (S : ReportServer) (addr : Nat → SocketAddr) (w : Watched)
    (x : Nat × Bytes) : Watched :=
  let server := S.turn w.server ⟨addr x.1, x.2⟩
  if server.printed.length = w.server.printed.length then ⟨server, w.counted ++ [x], w.lines⟩
  else ⟨server, [], w.lines ++ [w.counted]⟩

def ReportServer.watchAll (S : ReportServer) (addr : Nat → SocketAddr)
    (transfers : List (List Bytes)) : Watched :=
  (tagged transfers).foldl (S.watch addr) ⟨.init, [], []⟩

/-- Whatever a line covers comes from one transfer. -/
def EachLineOneTransfer (S : ReportServer) (addr : Nat → SocketAddr)
    (transfers : List (List Bytes)) : Prop :=
  ∀ line ∈ (S.watchAll addr transfers).lines, ∀ x ∈ line, ∀ y ∈ line, x.1 = y.1

/-- Some data of transfer `i` has arrived. -/
def Carries (transfers : List (List Bytes)) (i : Nat) (d : Bytes) : Prop :=
  ∃ t, transfers[i]? = some t ∧ d ∈ t ∧ d ≠ []

/-- The end of transfer `i` has arrived. -/
def Ended (transfers : List (List Bytes)) (i : Nat) : Prop :=
  ∃ t, transfers[i]? = some t ∧ [] ∈ t

/-- Two transfers got data through, no end arrived from the first of them on until that of
    transfer `k`, and that one is not before the second of them. -/
def Mixed (transfers : List (List Bytes)) : Prop :=
  ∃ i j k, i < j ∧ j ≤ k ∧ (∃ d, Carries transfers i d) ∧ (∃ d, Carries transfers j d) ∧
    (∀ m, i ≤ m → m < k → ¬ Ended transfers m) ∧ Ended transfers k

/-- What the line covers which the end of transfer `k` makes the server print. -/
def Covered (transfers : List (List Bytes)) (k : Nat) (x : Nat × Bytes) : Prop :=
  Carries transfers x.1 x.2 ∧ x.1 ≤ k ∧ ∀ m, x.1 ≤ m → m < k → ¬ Ended transfers m

/-! ## The lines as batches -/

section Lines

variable {S : ReportServer} {transfers : List (List Bytes)}

/-- An end datagram in the tagged stream. -/
def closes (x : Nat × Bytes) : Bool := x.2.isEmpty

theorem tagged_append (transfers : List (List Bytes)) (t : List Bytes) :
    tagged (transfers ++ [t]) = tagged transfers ++ t.map fun d => (transfers.length, d) := by
  simp [tagged, List.zipIdx_append]

/-- What is watched are the batches of the tagged stream: a line comes out at an end datagram,
    and at no other. -/
theorem ReportServer.watchAll_eq (contract : S.Contract) (addr : Nat → SocketAddr)
    (formed : ∀ t ∈ transfers, S.IsTransfer t) :
    (S.watchAll addr transfers).counted = (Batches.ofStream closes (tagged transfers)).current ∧
      (S.watchAll addr transfers).lines =
        (Batches.ofStream closes (tagged transfers)).closed := by
  have ok : ∀ x ∈ tagged transfers, x.2 = [] ∨ S.IsData x.2 := by
    intro x member
    obtain ⟨⟨t, i⟩, here, inside⟩ := List.mem_flatMap.mp member
    obtain ⟨d, sent, rfl⟩ := List.mem_map.mp inside
    obtain ⟨data, each, shape⟩ := formed t (List.fst_mem_of_mem_zipIdx here)
    rcases shape with rfl | rfl
    · exact .inr (each d sent)
    · cases List.mem_append.mp sent with
      | inl early => exact .inr (each d early)
      | inr last => exact .inl (List.mem_singleton.mp last)
  have carried : ∀ (stream : List (Nat × Bytes)), (∀ x ∈ stream, x.2 = [] ∨ S.IsData x.2) →
      ∀ w : Watched, (stream.foldl (S.watch addr) w).counted =
          (Batches.addAll closes ⟨w.lines, w.counted⟩ stream).current ∧
        (stream.foldl (S.watch addr) w).lines =
          (Batches.addAll closes ⟨w.lines, w.counted⟩ stream).closed := by
    intro stream
    induction stream with
    | nil => exact fun _ w => ⟨rfl, rfl⟩
    | cons x stream ih =>
        intro each w
        obtain ⟨here, later⟩ := List.forall_mem_cons.mp each
        have turn : (S.watch addr w x).counted =
              (Batches.add closes ⟨w.lines, w.counted⟩ x).current ∧
            (S.watch addr w x).lines =
              (Batches.add closes ⟨w.lines, w.counted⟩ x).closed := by
          obtain ⟨i, d⟩ := x
          cases here with
          | inl ended =>
              cases ended
              simp [ReportServer.watch, contract.turn_end, ReportLoop.report, Batches.add, closes]
          | inr data =>
              have full : d.isEmpty = false := by
                rw [List.isEmpty_eq_false_iff]
                exact contract.data_ne d data
              simp [ReportServer.watch, contract.turn_data _ _ _ data, ReportLoop.count,
                Batches.add, closes, full]
        have rest := ih later (S.watch addr w x)
        rw [turn.1, turn.2] at rest
        exact rest
  exact carried (tagged transfers) ok ⟨.init, [], []⟩

end Lines

/-! ## Which transfers a line covers -/

section Coverage

variable {transfers : List (List Bytes)} {t : List Bytes}

theorem carries_append {i : Nat} {d : Bytes} : Carries (transfers ++ [t]) i d ↔
    Carries transfers i d ∨ (i = transfers.length ∧ d ∈ t ∧ d ≠ []) := by
  simp only [Carries, List.getElem?_append, List.getElem?_singleton]
  grind

theorem ended_append {i : Nat} : Ended (transfers ++ [t]) i ↔
    Ended transfers i ∨ (i = transfers.length ∧ [] ∈ t) := by
  simp only [Ended, List.getElem?_append, List.getElem?_singleton]
  grind

theorem Carries.lt {i : Nat} {d : Bytes} (h : Carries transfers i d) : i < transfers.length := by
  obtain ⟨t, here, -⟩ := h
  exact (List.getElem?_eq_some_iff.mp here).1

theorem Ended.lt {i : Nat} (h : Ended transfers i) : i < transfers.length := by
  obtain ⟨t, here, -⟩ := h
  exact (List.getElem?_eq_some_iff.mp here).1

/-- A later transfer changes nothing about what an earlier line covers. -/
theorem covered_append {k : Nat} (inside : k < transfers.length) (x : Nat × Bytes) :
    Covered (transfers ++ [t]) k x ↔ Covered transfers k x := by
  simp only [Covered, carries_append, ended_append]
  grind

/-- The current batch and the closed ones, by the transfers which they cover. -/
structure Covers (transfers : List (List Bytes)) (batches : Batches (Nat × Bytes)) : Prop where
  current : ∀ x, x ∈ batches.current ↔
    Carries transfers x.1 x.2 ∧ ∀ m, x.1 ≤ m → ¬ Ended transfers m
  line : ∀ k, Ended transfers k → ∃ batch ∈ batches.closed, ∀ x, x ∈ batch ↔ Covered transfers k x
  ended : ∀ batch ∈ batches.closed,
    ∃ k, Ended transfers k ∧ ∀ x, x ∈ batch ↔ Covered transfers k x

/-- A transfer without its end adds to the current batch. -/
theorem Covers.continue {batches : Batches (Nat × Bytes)} (before : Covers transfers batches)
    (full : ∀ d ∈ t, d ≠ []) :
    Covers (transfers ++ [t])
      ⟨batches.closed, batches.current ++ t.map fun d => (transfers.length, d)⟩ := by
  have same : ∀ k, Ended (transfers ++ [t]) k ↔ Ended transfers k := by
    intro k
    rw [ended_append]
    exact or_iff_left fun now => full [] now.2 rfl
  constructor
  · rintro ⟨i, d⟩
    have old := before.current (i, d)
    have later : ∀ m, transfers.length ≤ m → ¬ Ended transfers m :=
      fun m past ended => Nat.not_lt.mpr past ended.lt
    simp only [List.mem_append, List.mem_map, Prod.mk.injEq, old, carries_append, same]
    grind
  · intro k ended
    have inside := (same k).mp ended
    obtain ⟨batch, member, covered⟩ := before.line k inside
    exact ⟨batch, member, fun x => (covered x).trans (covered_append inside.lt x).symm⟩
  · intro batch member
    obtain ⟨k, ended, covered⟩ := before.ended batch member
    exact ⟨k, (same k).mpr ended, fun x => (covered x).trans (covered_append ended.lt x).symm⟩

/-- The end of a transfer closes the batch of all that is not yet covered. -/
theorem Covers.close {batches : Batches (Nat × Bytes)} {data : List Bytes}
    (before : Covers transfers batches) (full : ∀ d ∈ data, d ≠ []) :
    Covers (transfers ++ [data ++ [[]]])
      ⟨batches.closed ++ [batches.current ++ data.map fun d => (transfers.length, d)], []⟩ := by
  have now : Ended (transfers ++ [data ++ [[]]]) transfers.length :=
    ended_append.mpr (.inr ⟨rfl, by simp⟩)
  have new : ∀ x, x ∈ batches.current ++ data.map (fun d => (transfers.length, d)) ↔
      Covered (transfers ++ [data ++ [[]]]) transfers.length x := by
    rintro ⟨i, d⟩
    have old := before.current (i, d)
    have bound : Carries transfers i d → i < transfers.length := Carries.lt
    have range : ∀ m, Ended transfers m → m < transfers.length := fun _ => Ended.lt
    simp only [List.mem_append, List.mem_map, Prod.mk.injEq, old, Covered, carries_append,
      ended_append]
    grind
  constructor
  · rintro ⟨i, d⟩
    have inside : Carries (transfers ++ [data ++ [[]]]) i d → i ≤ transfers.length := by
      intro carries
      have bound := carries.lt
      simp only [List.length_append, List.length_singleton] at bound
      omega
    simp only [List.not_mem_nil, false_iff, not_and]
    intro carries open_
    exact open_ transfers.length (inside carries) now
  · intro k ended
    cases ended_append.mp ended with
    | inl early =>
        obtain ⟨batch, member, covered⟩ := before.line k early
        exact ⟨batch, List.mem_append_left _ member,
          fun x => (covered x).trans (covered_append early.lt x).symm⟩
    | inr last =>
        exact ⟨_, List.mem_append_right _ (List.mem_singleton.mpr rfl), last.1 ▸ new⟩
  · intro batch member
    cases List.mem_append.mp member with
    | inl early =>
        obtain ⟨k, ended, covered⟩ := before.ended batch early
        exact ⟨k, ended_append.mpr (.inl ended),
          fun x => (covered x).trans (covered_append ended.lt x).symm⟩
    | inr last => exact ⟨_, now, List.mem_singleton.mp last ▸ new⟩

/-- The induction is on the transfers, the last one last. -/
theorem covers {S : ReportServer} (contract : S.Contract)
    (formed : ∀ t ∈ transfers, S.IsTransfer t) :
    Covers transfers (Batches.ofStream closes (tagged transfers)) := by
  induction transfers using List.reverseRecOn with
  | nil =>
      constructor
      · intro x
        simp [tagged, Batches.ofStream, Batches.addAll, Carries]
      · rintro k ⟨t, here, -⟩
        cases here
      · intro batch member
        exact absurd member List.not_mem_nil
  | append_singleton transfers t ih =>
      have before := ih fun u member => formed u (List.mem_append_left _ member)
      obtain ⟨data, each, shape⟩ := formed t (List.mem_append_right _ (List.mem_singleton.mpr rfl))
      have full : ∀ d ∈ data, d ≠ [] := fun d member => contract.data_ne d (each d member)
      have unmarked : ∀ x ∈ data.map (fun d => (transfers.length, d)), closes x = false := by
        intro x member
        obtain ⟨d, here, rfl⟩ := List.mem_map.mp member
        exact List.isEmpty_eq_false_iff.mpr (full d here)
      rw [tagged_append, Batches.ofStream, Batches.addAll_append]
      rcases shape with rfl | rfl
      · rw [Batches.addAll_unmarked unmarked]
        exact before.continue full
      · rw [List.map_append, Batches.addAll_append, Batches.addAll_unmarked unmarked,
          List.map_singleton, Batches.addAll_marker rfl]
        exact before.close full

end Coverage

/-! ## One transfer a line -/

/-- A line mixes transfers exactly when a transfer got data through, its end did not arrive,
    and neither did another one until a later transfer had got data through too. -/
theorem eachLineOneTransfer_iff {S : ReportServer} (contract : S.Contract)
    (addr : Nat → SocketAddr) {transfers : List (List Bytes)}
    (formed : ∀ t ∈ transfers, S.IsTransfer t) :
    EachLineOneTransfer S addr transfers ↔ ¬ Mixed transfers := by
  have cover := covers contract formed
  unfold EachLineOneTransfer
  rw [(S.watchAll_eq contract addr formed).2]
  constructor
  · rintro single ⟨i, j, k, before, within, ⟨d, first⟩, ⟨e, second⟩, open_, ended⟩
    obtain ⟨batch, member, covered⟩ := cover.line k ended
    have here : (i, d) ∈ batch :=
      (covered (i, d)).mpr ⟨first, (Nat.le_of_lt before).trans within, open_⟩
    have there : (j, e) ∈ batch :=
      (covered (j, e)).mpr ⟨second, within,
        fun m from_ => open_ m ((Nat.le_of_lt before).trans from_)⟩
    have same : i = j := single batch member _ here _ there
    omega
  · intro unmixed batch member x inX y inY
    obtain ⟨k, ended, covered⟩ := cover.ended batch member
    have ordered : ∀ x ∈ batch, ∀ y ∈ batch, ¬ x.1 < y.1 := by
      intro x inX y inY before
      obtain ⟨first, -, open_⟩ := (covered x).mp inX
      obtain ⟨second, within, -⟩ := (covered y).mp inY
      exact unmixed ⟨x.1, y.1, k, before, within, ⟨_, first⟩, ⟨_, second⟩, open_, ended⟩
    have above := ordered x inX y inY
    have below := ordered y inY x inX
    omega

theorem sequential_report_iff (profile : Profile) (addr : Nat → SocketAddr)
    (transfers : List (List Bytes)) :
    ((∀ t ∈ transfers, UdpTransfer t) →
      (EachLineOneTransfer udpServer addr transfers ↔ ¬ Mixed transfers)) ∧
    ((∀ t ∈ transfers, UdpStopAndWaitTransfer profile t) →
      (EachLineOneTransfer (udpStopAndWaitServer profile) addr transfers ↔ ¬ Mixed transfers)) := by
  constructor
  · intro arrive
    exact eachLineOneTransfer_iff udpServer_contract addr
      fun t member => (arrive t member).isTransfer
  · intro arrive
    exact eachLineOneTransfer_iff (udpStopAndWaitServer_contract profile) addr
      fun t member => (arrive t member).isTransfer

/-! ## A transfer without its end, and the next one -/

/-- The end of the first transfer is lost. -/
def lostEnd : List (List Bytes) := [[[1], [2]], [[1], [2], []]]

/-- The first transfer is given up behind its first block, so no end is sent. -/
def givenUp : List (List Bytes) := [[block 0 1], [block 0 1, block 1 2, []]]

theorem lostEnd_arrives : ∀ t ∈ lostEnd, UdpTransfer t := by
  have wrote : Output.output (Udp.handleUdp twoBlocks oneByte) [] = [[1], [2], []] := by
    decide +kernel
  intro t member
  refine ⟨twoBlocks, oneByte, [], by decide, ?_⟩
  rw [wrote]
  simp only [lostEnd, List.mem_cons, List.not_mem_nil, or_false] at member
  rcases member with rfl | rfl
  · decide
  · exact List.Sublist.refl _

/-- A run that the client comes out of, with the datagrams that arrive in it. -/
theorem transfer_of_run (events : List Event) {arrived : List Bytes} (sent : List Bytes)
    (replayed : ((exec (udpStopAndWait .release).step
      ((udpStopAndWait .release).start twoBlocks oneByte) events).map fun s =>
        (s.client.phase.returned, s.data.delivered, s.data.sent)) = some (true, arrived, sent))
    (ok : ∀ e ∈ events, ∀ s : Net ReportLoop, serverRuns s e) (sub : arrived.Sublist sent) :
    UdpStopAndWaitTransfer .release arrived := by
  obtain ⟨s, ran, ends⟩ := Option.map_eq_some_iff.mp replayed
  simp only [Prod.mk.injEq] at ends
  obtain ⟨returned, rfl, rfl⟩ := ends
  exact ⟨twoBlocks, oneByte, s, by decide, Reach.of_labels ran ok, returned, rfl, sub⟩

theorem givenUp_arrives : ∀ t ∈ givenUp, UdpStopAndWaitTransfer .release t := by
  intro t member
  simp only [givenUp, List.mem_cons, List.not_mem_nil, or_false] at member
  rcases member with rfl | rfl
  · apply transfer_of_run [.send, .serve (block 0 1) none, .ackFault (.drop (ack 0)),
      .elapsed, .send, .dataFault (.drop (block 0 1)), .elapsed]
      [block 0 1, block 0 1] (by decide +kernel) _ (by decide)
    simp [serverRuns]
  · apply transfer_of_run [.send, .serve (block 0 1) none, .read (ack 0), .send,
      .serve (block 1 2) none, .read (ack 1), .send, .serve [] none, .close]
      [block 0 1, block 1 2, []] (by decide +kernel) _ (List.Sublist.refl _)
    simp [serverRuns]

theorem lostEnd_line : ¬ EachLineOneTransfer udpServer (fun _ => clientAddr) lostEnd := by
  intro single
  have line : [(0, [1]), (0, [2]), (1, [1]), (1, [2])] ∈
      (udpServer.watchAll (fun _ => clientAddr) lostEnd).lines := by
    decide +kernel
  exact absurd (single _ line (0, [1]) (by simp) (1, [1]) (by simp)) (by decide)

theorem givenUp_line :
    ¬ EachLineOneTransfer (udpStopAndWaitServer .release) (fun _ => clientAddr) givenUp := by
  intro single
  have line : [(0, block 0 1), (1, block 0 1), (1, block 1 2)] ∈
      ((udpStopAndWaitServer .release).watchAll (fun _ => clientAddr) givenUp).lines := by
    decide +kernel
  exact absurd (single _ line (0, block 0 1) (by simp) (1, block 0 1) (by simp)) (by decide)

theorem sequential_report_mixed : Mixed lostEnd ∧ Mixed givenUp := by
  constructor
  · by_contra apart
    exact lostEnd_line (((sequential_report_iff .release _ _).1 lostEnd_arrives).mpr apart)
  · by_contra apart
    exact givenUp_line (((sequential_report_iff .release _ _).2 givenUp_arrives).mpr apart)

theorem line_of_two_transfers :
    (¬ ∀ addr transfers, (∀ t ∈ transfers, UdpTransfer t) →
      EachLineOneTransfer udpServer addr transfers) ∧
    ¬ ∀ addr transfers, (∀ t ∈ transfers, UdpStopAndWaitTransfer .release t) →
      EachLineOneTransfer (udpStopAndWaitServer .release) addr transfers :=
  ⟨fun single => lostEnd_line (single _ _ lostEnd_arrives),
    fun single => givenUp_line (single _ _ givenUp_arrives)⟩

end PcdLab.Reports
