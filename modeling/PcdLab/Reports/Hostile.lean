import Mathlib.Algebra.BigOperators.Group.List.Basic
import PcdLab.Reports.Server
import PcdLab.StopAndWait.Truncation

/-! # Any datagram at the stop-and-wait server

The server takes a datagram for the end of a transfer when it is empty, and subtracts
the eight bytes of the number from the length of any other. Its buffer always decodes,
so only the subtraction can tell that a datagram was too short to have a number.
-/

namespace PcdLab.Reports

open Shared.Wire Shared.Socket Transport StopAndWait Lib

/-- The server, and all datagrams which have room for a number, whatever is in them. -/
def numberedServer (profile : Profile) : ReportServer where
  turn := (udpStopAndWaitServer profile).turn
  IsData := fun d => 8 ≤ d.length ∧ d.length ≤ maxBlockSize
  dataBytes := fun d => d.length - 8

theorem numberedServer_contract (profile : Profile) : (numberedServer profile).Contract where
  turn_end := (udpStopAndWaitServer_contract profile).turn_end
  turn_data := by
    intro s addr d data
    have counted := UdpStopAndWait.handleDatagram_count profile data.1 s addr
    rw [Nat.min_eq_left data.2] at counted
    exact counted
  data_ne := by
    rintro d ⟨long, -⟩ rfl
    exact absurd long (by decide)

/-- A datagram too short to have a number underflows the subtraction. -/
theorem turn_short (profile : Profile) {d : Bytes} (nonempty : d ≠ []) (short : d.length < 8)
    (s : ReportLoop) (addr : SocketAddr) :
    (udpStopAndWaitServer profile).turn s ⟨addr, d⟩ =
      match profile with
      | .debug => { s with outcome := .panicked }
      | .release => s.count (2 ^ 64 - (8 - d.length)) := by
  have eight : 8 ≤ maxBlockSize := by decide
  have received : (recvFrom maxBlockSize d).1 = d.length := Nat.min_eq_left (by omega)
  have nonzero : d.length ≠ 0 := fun zero => nonempty (List.length_eq_zero_iff.mp zero)
  obtain ⟨payload, decoded⟩ := UdpStopAndWait.buffer_decodes d
  have wraps : Profile.sub .release d.length 8 = some (2 ^ 64 - (8 - d.length)) := by
    rw [Profile.sub, Option.some.injEq]
    omega
  have panics : Profile.sub .debug d.length 8 = none := if_neg (by omega)
  cases profile with
  | debug =>
      simp only [udpStopAndWaitServer, UdpStopAndWait.handleDatagram, received, if_neg nonzero,
        decoded, panics]
  | release =>
      simp only [udpStopAndWaitServer, UdpStopAndWait.handleDatagram, received, if_neg nonzero,
        decoded, wraps]

/-! ## The counter -/

/-- `stats.bytes_received`, as a `u64`. -/
def bytesReceived (s : ReportLoop) : UInt64 := UInt64.ofNat s.stats.bytesReceived

/-- The data bytes that came since the last report, in the datagrams which have room for a
    number. -/
def dataBytesSinceReport (arrivals : List Arrival) : Nat :=
  (((Batches.ofStream ReportServer.endsTransfer arrivals).current.filter fun x =>
    8 ≤ x.datagram.length).map fun x => x.datagram.length - 8).sum

theorem sum_long (batch : List Arrival) :
    ((batch.filter fun x => 8 ≤ x.datagram.length).map fun x => x.datagram.length - 8).sum =
      (batch.map fun x => x.datagram.length - 8).sum := by
  induction batch with
  | nil => rfl
  | cons x batch ih =>
      by_cases long : 8 ≤ x.datagram.length
      · simp [long, ih]
      · have blank : x.datagram.length - 8 = 0 := by omega
        simp [long, ih, blank]

/-- The loop is where it should be behind `arrivals`: it runs, no subtraction has
    underflowed, and it has counted the data bytes. -/
structure Sound (profile : Profile) (arrivals : List Arrival) : Prop where
  running : ((udpStopAndWaitServer profile).run arrivals).outcome = .running
  exact : ∀ x ∈ arrivals, (recvFrom maxBlockSize x.datagram).1 ≠ 0 →
    8 ≤ (recvFrom maxBlockSize x.datagram).1
  counted : (bytesReceived ((udpStopAndWaitServer profile).run arrivals)).toNat =
    dataBytesSinceReport arrivals

/-- Empty, or with room for a number. -/
def Sized (d : Bytes) : Prop := d = [] ∨ 8 ≤ d.length

theorem current_sublist (arrivals : List Arrival) :
    ((Batches.ofStream ReportServer.endsTransfer arrivals).current).Sublist arrivals := by
  induction arrivals using List.reverseRecOn with
  | nil => exact .slnil
  | append_singleton pre x ih =>
      rw [Batches.ofStream, Batches.addAll_append]
      cases ends : ReportServer.endsTransfer x with
      | true =>
          rw [Batches.addAll_marker ends]
          exact List.nil_sublist _
      | false =>
          rw [Batches.addAll_unmarked (by simpa using ends)]
          exact ih.append (List.Sublist.refl _)

theorem dataBytesSinceReport_le (arrivals : List Arrival) :
    dataBytesSinceReport arrivals ≤ (arrivals.map fun x => x.datagram.length).sum := by
  rw [dataBytesSinceReport, sum_long]
  have batch := (current_sublist arrivals).map fun x => x.datagram.length - 8
  have le := batch.sum_le_sum fun _ _ => Nat.zero_le _
  refine le.trans (List.sum_le_sum ?_)
  intro x _
  exact Nat.sub_le _ _

section Runs

variable {profile : Profile} {arrivals : List Arrival}

theorem run_sized (profile : Profile)
    (sizes : ∀ x ∈ arrivals, x.datagram.length ≤ maxBlockSize)
    (sized : ∀ x ∈ arrivals, Sized x.datagram) :
    ((udpStopAndWaitServer profile).run arrivals).outcome = .running ∧
      ((udpStopAndWaitServer profile).run arrivals).stats.bytesReceived =
        dataBytesSinceReport arrivals := by
  have formed : (numberedServer profile).WellFormed arrivals := by
    intro x member
    exact (sized x member).imp id fun long => ⟨long, sizes x member⟩
  have run : (udpStopAndWaitServer profile).run arrivals =
      ⟨_, _, .running⟩ := ReportServer.run_eq (numberedServer_contract profile) formed
  rw [run]
  refine ⟨rfl, ?_⟩
  simp only [ReportServer.summary, numberedServer, List.map_map, dataBytesSinceReport, sum_long]
  rfl

theorem sound_of_sized (sizes : ∀ x ∈ arrivals, x.datagram.length ≤ maxBlockSize)
    (total : (arrivals.map fun x => x.datagram.length).sum < 2 ^ 64)
    (sized : ∀ x ∈ arrivals, Sized x.datagram) : Sound profile arrivals := by
  obtain ⟨running, counted⟩ := run_sized profile sizes sized
  have bound := dataBytesSinceReport_le arrivals
  refine ⟨running, ?_, ?_⟩
  · intro x member nonzero
    rw [recvFrom_of_le (sizes x member)] at nonzero ⊢
    cases sized x member with
    | inl empty => exact absurd (congrArg List.length empty) nonzero
    | inr long => exact long
  · have fits : dataBytesSinceReport arrivals < 2 ^ 64 := by omega
    rw [bytesReceived, counted, UInt64.toNat_ofNat_of_lt' fits]

/-- A short datagram shows: in the outcome of a debug build, and in the counter of a release
    build. -/
theorem short_shows {pre : List Arrival} {x : Arrival}
    (sizes : ∀ x ∈ pre, x.datagram.length ≤ maxBlockSize)
    (sized : ∀ x ∈ pre, Sized x.datagram) (nonempty : x.datagram ≠ [])
    (short : x.datagram.length < 8) :
    ((udpStopAndWaitServer profile).run (pre ++ [x])).outcome ≠ .running ∨
      (bytesReceived ((udpStopAndWaitServer profile).run (pre ++ [x]))).toNat ≠
        dataBytesSinceReport (pre ++ [x]) := by
  have counted := (run_sized profile sizes sized).2
  have turn : (udpStopAndWaitServer profile).run (pre ++ [x]) =
      (udpStopAndWaitServer profile).turn ((udpStopAndWaitServer profile).run pre) x :=
    List.foldl_concat ..
  have positive := List.length_pos_of_ne_nil nonempty
  cases profile with
  | debug =>
      left
      rw [turn, turn_short .debug nonempty short]
      simp
  | release =>
      right
      have adds : dataBytesSinceReport (pre ++ [x]) = dataBytesSinceReport pre := by
        have data : ReportServer.endsTransfer x = false :=
          List.isEmpty_eq_false_iff.mpr nonempty
        rw [dataBytesSinceReport, Batches.ofStream, Batches.addAll_append,
          Batches.addAll_unmarked (by simpa using data), List.filter_append]
        simp [short, dataBytesSinceReport, Batches.ofStream]
      rw [turn, turn_short .release nonempty short, adds, bytesReceived, UInt64.toNat_ofNat']
      simp only [ReportLoop.count, ServerStats.count, counted]
      omega

end Runs

/-- Behind every datagram of a stream the server is where it should be, exactly if no datagram
    of the stream is too short to have a number without being empty. -/
theorem hostile_datagrams_iff (profile : Profile) (arrivals : List Arrival)
    (sizes : ∀ x ∈ arrivals, x.datagram.length ≤ 65535)
    (total : (arrivals.map fun x => x.datagram.length).sum < 2 ^ 64) :
    (∀ pre, pre <+: arrivals → Sound profile pre) ↔
      ∀ x ∈ arrivals, x.datagram = [] ∨ 8 ≤ x.datagram.length := by
  constructor
  · induction arrivals using List.reverseRecOn with
    | nil =>
        intro _ x member
        exact absurd member List.not_mem_nil
    | append_singleton pre x ih =>
        intro sound
        have sizes' : ∀ y ∈ pre, y.datagram.length ≤ maxBlockSize := fun y member =>
          sizes y (List.mem_append_left _ member)
        have total' : (pre.map fun x => x.datagram.length).sum < 2 ^ 64 := by
          rw [List.map_append, List.sum_append] at total
          omega
        have before := ih sizes' total' fun front isPrefix =>
          sound front (isPrefix.trans (List.prefix_append pre [x]))
        have here : Sized x.datagram := by
          by_cases nonempty : x.datagram = []
          · exact .inl nonempty
          · right
            by_contra short
            have behind := sound (pre ++ [x]) (List.prefix_refl _)
            cases short_shows sizes' before nonempty (by omega) with
            | inl stopped => exact stopped behind.running
            | inr wrong => exact wrong behind.counted
        intro y member
        cases List.mem_append.mp member with
        | inl old => exact before y old
        | inr new => exact List.mem_singleton.mp new ▸ here
  · intro sized pre isPrefix
    have part : ∀ x ∈ pre, x ∈ arrivals := fun x member => isPrefix.subset member
    have total' : (pre.map fun x => x.datagram.length).sum < 2 ^ 64 := by
      have le := (isPrefix.sublist.map fun x => x.datagram.length).sum_le_sum
        fun _ _ => Nat.zero_le _
      omega
    exact sound_of_sized (fun x member => sizes x (part x member)) total'
      fun x member => sized x (part x member)

/-- A block, a datagram of eight bytes which is no block, and the end. -/
theorem hostile_datagrams_numbered :
    Sound .debug [⟨clientAddr, block 0 1⟩, ⟨⟨1, 2⟩, [1, 2, 3, 4, 5, 6, 7, 8]⟩,
      ⟨clientAddr, []⟩] :=
  (hostile_datagrams_iff .debug _ (by decide +kernel) (by decide +kernel)).mpr
    (by decide +kernel) _ (List.prefix_refl _)

/-- One byte stops a debug build, and makes a release build report almost 2^64 bytes. -/
theorem one_byte_underflows :
    ((udpStopAndWaitServer .debug).run [⟨clientAddr, [0]⟩]).outcome = .panicked ∧
      (bytesReceived ((udpStopAndWaitServer .release).run [⟨clientAddr, [0]⟩])).toNat =
        2 ^ 64 - 7 ∧
      dataBytesSinceReport [⟨clientAddr, [0]⟩] = 0 := by
  have panics := turn_short .debug (d := [0]) (by decide) (by decide) .init clientAddr
  have counts := turn_short .release (d := [0]) (by decide) (by decide) .init clientAddr
  exact ⟨congrArg ReportLoop.outcome panics,
    congrArg (fun s => (bytesReceived s).toNat) counts, rfl⟩

end PcdLab.Reports
