import PcdLab.StopAndWait.Exposed
import PcdLab.StopAndWait.Invariant

/-! # Which blocks fit

The command line bounds the block size as if a datagram were a block. It is one for
`handle_udp`, but the stop-and-wait client puts eight bytes in front of each block,
so its longest datagrams are cut by the receive buffer of the server.
-/

namespace PcdLab.StopAndWait

open Shared.Wire Shared.Socket Transport Lib Lib.Runs Client.File

/-- `range(1..65535)` of `Args::block_size`. -/
def Accepted (blockSize : BlockSize) : Prop := 1 ≤ blockSize.val ∧ blockSize.val < 65535

/-- A datagram is received whole by `start_udp_server`, and counted with all its bytes. -/
def Udp.Fits (d : Bytes) : Prop :=
  d.length ≤ maxBlockSize ∧
    (d ≠ [] → ∀ s addr, Udp.startUdpServer s ⟨addr, d⟩ = s.count d.length)

/-- The same for `handle_udp_stop_and_wait`, which counts the bytes behind the number. -/
def UdpStopAndWait.Fits (profile : Profile) (d : Bytes) : Prop :=
  d.length ≤ maxBlockSize ∧ ∀ p : UdpPayload, d = p.toBytes → ∀ s addr,
    (UdpStopAndWait.handleDatagram profile s ⟨addr, d⟩ none).1 = s.count p.data.length

theorem Udp.fits_of_le {d : Bytes} (le : d.length ≤ maxBlockSize) : Udp.Fits d := by
  refine ⟨le, fun full s addr => ?_⟩
  have nonzero : d.length ≠ 0 := fun zero => full (List.length_eq_zero_iff.mp zero)
  simp only [Udp.startUdpServer, recvFrom_of_le le, if_neg nonzero]

/-- The server decodes its buffer, which is never too short. -/
theorem UdpStopAndWait.buffer_decodes (d : Bytes) :
    ∃ payload, UdpPayload.fromBytes (recvFrom maxBlockSize d).2 = some payload := by
  have long : 8 ≤ (recvFrom maxBlockSize d).2.length := by
    rw [length_recvFrom]
    decide
  obtain ⟨payload, decoded, -⟩ := UdpPayload.toBytes_fromBytes long
  exact ⟨payload, decoded⟩

/-- The number in front of a datagram survives both the cut and the padding. -/
theorem UdpStopAndWait.buffer_seq {d : Bytes} {p : UdpPayload}
    (decoded : UdpPayload.fromBytes d = some p) :
    ∃ payload, UdpPayload.fromBytes (recvFrom maxBlockSize d).2 = some payload ∧
      payload.seq = p.seq := by
  have long : 8 ≤ d.length := by
    by_contra short
    rw [(UdpPayload.fromBytes_eq_none d).mpr (by omega)] at decoded
    cases decoded
  have kept : 8 ≤ (d.take maxBlockSize).length := by
    rw [List.length_take]
    exact Nat.le_min.mpr ⟨by decide, long⟩
  have front : (recvFrom maxBlockSize d).2.take 8 = d.take 8 := by
    rw [recvFrom, List.take_append_of_le_length kept, List.take_take]
    rfl
  have number : seqFromBytes (recvFrom maxBlockSize d).2 = seqFromBytes d := by
    simp only [seqFromBytes, front]
  obtain ⟨seq, same, rfl⟩ := Option.map_eq_some_iff.mp decoded
  refine ⟨⟨seq, (recvFrom maxBlockSize d).2.drop 8⟩, ?_, rfl⟩
  rw [UdpPayload.fromBytes, number, same, Option.map_some]

/-- A datagram with a number is acknowledged under it, and all but eight of the bytes which
    were received are counted. -/
theorem UdpStopAndWait.handleDatagram_eq (profile : Profile) {d : Bytes} {p : UdpPayload}
    (decoded : UdpPayload.fromBytes d = some p) (s : ReportLoop) (addr : SocketAddr)
    (r : Option IoError) :
    UdpStopAndWait.handleDatagram profile s ⟨addr, d⟩ r =
      match r with
      | none => (s.count (min d.length maxBlockSize - 8), some (addr, UdpAck.toBytes ⟨p.seq⟩))
      | some e => ({ s with outcome := .err e }, none) := by
  have long : 8 ≤ d.length := by
    by_contra short
    rw [(UdpPayload.fromBytes_eq_none d).mpr (by omega)] at decoded
    cases decoded
  have eight : 8 ≤ maxBlockSize := by decide
  have received : (recvFrom maxBlockSize d).1 = min d.length maxBlockSize := rfl
  have nonzero : min d.length maxBlockSize ≠ 0 := by omega
  obtain ⟨payload, buffered, number⟩ := buffer_seq decoded
  have bound : min d.length maxBlockSize < 2 ^ 64 := by
    unfold maxBlockSize
    omega
  have data := profile.sub_of_le (by omega : 8 ≤ min d.length maxBlockSize) bound
  cases r with
  | none =>
      simp only [UdpStopAndWait.handleDatagram, received, if_neg nonzero, buffered, data, number]
  | some e => simp only [UdpStopAndWait.handleDatagram, received, if_neg nonzero, buffered]

/-- What a server without an error to report counts: all but eight bytes of what it received. -/
theorem UdpStopAndWait.handleDatagram_count (profile : Profile) {d : Bytes} (long : 8 ≤ d.length)
    (s : ReportLoop) (addr : SocketAddr) :
    (UdpStopAndWait.handleDatagram profile s ⟨addr, d⟩ none).1 =
      s.count (min d.length maxBlockSize - 8) := by
  obtain ⟨p, decoded, -⟩ := UdpPayload.toBytes_fromBytes long
  rw [handleDatagram_eq profile decoded]

theorem UdpStopAndWait.fits_iff (profile : Profile) (p : UdpPayload) :
    UdpStopAndWait.Fits profile p.toBytes ↔ 8 + p.data.length ≤ maxBlockSize := by
  have size : p.toBytes.length = 8 + p.data.length := p.length_toBytes
  constructor
  · intro fits
    rw [← size]
    exact fits.1
  · intro le
    refine ⟨size ▸ le, ?_⟩
    intro q same s addr
    cases UdpPayload.toBytes_injective same
    rw [handleDatagram_count profile (by omega) s addr, size, Nat.min_eq_left le,
      Nat.add_sub_cancel_left]

/-- The client's first step. -/
theorem exposed_sends_first (P : Pair ReportLoop) {file : DataFile} (b : BlockSize)
    (full : file.buffer ≠ []) :
    ∃ s, Reach P.clientStep anyStep (.start file b) s ∧
      s.sent = [UdpPayload.toBytes ⟨0, file.buffer.take b.val⟩] := by
  obtain ⟨later, blocks⟩ := DataFile.blocks_of_ne_nil b full
  have phase : (Exposed.start file b).client.phase =
      .sending 0 ⟨0, file.buffer.take b.val⟩ := by
    simp only [Exposed.start, Client.start, blocks, Client.nextBlock]
  have moved : P.clientStep (.start file b) .send = some
      ⟨(Exposed.start file b).client.sent 0 ⟨0, file.buffer.take b.val⟩,
        [UdpPayload.toBytes ⟨0, file.buffer.take b.val⟩]⟩ := by
    simp only [Pair.clientStep, phase]
    rfl
  exact ⟨_, Reach.start.step trivial moved, rfl⟩

/-- All that the two UDP clients send for an accepted block size is received whole, exactly if
    the longest block leaves room for the number in front of it. -/
theorem every_datagram_fits_iff (profile : Profile) (file : DataFile) (b : BlockSize)
    (accepted : Accepted b) :
    (∀ script, ∀ d ∈ Output.output (Udp.handleUdp file b) script, Udp.Fits d) ∧
        (∀ s, Reach (udpStopAndWait profile).clientStep anyStep (.start file b) s →
          ∀ d ∈ s.sent, UdpStopAndWait.Fits profile d) ↔
      8 + min b.val file.buffer.length ≤ maxBlockSize := by
  have small : b.val ≤ maxBlockSize := Nat.le_of_lt accepted.2
  constructor
  · rintro ⟨-, fits⟩
    by_cases empty : file.buffer = []
    · rw [empty, List.length_nil, Nat.min_zero]
      decide
    · obtain ⟨s, reached, sent⟩ := exposed_sends_first (udpStopAndWait profile) b empty
      have first := fits s reached _ (sent ▸ List.mem_singleton.mpr rfl)
      rw [UdpStopAndWait.fits_iff, List.length_take] at first
      exact first
  · intro room
    constructor
    · intro script d member
      apply Udp.fits_of_le
      have whole := ((Udp.handleUdp_writes file b).output_beginning script).subset member
      cases List.mem_append.mp whole with
      | inl block => exact (DataFile.block_mem block).2.trans small
      | inr ended =>
          cases List.mem_singleton.mp ended
          exact Nat.zero_le _
    · intro s reached d member
      cases (Emits.reach reached).sent d member with
      | inl block =>
          obtain ⟨p, block, rfl⟩ := block
          rw [UdpStopAndWait.fits_iff]
          have size := DataFile.block_mem_le block
          omega
      | inr ended =>
          obtain ⟨seq, rfl⟩ := ended
          refine ⟨Nat.zero_le _, ?_⟩
          intro p same
          have size := congrArg List.length same
          rw [UdpPayload.length_toBytes, udp_endMarker, List.length_nil] at size
          omega

/-- A file of two bytes, in blocks of the default size. -/
theorem every_datagram_fits_two_bytes :
    (∀ script, ∀ d ∈ Output.output (Udp.handleUdp twoBlocks defaultBlockSize) script, Udp.Fits d) ∧
      ∀ s, Reach (udpStopAndWait .release).clientStep anyStep
          (.start twoBlocks defaultBlockSize) s →
        ∀ d ∈ s.sent, UdpStopAndWait.Fits .release d :=
  (every_datagram_fits_iff .release twoBlocks defaultBlockSize (by unfold Accepted; decide)).mpr
    (by decide)

/-! ## A block that does not fit -/

/-- As many bytes as there are in one block of the size below. -/
def longFile : DataFile := ⟨List.replicate 65528 0, by rw [List.length_replicate]; decide⟩

def longBlocks : BlockSize := ⟨65528, by decide, by decide⟩

/-- The block size is accepted, and the server counts one byte less than the client has sent. -/
theorem longest_blocks_cut : Accepted longBlocks ∧
    ∃ s, Reach (udpStopAndWait .release).clientStep anyStep (.start longFile longBlocks) s ∧
      ∃ p : UdpPayload, s.sent = [p.toBytes] ∧ p.data.length = 65528 ∧
        ¬ p.toBytes.length ≤ maxBlockSize ∧
        ∀ server addr, (UdpStopAndWait.handleDatagram .release server ⟨addr, p.toBytes⟩ none).1 =
          server.count 65527 := by
  have size : longFile.buffer.length = 65528 := List.length_replicate
  have full : longFile.buffer ≠ [] := by
    intro empty
    rw [empty, List.length_nil] at size
    omega
  obtain ⟨s, reached, sent⟩ := exposed_sends_first (udpStopAndWait .release) longBlocks full
  have data : (longFile.buffer.take longBlocks.val).length = 65528 := by
    rw [List.length_take, size]
    rfl
  have length := UdpPayload.length_toBytes ⟨0, longFile.buffer.take longBlocks.val⟩
  simp only [data] at length
  refine ⟨by unfold Accepted; decide, s, reached, _, sent, data, ?_, ?_⟩
  · unfold maxBlockSize
    omega
  · intro server addr
    rw [UdpStopAndWait.handleDatagram_count .release (by omega) server addr, length]
    rfl

end PcdLab.StopAndWait
