import PcdLab.Transport.Tcp

/-! # What the TCP server accepts

The server reads any stream, not only that of its own client. The streams it reports
are those of a grammar: frames of nonzero length, a zero header, and anything behind
it. A stream has at most one such reading, and the server finds it.
-/

namespace PcdLab.Transport.Tcp

open Shared.Wire Shared.Socket Lib

/-- The stream is a sequence of frames with these payloads, a terminator, and a rest. -/
def Parses (s : Bytes) (payloads : List Bytes) (rest : Bytes) : Prop :=
  (∀ payload ∈ payloads, Framable payload) ∧ s = stream payloads ++ rest

theorem Parses.nil (rest : Bytes) : Parses (terminator ++ rest) [] rest :=
  ⟨fun _ member => absurd member List.not_mem_nil, rfl⟩

theorem Parses.cons {s payload rest : Bytes} {payloads : List Bytes} (framable : Framable payload)
    (later : Parses s payloads rest) :
    Parses (LenHeader.toBytes ⟨payload.length⟩ ++ (payload ++ s)) (payload :: payloads) rest := by
  obtain ⟨each, rfl⟩ := later
  refine ⟨List.forall_mem_cons.mpr ⟨framable, each⟩, ?_⟩
  rw [stream_cons, List.append_assoc, List.append_assoc]

/-- A header is the encoding of the length which it decodes to. -/
theorem header_eq {header : Bytes} (four : header.length = 4) :
    header = LenHeader.toBytes ⟨(LenHeader.fromBytes header).len⟩ :=
  (LenHeader.toBytes_fromBytes four).symm

theorem header_lt {header : Bytes} (four : header.length = 4) :
    (LenHeader.fromBytes header).len < 2 ^ 32 := by
  have bound := LittleEndian.decode_lt header
  rwa [four] at bound

/-- The reads of a turn that reports, told apart by what the header says. -/
theorem loop_turn {stats : ServerStats} {bufs : List Bytes} {socket : Bytes} {c : Connection}
    (reports : handleConnection.loop stats bufs socket = .ok c) :
    (socket = terminator ++ c.unread ∧ c = ⟨stats, bufs, c.unread⟩) ∨
      ∃ payload later, Framable payload ∧
        socket = LenHeader.toBytes ⟨payload.length⟩ ++ (payload ++ later) ∧
        handleConnection.loop (stats.count payload.length) (bufs ++ [payload]) later = .ok c := by
  rw [loop_eq] at reports
  cases headerRead : readExact 4 socket with
  | error e =>
      rw [headerRead] at reports
      cases reports
  | ok read =>
      obtain ⟨header, behind⟩ := read
      obtain ⟨rfl, four⟩ := readExact_ok headerRead
      simp only [headerRead, Except.bind] at reports
      by_cases zero : (LenHeader.fromBytes header).len = 0
      · left
        rw [if_pos zero] at reports
        cases reports
        have ends : header = terminator := by
          rw [header_eq four, zero]
          rfl
        exact ⟨by rw [ends], rfl⟩
      · right
        rw [if_neg zero] at reports
        cases payloadRead : readExact (LenHeader.fromBytes header).len behind with
        | error e =>
            rw [payloadRead] at reports
            cases reports
        | ok read =>
            obtain ⟨payload, later⟩ := read
            obtain ⟨rfl, size⟩ := readExact_ok payloadRead
            simp only [payloadRead] at reports
            refine ⟨payload, later, ⟨by omega, size ▸ header_lt four⟩, ?_, reports⟩
            rw [size, ← header_eq four]

/-- Soundness: what is reported was framed so. The induction is on the length of the stream. -/
theorem loop_sound (stats : ServerStats) (bufs : List Bytes) (socket : Bytes) {c : Connection}
    (reports : handleConnection.loop stats bufs socket = .ok c) :
    ∃ payloads, Parses socket payloads c.unread ∧ c.bufs = bufs ++ payloads ∧
      c.stats = stats.countAll payloads := by
  induction size : socket.length using Nat.strongRecOn generalizing stats bufs socket with
  | ind n ih =>
      rcases loop_turn reports with ⟨ends, same⟩ | ⟨payload, later, framable, rfl, goes⟩
      · rw [ends, same]
        exact ⟨[], .nil _, (List.append_nil bufs).symm, rfl⟩
      · have shorter : later.length < n := by
          rw [← size, List.length_append, LenHeader.length_toBytes]
          simp only [List.length_append]
          omega
        obtain ⟨payloads, parses, bufs_eq, stats_eq⟩ := ih _ shorter _ _ later goes rfl
        refine ⟨payload :: payloads, parses.cons framable, ?_, ?_⟩
        · rw [bufs_eq, List.append_assoc, List.singleton_append]
        · rw [stats_eq, ServerStats.count_countAll]

/-- Completeness: the server follows a reading to its end. -/
theorem handleConnection_parses {s rest : Bytes} {payloads : List Bytes}
    (parses : Parses s payloads rest) :
    handleConnection s = .ok ⟨ServerStats.default.countAll payloads, payloads, rest⟩ := by
  obtain ⟨each, rfl⟩ := parses
  exact loop_stream each .default [] rest

/-- The only error that the server can return is that the stream ended too early. -/
theorem loop_error (stats : ServerStats) (bufs : List Bytes) (socket : Bytes) {e : IoError}
    (fails : handleConnection.loop stats bufs socket = .error e) : e = .unexpectedEof := by
  induction stats, bufs, socket using handleConnection.loop.induct with
  | case1 stats bufs socket e' failed =>
      rw [loop_eq, failed] at fails
      cases fails
      exact readExact_error failed
  | case2 stats bufs socket header behind read lenHeader zero =>
      rw [loop_eq, read] at fails
      simp only [Except.bind] at fails
      rw [if_pos (show (LenHeader.fromBytes header).len = 0 from zero)] at fails
      cases fails
  | case3 stats bufs socket header behind read lenHeader nonzero e' failed =>
      rw [loop_eq, read] at fails
      simp only [Except.bind] at fails
      rw [if_neg (show (LenHeader.fromBytes header).len ≠ 0 from nonzero), failed] at fails
      cases fails
      exact readExact_error failed
  | case4 stats bufs socket header behind read lenHeader nonzero payload later read' ih =>
      rw [loop_eq, read] at fails
      simp only [Except.bind] at fails
      rw [if_neg (show (LenHeader.fromBytes header).len ≠ 0 from nonzero), read'] at fails
      exact ih fails

/-- The server reports exactly the streams of the grammar, with the number and the bytes of
    their frames. No stream has two readings, and every other stream is an error. -/
theorem tcp_accepts_framing (s : Bytes) :
    (∀ stats, (∃ bufs unread, handleConnection s = .ok ⟨stats, bufs, unread⟩) ↔
      ∃ payloads rest, Parses s payloads rest ∧
        stats = ⟨payloads.length, (payloads.map List.length).sum⟩) ∧
    (∀ payloads payloads' rest rest', Parses s payloads rest → Parses s payloads' rest' →
      payloads = payloads' ∧ rest = rest') ∧
    ((¬ ∃ payloads rest, Parses s payloads rest) →
      handleConnection s = .error .unexpectedEof) := by
  have counted : ∀ payloads, ServerStats.default.countAll payloads =
      ⟨payloads.length, (payloads.map List.length).sum⟩ := by
    intro payloads
    simp only [ServerStats.countAll, ServerStats.default, Nat.zero_add]
  refine ⟨?_, ?_, ?_⟩
  · intro stats
    constructor
    · rintro ⟨bufs, unread, reports⟩
      obtain ⟨payloads, parses, -, same⟩ := loop_sound .default [] s reports
      exact ⟨payloads, unread, parses, same.trans (counted payloads)⟩
    · rintro ⟨payloads, rest, parses, rfl⟩
      exact ⟨payloads, rest, counted payloads ▸ handleConnection_parses parses⟩
  · intro payloads payloads' rest rest' first second
    have same := (handleConnection_parses first).symm.trans (handleConnection_parses second)
    simp only [Except.ok.injEq, Connection.mk.injEq] at same
    exact same.2
  · intro unparsed
    cases result : handleConnection s with
    | error e => rw [loop_error .default [] s result]
    | ok c =>
        obtain ⟨payloads, parses, -⟩ := loop_sound .default [] s result
        exact absurd ⟨payloads, c.unread, parses⟩ unparsed

end PcdLab.Transport.Tcp
