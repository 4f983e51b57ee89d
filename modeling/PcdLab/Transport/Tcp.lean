import PcdLab.Lib.Output
import PcdLab.Client.File
import PcdLab.Shared.Socket

/-! # The TCP transport

Each block travels as a frame: its length in four bytes, then the block. A frame
of length zero ends the transfer. The server loop trusts nothing but the stream,
so the round trip below holds of every byte at which a connection can be cut.

The `u64` counters of both sides are natural numbers here: to wrap one of them a
program would have to send 2^64 bytes, or make a server in the release profile
underflow. Behind such an underflow a line stands for its remainder modulo 2^64.
-/

namespace PcdLab.Transport

open Shared.Wire Shared.Socket Lib Lib.Slices Client.File

/-- The counters which a client returns. -/
structure ClientStats where
  packetsSent : Nat
  bytesSent : Nat
  deriving Repr, DecidableEq

/-- The counters which a server keeps for a report. -/
structure ServerStats where
  packetsReceived : Nat
  bytesReceived : Nat
  deriving Repr, DecidableEq

/-- `Stats::default()`, and the zeros which every client starts from. -/
def ClientStats.zero : ClientStats := ⟨0, 0⟩

def ServerStats.default : ServerStats := ⟨0, 0⟩

/-- One more packet, of `bytes` data bytes. -/
def ClientStats.count (s : ClientStats) (bytes : Nat) : ClientStats :=
  ⟨s.packetsSent + 1, s.bytesSent + bytes⟩

def ServerStats.count (s : ServerStats) (bytes : Nat) : ServerStats :=
  ⟨s.packetsReceived + 1, s.bytesReceived + bytes⟩

/-- The counters once every one of `chunks` has been counted too. -/
def ClientStats.countAll (s : ClientStats) (chunks : List Bytes) : ClientStats :=
  ⟨s.packetsSent + chunks.length, s.bytesSent + (chunks.map List.length).sum⟩

def ServerStats.countAll (s : ServerStats) (chunks : List Bytes) : ServerStats :=
  ⟨s.packetsReceived + chunks.length, s.bytesReceived + (chunks.map List.length).sum⟩

theorem ClientStats.count_countAll (s : ClientStats) (chunk : Bytes) (chunks : List Bytes) :
    (s.count chunk.length).countAll chunks = s.countAll (chunk :: chunks) := by
  simp only [countAll, count, List.length_cons, List.map_cons, List.sum_cons, mk.injEq]
  omega

theorem ServerStats.count_countAll (s : ServerStats) (chunk : Bytes) (chunks : List Bytes) :
    (s.count chunk.length).countAll chunks = s.countAll (chunk :: chunks) := by
  simp only [countAll, count, List.length_cons, List.map_cons, List.sum_cons, mk.injEq]
  omega

/-- What a complete transfer adds up to: one packet a block, and every byte of the file once. -/
theorem ClientStats.countAll_blocks (file : DataFile) (b : BlockSize) :
    zero.countAll (file.blocks b) = ⟨file.buffer.length ⌈/⌉ b.val, file.buffer.length⟩ := by
  simp only [countAll, zero, DataFile.length_blocks, DataFile.sum_length_blocks, Nat.zero_add]

theorem ServerStats.countAll_blocks (file : DataFile) (b : BlockSize) :
    default.countAll (file.blocks b) = ⟨file.buffer.length ⌈/⌉ b.val, file.buffer.length⟩ := by
  simp only [countAll, default, DataFile.length_blocks, DataFile.sum_length_blocks, Nat.zero_add]

namespace Tcp

-- The output of these is the byte stream of the connection.
abbrev connect : Output.Program UInt8 IoError Unit := Output.act
abbrev writeAll : Bytes → Output.Program UInt8 IoError Unit := Output.write
abbrev flush : Output.Program UInt8 IoError Unit := Output.act
abbrev shutdown : Output.Program UInt8 IoError Unit := Output.act

/-- The loop of `handle_tcp` over the chunks. -/
def sendChunks : List Bytes → ClientStats → Output.Program UInt8 IoError ClientStats
  | [], stats => pure stats
  | chunk :: chunks, stats => do
      writeAll (LenHeader.toBytes ⟨chunk.length⟩)
      writeAll chunk
      flush
      sendChunks chunks (stats.count chunk.length)

def handleTcp (file : DataFile) (blockSize : BlockSize) :
    Output.Program UInt8 IoError ClientStats := do
  connect
  let stats ← sendChunks (file.blocks blockSize) .zero
  flush
  writeAll (LenHeader.toBytes ⟨0⟩)
  shutdown
  return stats

/-- How `handle_connection` ended: what it returns, what its buffers held in turn, and
    what it left unread. -/
structure Connection where
  stats : ServerStats
  bufs : List Bytes
  unread : Bytes
  deriving Repr, DecidableEq

def handleConnection.loop (stats : ServerStats) (bufs : List Bytes) (socket : Bytes) :
    Except IoError Connection :=
  match _header : readExact 4 socket with
  | .error e => .error e
  | .ok (lenHeaderBytes, socket₁) =>
      let lenHeader := LenHeader.fromBytes lenHeaderBytes
      if lenHeader.len = 0 then .ok ⟨stats, bufs, socket₁⟩
      else
        match _payload : readExact lenHeader.len socket₁ with
        | .error e => .error e
        | .ok (buf, socket₂) => loop (stats.count buf.length) (bufs ++ [buf]) socket₂
termination_by socket.length
decreasing_by
  obtain ⟨rfl, four⟩ := readExact_ok _header
  obtain ⟨rfl, -⟩ := readExact_ok _payload
  simp only [List.length_append]
  omega

/-- The server side of one connection, on the bytes which arrive before the end of stream. -/
def handleConnection (socket : Bytes) : Except IoError Connection :=
  handleConnection.loop .default [] socket

/-! ## The stream which the client writes -/

def frame (chunk : Bytes) : Bytes := LenHeader.toBytes ⟨chunk.length⟩ ++ chunk

def terminator : Bytes := LenHeader.toBytes ⟨0⟩

/-- The whole stream of a transfer. -/
def stream (chunks : List Bytes) : Bytes := chunks.flatMap frame ++ terminator

theorem stream_cons (chunk : Bytes) (chunks : List Bytes) :
    stream (chunk :: chunks) = LenHeader.toBytes ⟨chunk.length⟩ ++ (chunk ++ stream chunks) := by
  simp only [stream, List.flatMap_cons, frame, List.append_assoc]

theorem sendChunks_writes (chunks : List Bytes) (stats : ClientStats) :
    Output.Writes (sendChunks chunks stats) (chunks.flatMap frame) (stats.countAll chunks) := by
  induction chunks generalizing stats with
  | nil => exact .pure stats
  | cons chunk chunks ih =>
      have rest := ih (stats.count chunk.length)
      rw [ClientStats.count_countAll] at rest
      have whole : Output.Writes (sendChunks (chunk :: chunks) stats)
          (LenHeader.toBytes ⟨chunk.length⟩ ++ (chunk ++ ([] ++ chunks.flatMap frame)))
          (stats.countAll (chunk :: chunks)) :=
        .bind (.write _) (.bind (.write _) (.bind .act rest))
      simpa only [List.flatMap_cons, frame, List.nil_append, List.append_assoc] using whole

/-- Whatever fails, the client has written a prefix of the stream, and all of it on success. -/
theorem handleTcp_writes (file : DataFile) (b : BlockSize) :
    Output.Writes (handleTcp file b) (stream (file.blocks b))
      (ClientStats.zero.countAll (file.blocks b)) := by
  have sent := sendChunks_writes (file.blocks b) .zero
  have whole : Output.Writes (handleTcp file b)
      ([] ++ ((file.blocks b).flatMap frame ++ ([] ++ (LenHeader.toBytes ⟨0⟩ ++ ([] ++ [])))))
      (ClientStats.zero.countAll (file.blocks b)) :=
    .bind .act (.bind sent (.bind .act (.bind (.write _) (.bind .act (.pure _)))))
  simpa only [stream, terminator, List.nil_append, List.append_nil] using whole

/-! ## What the server makes of it -/

/-- A block whose length the header can carry, and which is no terminator. -/
def Framable (chunk : Bytes) : Prop := 0 < chunk.length ∧ chunk.length < 2 ^ 32

theorem block_framable {file : DataFile} {b : BlockSize} {chunk : Bytes}
    (member : chunk ∈ file.blocks b) : Framable chunk := by
  obtain ⟨nonempty, fits⟩ := DataFile.block_mem member
  exact ⟨List.length_pos_of_ne_nil nonempty, Nat.lt_of_le_of_lt fits b.u32⟩

theorem header_len {chunk : Bytes} (h : Framable chunk) :
    (LenHeader.fromBytes (LenHeader.toBytes ⟨chunk.length⟩)).len = chunk.length := by
  rw [LenHeader.fromBytes_toBytes]
  exact Nat.mod_eq_of_lt h.2

/-- One turn of the server loop, as the two reads it makes. -/
theorem loop_eq (stats : ServerStats) (bufs : List Bytes) (socket : Bytes) :
    handleConnection.loop stats bufs socket = (readExact 4 socket).bind fun (header, socket₁) =>
      if (LenHeader.fromBytes header).len = 0 then .ok ⟨stats, bufs, socket₁⟩
      else (readExact (LenHeader.fromBytes header).len socket₁).bind fun (buf, socket₂) =>
        handleConnection.loop (stats.count buf.length) (bufs ++ [buf]) socket₂ := by
  rw [handleConnection.loop]
  split
  · rename_i e failed
    rw [failed]
    rfl
  · rename_i header socket₁ read
    rw [read]
    simp only [Except.bind]
    split
    · rfl
    · split
      · rename_i e failed
        rw [failed]
      · rename_i buf socket₂ read'
        rw [read']

theorem loop_frame {chunk : Bytes} (h : Framable chunk) (stats : ServerStats) (bufs : List Bytes)
    (rest : Bytes) :
    handleConnection.loop stats bufs (LenHeader.toBytes ⟨chunk.length⟩ ++ (chunk ++ rest)) =
      handleConnection.loop (stats.count chunk.length) (bufs ++ [chunk]) rest := by
  have header : readExact 4 (LenHeader.toBytes ⟨chunk.length⟩ ++ (chunk ++ rest)) =
      .ok (LenHeader.toBytes ⟨chunk.length⟩, chunk ++ rest) :=
    readExact_append (LenHeader.length_toBytes _)
  have payload : readExact chunk.length (chunk ++ rest) = .ok (chunk, rest) :=
    readExact_append rfl
  rw [loop_eq, header]
  simp only [Except.bind, header_len h, if_neg (Nat.ne_of_gt h.1), payload]

theorem loop_terminator (stats : ServerStats) (bufs : List Bytes) (rest : Bytes) :
    handleConnection.loop stats bufs (terminator ++ rest) = .ok ⟨stats, bufs, rest⟩ := by
  have header : readExact 4 (LenHeader.toBytes ⟨0⟩ ++ rest) = .ok (LenHeader.toBytes ⟨0⟩, rest) :=
    readExact_append (LenHeader.length_toBytes _)
  have zero : (LenHeader.fromBytes (LenHeader.toBytes ⟨0⟩)).len = 0 := by
    rw [LenHeader.fromBytes_toBytes]
    rfl
  rw [loop_eq, terminator, header]
  simp only [Except.bind, zero, if_true]

theorem loop_stream {chunks : List Bytes} (h : ∀ chunk ∈ chunks, Framable chunk)
    (stats : ServerStats) (bufs : List Bytes) (rest : Bytes) :
    handleConnection.loop stats bufs (stream chunks ++ rest) =
      .ok ⟨stats.countAll chunks, bufs ++ chunks, rest⟩ := by
  induction chunks generalizing stats bufs with
  | nil =>
      simp only [stream, List.flatMap_nil, List.nil_append, loop_terminator, ServerStats.countAll,
        List.length_nil, List.map_nil, List.sum_nil, Nat.add_zero, List.append_nil]
  | cons chunk chunks ih =>
      obtain ⟨here, later⟩ := List.forall_mem_cons.mp h
      rw [stream_cons, List.append_assoc, List.append_assoc, loop_frame here, ih later,
        ServerStats.count_countAll, List.append_assoc, List.singleton_append]

theorem loop_short {socket : Bytes} (short : socket.length < 4) (stats : ServerStats)
    (bufs : List Bytes) : handleConnection.loop stats bufs socket = .error .unexpectedEof := by
  rw [loop_eq, readExact_short short]
  rfl

theorem loop_cut_payload {chunk part : Bytes} (h : Framable chunk)
    (cut : part.length < chunk.length) (stats : ServerStats) (bufs : List Bytes) :
    handleConnection.loop stats bufs (LenHeader.toBytes ⟨chunk.length⟩ ++ part) =
      .error .unexpectedEof := by
  have header : readExact 4 (LenHeader.toBytes ⟨chunk.length⟩ ++ part) =
      .ok (LenHeader.toBytes ⟨chunk.length⟩, part) := readExact_append (LenHeader.length_toBytes _)
  rw [loop_eq, header]
  simp only [Except.bind, header_len h, if_neg (Nat.ne_of_gt h.1), readExact_short cut]

/-- A list that starts as `front ++ rest` does has stopped inside `front`, or goes on in `rest`. -/
theorem prefix_append_cases {part front rest : Bytes} (isPrefix : part <+: front ++ rest) :
    part.length < front.length ∨ ∃ later, part = front ++ later ∧ later <+: rest := by
  by_cases short : part.length < front.length
  · exact .inl short
  · have started : front <+: part :=
      List.prefix_of_prefix_length_le (List.prefix_append front rest) isPrefix (by omega)
    obtain ⟨later, rfl⟩ := started
    exact .inr ⟨later, rfl, (List.prefix_append_right_inj front).mp isPrefix⟩

/-- Wherever the stream is cut, in a header, in a payload or between two frames, the
    server reports nothing. The induction follows the frames which arrived whole. -/
theorem loop_cut {chunks : List Bytes} (h : ∀ chunk ∈ chunks, Framable chunk) {part : Bytes}
    (isPrefix : part <+: stream chunks) (cut : part ≠ stream chunks) (stats : ServerStats)
    (bufs : List Bytes) : handleConnection.loop stats bufs part = .error .unexpectedEof := by
  induction chunks generalizing part stats bufs with
  | nil =>
      have shorter : part.length < (stream []).length :=
        Nat.lt_of_le_of_ne isPrefix.length_le fun same => cut (isPrefix.eq_of_length same)
      exact loop_short (by simpa [stream, terminator] using shorter) stats bufs
  | cons chunk chunks ih =>
      obtain ⟨here, later⟩ := List.forall_mem_cons.mp h
      rw [stream_cons] at isPrefix cut
      rcases prefix_append_cases isPrefix with short | ⟨afterHeader, rfl, inFrame⟩
      · exact loop_short (by simpa using short) stats bufs
      · rcases prefix_append_cases inFrame with short | ⟨afterFrame, rfl, inRest⟩
        · exact loop_cut_payload here short stats bufs
        · rw [loop_frame here]
          exact ih later inRest (fun same => cut (same ▸ rfl)) _ _

/-- A transfer is reported iff it arrived completely: the stream which the client writes
    is reported with the client's own counters and read to its end, block by block, and no
    strict prefix of it is reported at all. -/
theorem tcp_reported_iff_complete (file : DataFile) (b : BlockSize) :
    ∃ stats s, handleTcp file b {} = .ok stats s ∧
      stats = ⟨file.buffer.length ⌈/⌉ b.val, file.buffer.length⟩ ∧
      handleConnection s.written =
        .ok ⟨⟨stats.packetsSent, stats.bytesSent⟩, slices b.val file.buffer, []⟩ ∧
      ∀ part, part <+: s.written → part ≠ s.written →
        handleConnection part = .error .unexpectedEof := by
  obtain ⟨s, ran, wrote⟩ := (handleTcp_writes file b).clean
  have framable : ∀ chunk ∈ file.blocks b, Framable chunk := fun _ member => block_framable member
  refine ⟨_, s, ran, ClientStats.countAll_blocks file b, ?_, ?_⟩
  · have read := loop_stream framable .default [] []
    rw [List.append_nil, ServerStats.countAll_blocks, List.nil_append] at read
    rw [handleConnection, wrote, read, ClientStats.countAll_blocks, DataFile.blocks_eq_slices]
  · intro part isPrefix cut
    rw [wrote] at isPrefix cut
    exact loop_cut framable isPrefix cut .default []

end Tcp

end PcdLab.Transport
