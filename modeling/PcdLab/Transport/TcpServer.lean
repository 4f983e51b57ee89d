import PcdLab.Lib.Tasks
import PcdLab.Transport.Connections
import PcdLab.Transport.Framing

/-! # The TCP server

`start_tcp_server` accepts connections and spawns a task for each. The stream of a
connection does not come in one piece: each poll of the socket hands over what has
arrived, in whatever portions, and meanwhile the other tasks run. Each task still
prints what `handle_connection` makes of the whole stream of its own connection.
-/

namespace PcdLab.Transport

open Shared.Wire Shared.Socket Lib Lib.Runs Client.File

/-- What a spawned task prints once `handle_connection` has returned. -/
inductive Line where
  | report (stats : ServerStats)
  | error (e : IoError)
  deriving Repr, DecidableEq

def Line.ofOutcome : Outcome IoError ServerStats → Option Line
  | .ok stats => some (.report stats)
  | .err e => some (.error e)
  | _ => none

namespace Tcp

/-! ## A task -/

/-- The `read_exact` which a task is in, with what it has filled of its buffer so far. -/
inductive ReadExact where
  | header (filled : Bytes)
  | payload (len : Nat) (filled : Bytes)
  deriving Repr, DecidableEq

/-- The bytes which the buffer still lacks. -/
def ReadExact.missing : ReadExact → Nat
  | .header filled => 4 - filled.length
  | .payload len filled => len - filled.length

/-- `handle_connection` between two polls of its socket: its counters, the buffers it has
    filled, and the socket with what has arrived and is not read. -/
structure Task where
  stats : ServerStats
  bufs : List Bytes
  reading : ReadExact
  outcome : Outcome IoError ServerStats
  inbound : Bytes
  closed : Bool
  deriving Repr, DecidableEq

def Task.start : Task := ⟨.default, [], .header [], .running, [], false⟩

/-- The portion goes into the buffer. A full buffer ends the `read_exact`, and the loop goes on
    to the next one, or leaves behind a header of zero. -/
def Task.fill (t : Task) (part : Bytes) : Task :=
  match t.reading with
  | .header filled =>
      let lenHeaderBytes := filled ++ part
      if lenHeaderBytes.length < 4 then { t with reading := .header lenHeaderBytes }
      else
        let lenHeader := LenHeader.fromBytes lenHeaderBytes
        if lenHeader.len = 0 then { t with outcome := .ok t.stats }
        else { t with reading := .payload lenHeader.len [] }
  | .payload len filled =>
      let buf := filled ++ part
      if buf.length < len then { t with reading := .payload len buf }
      else
        { t with
          stats := t.stats.count buf.length, bufs := t.bufs ++ [buf], reading := .header [] }

inductive SocketEvent where
  /-- Bytes of the peer arrive, or the end of its stream. -/
  | arrive (bytes : Bytes)
  | shutdown
  /-- A poll of the socket hands over `n` bytes, the end of the stream, or an error. -/
  | read (n : Nat)
  | eof
  | fails (e : IoError)
  deriving Repr, DecidableEq

def Task.step (t : Task) : SocketEvent → Option Task
  | .arrive bytes => if t.closed then none else some { t with inbound := t.inbound ++ bytes }
  | .shutdown => some { t with closed := true }
  | .read n =>
      if t.outcome = .running ∧ 0 < n ∧ n ≤ t.reading.missing ∧ n ≤ t.inbound.length then
        some (Task.fill { t with inbound := t.inbound.drop n } (t.inbound.take n))
      else none
  | .eof =>
      if t.outcome = .running ∧ t.inbound = [] ∧ t.closed then
        some { t with outcome := .err .unexpectedEof }
      else none
  | .fails e => if t.outcome = .running then some { t with outcome := .err e } else none

/-- The accept loop: a connection that comes in is spawned, and an error of `accept` passed
    over. -/
def startTcpServer : Tasks.Kind Unit Task SocketEvent Line where
  start := fun _ => .start
  step := Task.step
  line := fun t => Line.ofOutcome t.outcome

/-! ## The stream behind the portions -/

/-- The bytes which have arrived by these events. -/
def arrived : List SocketEvent → Bytes
  | [] => []
  | .arrive bytes :: later => bytes ++ arrived later
  | _ :: later => arrived later

theorem arrived_append (first second : List SocketEvent) :
    arrived (first ++ second) = arrived first ++ arrived second := by
  induction first with
  | nil => rfl
  | cons e later ih =>
      cases e with
      | arrive bytes => simp only [List.cons_append, arrived, ih, List.append_assoc]
      | _ => exact ih

/-- What the rest of `handle_connection` returns if `future` follows what has arrived. -/
def Task.resume (t : Task) (future : Bytes) : Except IoError Connection :=
  match t.reading with
  | .header filled => handleConnection.loop t.stats t.bufs (filled ++ (t.inbound ++ future))
  | .payload len filled =>
      (readExact len (filled ++ (t.inbound ++ future))).bind fun (buf, socket) =>
        handleConnection.loop (t.stats.count buf.length) (t.bufs ++ [buf]) socket

/-- A buffer that is not full. -/
def ReadExact.Open (r : ReadExact) : Prop := 0 < r.missing

/-- A portion read changes nothing in what the loop is about to do. -/
theorem fill_cases {t : Task} {part inbound : Bytes} (split : t.inbound = part ++ inbound)
    (fits : part.length ≤ t.reading.missing) (running : t.outcome = .running)
    (opened : t.reading.Open) :
    ((Task.fill { t with inbound := inbound } part).outcome = .running ∧
      (Task.fill { t with inbound := inbound } part).reading.Open ∧
      ∀ future, t.resume future = (Task.fill { t with inbound := inbound } part).resume future) ∨
    (Task.fill { t with inbound := inbound } part = ⟨t.stats, t.bufs, t.reading, .ok t.stats,
        inbound, t.closed⟩ ∧
      ∀ future, t.resume future = .ok ⟨t.stats, t.bufs, inbound ++ future⟩) := by
  have stream : ∀ filled future, filled ++ (t.inbound ++ future) =
      (filled ++ part) ++ (inbound ++ future) := by
    intro filled future
    simp only [split, List.append_assoc]
  cases reading : t.reading with
  | header filled =>
      simp only [reading, ReadExact.missing, ReadExact.Open] at fits opened
      simp only [Task.fill, reading, Task.resume, stream]
      by_cases short : (filled ++ part).length < 4
      · left
        simp only [if_pos short, running, true_and]
        exact ⟨Nat.sub_pos_of_lt short, fun _ => trivial⟩
      · have four : (filled ++ part).length = 4 := by
          simp only [List.length_append] at short ⊢
          omega
        have next : ∀ future, handleConnection.loop t.stats t.bufs
            ((filled ++ part) ++ (inbound ++ future)) =
            if (LenHeader.fromBytes (filled ++ part)).len = 0 then
              .ok ⟨t.stats, t.bufs, inbound ++ future⟩
            else (readExact (LenHeader.fromBytes (filled ++ part)).len (inbound ++ future)).bind
              fun (buf, socket) =>
                handleConnection.loop (t.stats.count buf.length) (t.bufs ++ [buf]) socket := by
          intro future
          rw [loop_eq, readExact_append four]
          rfl
        simp only [if_neg short, next]
        by_cases zero : (LenHeader.fromBytes (filled ++ part)).len = 0
        · right
          simp only [if_pos zero, implies_true, and_true]
        · left
          simp only [if_neg zero, running, true_and, List.nil_append, implies_true, and_true]
          exact Nat.pos_of_ne_zero zero
  | payload len filled =>
      left
      simp only [reading, ReadExact.missing, ReadExact.Open] at fits opened
      simp only [Task.fill, reading, Task.resume, stream]
      by_cases short : (filled ++ part).length < len
      · simp only [if_pos short, running, true_and, implies_true, and_true]
        exact Nat.sub_pos_of_lt short
      · have full : (filled ++ part).length = len := by
          simp only [List.length_append] at short ⊢
          omega
        simp only [if_neg short, running, true_and, readExact_append full, List.nil_append]
        exact ⟨Nat.zero_lt_succ 3, fun _ => rfl⟩

/-- What a task says of the stream which has arrived. -/
inductive Task.Sound (t : Task) (s : Bytes) : Prop where
  | running (running : t.outcome = .running) (opened : t.reading.Open)
      (resumes : ∀ future, handleConnection (s ++ future) = t.resume future)
  | ok (unread : Bytes) (ended : t.outcome = .ok t.stats)
      (returns : ∀ future, handleConnection (s ++ future) = .ok ⟨t.stats, t.bufs, unread ++ future⟩)
  | eof (ended : t.outcome = .err .unexpectedEof) (closed : t.closed = true)
      (returns : handleConnection s = .error .unexpectedEof)

namespace Task.Sound

theorem start : Task.start.Sound [] :=
  .running rfl (Nat.zero_lt_succ 3) fun _ => rfl

theorem arrive {t : Task} {s : Bytes} (sound : t.Sound s) (bytes : Bytes)
    (opened : t.closed = false) :
    Task.Sound { t with inbound := t.inbound ++ bytes } (s ++ bytes) := by
  cases sound with
  | running running reading resumes =>
      refine .running running reading fun future => ?_
      rw [List.append_assoc, resumes]
      simp only [Task.resume, List.append_assoc]
  | ok unread ended returns =>
      refine .ok (unread ++ bytes) ended fun future => ?_
      rw [List.append_assoc, returns, List.append_assoc]
  | eof ended closed returns =>
      rw [opened] at closed
      cases closed

theorem shutdown {t : Task} {s : Bytes} (sound : t.Sound s) :
    Task.Sound { t with closed := true } s := by
  cases sound with
  | running running reading resumes => exact .running running reading resumes
  | ok unread ended returns => exact .ok unread ended returns
  | eof ended closed returns => exact .eof ended rfl returns

theorem read {t : Task} {s : Bytes} {n : Nat} (sound : t.Sound s) (running : t.outcome = .running)
    (fits : n ≤ t.reading.missing) :
    Task.Sound (Task.fill { t with inbound := t.inbound.drop n } (t.inbound.take n)) s := by
  cases sound with
  | running _ reading resumes =>
      have short : (t.inbound.take n).length ≤ t.reading.missing :=
        Nat.le_trans (List.length_take_le n t.inbound) fits
      rcases fill_cases (List.take_append_drop n t.inbound).symm short running reading with
        ⟨runs, opened, same⟩ | ⟨ended, returns⟩
      · apply Sound.running runs opened
        intro future
        rw [resumes, same]
      · rw [ended]
        apply Sound.ok (t.inbound.drop n) rfl
        intro future
        rw [resumes, returns]
  | ok unread ended _ =>
      rw [running] at ended
      cases ended
  | eof ended _ _ =>
      rw [running] at ended
      cases ended

/-- The stream ends inside a buffer. -/
theorem ends {t : Task} {s : Bytes} (sound : t.Sound s) (running : t.outcome = .running)
    (empty : t.inbound = []) (closed : t.closed = true) :
    Task.Sound { t with outcome := .err .unexpectedEof } s := by
  cases sound with
  | running _ reading resumes =>
      refine .eof rfl closed ?_
      have last := resumes []
      rw [List.append_nil] at last
      rw [last, Task.resume]
      cases under : t.reading with
      | header filled =>
          simp only [under, ReadExact.Open, ReadExact.missing] at reading
          simp only [empty, List.append_nil]
          exact loop_short (by omega) _ _
      | payload len filled =>
          simp only [under, ReadExact.Open, ReadExact.missing] at reading
          simp only [empty, List.append_nil]
          rw [readExact_short (by omega)]
          rfl
  | ok unread ended _ =>
      rw [running] at ended
      cases ended
  | eof ended _ _ =>
      rw [running] at ended
      cases ended

theorem step {t u : Task} {s : Bytes} {e : SocketEvent} (sound : t.Sound s)
    (reliable : ∀ error, e ≠ .fails error) (moved : t.step e = some u) :
    u.Sound (s ++ arrived [e]) := by
  cases e with
  | arrive bytes =>
      simp only [Task.step] at moved
      split at moved
      · cases moved
      · rename_i opened
        cases Option.some.inj moved
        simpa [arrived] using sound.arrive bytes (Bool.eq_false_iff.mpr opened)
  | shutdown =>
      cases Option.some.inj moved
      simpa [arrived] using sound.shutdown
  | read n =>
      simp only [Task.step] at moved
      split at moved
      · rename_i allowed
        cases Option.some.inj moved
        simpa [arrived] using sound.read allowed.1 allowed.2.2.1
      · cases moved
  | eof =>
      simp only [Task.step] at moved
      split at moved
      · rename_i allowed
        cases Option.some.inj moved
        simpa [arrived] using sound.ends allowed.1 allowed.2.1 allowed.2.2
      · cases moved
  | fails error => exact absurd rfl (reliable error)

theorem run {es : List SocketEvent} {t : Task} (reliable : ∀ error, .fails error ∉ es)
    (ran : exec Task.step .start es = some t) : t.Sound (arrived es) := by
  have follows : (∀ error, .fails error ∉ [] ++ es) → t.Sound (arrived ([] ++ es)) := by
    apply exec_history (fun before t => (∀ error, .fails error ∉ before) →
      Task.Sound t (arrived before)) _ (fun _ => start) ran
    intro before t e u sound moved reliable
    rw [arrived_append]
    apply step _ _ moved
    · exact sound fun error member => reliable error (List.mem_append_left _ member)
    · intro error same
      exact reliable error (List.mem_append_right _ (List.mem_singleton.mpr same.symm))
  exact follows reliable

end Task.Sound

/-! ## The lines -/

/-- The line for what `handle_connection` returns. -/
def lineOf : Except IoError Connection → Line
  | .ok c => .report c.stats
  | .error e => .error e

/-- The peer sends nothing more, and the task has nothing left to read. -/
def Task.Settled (t : Task) : Prop :=
  t.closed = true ∧ (∀ n, t.step (.read n) = none) ∧ t.step .eof = none

def SocketEvent.polls : SocketEvent → Bool
  | .read _ | .eof => true
  | _ => false

theorem startTcpServer_ends : startTcpServer.Ends := by
  constructor
  · intro k
    rfl
  · intro t e u moved ended
    have returned : t.outcome ≠ .running := by
      intro running
      simp [startTcpServer, running, Line.ofOutcome] at ended
    have same : u.outcome = t.outcome := by
      cases e with
      | arrive bytes =>
          simp only [startTcpServer, Task.step] at moved
          split at moved
          · cases moved
          · cases Option.some.inj moved
            rfl
      | shutdown =>
          cases Option.some.inj moved
          rfl
      | _ => simp [startTcpServer, Task.step, returned] at moved
    exact congrArg Line.ofOutcome same

namespace Task.Sound

variable {t : Task} {s : Bytes}

theorem line (sound : t.Sound s) (returned : t.outcome ≠ .running) :
    Line.ofOutcome t.outcome = some (lineOf (handleConnection s)) := by
  cases sound with
  | running running _ _ => exact absurd running returned
  | ok unread ended returns =>
      have here := returns []
      rw [List.append_nil] at here
      rw [ended, here]
      rfl
  | eof ended _ returns =>
      rw [ended, returns]
      rfl

/-- A task that has not returned can poll its socket, once the peer is done. -/
theorem polls (sound : t.Sound s) (running : t.outcome = .running) (closed : t.closed = true) :
    (t.inbound = [] ∧ t.step .eof = some { t with outcome := .err .unexpectedEof }) ∨
      ∃ u, t.step (.read 1) = some u ∧ u.inbound.length < t.inbound.length ∧ u.closed = true := by
  by_cases empty : t.inbound = []
  · left
    exact ⟨empty, if_pos ⟨running, empty, closed⟩⟩
  · right
    have nonempty := List.length_pos_of_ne_nil empty
    have opened : 0 < t.reading.missing := by
      cases sound with
      | running _ reading _ => exact reading
      | ok _ ended _ =>
          rw [running] at ended
          cases ended
      | eof ended _ _ =>
          rw [running] at ended
          cases ended
    refine ⟨_, if_pos ⟨running, Nat.one_pos, opened, nonempty⟩, ?_, ?_⟩
    · have shorter : (t.inbound.drop 1).length < t.inbound.length := by
        rw [List.length_drop]
        omega
      unfold fill
      grind
    · unfold fill
      grind

theorem settled (sound : t.Sound s) (settled : t.Settled) : t.outcome ≠ .running := by
  intro running
  rcases sound.polls running settled.1 with ⟨-, ends⟩ | ⟨u, reads, -⟩
  · rw [settled.2.2] at ends
    cases ends
  · rw [settled.2.1] at reads
    cases reads

/-- It gets to an end by polling its socket, at the latest when all has been read. -/
theorem finishes (sound : t.Sound s) (closed : t.closed = true) :
    ∃ polls u, (∀ e ∈ polls, SocketEvent.polls e = true) ∧ exec Task.step t polls = some u ∧
      u.outcome ≠ .running := by
  induction left : t.inbound.length using Nat.strongRecOn generalizing t with
  | ind n ih =>
      by_cases running : t.outcome = .running
      · rcases sound.polls running closed with ⟨-, ends⟩ | ⟨u, reads, fewer, still⟩
        · refine ⟨[.eof], _, ?_, exec_cons.mpr ⟨_, ends, rfl⟩, ?_⟩
          · intro e member
            rw [List.mem_singleton.mp member]
            rfl
          · simp
        · have next : u.Sound s := by
            simpa [arrived] using sound.step (fun _ => by simp) reads
          obtain ⟨polls, v, each, ran, returned⟩ := ih _ (left ▸ fewer) next still rfl
          exact ⟨.read 1 :: polls, v, List.forall_mem_cons.mpr ⟨rfl, each⟩,
            exec_cons.mpr ⟨u, reads, ran⟩, returned⟩
      · exact ⟨[], t, List.forall_mem_nil _, rfl, running⟩

end Task.Sound

/-- What a connection gets printed: never anything but its line, and the line as soon as there
    is nothing left to read, to which the task can always get by itself. -/
structure Prints (s : Tasks.Pool Task Line) (i : Nat) (t : Task) (line : Line) : Prop where
  only : s.lines i = [] ∨ s.lines i = [line]
  settled : t.Settled → s.lines i = [line]
  live : t.closed = true → ∃ (polls : List SocketEvent) (r : Tasks.Pool Task Line),
    (∀ e ∈ polls, SocketEvent.polls e = true) ∧
    exec startTcpServer.pool s (polls.map (.task i)) = some r ∧ r.lines i = [line]

theorem own_polls (i : Nat) (polls : List SocketEvent) :
    Tasks.own i (polls.map (.task i) : List (Tasks.Event Unit SocketEvent)) = polls := by
  induction polls with
  | nil => rfl
  | cons e polls ih => simpa [Tasks.own, Tasks.Event.own] using ih

theorem arrived_polls {polls : List SocketEvent} (each : ∀ e ∈ polls, SocketEvent.polls e = true) :
    arrived polls = [] ∧ ∀ error, .fails error ∉ polls := by
  induction polls with
  | nil => simp [arrived]
  | cons e polls ih =>
      obtain ⟨here, later⟩ := List.forall_mem_cons.mp each
      cases e with
      | read n => simpa [arrived] using ih later
      | eof => simpa [arrived] using ih later
      | _ => cases here

/-- However the bytes of a connection arrive in pieces, and whatever happens on the others, its
    task prints the line for what `handle_connection` makes of its whole stream. -/
theorem tcp_server_reports_each_connection (es : List (Tasks.Event Unit SocketEvent))
    (s : Tasks.Pool Task Line) (ran : exec startTcpServer.pool {} es = some s) (i : Nat) (t : Task)
    (found : s.tasks[i]? = some t) (reliable : ∀ error, .fails error ∉ Tasks.own i es) :
    Prints s i t (lineOf (handleConnection (arrived (Tasks.own i es)))) := by
  obtain ⟨_, _, alone, lines⟩ := Tasks.exec_task startTcpServer_ends ran found
  have sound : t.Sound (arrived (Tasks.own i es)) := .run reliable alone
  have returned : t.outcome ≠ .running →
      s.lines i = [lineOf (handleConnection (arrived (Tasks.own i es)))] := by
    intro ended
    rw [lines]
    exact congrArg Option.toList (sound.line ended)
  constructor
  case only =>
    by_cases running : t.outcome = .running
    · left
      rw [lines, show startTcpServer.line t = none by
        simp [startTcpServer, running, Line.ofOutcome]]
      rfl
    · exact .inr (returned running)
  case settled =>
    intro settled
    exact returned (sound.settled settled)
  case live =>
    intro closed
    obtain ⟨polls, u, each, runs, ended⟩ := sound.finishes closed
    obtain ⟨r, further, tasks⟩ := Tasks.exec_alone (K := startTcpServer) found runs
    have inside : i < s.tasks.length := (List.getElem?_eq_some_iff.mp found).1
    have there : r.tasks[i]? = some u := by
      rw [tasks]
      exact List.getElem?_set_self inside
    obtain ⟨_, _, whole, printed⟩ :=
      Tasks.exec_task startTcpServer_ends (exec_append ran further) there
    have owns : Tasks.own i (es ++ polls.map (.task i)) = Tasks.own i es ++ polls := by
      rw [Tasks.own, List.filterMap_append]
      exact congrArg _ (own_polls i polls)
    obtain ⟨silent, quiet⟩ := arrived_polls each
    have more : ∀ error, .fails error ∉ Tasks.own i es ++ polls := by
      intro error member
      cases List.mem_append.mp member with
      | inl old => exact reliable error old
      | inr new => exact quiet error new
    rw [owns] at whole
    have after : u.Sound (arrived (Tasks.own i es)) := by
      simpa [arrived_append, silent] using Task.Sound.run more whole
    refine ⟨polls, r, each, further, ?_⟩
    rw [printed]
    exact congrArg Option.toList (after.line ended)

/-! ## Clients on their own connections -/

/-- What the server makes of a stream which its client has not finished. -/
theorem handleConnection_output (file : DataFile) (b : BlockSize)
    (script : List (Option (Output.Fault IoError))) :
    lineOf (handleConnection (Output.output (handleTcp file b) script)) =
      if Output.output (handleTcp file b) script = stream (file.blocks b) then
        .report ⟨file.buffer.length ⌈/⌉ b.val, file.buffer.length⟩
      else .error .unexpectedEof := by
  have framable : ∀ chunk ∈ file.blocks b, Framable chunk := fun _ member => block_framable member
  by_cases whole : Output.output (handleTcp file b) script = stream (file.blocks b)
  · have read := loop_stream framable .default [] []
    rw [List.append_nil, ServerStats.countAll_blocks] at read
    rw [if_pos whole, whole, handleConnection, read]
    rfl
  · have beginning := (handleTcp_writes file b).output_beginning script
    have cut := loop_cut framable beginning whole .default []
    rw [if_neg whole, handleConnection, cut]
    rfl

/-- Any number of clients at once: a transfer is reported, once and with the client's own
    counters, iff its client has written all of it, and else it gets the line of an error. -/
theorem tcp_server_reports_transfers (es : List (Tasks.Event Unit SocketEvent))
    (s : Tasks.Pool Task Line) (ran : exec startTcpServer.pool {} es = some s) (i : Nat) (t : Task)
    (found : s.tasks[i]? = some t) (reliable : ∀ error, .fails error ∉ Tasks.own i es)
    (file : DataFile) (b : BlockSize) (script : List (Option (Output.Fault IoError)))
    (sent : arrived (Tasks.own i es) = Output.output (handleTcp file b) script)
    (settled : t.Settled) :
    s.lines i = [if Output.output (handleTcp file b) script = stream (file.blocks b) then
        .report ⟨file.buffer.length ⌈/⌉ b.val, file.buffer.length⟩
      else .error .unexpectedEof] ∧
    ∀ stats sink, handleTcp file b { faults := script } = .ok stats sink →
      s.lines i = [.report ⟨stats.packetsSent, stats.bytesSent⟩] := by
  obtain ⟨_, _, alone, printed⟩ := Tasks.exec_task startTcpServer_ends ran found
  have sound : t.Sound (arrived (Tasks.own i es)) := .run reliable alone
  have line := sound.line (sound.settled settled)
  rw [sent, handleConnection_output] at line
  have lines : s.lines i = [if Output.output (handleTcp file b) script = stream (file.blocks b) then
      .report ⟨file.buffer.length ⌈/⌉ b.val, file.buffer.length⟩ else .error .unexpectedEof] := by
    rw [printed]
    exact congrArg Option.toList line
  refine ⟨lines, ?_⟩
  intro stats sink completed
  obtain ⟨rfl, wrote⟩ := (handleTcp_writes file b).of_ok completed
  have whole : Output.output (handleTcp file b) script = stream (file.blocks b) := by
    unfold Output.output
    rw [completed]
    exact wrote
  rw [lines, if_pos whole, ClientStats.countAll_blocks]

/-- Two connections at once: the one in pieces that are no frames, the other cut in a frame. -/
def overlapping : List (Tasks.Event Unit SocketEvent) :=
  [.spawn (), .task 0 (.arrive [1, 0]), .idle, .spawn (), .task 1 (.arrive [1, 0, 0, 0]),
    .task 0 (.read 2), .task 1 (.read 4), .task 0 (.arrive [0, 0, 1, 0, 0, 0, 0]),
    .task 1 .shutdown, .task 0 (.read 1), .task 1 .eof, .task 0 (.read 1), .task 0 (.read 1),
    .task 0 .shutdown, .task 0 (.read 4)]

theorem overlapping_own : Tasks.own 0 overlapping =
    [.arrive [1, 0], .read 2, .arrive [0, 0, 1, 0, 0, 0, 0], .read 1, .read 1, .read 1, .shutdown,
      .read 4] := rfl

theorem overlapping_reliable : ∀ error, .fails error ∉ Tasks.own 0 overlapping := by
  intro error
  simp [overlapping_own]

theorem overlapping_runs : ∃ s t, exec startTcpServer.pool {} overlapping = some s ∧
    s.tasks[0]? = some t ∧ t.closed = true ∧ t.outcome ≠ .running := by
  have replayed : ((exec startTcpServer.pool {} overlapping).bind fun s => s.tasks[0]?).map
      (fun t => (t.closed, t.outcome)) = some (true, .ok ⟨1, 1⟩) := by
    decide +kernel
  obtain ⟨t, there, same⟩ := Option.map_eq_some_iff.mp replayed
  obtain ⟨s, ran, found⟩ := Option.bind_eq_some_iff.mp there
  obtain ⟨closed, ended⟩ := Prod.mk.inj same
  exact ⟨s, t, ran, found, closed, by simp [ended]⟩

theorem tcp_server_reports_each_connection_overlapping : ∃ s t,
    exec startTcpServer.pool {} overlapping = some s ∧ Prints s 0 t (.report ⟨1, 1⟩) := by
  obtain ⟨s, t, ran, found, -⟩ := overlapping_runs
  have prints := tcp_server_reports_each_connection overlapping s ran 0 t found
    overlapping_reliable
  have line : lineOf (handleConnection (arrived (Tasks.own 0 overlapping))) =
      .report ⟨1, 1⟩ := by
    have read := @loop_stream [[1]] (by simp [Framable]) .default [] []
    exact congrArg lineOf read
  exact ⟨s, t, ran, line ▸ prints⟩

theorem tcp_server_reports_transfers_overlapping : ∃ s,
    exec startTcpServer.pool {} overlapping = some s ∧ s.lines 0 = [.report ⟨1, 1⟩] := by
  obtain ⟨s, t, ran, found, closed, returned⟩ := overlapping_runs
  have settled : t.Settled := by
    refine ⟨closed, ?_, ?_⟩
    · intro n
      simp [Task.step, returned]
    · simp [Task.step, returned]
  obtain ⟨sink, completed, wrote⟩ := (handleTcp_writes oneBlock defaultBlockSize).clean
  have whole : Output.output (handleTcp oneBlock defaultBlockSize) [] =
      stream (oneBlock.blocks defaultBlockSize) := by
    unfold Output.output
    rw [completed]
    exact wrote
  have sent : arrived (Tasks.own 0 overlapping) =
      Output.output (handleTcp oneBlock defaultBlockSize) [] := by
    rw [whole]
    decide +kernel
  have lines := (tcp_server_reports_transfers overlapping s ran 0 t found overlapping_reliable
    oneBlock defaultBlockSize [] sent settled).2 _ sink completed
  rw [ClientStats.countAll_blocks] at lines
  refine ⟨s, ran, lines.trans ?_⟩
  decide +kernel

end Tcp

end PcdLab.Transport
