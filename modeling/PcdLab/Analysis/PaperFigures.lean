import PcdLab.Analysis.Bars
import PcdLab.Analysis.K6Agreement
import PcdLab.Analysis.Recovery

/-! # The figures of the paper

`plot_paper_figures.py` reads each file of `k6` twice, once for the latencies and the errors and
once for the requests a second, and draws all its figures from what it has read. A file which it
cannot read is passed over. What it draws of the errors, `plot_results.py` draws as well.
-/

namespace PcdLab.Analysis.PaperFigures

open Lib Analysis.Bars Analysis.Summary Analysis.Recovery Experiments.Suite

/-! ## Loading -/

/-- What is kept of a file. -/
structure Cell where
  p50 : Number
  p95 : Number
  p99 : Number
  rps : Option ℚ
  err : Number

/-- In seconds. -/
def durations : List (String × ℚ) :=
  [("steady", 90), ("burst", 90), ("heavy", 180), ("spike", 50), ("fault", 60)]

def duration (scenario : String) : ℚ := (durations.lookup scenario).getD 60

variable (numeric : Numeric)

def loadCell (dir : Dir) (policy scenario : String) : Except PyError (Option Cell) :=
  let file := dir (k6File policy scenario)
  match extractK6Metrics numeric.percentile numeric.python.ofText file with
  | some (p50, p95, p99, _, err) => do
      let rps ← getRpsFromK6 file (duration scenario)
      return some ⟨p50, p95, p99, rps, err⟩
  | none => .ok none

/-- By policy, and then by scenario. -/
abbrev Data := List (String × List (String × Option Cell))

def loadAllMetrics (dir : Dir) : Except PyError Data :=
  policies.mapM fun policy => do
    let row ← scenarios.mapM fun scenario => do
      return (scenario, ← loadCell numeric dir policy scenario)
    return (policy, row)

/-- `data[policy].get(sc)`. There is a row for each policy. -/
def Data.cell (data : Data) (policy scenario : String) : Option Cell :=
  (((data.lookup policy).getD []).lookup scenario).join

/-! ## Drawing -/

/-- What the loops of the figures collect, for each policy and scenario. -/
def grid {α : Type} (pick : Option Cell → α) (data : Data) : List (List α) :=
  policies.map fun policy => scenarios.map fun scenario => pick (data.cell policy scenario)

def p95Height (m : Option Cell) : Number := (m.map Cell.p95).getD (.rat 0)

def throughputHeight (m : Option Cell) : ℚ := (m.bind Cell.rps).getD 0

def errorEntry (m : Option Cell) : Number := (m.map Cell.err).getD (.rat 0)

/-- `fig_p95_latency`. -/
def figP95Latency (data : Data) : List (List Number) := grid p95Height data

/-- `fig_throughput`. -/
def figThroughput (data : Data) : List (List ℚ) := grid throughputHeight data

/-- `fig_error_rate` of the paper. -/
def figErrorHeatmap (data : Data) : List (List Number) := grid errorEntry data

/-- `fig_p50_vs_p95`. -/
def figP50VsP95 (data : Data) : List (List (Number × Number)) :=
  policies.map fun policy => scenarios.filterMap fun scenario =>
    (data.cell policy scenario).map fun m => (m.p50, m.p95)

/-- `fig_error_rate` of `plot_results.py`. -/
def figErrorRate (dir : Dir) : Except PyError (List (List ℚ)) :=
  policies.mapM fun policy => scenarios.mapM fun scenario => do
    let k6 ← loadK6 numeric.percentile (dir (k6File policy scenario))
    return (k6.bind K6Metrics.errorRate).getD 0 * 100

/-- The figures of a line of the summary which the program prints. Only what is a number can be
    formatted. -/
def summaryLine (m : Cell) : Except PyError (List (List Char)) := do
  let rps ←
    match m.rps with
    | some q => .ok (Number.rat q)
    | none => .error .type
  return [numeric.python.format m.p50 1, numeric.python.format m.p95 1,
    numeric.python.format m.p99 1, numeric.python.format rps 1, numeric.python.format m.err 2]

def summary (data : Data) : Except PyError (List (List (List Char))) :=
  let cells := policies.flatMap fun policy => scenarios.map fun scenario =>
    data.cell policy scenario
  (cells.filterMap id).mapM (summaryLine numeric)

/-- The program up to its figures. -/
def printSummary (dir : Dir) : Except Failure (List (List (List Char))) := do
  let data ← raise (loadAllMetrics numeric dir)
  let _ ← loadFaultData dir
  raise (summary numeric data)

/-! ## Files of any content -/

/-- The second pass takes nothing but records. -/
theorem isRecord_of_object {ofText : Json.Text → Option Number} {s t : ExtractK6} {obj : Json}
    (ran : s.object ofText obj = .ok t) : isRecord obj := by
  cases obj with
  | obj members =>
      simp only [isRecord]
      cases present : field members "data" with
      | none => rfl
      | some data =>
          cases data with
          | obj => rfl
          | _ => simp [ExtractK6.object, present, get, bind, Except.bind] at ran
  | _ => cases ran

theorem durations_of_object {ofText : Json.Text → Option Number} {s t : ExtractK6} {obj : Json}
    (ran : s.object ofText obj = .ok t) :
    t.durValues.length = s.durValues.length + (ofKind .duration [obj]).length := by
  rw [ExtractK6.object_eq (isRecord_of_object ran)] at ran
  cases counts : kind obj with
  | duration | failed =>
      rw [counts] at ran
      cases shown : toFloat ofText (value obj) with
      | error e => rw [shown] at ran; cases ran
      | ok x =>
          rw [shown] at ran
          cases ran
          simp [ofKind, counts]
  | request | other =>
      rw [counts] at ran
      cases ran
      simp [ofKind, counts]

/-- A loop over objects that comes to its end has seen records only, and has a latency for each
    duration among them. -/
theorem records_of_loop {ofText : Json.Text → Option Number} {objs : List Json}
    {s t : ExtractK6} (ran : objs.foldlM (ExtractK6.object ofText) s = .ok t) :
    (∀ obj ∈ objs, isRecord obj) ∧
      t.durValues.length = s.durValues.length + (ofKind .duration objs).length := by
  induction objs generalizing s with
  | nil =>
      cases ran
      exact ⟨fun obj member => absurd member List.not_mem_nil, rfl⟩
  | cons obj objs ih =>
      rw [List.foldlM_cons] at ran
      cases first : s.object ofText obj with
      | error e => rw [first] at ran; cases ran
      | ok next =>
          rw [first, ok_bind] at ran
          obtain ⟨later, counted⟩ := ih ran
          have one : obj :: objs = [obj] ++ objs := rfl
          refine ⟨List.forall_mem_cons.mpr ⟨isRecord_of_object first, later⟩, ?_⟩
          rw [counted, durations_of_object first, one, ofKind_append, List.length_append,
            Nat.add_assoc]

/-- The objects in the lines of the stripped text. -/
def strippedRecords (text : List Char) : List Json :=
  ((Lines.strip text).splitOn '\n').filterMap Json.loads

theorem loop_strippedRecords (ofText : Json.Text → Option Number) (text : List Char) :
    ExtractK6.loop ofText text =
      (strippedRecords text).foldlM (ExtractK6.object ofText) ⟨[], 0, .rat 0⟩ := by
  apply foldlM_readings
  · intro s line unread
    simp only [ExtractK6.line, unread]
    split <;> rfl
  · intro s line obj isRead
    simp only [ExtractK6.line, isRead, if_neg (not_blank (loads_strip_of_some isRead))]

/-- What `get_rps_from_k6` returns where `extract_k6_metrics` comes to the end of the file: it may
    count fewer durations, and counts the same where no line is hidden. -/
theorem getRps_of_loop {ofText : Json.Text → Option Number} {text : List Char} {s : ExtractK6}
    (ran : ExtractK6.loop ofText text = .ok s) {d : ℚ} (lasts : d ≠ 0) :
    ∃ count ≤ s.durValues.length,
      getRpsFromK6 (some text) d = .ok (if count = 0 then none else some (count / d)) ∧
      (NoneHidden text → count = s.durValues.length) := by
  rw [loop_strippedRecords] at ran
  obtain ⟨wellFormed, counted⟩ := records_of_loop ran
  have kept : (records text).Sublist (strippedRecords text) := Json.forgiving_loads.strip text
  have well : ∀ obj ∈ records text, isRecord obj :=
    fun obj member => wellFormed obj (kept.subset member)
  have fewer : (ofKind .duration (records text)).length ≤ s.durValues.length := by
    rw [counted, List.length_nil, Nat.zero_add]
    exact (kept.filter _).length_le
  refine ⟨_, fewer, ?_, ?_⟩
  · simp only [getRpsFromK6, countDuration_loop_eq, countDuration_run well, Nat.zero_add, ok_bind,
      if_neg lasts]
    split <;> rfl
  · intro shown
    rw [counted, List.length_nil, Nat.zero_add, strippedRecords, stripped_records shown]

theorem extractK6Metrics_some {ρ : Type} {percentile : List Json → ℚ → ρ}
    {ofText : Json.Text → Option Number} {file : Option (List Char)}
    {metrics : ρ × ρ × ρ × ℚ × Number}
    (found : extractK6Metrics percentile ofText file = some metrics) :
    ∃ text s, file = some text ∧ ExtractK6.loop ofText text = .ok s ∧
      s.result percentile = some metrics := by
  cases file with
  | none => cases found
  | some text =>
      cases first : (Lines.fileLines text).foldlM ExtractK6.firstPass .null with
      | error e =>
          simp only [extractK6Metrics, first] at found
          cases found
      | ok rps =>
          cases ran : ExtractK6.loop ofText text with
          | error e =>
              simp only [extractK6Metrics, first, ok_bind, ran] at found
              cases found
          | ok s =>
              simp only [extractK6Metrics, first, ok_bind, ran] at found
              exact ⟨text, s, rfl, ran, found⟩

theorem result_some {ρ : Type} {percentile : List Json → ℚ → ρ} {s : ExtractK6}
    {p50 p95 p99 : ρ} {rps : ℚ} {err : Number}
    (found : s.result percentile = some (p50, p95, p99, rps, err)) :
    s.durValues ≠ [] ∧ p50 = percentile (s.durValues.map .num) 50 ∧
      p95 = percentile (s.durValues.map .num) 95 ∧ p99 = percentile (s.durValues.map .num) 99 ∧
      err = scaleNumber (1 / max 1 s.durValues.length) (scaleNumber 100 s.failCount) := by
  unfold ExtractK6.result at found
  split at found
  · cases found
  · rename_i measured
    simp only [Option.some.injEq, Prod.mk.injEq] at found
    obtain ⟨first, second, third, -, share⟩ := found
    refine ⟨?_, first.symm, second.symm, third.symm, share.symm⟩
    intro empty
    exact measured (List.isEmpty_iff.mpr empty)

/-- What a cell tells of a file: the percentiles of its latencies and the share of its failures,
    and a rate for no more requests than there are latencies. Without a hidden line it is for as
    many. -/
def Describes (file : Option (List Char)) (d : ℚ) : Option Cell → Prop
  | none => extractK6Metrics numeric.percentile numeric.python.ofText file = none
  | some m => ∃ (text : List Char) (s : ExtractK6) (count : ℕ), file = some text ∧
      ExtractK6.loop numeric.python.ofText text = .ok s ∧ s.durValues ≠ [] ∧
      m.p50 = numeric.percentile (s.durValues.map .num) 50 ∧
      m.p95 = numeric.percentile (s.durValues.map .num) 95 ∧
      m.p99 = numeric.percentile (s.durValues.map .num) 99 ∧
      m.err = scaleNumber (1 / max 1 s.durValues.length) (scaleNumber 100 s.failCount) ∧
      m.rps = (if count = 0 then none else some (count / d)) ∧ count ≤ s.durValues.length ∧
      (NoneHidden text → count = s.durValues.length)

theorem durations_last (scenario : String) : duration scenario ≠ 0 := by
  have all : ∀ d ∈ durations.map Prod.snd, d ≠ 0 := by decide
  unfold duration
  cases found : durations.lookup scenario with
  | none => decide
  | some d =>
      obtain ⟨before, after, shape, -⟩ := List.lookup_eq_some_iff.mp found
      refine all d ?_
      rw [shape]
      simp

theorem loadCell_describes (dir : Dir) (policy scenario : String) :
    ∃ m, loadCell numeric dir policy scenario = .ok m ∧
      Describes numeric (dir (k6File policy scenario)) (duration scenario) m := by
  cases found : extractK6Metrics numeric.percentile numeric.python.ofText
      (dir (k6File policy scenario)) with
  | none => exact ⟨none, by rw [loadCell, found], found⟩
  | some metrics =>
      obtain ⟨p50, p95, p99, estimate, err⟩ := metrics
      obtain ⟨text, s, file, ran, made⟩ := extractK6Metrics_some found
      obtain ⟨count, fewer, rate, same⟩ := getRps_of_loop ran (durations_last scenario)
      obtain ⟨measured, first, second, third, share⟩ := result_some made
      let rps := if count = 0 then none else some ((count : ℚ) / duration scenario)
      refine ⟨some ⟨p50, p95, p99, rps, err⟩, ?_, ?_⟩
      · rw [loadCell, found, file]
        simp only [rate, ok_bind]
        rfl
      · exact ⟨text, s, count, file, ran, measured, first, second, third, share, rfl, fewer, same⟩

/-- All cells, once each of them is known. -/
def table (cell : String → String → Option Cell) : Data :=
  policies.map fun policy =>
    (policy, scenarios.map fun scenario => (scenario, cell policy scenario))

theorem cell_table (cell : String → String → Option Cell) {policy scenario : String}
    (known : policy ∈ policies) (planned : scenario ∈ scenarios) :
    (table cell).cell policy scenario = cell policy scenario := by
  rw [Data.cell, table, List.lookup_graph _ known, Option.getD_some, List.lookup_graph _ planned]
  rfl

theorem loadAllMetrics_table {dir : Dir} {cell : String → String → Option Cell}
    (each : ∀ policy ∈ policies, ∀ scenario ∈ scenarios,
      loadCell numeric dir policy scenario = .ok (cell policy scenario)) :
    loadAllMetrics numeric dir = .ok (table cell) := by
  apply mapM_accepting
  intro policy known
  have row : (scenarios.mapM fun scenario => do
        return (scenario, ← loadCell numeric dir policy scenario) :
      Except PyError (List (String × Option Cell))) =
      .ok (scenarios.map fun scenario => (scenario, cell policy scenario)) := by
    apply mapM_accepting
    intro scenario planned
    rw [each policy known scenario planned]
    rfl
  rw [row]
  rfl

/-- What is picked of each cell is what the figure has there. -/
theorem grid_table {α : Type} {pick : Option Cell → α} {cell : String → String → Option Cell}
    {shown : String → String → α} (each : ∀ policy ∈ policies, ∀ scenario ∈ scenarios,
      pick (cell policy scenario) = shown policy scenario) :
    grid pick (table cell) =
      policies.map fun policy => scenarios.map fun scenario => shown policy scenario := by
  apply List.map_congr_left
  intro policy known
  apply List.map_congr_left
  intro scenario planned
  rw [cell_table cell known planned, each policy known scenario planned]

/-- The lines can be printed if there is a rate in each cell that is not empty. -/
theorem summary_prints {data : Data}
    (rates : ∀ policy ∈ policies, ∀ scenario ∈ scenarios, ∀ m,
      data.cell policy scenario = some m → m.rps.isSome) :
    ∃ lines, summary numeric data = .ok lines := by
  have each : ∀ m ∈ (policies.flatMap fun policy => scenarios.map fun scenario =>
      data.cell policy scenario).filterMap id,
      summaryLine numeric m = .ok [numeric.python.format m.p50 1, numeric.python.format m.p95 1,
        numeric.python.format m.p99 1, numeric.python.format (.rat (m.rps.getD 0)) 1,
        numeric.python.format m.err 2] := by
    intro m member
    obtain ⟨entry, inside, same⟩ := List.mem_filterMap.mp member
    obtain ⟨policy, known, inner⟩ := List.mem_flatMap.mp inside
    obtain ⟨scenario, planned, rfl⟩ := List.mem_map.mp inner
    obtain ⟨q, rate⟩ := Option.isSome_iff_exists.mp (rates policy known scenario planned m same)
    rw [summaryLine, rate]
    rfl
  exact ⟨_, mapM_accepting each⟩

/-- Whatever the files hold, the metrics are loaded. A cell is empty where a file cannot be read
    as metrics, and otherwise tells of that file only, with a rate that is never for more requests
    than there are latencies. Only where a line is hidden the rate may be missing, and the summary
    end the program; otherwise this is left to the files of the recovery times. -/
theorem paper_metrics_always_load (dir : Dir) : ∃ data, loadAllMetrics numeric dir = .ok data ∧
    (∀ policy ∈ policies, ∀ scenario ∈ scenarios,
      Describes numeric (dir (k6File policy scenario)) (duration scenario)
        (data.cell policy scenario)) ∧
    ((∀ policy ∈ policies, ∀ scenario ∈ scenarios, ∀ text,
      dir (k6File policy scenario) = some text → NoneHidden text) →
      ∃ lines, summary numeric data = .ok lines ∧
        printSummary numeric dir = (loadFaultData dir).map fun _ => lines) := by
  choose cell loaded describes using loadCell_describes numeric dir
  have told : ∀ policy ∈ policies, ∀ scenario ∈ scenarios,
      Describes numeric (dir (k6File policy scenario)) (duration scenario)
        ((table cell).cell policy scenario) := by
    intro policy known scenario planned
    rw [cell_table cell known planned]
    exact describes policy scenario
  have data := loadAllMetrics_table numeric fun policy _ scenario _ => loaded policy scenario
  refine ⟨table cell, data, told, ?_⟩
  intro shown
  have prints : ∃ lines, summary numeric (table cell) = .ok lines := by
    apply summary_prints
    intro policy known scenario planned m found
    have tells := told policy known scenario planned
    rw [found] at tells
    obtain ⟨text, s, count, file, -, measured, -, -, -, -, rate, -, same⟩ := tells
    have counted := same (shown policy known scenario planned text file)
    have positive : count ≠ 0 := by
      rw [counted]
      exact fun empty => measured (List.eq_nil_of_length_eq_zero empty)
    rw [rate, if_neg positive]
    rfl
  obtain ⟨lines, printed⟩ := prints
  refine ⟨lines, printed, ?_⟩
  rw [printSummary, data]
  cases loadFaultData dir with
  | error e => rfl
  | ok faults => exact congrArg raise printed

/-! ## Files as `k6` writes them -/

/-- A file of so many requests, each with its points, or no file, or one without any point. -/
def Recorded (requests : ℕ) : Option (List Char) → Prop
  | none => requests = 0
  | some text => NoneHidden text ∧ (K6File text requests ∨
      requests = 0 ∧ ∀ obj ∈ records text, isRecord obj ∧ kind obj = .other)

section Quiet

variable {text : List Char} (quiet : ∀ obj ∈ records text, isRecord obj ∧ kind obj = .other)

include quiet

theorem ofKind_quiet {k : Kind} (counted : k ≠ .other) : ofKind k (records text) = [] := by
  apply List.filter_eq_nil_iff.mpr
  intro obj member same
  exact counted ((of_decide_eq_true same).symm.trans (quiet obj member).2)

theorem loadK6_quiet : loadK6 numeric.percentile (some text) =
    .ok (some ⟨none, none, none, none, none⟩) := by
  have silent : ∀ obj ∈ records text, kind obj = .failed → isZeroOrOne (value obj) :=
    fun obj member failed => by rw [(quiet obj member).2] at failed; cases failed
  have ran := LoadK6.run (fun obj member => (quiet obj member).1) silent ⟨[], 0, 0⟩
  rw [ofKind_quiet quiet (by decide), ofKind_quiet quiet (by decide)] at ran
  simp only [loadK6, LoadK6.loop_eq, ran, ok_bind]
  rfl

theorem extractK6Metrics_quiet (kept : NoneHidden text) :
    extractK6Metrics numeric.percentile numeric.python.ofText (some text) = none := by
  have well : ∀ obj ∈ records text, isRecord obj := fun obj member => (quiet obj member).1
  cases found : extractK6Metrics numeric.percentile numeric.python.ofText (some text) with
  | none => rfl
  | some metrics =>
      obtain ⟨p50, p95, p99, estimate, err⟩ := metrics
      obtain ⟨_, s, same, ran, made⟩ := extractK6Metrics_some found
      cases same
      rw [ExtractK6.loop_eq kept] at ran
      have counted := (records_of_loop ran).2
      rw [ofKind_quiet quiet (by decide)] at counted
      exact absurd (List.eq_nil_of_length_eq_zero counted) (result_some made).1

end Quiet

/-- The median and the p95 which `plot_results.py` reads from a file. -/
def latencyPoint (k6 : Option (K6Metrics Number)) : Option (Number × Number) := do
  let m ← k6
  return (← m.p50Ms, ← m.p95Ms)

/-- What both programs make of a file agrees, and the rate is for the requests it has. -/
structure Agrees (requests : ℕ) (d : ℚ) (m : Option Cell) (k6 : Option (K6Metrics Number)) :
    Prop where
  errors : errorEntry m = .rat ((k6.bind K6Metrics.errorRate).getD 0 * 100)
  throughput : throughputHeight m = requests / d
  p95 : p95Height m = barOf none (k6.bind K6Metrics.p95Ms)
  point : m.map (fun m => (m.p50, m.p95)) = latencyPoint k6
  rated : ∀ c, m = some c → c.rps.isSome

theorem agrees_silent (d : ℚ) {k6 : Option (K6Metrics Number)}
    (share : k6.bind K6Metrics.errorRate = none) (p50 : k6.bind K6Metrics.p50Ms = none)
    (p95 : k6.bind K6Metrics.p95Ms = none) : Agrees 0 d none k6 where
  errors := by simp [errorEntry, share]
  throughput := by simp [throughputHeight]
  p95 := by rw [p95]; rfl
  point := by
    cases k6 with
    | none => rfl
    | some m =>
        have unmeasured : m.p50Ms = none := p50
        simp [latencyPoint, unmeasured]
  rated := fun c found => by cases found

theorem loadCell_matched {dir : Dir} {policy scenario : String} {text : List Char} {requests : ℕ}
    (file : dir (k6File policy scenario) = some text) (kept : NoneHidden text)
    (matched : K6File text requests) : ∃ m k6, loadCell numeric dir policy scenario = .ok m ∧
      loadK6 numeric.percentile (dir (k6File policy scenario)) = .ok k6 ∧
      Agrees requests (duration scenario) m k6 := by
  have lasts := durations_last scenario
  have read := matched.loadK6_eq numeric.percentile
  have extracted := matched.extractK6Metrics_eq kept numeric.percentile numeric.python.ofText
  let latencies := (ofKind .duration (records text)).map value
  let share : ℚ := (failures (records text)).length / requests
  refine ⟨some ⟨numeric.percentile latencies 50, numeric.percentile latencies 95,
    numeric.percentile latencies 99, some (requests / duration scenario), .rat (100 * share)⟩, _,
    ?_, file ▸ read, ?_⟩
  · rw [loadCell, file]
    simp only [extracted, matched.getRpsFromK6_eq lasts, ok_bind]
    rfl
  · refine ⟨congrArg Number.rat (mul_comm 100 share), rfl, rfl, rfl, ?_⟩
    intro c found
    cases found
    rfl

theorem loadCell_recorded {dir : Dir} {policy scenario : String} {requests : ℕ}
    (recorded : Recorded requests (dir (k6File policy scenario))) : ∃ m k6,
      loadCell numeric dir policy scenario = .ok m ∧
      loadK6 numeric.percentile (dir (k6File policy scenario)) = .ok k6 ∧
      Agrees requests (duration scenario) m k6 := by
  cases file : dir (k6File policy scenario) with
  | none =>
      rw [file] at recorded
      cases recorded
      exact ⟨none, none, by rw [loadCell, file]; rfl, rfl, agrees_silent _ rfl rfl rfl⟩
  | some text =>
      rw [file] at recorded
      obtain ⟨kept, matched | ⟨empty, quiet⟩⟩ := recorded
      · rw [← file]
        exact loadCell_matched numeric file kept matched
      · subst empty
        refine ⟨none, _, ?_, loadK6_quiet numeric quiet, agrees_silent _ rfl rfl rfl⟩
        rw [loadCell, file, extractK6Metrics_quiet numeric quiet kept]

/-- Behind any sequence of runs whose last files are as `k6` writes them, both programs draw the
    same share of errors for each policy and scenario, the throughput of the paper is that of the
    requests in the last file, and its quantiles are those which `plot_results.py` reads, and
    shows where there is nothing of Prometheus. -/
theorem programs_draw_the_same (setup : Setup) (events : List Event)
    {requests : String → String → ℕ}
    (recorded : ∀ policy ∈ policies, ∀ scenario ∈ scenarios,
      Recorded (requests policy scenario) (lastK6 events policy scenario)) :
    ∃ data rates lines, loadAllMetrics numeric (runs setup Files.empty events) = .ok data ∧
      figErrorRate numeric (runs setup Files.empty events) = .ok rates ∧
      summary numeric data = .ok lines ∧
      figErrorHeatmap data = rates.map (·.map Number.rat) ∧
      (figThroughput data = policies.map fun policy => scenarios.map fun scenario =>
        requests policy scenario / duration scenario) ∧
      ∃ (k6 : String → String → Option (K6Metrics Number)) (p95 : String → String → Number),
        (∀ policy ∈ policies, ∀ scenario ∈ scenarios,
          loadK6 numeric.percentile (lastK6 events policy scenario) = .ok (k6 policy scenario)) ∧
        (figP50VsP95 data = policies.map fun policy => scenarios.filterMap fun scenario =>
          latencyPoint (k6 policy scenario)) ∧
        (figP95Latency data = policies.map fun policy => scenarios.map fun scenario =>
          p95 policy scenario) ∧
        ∀ policy ∈ policies, ∀ scenario ∈ scenarios, spoils events (policy, scenario) = false →
          ((lastMetrics events policy scenario).bind fun m => shownNumber m.p95.sample) = none →
          ∃ bars, latencyBars numeric (runs setup Files.empty events) policy scenario = .ok bars ∧
            p95 policy scenario = bars.p95 := by
  have each : ∀ policy scenario, ∃ (m : Option Cell) (k6 : Option (K6Metrics Number)),
      policy ∈ policies → scenario ∈ scenarios →
        loadCell numeric (runs setup Files.empty events) policy scenario = .ok m ∧
        loadK6 numeric.percentile (lastK6 events policy scenario) = .ok k6 ∧
        Agrees (requests policy scenario) (duration scenario) m k6 := by
    intro policy scenario
    by_cases inside : policy ∈ policies ∧ scenario ∈ scenarios
    · have last := recorded policy inside.1 scenario inside.2
      rw [← runs_k6 setup events inside.1 inside.2] at last ⊢
      obtain ⟨m, k6, told⟩ := loadCell_recorded numeric last
      exact ⟨m, k6, fun _ _ => told⟩
    · exact ⟨none, none, fun known planned => absurd ⟨known, planned⟩ inside⟩
  choose cell k6 told using each
  have agrees : ∀ policy ∈ policies, ∀ scenario ∈ scenarios, Agrees (requests policy scenario)
      (duration scenario) (cell policy scenario) (k6 policy scenario) :=
    fun policy known scenario planned => (told policy scenario known planned).2.2
  have prints : ∃ lines, summary numeric (table cell) = .ok lines := by
    apply summary_prints
    intro policy known scenario planned
    rw [cell_table cell known planned]
    exact (agrees policy known scenario planned).rated
  obtain ⟨lines, printed⟩ := prints
  refine ⟨table cell, policies.map fun policy => scenarios.map fun scenario =>
    ((k6 policy scenario).bind K6Metrics.errorRate).getD 0 * 100, lines, ?_, ?_, printed, ?_, ?_,
    k6, fun policy scenario => p95Height (cell policy scenario), ?_, ?_,
    grid_table fun _ _ _ _ => rfl, ?_⟩
  · apply loadAllMetrics_table
    intro policy known scenario planned
    exact (told policy scenario known planned).1
  · apply mapM_accepting
    intro policy known
    apply mapM_accepting
    intro scenario planned
    rw [runs_k6 setup events known planned, (told policy scenario known planned).2.1]
    rfl
  · simp only [List.map_map, Function.comp_def]
    apply grid_table
    intro policy known scenario planned
    exact (agrees policy known scenario planned).errors
  · apply grid_table
    intro policy known scenario planned
    exact (agrees policy known scenario planned).throughput
  · intro policy known scenario planned
    exact (told policy scenario known planned).2.1
  · rw [figP50VsP95]
    apply List.map_congr_left
    intro policy known
    apply List.filterMap_congr
    intro scenario planned
    rw [cell_table cell known planned]
    exact (agrees policy known scenario planned).point
  · intro policy known scenario planned whole nothing
    refine ⟨barsOf (lastMetrics events policy scenario) (k6 policy scenario), ?_, ?_⟩
    · rw [latencyBars_runs numeric setup events known planned, whole,
        (told policy scenario known planned).2.1]
      rfl
    · rw [barsOf_p95 nothing]
      exact (agrees policy known scenario planned).p95

/-- One experiment, of which the metrics were not collected. -/
def uncollectedOnce : List Event := [.experiment "rr" "steady" (.failed (some failedRequest))]

theorem programs_draw_the_same_once : ∃ data rates lines,
    loadAllMetrics numericOnce (runs ⟨fun _ => [], []⟩ Files.empty uncollectedOnce) = .ok data ∧
    figErrorRate numericOnce (runs ⟨fun _ => [], []⟩ Files.empty uncollectedOnce) = .ok rates ∧
    summary numericOnce data = .ok lines ∧
    figErrorHeatmap data = rates.map (·.map Number.rat) := by
  have recorded : ∀ policy ∈ policies, ∀ scenario ∈ scenarios,
      Recorded (if policy = "rr" ∧ scenario = "steady" then 1 else 0)
        (lastK6 uncollectedOnce policy scenario) := by
    intro policy known scenario planned
    by_cases once : policy = "rr" ∧ scenario = "steady"
    · obtain ⟨rfl, rfl⟩ := once
      exact ⟨by unfold NoneHidden; decide +kernel, .inl k6File_failedRequest⟩
    · have nothing : lastK6 uncollectedOnce policy scenario = none := by
        have other : ¬ ("rr" = policy ∧ "steady" = scenario) :=
          fun same => once ⟨same.1.symm, same.2.symm⟩
        simp [lastK6, uncollectedOnce, Event.k6, other]
      rw [nothing, if_neg once]
      rfl
  obtain ⟨data, rates, lines, loaded, drawn, printed, same, -⟩ :=
    programs_draw_the_same numericOnce ⟨fun _ => [], []⟩ uncollectedOnce recorded
  exact ⟨data, rates, lines, loaded, drawn, printed, same⟩

end PcdLab.Analysis.PaperFigures
