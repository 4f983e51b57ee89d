import PcdLab.Experiments.Suite
import PcdLab.Lib.Loops

/-! # The summary tables

`summary_table.py` reads the file of each policy and scenario and writes one row for each, in
Markdown and in LaTeX. How a number is printed with so many decimals is left to Python.
-/

namespace PcdLab.Analysis.Summary

open Lib Analysis.Prometheus Experiments.Suite

/-! ## Reading -/

/-- What ends a program of the analysis. -/
inductive Failure where
  | notJson
  | python (e : PyError)
  deriving Repr, DecidableEq

def raise {α : Type} : Except PyError α → Except Failure α
  | .ok a => .ok a
  | .error e => .error (.python e)

/-- `json.load`. -/
def load (text : List Char) : Except Failure Json :=
  match Json.loads text with
  | some v => .ok v
  | none => .error .notJson

/-- `load_prom`, of both programs. -/
def loadProm (dir : Dir) (policy scenario : String) : Except Failure Json :=
  match dir (promFile policy scenario) with
  | none => .ok emptyDict
  | some text => load text

/-- `POLICY_LABELS`, of both programs. -/
def policyLabels : List (String × String) :=
  [("rr", "Round Robin"), ("least-request", "Least Request"), ("ring-hash", "Ring Hash"),
    ("maglev", "Maglev")]

/-- Each of the policies has a label. -/
def label (policy : String) : String := (policyLabels.lookup policy).getD policy

structure Row where
  policy : String
  scenario : String
  metrics : Metrics Json

def buildRow (dir : Dir) (policy scenario : String) : Except Failure Row := do
  let prom ← loadProm dir policy scenario
  let lat ← raise (get prom "latency_ms" emptyDict)
  let p50 ← raise (get lat "p50" .null)
  let p95 ← raise (get lat "p95" .null)
  let p99 ← raise (get lat "p99" .null)
  let rps ← raise (get prom "throughput_rps" .null)
  let err5xx ← raise (get prom "errors_5xx_rps" .null)
  return ⟨label policy, scenario, ⟨p50, p95, p99, rps, err5xx⟩⟩

/-- Row by row, in the order of the table. -/
def cells : List (String × String) :=
  policies.flatMap fun policy => scenarios.map fun scenario => (policy, scenario)

def buildRows (dir : Dir) : Except Failure (List Row) :=
  cells.mapM fun cell => buildRow dir cell.1 cell.2

/-! ## Writing -/

/-- How Python prints a number, and what it makes of a text. -/
structure Python where
  format : Number → Nat → List Char
  ofText : Json.Text → Option Number

def dash : List Char := ['—']

/-- `v == 0`. -/
def isZero : Json → Bool
  | .num (.rat q) => q = 0
  | .bool b => !b
  | _ => false

def isNull : Json → Bool
  | .null => true
  | _ => false

def fmt (python : Python) (v : Json) (decimals : Nat) : List Char :=
  if isNull v ∨ equals v "null" ∨ isZero v then dash
  else
    match toFloat python.ofText v with
    | .ok x => python.format x decimals
    | .error _ => dash

/-- The texts of a row. -/
structure Texts where
  policy : String
  scenario : String
  metrics : Metrics (List Char)

def Row.texts (python : Python) (r : Row) : Texts where
  policy := r.policy
  scenario := r.scenario
  metrics := ⟨fmt python r.metrics.p50 1, fmt python r.metrics.p95 1, fmt python r.metrics.p99 1,
    fmt python r.metrics.throughputRps 1, fmt python r.metrics.errors5xxRps 3⟩

def markdownLine (t : Texts) : List Char :=
  "| ".toList ++ t.policy.toList ++ " | ".toList ++ t.scenario.toList ++ " | ".toList ++
    t.metrics.p50 ++ " | ".toList ++ t.metrics.p95 ++ " | ".toList ++ t.metrics.p99 ++
    " | ".toList ++ t.metrics.throughputRps ++ " | ".toList ++ t.metrics.errors5xxRps ++
    " |".toList

def latexLine (t : Texts) : List Char :=
  t.policy.toList ++ " & ".toList ++ t.scenario.toList ++ " & ".toList ++ t.metrics.p50 ++
    " & ".toList ++ t.metrics.p95 ++ " & ".toList ++ t.metrics.p99 ++ " & ".toList ++
    t.metrics.throughputRps ++ " & ".toList ++ t.metrics.errors5xxRps ++ " \\\\".toList

/-- `"\n".join(lines) + "\n"`, for at least one line. -/
def joined (lines : List (List Char)) : List Char := lines.flatMap (· ++ ['\n'])

/-- `summary.md`. -/
def writeMarkdown (rows : List Texts) : List Char :=
  joined ("| Policy | Scenario | p50 (ms) | p95 (ms) | p99 (ms) | RPS | 5xx/s |".toList ::
    "|--------|----------|----------|----------|----------|-----|-------|".toList ::
    rows.map markdownLine)

/-- `summary_tex.tex`. -/
def writeLatex (rows : List Texts) : List Char :=
  joined (["\\begin\x7btable\x7d[htbp]".toList, "\\centering".toList,
      "\\caption\x7bLoad-Balancing Algorithm Comparison\x7d".toList,
      "\\label\x7btab:results\x7d".toList, "\\begin\x7btabular\x7d\x7bllrrrrr\x7d".toList,
      "\\toprule".toList,
      "Policy & Scenario & p50 (ms) & p95 (ms) & p99 (ms) & RPS & 5xx/s \\\\".toList,
      "\\midrule".toList] ++
    rows.map latexLine ++
    ["\\bottomrule".toList, "\\end\x7btabular\x7d".toList, "\\end\x7btable\x7d".toList])

/-- The program. -/
def summaryTable (python : Python) (dir : Dir) : Except Failure (List Char × List Char) := do
  let rows ← buildRows dir
  let texts := rows.map (Row.texts python)
  return (writeMarkdown texts, writeLatex texts)

/-! ## What the tables show -/

/-- What there is to be shown of a sample: a number other than zero. -/
def shownNumber : Sample → Option Number
  | .number _ value _ => if value = 0 then none else some (.rat value)
  | .nan => some .nan
  | .absent | .infinity _ => none

/-- A dash where there is nothing to be shown. -/
def shown (python : Python) (decimals : Nat) (s : Sample) : List Char :=
  ((shownNumber s).map fun x => python.format x decimals).getD dash

/-- The row for the metrics collected last, if any were. -/
def expected (python : Python) (events : List Event) (cell : String × String) : Texts where
  policy := label cell.1
  scenario := cell.2
  metrics :=
    match lastMetrics events cell.1 cell.2 with
    | none => ⟨dash, dash, dash, dash, dash⟩
    | some m => ⟨shown python 1 m.p50.sample, shown python 1 m.p95.sample,
        shown python 1 m.p99.sample, shown python 1 m.throughputRps.sample,
        shown python 3 m.errors5xxRps.sample⟩

/-- What is read of the metrics collected last. -/
def collectedRow (events : List Event) (cell : String × String) : Row where
  policy := label cell.1
  scenario := cell.2
  metrics :=
    match lastMetrics events cell.1 cell.2 with
    | none => ⟨.null, .null, .null, .null, .null⟩
    | some m => m.map fun a => a.sample.value

/-- One of the metrics collected last is infinite, or their file lacks more than the line end. -/
def spoils (events : List Event) (cell : String × String) : Bool :=
  (lastCollected events cell.1 cell.2).any fun c => c.metrics.isInfinite ∨ 1 < c.missing

theorem fmt_sample (python : Python) (decimals : Nat) (s : Sample) :
    fmt python s.value decimals = shown python decimals s := by
  cases s with
  | absent => rfl
  | number text value reads =>
      by_cases zero : value = 0
      · simp [fmt, Sample.value, Sample.json, isZero, zero, shown, shownNumber]
      · simp [fmt, Sample.value, Sample.json, isZero, isNull, equals, zero, shown, shownNumber,
          toFloat]
  | nan => rfl
  | infinity negative => rfl

theorem plain_names : (∀ policy ∈ policies, policy.toList.all Json.isPlain) ∧
    ∀ scenario ∈ scenarios, scenario.toList.all Json.isPlain := by
  decide

theorem open_names : (∀ policy ∈ policies, policy.toList.countP Json.isCloser = 0) ∧
    ∀ scenario ∈ scenarios, scenario.toList.countP Json.isCloser = 0 := by
  decide

section

variable (setup : Setup) (events : List Event) {policy scenario : String}
  (known : policy ∈ policies) (planned : scenario ∈ scenarios)

include known planned

/-- What `load_prom` returns behind any sequence of runs. -/
theorem loadProm_runs : loadProm (runs setup Files.empty events) policy scenario =
    if spoils events (policy, scenario) then .error .notJson
    else .ok (((lastMetrics events policy scenario).map fun m =>
      promDict policy.toList scenario.toList (m.map fun a => a.sample.value)).getD emptyDict) := by
  have read := loads_answers_cut setup.repr (plain_names.1 policy known)
    (plain_names.2 scenario planned)
  have decoded := fun m => read m (open_names.1 policy known) (open_names.2 scenario planned)
  rw [loadProm, runs_promFile setup _ _ known planned, spoils, lastMetrics]
  cases lastCollected events policy scenario with
  | none => rfl
  | some c =>
      simp only [Option.map_some, Option.some_or, load, Setup.collectedText, Setup.promText,
        decoded, Option.any_some, Option.getD_some, decide_eq_true_eq]
      by_cases spoiled : c.metrics.isInfinite ∨ 1 < c.missing
      · rw [if_pos spoiled, if_pos spoiled]
      · rw [if_neg spoiled, if_neg spoiled]

theorem buildRow_runs : buildRow (runs setup Files.empty events) policy scenario =
    if spoils events (policy, scenario) then .error .notJson
    else .ok (collectedRow events (policy, scenario)) := by
  rw [buildRow, loadProm_runs setup events known planned, collectedRow]
  split
  · rfl
  · cases lastMetrics events policy scenario with
    | none => rfl
    | some m => rfl

end

theorem texts_collectedRow (python : Python) (events : List Event) (cell : String × String) :
    (collectedRow events cell).texts python = expected python events cell := by
  rw [collectedRow, expected]
  cases lastMetrics events cell.1 cell.2 with
  | none => rfl
  | some m => simp only [Row.texts, Metrics.map, fmt_sample]

theorem mem_cells {cell : String × String} (member : cell ∈ cells) :
    cell.1 ∈ policies ∧ cell.2 ∈ scenarios := by
  obtain ⟨policy, known, inner⟩ := List.mem_flatMap.mp member
  obtain ⟨scenario, planned, rfl⟩ := List.mem_map.mp inner
  exact ⟨known, planned⟩

theorem buildRows_runs (setup : Setup) (events : List Event) :
    buildRows (runs setup Files.empty events) =
      if cells.any (spoils events) then .error .notJson
      else .ok (cells.map (collectedRow events)) :=
  mapM_refusing fun _ member =>
    buildRow_runs setup events (mem_cells member).1 (mem_cells member).2

/-- Behind any sequence of experiments, failed ones included, the tables have a row for each
    policy and scenario, with the numbers that were collected last and a dash where there is none
    or zero. A single infinite one among these numbers, or a file which lacks more than its line
    end, and there are no tables at all. -/
theorem tables_show_last_metrics (setup : Setup) (python : Python) (events : List Event) :
    summaryTable python (runs setup Files.empty events) =
      if cells.any (spoils events) then .error .notJson
      else .ok (writeMarkdown (cells.map (expected python events)),
        writeLatex (cells.map (expected python events))) := by
  rw [summaryTable, buildRows_runs]
  split
  · rfl
  · have texts : (cells.map (collectedRow events)).map (Row.texts python) =
        cells.map (expected python events) := by
      rw [List.map_map]
      exact List.map_congr_left fun cell _ => texts_collectedRow python events cell
    rw [← texts]
    rfl

end PcdLab.Analysis.Summary
