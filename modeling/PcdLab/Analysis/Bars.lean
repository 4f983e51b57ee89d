import PcdLab.Analysis.Summary

/-! # The bars of the figures

`plot_results.py` draws the same metrics which the tables have. For a quantile of the latency
that Prometheus did not measure it takes the one of `k6`, and otherwise zero; for the requests a
second it takes zero at once. The figures and the tables must not tell different numbers.
-/

namespace PcdLab.Analysis.Bars

open Lib Analysis.Prometheus Analysis.Summary Experiments.Suite

/-- `numpy`'s percentiles, and Python's numbers. Where `numpy` raises, on values that are no
    numbers, there is some number here. -/
structure Numeric where
  percentile : List Json → ℚ → Number
  python : Python

variable (numeric : Numeric)

/-- `a or b or 0`, where `b` is a number that may be missing. -/
def orElse (a : Json) (b : Option Number) : Json :=
  if truthy a then a
  else
    match b with
    | some x => if truthy (.num x) then .num x else zero
    | none => zero

/-- `float(v) if v != "null" else 0`. -/
def height (v : Json) : Except PyError Number :=
  if equals v "null" then .ok (.rat 0) else toFloat numeric.python.ofText v

/-- The three bars of a policy in the plot of a scenario. -/
structure Quantiles where
  p50 : Number
  p95 : Number
  p99 : Number
  deriving DecidableEq

/-- The body of the loop over the policies in `fig_latency_bar`. -/
def latencyBars (dir : Dir) (policy scenario : String) : Except Failure Quantiles := do
  let prom ← loadProm dir policy scenario
  let k6 ← raise (loadK6 numeric.percentile (dir (k6File policy scenario)))
  let lat ← raise (get prom "latency_ms" emptyDict)
  let p50 := orElse (← raise (get lat "p50" .null)) (k6.bind K6Metrics.p50Ms)
  let p95 := orElse (← raise (get lat "p95" .null)) (k6.bind K6Metrics.p95Ms)
  let p99 := orElse (← raise (get lat "p99" .null)) (k6.bind K6Metrics.p99Ms)
  return ⟨← raise (height numeric p50), ← raise (height numeric p95),
    ← raise (height numeric p99)⟩

/-- A bar for a sample, with a number in its stead where there is nothing to be shown. -/
def barOf (sample : Option Sample) (instead : Option Number) : Number :=
  ((sample.bind shownNumber).or instead).getD (.rat 0)

def barsOf (m : Option (Metrics Answer)) (k6 : Option (K6Metrics Number)) : Quantiles where
  p50 := barOf (m.map fun m => m.p50.sample) (k6.bind K6Metrics.p50Ms)
  p95 := barOf (m.map fun m => m.p95.sample) (k6.bind K6Metrics.p95Ms)
  p99 := barOf (m.map fun m => m.p99.sample) (k6.bind K6Metrics.p99Ms)

/-- Where there is nothing of Prometheus to be shown, the bar is that of `k6`. -/
theorem barsOf_p95 {m : Option (Metrics Answer)} {k6 : Option (K6Metrics Number)}
    (nothing : (m.bind fun m => shownNumber m.p95.sample) = none) :
    (barsOf m k6).p95 = barOf none (k6.bind K6Metrics.p95Ms) := by
  cases m with
  | none => rfl
  | some m =>
      rw [Option.bind_some] at nothing
      simp [barsOf, barOf, nothing]

theorem height_instead (instead : Option Number) :
    height numeric (orElse .null instead) = .ok (barOf none instead) := by
  cases instead with
  | none => rfl
  | some x =>
      cases x with
      | nan => rfl
      | infinity negative => rfl
      | rat q =>
          by_cases zero : q = 0
          · subst zero
            rfl
          · simp [orElse, truthy, zero, height, equals, toFloat, barOf]

theorem height_sample (s : Sample) (instead : Option Number) :
    height numeric (orElse s.value instead) = .ok (barOf (some s) instead) := by
  cases s with
  | absent => exact height_instead numeric instead
  | infinity negative => exact height_instead numeric instead
  | nan => rfl
  | number text value reads =>
      by_cases zero : value = 0
      · have nothing : orElse (Sample.number text value reads).value instead =
            orElse .null instead := by
          simp [orElse, Sample.value, Sample.json, truthy, zero]
        rw [nothing, height_instead]
        simp [barOf, shownNumber, zero]
      · simp [orElse, Sample.value, Sample.json, truthy, zero, height, equals, toFloat, barOf,
          shownNumber]

theorem quantiles_of_heights {a b c : Json} {p50 p95 p99 : Number}
    (first : height numeric a = .ok p50) (second : height numeric b = .ok p95)
    (third : height numeric c = .ok p99) :
    (do return ⟨← raise (height numeric a), ← raise (height numeric b),
      ← raise (height numeric c)⟩ : Except Failure Quantiles) = .ok ⟨p50, p95, p99⟩ := by
  rw [first, second, third]
  rfl

section

variable (setup : Setup) (events : List Event) {policy scenario : String}
  (known : policy ∈ policies) (planned : scenario ∈ scenarios)

include known planned

theorem runs_k6 :
    runs setup Files.empty events (k6File policy scenario) = lastK6 events policy scenario := by
  rw [runs_k6File setup _ _ known planned]
  exact Option.or_none

theorem latencyBars_runs :
    latencyBars numeric (runs setup Files.empty events) policy scenario =
      if spoils events (policy, scenario) then .error .notJson
      else (raise (loadK6 numeric.percentile (lastK6 events policy scenario))).map
        (barsOf (lastMetrics events policy scenario)) := by
  rw [latencyBars, loadProm_runs setup events known planned, runs_k6 setup events known planned]
  split
  · rfl
  · cases loadK6 numeric.percentile (lastK6 events policy scenario) with
    | error e => rfl
    | ok k6 =>
        cases lastMetrics events policy scenario with
        | none =>
            exact quantiles_of_heights numeric (height_instead numeric _)
              (height_instead numeric _) (height_instead numeric _)
        | some m =>
            exact quantiles_of_heights numeric (height_sample numeric _ _)
              (height_sample numeric _ _) (height_sample numeric _ _)

end

def numericOnce : Numeric where
  percentile _ _ := .nan
  python := { format := fun _ _ => "12.5".toList, ofText := fun _ => none }

end PcdLab.Analysis.Bars
