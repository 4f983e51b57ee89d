import PcdLab.Lib.Json

/-! # The readers of k6 files

A k6 file has a JSON object on each line. Three functions of the analysis read it, each with
a loop of its own: `load_k6` of `plot_results.py`, and `extract_k6_metrics` and
`get_rps_from_k6` of `plot_paper_figures.py`. A file is a text as `open` hands it over,
with the same line end everywhere, and numbers are exact.
-/

namespace PcdLab.Analysis

open Lib

/-! ## Python values -/

/-- What else can go wrong than a text that is not JSON. -/
inductive PyError where
  | attribute
  | type
  | value
  | overflow
  | zeroDivision
  deriving Repr, DecidableEq

/-- Of a repeated key the last value stands. -/
def field (members : List (Json.Text × Json)) (key : String) : Option Json :=
  (members.reverse.find? fun entry => entry.1 = Json.text key).map Prod.snd

/-- `obj.get(key, default)`, which only a `dict` has. -/
def get (obj : Json) (key : String) (default : Json) : Except PyError Json :=
  match obj with
  | .obj members => .ok ((field members key).getD default)
  | _ => .error .attribute

/-- `v == name`. -/
def equals (v : Json) (name : String) : Bool :=
  match v with
  | .str s => s = Json.text name
  | _ => false

def emptyDict : Json := .obj []

def zero : Json := .num (.rat 0)

/-- `v > 0`. -/
def positive : Json → Except PyError Bool
  | .num (.rat q) => .ok (0 < q)
  | .num .nan => .ok false
  | .num (.infinity negative) => .ok !negative
  | .bool b => .ok b
  | _ => .error .type

/-- `float(v)`, with what it makes of a text. -/
def toFloat (ofText : Json.Text → Option Number) : Json → Except PyError Number
  | .num x => .ok x
  | .bool b => .ok (.rat (if b then 1 else 0))
  | .str s =>
      match ofText s with
      | some x => .ok x
      | none => .error .value
  | _ => .error .type

def addNumbers : Number → Number → Number
  | .rat p, .rat q => .rat (p + q)
  | .nan, _ | _, .nan => .nan
  | .infinity s, .infinity t => if s = t then .infinity s else .nan
  | .infinity s, .rat _ | .rat _, .infinity s => .infinity s

/-- The product with a positive number. -/
def scaleNumber (k : ℚ) : Number → Number
  | .rat q => .rat (k * q)
  | other => other

/-! ## `load_k6` -/

structure LoadK6 where
  durations : List Json
  errors : Nat
  totals : Nat

/-- The body of the loop for an object. -/
def LoadK6.object (s : LoadK6) (obj : Json) : Except PyError LoadK6 := do
  if equals (← get obj "type" .null) "Point" then
    let m ← get obj "metric" (.str [])
    let v ← get (← get obj "data" emptyDict) "value" zero
    if equals m "http_req_duration" then return { s with durations := s.durations ++ [v] }
    else if equals m "http_reqs" then return { s with totals := s.totals + 1 }
    else if equals m "http_req_failed" then
      if ← positive v then return { s with errors := s.errors + 1 } else return s
    else return s
  else return s

/-- A line that is not JSON is passed over. -/
def LoadK6.line (s : LoadK6) (line : List Char) : Except PyError LoadK6 :=
  match Json.loads line with
  | none => pure s
  | some obj => s.object obj

def LoadK6.loop (text : List Char) : Except PyError LoadK6 :=
  (Lines.fileLines text).foldlM LoadK6.line ⟨[], 0, 0⟩

/-- The metrics which `load_k6` returns. The percentiles are those of `numpy`. -/
structure K6Metrics (ρ : Type) where
  p50Ms : Option ρ
  p95Ms : Option ρ
  p99Ms : Option ρ
  rps : Option ℚ
  errorRate : Option ℚ

variable {ρ : Type}

/-- Without a file there are no metrics. -/
def loadK6 (percentile : List Json → ℚ → ρ) (file : Option (List Char)) :
    Except PyError (Option (K6Metrics ρ)) :=
  match file with
  | none => .ok none
  | some text => do
      let s ← LoadK6.loop text
      let percentileMs := fun p =>
        if s.durations.isEmpty then none else some (percentile s.durations p)
      return some {
        p50Ms := percentileMs 50
        p95Ms := percentileMs 95
        p99Ms := percentileMs 99
        rps := none
        errorRate := if s.totals = 0 then none else some (s.errors / s.totals) }

/-! ## `extract_k6_metrics` -/

/-- The first pass over the file, of which no result is used. -/
def ExtractK6.firstPassObject (rps : Json) (obj : Json) : Except PyError Json := do
  if equals (← get obj "type" .null) "Point" then return rps
  else
    let metric ← get obj "metric" (.str [])
    let data ← get obj "data" emptyDict
    let type ← get obj "type" .null
    if equals metric "http_req_duration" && equals type "Metric" then return rps
    else if equals type "Metric" && equals metric "http_reqs" then get data "contains" emptyDict
    else return rps

def ExtractK6.firstPass (rps : Json) (line : List Char) : Except PyError Json :=
  if (Lines.strip line).isEmpty then pure rps
  else
    match Json.loads (Lines.strip line) with
    | none => pure rps
    | some obj => firstPassObject rps obj

structure ExtractK6 where
  durValues : List Number
  reqCount : Nat
  failCount : Number

def ExtractK6.object (ofText : Json.Text → Option Number) (s : ExtractK6) (obj : Json) :
    Except PyError ExtractK6 := do
  let t ← get obj "type" (.str [])
  let metric ← get obj "metric" (.str [])
  let d ← get obj "data" emptyDict
  let val ← get d "value" zero
  if equals t "Point" then
    if equals metric "http_req_duration" then
      return { s with durValues := s.durValues ++ [← toFloat ofText val] }
    else if equals metric "http_reqs" then return { s with reqCount := s.reqCount + 1 }
    else if equals metric "http_req_failed" then
      return { s with failCount := addNumbers s.failCount (← toFloat ofText val) }
    else return s
  else return s

def ExtractK6.line (ofText : Json.Text → Option Number) (s : ExtractK6) (line : List Char) :
    Except PyError ExtractK6 :=
  if (Lines.strip line).isEmpty then pure s
  else
    match Json.loads line with
    | none => pure s
    | some obj => s.object ofText obj

/-- The second pass, over the lines of the stripped text. -/
def ExtractK6.loop (ofText : Json.Text → Option Number) (text : List Char) :
    Except PyError ExtractK6 :=
  ((Lines.strip text).splitOn '\n').foldlM (ExtractK6.line ofText) ⟨[], 0, .rat 0⟩

/-- p50, p95, p99, requests a second, and the percentage of errors. The requests that were
    counted go into a rate which is overwritten by a count of the durations. -/
def ExtractK6.result (percentile : List Json → ℚ → ρ) (s : ExtractK6) :
    Option (ρ × ρ × ρ × ℚ × Number) :=
  if s.durValues.isEmpty then none
  else
    let arr := s.durValues.map Json.num
    let rps : ℚ := s.durValues.length / 60
    let errRate := scaleNumber (1 / max 1 s.durValues.length) (scaleNumber 100 s.failCount)
    some (percentile arr 50, percentile arr 95, percentile arr 99, rps, errRate)

/-- Whatever goes wrong with a file, there are no metrics of it. -/
def extractK6Metrics (percentile : List Json → ℚ → ρ) (ofText : Json.Text → Option Number)
    (file : Option (List Char)) : Option (ρ × ρ × ρ × ℚ × Number) :=
  match file with
  | none => none
  | some text =>
      let passes : Except PyError ExtractK6 := do
        let _ ← (Lines.fileLines text).foldlM ExtractK6.firstPass .null
        ExtractK6.loop ofText text
      match passes with
      | .ok s => s.result percentile
      | .error _ => none

/-! ## `get_rps_from_k6` -/

def countDuration (count : Nat) (obj : Json) : Except PyError Nat := do
  if equals (← get obj "type" .null) "Point" then
    if equals (← get obj "metric" .null) "http_req_duration" then return count + 1
    else return count
  else return count

def countDurationLine (count : Nat) (line : List Char) : Except PyError Nat :=
  match Json.loads line with
  | none => pure count
  | some obj => countDuration count obj

def getRpsFromK6 (file : Option (List Char)) (durationS : ℚ) : Except PyError (Option ℚ) :=
  match file with
  | none => .ok none
  | some text => do
      let count ← (Lines.fileLines text).foldlM countDurationLine 0
      if count = 0 then return none
      else if durationS = 0 then .error .zeroDivision
      else return some (count / durationS)

end PcdLab.Analysis
