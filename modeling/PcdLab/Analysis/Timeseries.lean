import Mathlib.Data.Rat.Floor
import PcdLab.Analysis.K6Agreement
import PcdLab.Lib.Windows

/-! # The latency of the scaling experiment

`fig_hpa_latency_timeseries` places the samples of a k6 file on an axis which starts at the
first of them, and draws percentiles of each window of ten seconds.
-/

namespace PcdLab.Analysis

open Lib

/-- `x < y`. -/
def numberLt : Number → Number → Bool
  | .rat p, .rat q => p < q
  | .infinity true, .rat _ | .rat _, .infinity false => true
  | .infinity true, .infinity false => true
  | _, _ => false

/-- When a request was sent, and how long it took. -/
abbrev Sample := ℚ × Number

/-- Samples are compared as pairs. -/
def sampleLt (a b : Sample) : Bool := a.1 < b.1 ∨ (a.1 = b.1 ∧ numberLt a.2 b.2)

structure Timeseries where
  experimentStart : Option ℚ
  samples : List Sample

namespace Timeseries

/-- The first sample of the file starts the experiment. -/
def point (s : Timeseries) (sample : Sample) : Timeseries :=
  let start := s.experimentStart.getD sample.1
  ⟨some start, s.samples ++ [(sample.1 - start, sample.2)]⟩

def ofPoints (points : List Sample) : Timeseries := points.foldl point ⟨none, []⟩

/-- The body of the loop for an object. What the text of a time stands for is left open, and so
    is which texts are times. -/
def object (ofText : Json.Text → Option Number) (timestamp : Json → Option ℚ) (s : Timeseries)
    (obj : Json) : Except PyError Timeseries := do
  if equals (← get obj "type" .null) "Point" then
    if equals (← get obj "metric" .null) "http_req_duration" then
      let rawTime ← get (← get obj "data" emptyDict) "time" (.str [])
      let val ← toFloat ofText (← get (← get obj "data" emptyDict) "value" zero)
      match timestamp rawTime with
      | none => return s
      | some epoch => return s.point (epoch, val)
    else return s
  else return s

def line (ofText : Json.Text → Option Number) (timestamp : Json → Option ℚ) (s : Timeseries)
    (line : List Char) : Except PyError Timeseries :=
  if (Lines.strip line).isEmpty then pure s
  else
    match Json.loads (Lines.strip line) with
    | none => pure s
    | some obj => s.object ofText timestamp obj

def loop (ofText : Json.Text → Option Number) (timestamp : Json → Option ℚ) (text : List Char) :
    Except PyError Timeseries :=
  (Lines.fileLines text).foldlM (line ofText timestamp) ⟨none, []⟩

/-! ## Windows -/

def binS : ℚ := 10

/-- `samples.sort()`. -/
def sorted (samples : List Sample) : List Sample :=
  samples.insertionSort fun a b => ¬ sampleLt b a

/-- `samples[-1][0]`. -/
def maxT (samples : List Sample) : ℚ :=
  match (sorted samples).getLast? with
  | none => 0
  | some last => last.1

def bins (samples : List Sample) : List ℚ := Windows.arange 0 (maxT samples + binS) binS

/-- The samples of the window that starts at `b`. -/
def window (samples : List Sample) (b : ℚ) : List Sample :=
  (sorted samples).filter fun sample => Windows.inside binS b sample.1

/-- The windows that are drawn: those with samples in them. -/
def windows (samples : List Sample) : List ℚ :=
  (bins samples).dropLast.filter fun b => !(window samples b).isEmpty

end Timeseries

/-- What becomes of the figure. -/
inductive LatencyFigure (ρ : Type) where
  | skippedNoFile
  | skippedNoSamples
  | skippedNoBinnedData
  | saved (tCentres : List ℚ) (p50Bins p95Bins : List ρ) (markers : List Number)
  deriving DecidableEq

section Figure

variable {ρ : Type} (percentile : List Number → ℚ → ρ)

def Timeseries.figure (scaleUpInfo : Option (List Number × Number)) (samples : List Sample) :
    LatencyFigure ρ :=
  if samples.isEmpty then .skippedNoSamples
  else
    let percentileOf := fun p b => percentile ((window samples b).map Prod.snd) p
    if (windows samples).isEmpty then .skippedNoBinnedData
    else .saved ((windows samples).map (· + binS / 2)) ((windows samples).map (percentileOf 50))
      ((windows samples).map (percentileOf 95)) ((scaleUpInfo.map Prod.fst).getD [])

def figHpaLatencyTimeseries (ofText : Json.Text → Option Number) (timestamp : Json → Option ℚ)
    (scaleUpInfo : Option (List Number × Number)) (file : Option (List Char)) :
    Except PyError (LatencyFigure ρ) :=
  match file with
  | none => .ok .skippedNoFile
  | some text => do
      let s ← Timeseries.loop ofText timestamp text
      return s.samples |> Timeseries.figure percentile scaleUpInfo

end Figure

namespace Timeseries

/-! ## The axis -/

theorem foldl_point (start : ℚ) (samples points : List Sample) :
    points.foldl point ⟨some start, samples⟩ =
      ⟨some start, samples ++ points.map fun p => (p.1 - start, p.2)⟩ := by
  induction points generalizing samples with
  | nil => simp
  | cons p points ih =>
      rw [List.foldl_cons]
      simp only [point, Option.getD_some]
      rw [ih, List.map_cons, List.append_assoc, List.singleton_append]

theorem ofPoints_samples (first : Sample) (points : List Sample) :
    (ofPoints (first :: points)).samples =
      (first :: points).map fun p => (p.1 - first.1, p.2) := by
  have started : point ⟨none, []⟩ first = ⟨some first.1, [(first.1 - first.1, first.2)]⟩ := rfl
  rw [ofPoints, List.foldl_cons, started, foldl_point, List.map_cons, List.singleton_append]

theorem sorted_pairwise (samples : List Sample) :
    (sorted samples).Pairwise fun a b => a.1 ≤ b.1 := by
  apply Windows.pairwise_insertionSort
  · exact le_trans
  · intro a b notLt
    by_contra before
    exact notLt (decide_eq_true (.inl (not_le.mp before)))
  · intro a b notNot
    rcases of_decide_eq_true (not_not.mp notNot) with before | same
    · exact before.le
    · exact same.1.le

theorem mem_sorted {samples : List Sample} {sample : Sample} :
    sample ∈ sorted samples ↔ sample ∈ samples := List.mem_insertionSort _

theorem length_sorted (samples : List Sample) : (sorted samples).length = samples.length :=
  List.length_insertionSort _ _

/-- A window with a sample in it is drawn. -/
theorem mem_windows {samples : List Sample} {b : ℚ} {sample : Sample} (member : sample ∈ samples)
    (inOne : b ∈ (bins samples).dropLast.filter fun b => Windows.inside binS b sample.1) :
    b ∈ windows samples := by
  obtain ⟨start, within⟩ := List.mem_filter.mp inOne
  have holds : sample ∈ window samples b :=
    List.mem_filter.mpr ⟨mem_sorted.mpr member, within⟩
  refine List.mem_filter.mpr ⟨start, ?_⟩
  simpa [List.isEmpty_iff] using List.ne_nil_of_mem holds

section Windows

variable {samples : List Sample} (shown : samples ≠ [])

include shown

/-- The last time is that of a sample, and no sample is later. -/
theorem maxT_spec : (∃ sample ∈ samples, sample.1 = maxT samples) ∧
    ∀ sample ∈ samples, sample.1 ≤ maxT samples := by
  have nonempty : sorted samples ≠ [] := by
    rw [← List.length_pos_iff, length_sorted]
    exact List.length_pos_iff.mpr shown
  have last : maxT samples = ((sorted samples).getLast nonempty).1 := by
    rw [maxT, List.getLast?_eq_some_getLast nonempty]
  refine ⟨⟨_, mem_sorted.mp (List.getLast_mem nonempty), last.symm⟩, ?_⟩
  intro sample member
  rw [last]
  exact (sorted_pairwise samples).rel_getLast_of_rel_getLast_getLast (mem_sorted.mpr member) le_rfl

variable (started : ∃ sample ∈ samples, sample.1 = 0)

include started

theorem maxT_nonneg : 0 ≤ maxT samples := by
  obtain ⟨sample, member, zero⟩ := started
  rw [← zero]
  exact (maxT_spec shown).2 sample member

/-- How many windows a time lies in. -/
theorem length_windows_of (t : ℚ) :
    ((bins samples).dropLast.filter fun b => Windows.inside binS b t).length =
      if 0 ≤ t ∧ t < ⌈maxT samples / binS⌉₊ * binS then 1 else 0 := by
  have wide : 0 < binS := by decide
  rw [bins, Windows.dropLast_arange wide (maxT_nonneg shown started)]
  exact Windows.length_filter_inside wide t _

theorem once_iff :
    (∀ sample ∈ samples,
      ((bins samples).dropLast.filter fun b => Windows.inside binS b sample.1).length = 1) ↔
    (∀ sample ∈ samples, 0 ≤ sample.1) ∧ ∀ k : ℕ, maxT samples ≠ k * binS := by
  have wide : 0 < binS := by decide
  simp only [length_windows_of shown started, ite_eq_left_iff, zero_ne_one, imp_false, not_not]
  rw [← Windows.last_lt_iff wide]
  obtain ⟨⟨last, member, latest⟩, most⟩ := maxT_spec shown
  constructor
  · intro covered
    exact ⟨fun sample member => (covered sample member).1, latest ▸ (covered last member).2⟩
  · intro ⟨behind, before⟩ sample member
    exact ⟨behind sample member, (most sample member).trans_lt before⟩

end Windows

section Drawing

variable {samples : List Sample} (once : ∀ sample ∈ samples,
  ((bins samples).dropLast.filter fun b => Windows.inside binS b sample.1).length = 1)

include once

theorem sum_windows :
    ((bins samples).dropLast.map fun b => (window samples b).length).sum = samples.length := by
  rw [← length_sorted]
  apply Windows.sum_sizes_of_once
  intro sample member
  exact once sample (mem_sorted.mp member)

theorem figure_binned {ρ : Type} (percentile : List Number → ℚ → ρ)
    (scaleUpInfo : Option (List Number × Number)) :
    figure percentile scaleUpInfo samples ≠ .skippedNoBinnedData := by
  cases samples with
  | nil => simp [figure]
  | cons sample samples =>
      have inOne := once sample List.mem_cons_self
      obtain ⟨b, member⟩ := List.exists_mem_of_length_pos (inOne ▸ Nat.one_pos)
      have drawn := mem_windows List.mem_cons_self member
      have shown : (windows (sample :: samples)).isEmpty = false := by
        simpa [List.isEmpty_eq_false_iff] using List.ne_nil_of_mem drawn
      simp [figure, shown]

end Drawing

/-- The figure has windows to draw exactly if a sample is behind the first. -/
theorem windows_isEmpty_iff {samples : List Sample} (shown : samples ≠ [])
    (started : ∃ sample ∈ samples, sample.1 = 0) :
    (windows samples).isEmpty ↔ ∀ sample ∈ samples, sample.1 ≤ 0 := by
  have wide : 0 < binS := by decide
  have latest := maxT_nonneg shown started
  obtain ⟨⟨last, member, reached⟩, most⟩ := maxT_spec shown
  rw [List.isEmpty_iff]
  constructor
  · intro empty sample isSample
    refine (most sample isSample).trans ?_
    by_contra behind
    -- the window which starts at zero holds the first sample
    have covered := length_windows_of shown started 0
    rw [if_pos] at covered
    · obtain ⟨first, isFirst, zero⟩ := started
      obtain ⟨b, inOne⟩ := List.exists_mem_of_length_pos (covered ▸ Nat.one_pos)
      exact List.ne_nil_of_mem (mem_windows isFirst (zero ▸ inOne)) empty
    · refine ⟨le_rfl, mul_pos ?_ wide⟩
      exact Nat.cast_pos.mpr (Nat.ceil_pos.mpr (div_pos (not_le.mp behind) wide))
  · intro early
    have zero : maxT samples = 0 := le_antisymm (reached ▸ early last member) latest
    rw [windows, bins, Windows.dropLast_arange wide latest, zero]
    simp

/-! ## From the file to the axis -/

def time : Json → Json := datum "time" (.str [])

/-- The point of a record, if its time can be read. -/
def samplePoint (timestamp : Json → Option ℚ) (obj : Json) : Option Sample :=
  match kind obj, value obj with
  | .duration, .num val => (timestamp (time obj)).map fun epoch => (epoch, val)
  | _, _ => none

section Records

variable (ofText : Json.Text → Option Number) (timestamp : Json → Option ℚ)

theorem samplePoint_duration {obj : Json} (timed : kind obj = .duration) {val : Number}
    (isVal : value obj = .num val) :
    samplePoint timestamp obj = (timestamp (time obj)).map fun epoch => (epoch, val) := by
  simp only [samplePoint, timed, isVal]

theorem samplePoint_other {obj : Json} (other : kind obj ≠ .duration) :
    samplePoint timestamp obj = none := by
  unfold samplePoint
  split
  · contradiction
  · rfl

theorem object_eq {obj : Json} (record : isRecord obj)
    (number : kind obj = .duration → isNumber (value obj)) (s : Timeseries) :
    s.object ofText timestamp obj = .ok (match samplePoint timestamp obj with
      | none => s
      | some sample => s.point sample) := by
  obtain ⟨members, data, rfl, dict, same⟩ := record_obj record
  have worth : value (.obj members) = (field data "value").getD zero := same "value" zero
  have sent : time (.obj members) = (field data "time").getD (.str []) := same "time" (.str [])
  have type := equals_getD members "type" "Point" .null rfl
  have duration := equals_getD members "metric" "http_req_duration" .null rfl
  unfold object
  rw [dict]
  simp only [get_obj, ok_bind, type, duration, ← worth, ← sent]
  by_cases timed : kind (.obj members) = .duration
  · obtain ⟨isPoint, metric⟩ := (kind_duration members).mp timed
    obtain ⟨val, shown, isVal⟩ := toFloat_number (number timed) ofText
    rw [samplePoint_duration timestamp timed isVal, if_pos isPoint, if_pos metric, shown, ok_bind]
    cases timestamp (time (.obj members)) <;> rfl
  · rw [samplePoint_other timestamp timed]
    split
    · rename_i isPoint
      rw [if_neg fun metric => timed ((kind_duration members).mpr ⟨isPoint, metric⟩)]
      rfl
    · rfl

theorem run {objs : List Json} (wellFormed : ∀ obj ∈ objs, isRecord obj)
    (numbers : ∀ obj ∈ objs, kind obj = .duration → isNumber (value obj)) (s : Timeseries) :
    objs.foldlM (object ofText timestamp) s =
      .ok ((objs.filterMap (samplePoint timestamp)).foldl point s) := by
  induction objs generalizing s with
  | nil => rfl
  | cons obj objs ih =>
      obtain ⟨here, later⟩ := List.forall_mem_cons.mp wellFormed
      obtain ⟨number, numbers⟩ := List.forall_mem_cons.mp numbers
      rw [List.foldlM_cons, object_eq ofText timestamp here number, ok_bind, ih later numbers]
      cases sampled : samplePoint timestamp obj with
      | none => rw [List.filterMap_cons_none sampled]
      | some sample => rw [List.filterMap_cons_some sampled, List.foldl_cons]

/-- The figure is that of the points of the file, in the order of the file. -/
theorem figHpaLatencyTimeseries_eq {text : List Char} (kept : NoneHidden text)
    (wellFormed : ∀ obj ∈ records text, isRecord obj)
    (numbers : ∀ obj ∈ records text, kind obj = .duration → isNumber (value obj))
    {ρ : Type} (percentile : List Number → ℚ → ρ)
    (scaleUpInfo : Option (List Number × Number)) :
    figHpaLatencyTimeseries percentile ofText timestamp scaleUpInfo (some text) =
      .ok (figure percentile scaleUpInfo
        (ofPoints ((records text).filterMap (samplePoint timestamp))).samples) := by
  have ran : loop ofText timestamp text =
      .ok (ofPoints ((records text).filterMap (samplePoint timestamp))) := by
    rw [ofPoints, ← run ofText timestamp wellFormed numbers, ← firstPass_records kept]
    exact foldlM_stripped (fun _ _ => rfl) _ _
  simp only [figHpaLatencyTimeseries, ran, ok_bind]
  rfl

/-- The point of any object, if its time can be read. -/
def sampleOf (obj : Json) : Except PyError (Option Sample) := do
  if equals (← get obj "type" .null) "Point" then
    if equals (← get obj "metric" .null) "http_req_duration" then
      let rawTime ← get (← get obj "data" emptyDict) "time" (.str [])
      let val ← toFloat ofText (← get (← get obj "data" emptyDict) "value" zero)
      return (timestamp rawTime).map fun epoch => (epoch, val)
    else return none
  else return none

/-- The points of any file, in the order of the file. -/
def pointsOf (text : List Char) : Except PyError (List Sample) := do
  let objs := (Lines.fileLines text).filterMap fun l => Json.loads (Lines.strip l)
  let found ← objs.mapM (sampleOf ofText timestamp)
  return found.reduceOption

/-- An object adds its point, if it has one. -/
theorem object_sampleOf (s : Timeseries) (obj : Json) :
    s.object ofText timestamp obj =
      (sampleOf ofText timestamp obj).map fun found => found.elim s s.point := by
  have mapped : ∀ x : Except PyError (Option Sample),
      x.map (fun found => found.elim s s.point) = (fun found => found.elim s s.point) <$> x :=
    fun _ => rfl
  rw [mapped]
  unfold object sampleOf
  simp only [map_bind]
  refine bind_congr fun type => ?_
  split
  · simp only [map_bind]
    refine bind_congr fun metric => ?_
    split
    · simp only [map_bind]
      refine bind_congr fun _ => bind_congr fun rawTime => bind_congr fun _ =>
        bind_congr fun _ => bind_congr fun val => ?_
      cases timestamp rawTime <;> rfl
    · rfl
  · rfl

theorem foldlM_object (objs : List Json) (s : Timeseries) :
    objs.foldlM (object ofText timestamp) s =
      (objs.mapM (sampleOf ofText timestamp)).map fun found =>
        found.reduceOption.foldl point s := by
  induction objs generalizing s with
  | nil => rfl
  | cons obj objs ih =>
      rw [List.foldlM_cons, List.mapM_cons, object_sampleOf]
      cases sampleOf ofText timestamp obj with
      | error e => rfl
      | ok found =>
          simp only [Except.map, ok_bind, ih]
          cases objs.mapM (sampleOf ofText timestamp) with
          | error e => rfl
          | ok later => cases found <;> rfl

/-- The loop over any file fails, or places the points of the file. -/
theorem loop_pointsOf (text : List Char) :
    loop ofText timestamp text = (pointsOf ofText timestamp text).map ofPoints := by
  have stripped := foldlM_stripped (fun s l => (rfl : line ofText timestamp s l = _))
    (Lines.fileLines text) ⟨none, []⟩
  rw [loop, stripped, foldlM_object, pointsOf]
  cases List.mapM (sampleOf ofText timestamp) _ <;> rfl

end Records

theorem every_sample_once_iff {ρ : Type} (percentile : List Number → ℚ → ρ)
    (scaleUpInfo : Option (List Number × Number)) (first : Sample) (later : List Sample) :
    let points := first :: later
    let samples := (ofPoints points).samples
    ((∀ sample ∈ samples,
        ((bins samples).dropLast.filter fun b => Windows.inside binS b sample.1).length = 1) ∧
      ((bins samples).dropLast.map fun b => (window samples b).length).sum = samples.length ∧
      figure percentile scaleUpInfo samples ≠ .skippedNoBinnedData) ↔
    (∀ point ∈ points, first.1 ≤ point.1) ∧
      ∀ latest ∈ points, (∀ point ∈ points, point.1 ≤ latest.1) →
        ∀ windows : ℕ, latest.1 ≠ first.1 + windows * 10 := by
  intro points samples
  have axis : samples = points.map fun p => (p.1 - first.1, p.2) := ofPoints_samples first later
  have placed : ∀ point ∈ points, (point.1 - first.1, point.2) ∈ samples := by
    intro point member
    rw [axis]
    exact List.mem_map_of_mem member
  have start := placed first List.mem_cons_self
  have shown : samples ≠ [] := List.ne_nil_of_mem start
  have started : ∃ sample ∈ samples, sample.1 = 0 := ⟨_, start, sub_self first.1⟩
  obtain ⟨⟨last, member, reached⟩, most⟩ := maxT_spec shown
  constructor
  · intro ⟨once, _, _⟩
    obtain ⟨behind, noEdge⟩ := (once_iff shown started).mp once
    refine ⟨fun point member => sub_nonneg.mp (behind _ (placed point member)), ?_⟩
    intro latest isPoint greatest windows edge
    -- the latest point is the sample that is sorted last
    have notBefore : latest.1 - first.1 ≤ maxT samples := most _ (placed latest isPoint)
    have notBehind : maxT samples ≤ latest.1 - first.1 := by
      rw [axis] at member
      obtain ⟨point, isPoint, rfl⟩ := List.mem_map.mp member
      rw [← reached]
      exact sub_le_sub_right (greatest point isPoint) first.1
    apply noEdge windows
    rw [← notBefore.antisymm notBehind, edge, add_sub_cancel_left]
    rfl
  · intro ⟨behind, noEdge⟩
    have early : ∀ sample ∈ samples, 0 ≤ sample.1 := by
      intro sample isSample
      rw [axis] at isSample
      obtain ⟨point, isPoint, rfl⟩ := List.mem_map.mp isSample
      exact sub_nonneg.mpr (behind point isPoint)
    have inside : ∀ windows : ℕ, maxT samples ≠ windows * binS := by
      intro windows edge
      rw [axis] at member
      obtain ⟨latest, isPoint, rfl⟩ := List.mem_map.mp member
      rw [← reached] at edge most
      apply noEdge latest isPoint
      · intro point isPoint
        exact (sub_le_sub_iff_right first.1).mp (most _ (placed point isPoint))
      · exact sub_eq_iff_eq_add'.mp edge
    have once := (once_iff shown started).mpr ⟨early, inside⟩
    exact ⟨once, sum_windows once, figure_binned once percentile scaleUpInfo⟩

/-- The last sample of two is twenty seconds behind the first, and a sample alone is the last. -/
theorem last_sample_in_no_window :
    let samples := (ofPoints [(5, .rat 3), (25, .rat 4)]).samples
    ((bins samples).dropLast.filter fun b => Windows.inside binS b 20).length = 0 ∧
      ((bins samples).dropLast.map fun b => (window samples b).length).sum = 1 ∧
      figure (fun latencies _ => latencies.length) none (ofPoints [(5, .rat 3)]).samples =
        .skippedNoBinnedData := by decide +kernel

end Timeseries

end PcdLab.Analysis
