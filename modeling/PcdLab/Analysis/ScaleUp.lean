import PcdLab.Analysis.Timeseries
import PcdLab.Lib.JsonPrinting

/-! # The scale-ups of the scaling experiment

`run_hpa_experiment.sh` writes a timeline of the autoscaler, `fig_hpa_scaling` reads from it
when the number of replicas rose, and these times become markers in the figure of the latency.
Their axis starts with the experiment, that of the samples with the first sample.
-/

namespace PcdLab.Analysis

open Lib

/-! ## The timeline -/

/-- What `kubectl` says: a number, nothing, or that something went wrong. -/
inductive Answer where
  | number (n : Nat)
  | nothing
  | failed
  deriving Repr, DecidableEq

/-- A command that fails is answered for by `echo`. -/
def Answer.orElse (fallback : Nat) : Answer → Option Nat
  | .number n => some n
  | .nothing => none
  | .failed => some fallback

/-- What the shell puts in place of a variable. -/
def expand : Option Nat → List Char
  | some n => Json.printed n
  | none => []

/-- One turn of the monitor. -/
structure Poll where
  ts : Int
  replicas : Answer
  cpu : Answer

/-- What `echo` appends to the timeline, without the line end. -/
def monitorLine (startTs : Int) (poll : Poll) : List Char :=
  "\x7b\"ts\":".toList ++ Json.printed poll.ts ++
    ",\"elapsed_s\":".toList ++ Json.printed (poll.ts - startTs) ++
    ",\"replicas\":".toList ++ expand (poll.replicas.orElse 2) ++
    ",\"cpu_pct\":".toList ++ expand (poll.cpu.orElse 0) ++ "\x7d".toList

def timeline (startTs : Int) (polls : List Poll) : List Char :=
  (polls.map (monitorLine startTs)).flatMap (· ++ ['\n'])

/-! ## `fig_hpa_scaling` -/

/-- `int(v)`, with what it makes of a text. -/
def toInt (intOfText : Json.Text → Option Int) : Json → Except PyError Int
  | .num (.rat q) => .ok (q.num.tdiv q.den)
  | .num .nan => .error .value
  | .num (.infinity _) => .error .overflow
  | .bool b => .ok (if b then 1 else 0)
  | .str s =>
      match intOfText s with
      | some z => .ok z
      | none => .error .value
  | _ => .error .type

structure HpaScaling where
  elapsed : List Number
  replicas : List Int
  cpuPct : List Number

namespace HpaScaling

section Reader

variable (ofText : Json.Text → Option Number) (intOfText : Json.Text → Option Int)

/-- The body of the loop for an object. Without its time it is passed over. -/
def object (s : HpaScaling) (obj : Json) : Except PyError HpaScaling :=
  match obj with
  | .obj members =>
      match field members "elapsed_s" with
      | none => .ok s
      | some elapsedS => do
          let elapsed ← toFloat ofText elapsedS
          let replicas ← toInt intOfText (← get obj "replicas" (.num (.rat 2)))
          let cpuPct ← toFloat ofText (← get obj "cpu_pct" zero)
          return ⟨s.elapsed ++ [elapsed], s.replicas ++ [replicas], s.cpuPct ++ [cpuPct]⟩
  | _ => .error .type

def line (s : HpaScaling) (line : List Char) : Except PyError HpaScaling :=
  if (Lines.strip line).isEmpty then pure s
  else
    match Json.loads (Lines.strip line) with
    | none => pure s
    | some obj => s.object ofText intOfText obj

def loop (text : List Char) : Except PyError HpaScaling :=
  (Lines.fileLines text).foldlM (line ofText intOfText) ⟨[], [], []⟩

end Reader

def scaleUpTimes (s : HpaScaling) : List Number :=
  ((s.elapsed.drop 1).zip (s.replicas.dropLast.zip (s.replicas.drop 1))).filterMap
    fun (t, prev, curr) => if curr > prev then some t else none

/-- The lines of the figure itself, which are found by another loop. -/
def axvlines : Int → List (Number × Int) → List Number
  | _, [] => []
  | prevR, (t, r) :: rest => if r > prevR then t :: axvlines r rest else axvlines r rest

end HpaScaling

/-- Without a time in the timeline there is no figure. -/
def figHpaScaling (ofText : Json.Text → Option Number) (intOfText : Json.Text → Option Int)
    (file : Option (List Char)) : Except PyError (Option (List Number × Number)) :=
  match file with
  | none => .ok none
  | some text => do
      let s ← HpaScaling.loop ofText intOfText text
      match s.elapsed with
      | [] => return none
      | first :: _ => return some (s.scaleUpTimes, first)

/-! ## What is read of the timeline -/

/-- A poll whose line is an object. -/
structure Row where
  ts : Int
  replicas : Nat
  cpu : Nat
  deriving DecidableEq

def Poll.row (poll : Poll) : Option Row :=
  match poll.replicas.orElse 2, poll.cpu.orElse 0 with
  | some replicas, some cpu => some ⟨poll.ts, replicas, cpu⟩
  | _, _ => none

def Row.members (startTs : Int) (row : Row) : List (Json.Text × Json) :=
  [(Json.text "ts", .num (.rat row.ts)),
    (Json.text "elapsed_s", .num (.rat (row.ts - startTs : Int))),
    (Json.text "replicas", .num (.rat (row.replicas : Int))),
    (Json.text "cpu_pct", .num (.rat (row.cpu : Int)))]

/-- The line, member by member. -/
theorem monitorLine_eq (startTs : Int) (poll : Poll) : monitorLine startTs poll =
    '\x7b' :: '"' :: ("ts".toList ++ '"' :: ':' :: (Json.printed poll.ts ++
      ',' :: '"' :: ("elapsed_s".toList ++ '"' :: ':' :: (Json.printed (poll.ts - startTs) ++
        ',' :: '"' :: ("replicas".toList ++ '"' :: ':' :: (expand (poll.replicas.orElse 2) ++
          ',' :: '"' :: ("cpu_pct".toList ++ '"' :: ':' :: (expand (poll.cpu.orElse 0) ++
            ['\x7d'])))))))) := by
  have opening : "\x7b\"ts\":".toList = '\x7b' :: '"' :: ("ts".toList ++ ['"', ':']) := by decide
  have elapsed : ",\"elapsed_s\":".toList = ',' :: '"' :: ("elapsed_s".toList ++ ['"', ':']) := by
    decide
  have count : ",\"replicas\":".toList = ',' :: '"' :: ("replicas".toList ++ ['"', ':']) := by
    decide
  have load : ",\"cpu_pct\":".toList = ',' :: '"' :: ("cpu_pct".toList ++ ['"', ':']) := by decide
  have closing : "\x7d".toList = ['\x7d'] := by decide
  unfold monitorLine
  rw [opening, elapsed, count, load, closing]
  simp only [List.append_assoc, List.cons_append, List.nil_append]

/-- A line is an object with four members, or not JSON, if there is no number in it where there
    must be one. -/
theorem loads_monitorLine (startTs : Int) (poll : Poll) :
    Json.loads (monitorLine startTs poll) =
      poll.row.map fun row => .obj (row.members startTs) := by
  have ts : "ts".toList.all Json.isPlain := by decide
  have elapsed : "elapsed_s".toList.all Json.isPlain := by decide
  have count : "replicas".toList.all Json.isPlain := by decide
  have load : "cpu_pct".toList.all Json.isPlain := by decide
  rw [Json.loads, monitorLine_eq, Json.run_object ts, Json.run_comma elapsed,
    Json.run_comma count, Poll.row]
  cases poll.replicas.orElse 2 with
  | none =>
      rw [expand, List.nil_append, Json.run_missing _ (.inl rfl)]
      rfl
  | some replicas =>
      rw [expand, Json.run_comma load]
      cases poll.cpu.orElse 0 with
      | none =>
          rw [expand, List.nil_append, Json.run_missing _ (.inr rfl)]
          rfl
      | some cpu =>
          rw [expand, Json.run_close]
          rfl

theorem expand_inline (value : Option Nat) : '\n' ∉ expand value := by
  cases value with
  | none => exact List.not_mem_nil
  | some n => exact Json.printed_inline n

theorem monitorLine_inline (startTs : Int) (poll : Poll) : '\n' ∉ monitorLine startTs poll := by
  have opening : '\n' ∉ "\x7b\"ts\":".toList := by decide
  have elapsed : '\n' ∉ ",\"elapsed_s\":".toList := by decide
  have count : '\n' ∉ ",\"replicas\":".toList := by decide
  have load : '\n' ∉ ",\"cpu_pct\":".toList := by decide
  have closing : '\n' ∉ "\x7d".toList := by decide
  unfold monitorLine
  simp only [List.mem_append, opening, elapsed, count, load, closing, expand_inline,
    Json.printed_inline, or_self, not_false_eq_true]

theorem strip_monitorLine (startTs : Int) (poll : Poll) :
    Lines.strip (monitorLine startTs poll) = monitorLine startTs poll := by
  apply Lines.strip_of_ends
  · rw [monitorLine_eq]
    rfl
  · unfold monitorLine
    exact List.getLast?_concat
  · decide
  · decide

/-- The timeline is read as the rows of its polls. -/
theorem timeline_objects (startTs : Int) (polls : List Poll) :
    (Lines.fileLines (timeline startTs polls)).filterMap
        (fun line => Json.loads (Lines.strip line)) =
      (polls.filterMap Poll.row).map fun row => .obj (row.members startTs) := by
  have whole : ∀ line ∈ polls.map (monitorLine startTs), '\n' ∉ line := by
    intro line member
    obtain ⟨poll, -, rfl⟩ := List.mem_map.mp member
    exact monitorLine_inline startTs poll
  rw [Lines.filterMap_fileLines (fun line => by rw [Lines.strip_concat (by decide)]) rfl, timeline,
    Lines.splitOn_lines whole, List.filterMap_append, List.filterMap_map, List.map_filterMap]
  have blank : [[]].filterMap (fun line => Json.loads (Lines.strip line)) = [] := rfl
  rw [blank, List.append_nil]
  congr 1
  funext poll
  rw [Function.comp_apply, strip_monitorLine, loads_monitorLine]

/-- When the number of replicas had risen, from one row to the next. -/
def rises : List Row → List Int
  | prev :: curr :: rows =>
      if prev.replicas < curr.replicas then curr.ts :: rises (curr :: rows)
      else rises (curr :: rows)
  | _ => []

namespace HpaScaling

def ofRows (startTs : Int) (rows : List Row) : HpaScaling where
  elapsed := rows.map fun row => .rat (row.ts - startTs : Int)
  replicas := rows.map fun row => row.replicas
  cpuPct := rows.map fun row => .rat (row.cpu : Int)

section Reader

variable (ofText : Json.Text → Option Number) (intOfText : Json.Text → Option Int) (startTs : Int)

theorem toInt_natCast (n : Nat) :
    toInt intOfText (.num (.rat (n : Int))) = .ok n := by
  simp only [toInt, Rat.num_intCast, Rat.den_intCast, Nat.cast_one, Int.tdiv_one]

theorem object_row (s : HpaScaling) (row : Row) :
    s.object ofText intOfText (.obj (row.members startTs)) =
      .ok ⟨s.elapsed ++ [.rat (row.ts - startTs : Int)], s.replicas ++ [(row.replicas : Int)],
        s.cpuPct ++ [.rat (row.cpu : Int)]⟩ := by
  have elapsed : field (row.members startTs) "elapsed_s" =
      some (.num (.rat (row.ts - startTs : Int))) := rfl
  have count : field (row.members startTs) "replicas" =
      some (.num (.rat (row.replicas : Int))) := rfl
  have load : field (row.members startTs) "cpu_pct" = some (.num (.rat (row.cpu : Int))) := rfl
  simp only [object, elapsed, get_obj, count, load, Option.getD_some, ok_bind, toInt_natCast,
    toFloat]
  rfl

theorem run_rows (rows : List Row) (s : HpaScaling) :
    (rows.map fun row => Json.obj (row.members startTs)).foldlM (object ofText intOfText) s =
      .ok ⟨s.elapsed ++ (ofRows startTs rows).elapsed, s.replicas ++ (ofRows startTs rows).replicas,
        s.cpuPct ++ (ofRows startTs rows).cpuPct⟩ := by
  induction rows generalizing s with
  | nil => simp [ofRows, pure, Except.pure]
  | cons row rows ih =>
      rw [List.map_cons, List.foldlM_cons, object_row, ok_bind, ih]
      simp [ofRows]

theorem loop_timeline (polls : List Poll) :
    loop ofText intOfText (timeline startTs polls) =
      .ok (ofRows startTs (polls.filterMap Poll.row)) := by
  have stripped := foldlM_stripped (fun s l => (rfl : line ofText intOfText s l = _))
    (Lines.fileLines (timeline startTs polls)) ⟨[], [], []⟩
  rw [loop, stripped, timeline_objects, run_rows]
  rfl

end Reader

/-- The times are found row by row. -/
theorem scaleUpTimes_cons (startTs : Int) (prev curr : Row) (rows : List Row) :
    (ofRows startTs (prev :: curr :: rows)).scaleUpTimes =
      if prev.replicas < curr.replicas then
        .rat (curr.ts - startTs : Int) :: (ofRows startTs (curr :: rows)).scaleUpTimes
      else (ofRows startTs (curr :: rows)).scaleUpTimes := by
  by_cases rose : prev.replicas < curr.replicas
  · rw [if_pos rose]
    simp [scaleUpTimes, ofRows, rose]
  · rw [if_neg rose]
    simp [scaleUpTimes, ofRows, rose]

theorem scaleUpTimes_ofRows (startTs : Int) (rows : List Row) :
    (ofRows startTs rows).scaleUpTimes =
      (rises rows).map fun ts => .rat (ts - startTs : Int) := by
  induction rows using rises.induct with
  | case1 prev curr rows rose ih =>
      rw [scaleUpTimes_cons, if_pos rose, rises, if_pos rose, List.map_cons, ih]
  | case2 prev curr rows same ih =>
      rw [scaleUpTimes_cons, if_neg same, rises, if_neg same, ih]
  | case3 rows short =>
      cases rows with
      | nil => rfl
      | cons row rows =>
          cases rows with
          | nil => rfl
          | cons curr rows => exact absurd rfl (short row curr rows)

/-- The two loops over the timeline find the same times. -/
theorem axvlines_eq (t : Number) (r : Int) (ts : List Number) (rs : List Int)
    (cpuPct : List Number) :
    axvlines r (ts.zip rs) = scaleUpTimes ⟨t :: ts, r :: rs, cpuPct⟩ := by
  induction ts generalizing t r rs with
  | nil => rfl
  | cons t' ts ih =>
      cases rs with
      | nil => rfl
      | cons r' rs =>
          have later := ih t' r' rs
          simp only [scaleUpTimes, List.drop_succ_cons, List.drop_zero] at later ⊢
          rw [List.zip_cons_cons, List.dropLast_cons_cons, List.zip_cons_cons, List.zip_cons_cons,
            axvlines, later, List.filterMap_cons]
          split <;> rfl

end HpaScaling

/-- The figure of the replicas hands on the times of the rows at which their number rose. -/
theorem figHpaScaling_timeline (ofText : Json.Text → Option Number)
    (intOfText : Json.Text → Option Int) (startTs : Int) (polls : List Poll) :
    ∃ info, figHpaScaling ofText intOfText (some (timeline startTs polls)) = .ok info ∧
      (info.map Prod.fst).getD [] =
        (rises (polls.filterMap Poll.row)).map fun ts => .rat (ts - startTs : Int) := by
  have read := HpaScaling.loop_timeline ofText intOfText startTs polls
  cases rows : polls.filterMap Poll.row with
  | nil =>
      refine ⟨none, ?_, rfl⟩
      rw [figHpaScaling, read, rows, ok_bind]
      rfl
  | cons row later =>
      refine ⟨some (_, .rat (row.ts - startTs : Int)), ?_,
        HpaScaling.scaleUpTimes_ofRows startTs (row :: later)⟩
      rw [figHpaScaling, read, rows, ok_bind]
      rfl

/-! ## Markers and samples -/

theorem forall_zip_map {α β : Type} {f : α → β} {P : β × α → Prop} {l : List α} :
    (∀ pair ∈ (l.map f).zip l, P pair) ↔ ∀ a ∈ l, P (f a, a) := by
  induction l with
  | nil => simp
  | cons a l ih => simp only [List.map_cons, List.zip_cons_cons, List.forall_mem_cons, ih]

/-- Between a time and the marker for it there is as much as between the two origins. -/
theorem left_iff {startTs ts : Int} {start epoch : ℚ} (after : startTs ≤ start) :
    (epoch - start < (ts - startTs : Int) ↔ epoch < ts) ↔
      epoch < ts ∨ ts + (start - startTs) ≤ epoch := by
  push_cast
  constructor
  · intro separated
    by_contra between
    obtain ⟨notBefore, notBehind⟩ := not_or.mp between
    exact notBefore (separated.mp (by linarith))
  · intro outside
    constructor
    · intro left
      cases outside with
      | inl before => exact before
      | inr behind => linarith
    · intro before
      linarith

namespace LatencyFigure

variable {ρ : Type}

/-- The vertical lines of the figure, if there is one. -/
def markers : LatencyFigure ρ → List Number
  | .saved _ _ _ markers => markers
  | _ => []

/-- The markers of a figure with samples behind the first are those handed to it. -/
theorem markers_figure (percentile : List Number → ℚ → ρ)
    (scaleUpInfo : Option (List Number × Number)) {samples : List Sample}
    (shown : samples ≠ []) (started : ∃ sample ∈ samples, sample.1 = 0) :
    (Timeseries.figure percentile scaleUpInfo samples).markers =
      if ∀ sample ∈ samples, sample.1 ≤ 0 then [] else (scaleUpInfo.map Prod.fst).getD [] := by
  have several : samples.isEmpty = false := by simpa [List.isEmpty_eq_false_iff] using shown
  simp only [← Timeseries.windows_isEmpty_iff shown started, Timeseries.figure, several,
    Bool.false_eq_true, if_false]
  split <;> rfl

end LatencyFigure

/-- In the figure that is drawn, each sample is on the side of each marker on which it was taken,
    exactly if the figure is skipped for want of a sample behind the first, or no sample was taken
    between the time of a marker and that time moved by the distance of the origins. -/
theorem markers_separate_iff {ρ : Type} (percentile : List Number → ℚ → ρ)
    (ofText : Json.Text → Option Number) (intOfText : Json.Text → Option Int)
    (timestamp : Json → Option ℚ) (startTs : Int) (polls : List Poll) (text : List Char)
    (points : List Sample) (read : Timeseries.pointsOf ofText timestamp text = .ok points)
    (after : ∀ first ∈ points.head?, startTs ≤ first.1) :
    let risen := rises (polls.filterMap Poll.row)
    ∃ info s fig, figHpaScaling ofText intOfText (some (timeline startTs polls)) = .ok info ∧
      Timeseries.loop ofText timestamp text = .ok s ∧ s.samples.length = points.length ∧
      figHpaLatencyTimeseries percentile ofText timestamp info (some text) = .ok fig ∧
      (fig.markers.length = risen.length ∨
        fig.markers = [] ∧ ∀ first ∈ points.head?, ∀ point ∈ points, point.1 ≤ first.1) ∧
      ((∀ drawn ∈ fig.markers.zip risen, ∀ placed ∈ s.samples.zip points,
          (numberLt (.rat placed.1.1) drawn.1 ↔ placed.2.1 < drawn.2)) ↔
        ∀ first ∈ points.head?, (∀ point ∈ points, point.1 ≤ first.1) ∨
          ∀ ts ∈ risen, ∀ point ∈ points,
            point.1 < ts ∨ ts + (first.1 - startTs) ≤ point.1) := by
  intro risen
  obtain ⟨info, found, times⟩ := figHpaScaling_timeline ofText intOfText startTs polls
  have ran : Timeseries.loop ofText timestamp text = .ok (Timeseries.ofPoints points) := by
    rw [Timeseries.loop_pointsOf, read]
    rfl
  have drawn : figHpaLatencyTimeseries percentile ofText timestamp info (some text) =
      .ok (Timeseries.figure percentile info (Timeseries.ofPoints points).samples) := by
    rw [figHpaLatencyTimeseries, ran]
    rfl
  have placed : (Timeseries.ofPoints points).samples.length = points.length := by
    cases points with
    | nil => rfl
    | cons first later => rw [Timeseries.ofPoints_samples, List.length_map]
  refine ⟨info, _, _, found, ran, placed, drawn, ?_⟩
  cases points with
  | nil => simp [Timeseries.figure, Timeseries.ofPoints, LatencyFigure.markers]
  | cons first later =>
      have axis := Timeseries.ofPoints_samples first later
      have start : (0, first.2) ∈ (Timeseries.ofPoints (first :: later)).samples := by
        rw [axis, List.map_cons, sub_self]
        exact List.mem_cons_self
      have behind : startTs ≤ first.1 := after first rfl
      rw [LatencyFigure.markers_figure percentile info (List.ne_nil_of_mem start)
        ⟨_, start, rfl⟩, axis, times]
      simp only [List.forall_mem_map, sub_nonpos, List.head?_cons, Option.mem_some_iff,
        forall_eq']
      split
      · rename_i early
        exact ⟨.inr ⟨rfl, early⟩, fun _ => .inl early, fun _ => by simp⟩
      · rename_i late
        refine ⟨.inl (List.length_map _), ?_⟩
        rw [forall_zip_map]
        simp only [forall_zip_map, numberLt, decide_eq_true_eq, left_iff behind]
        exact (or_iff_right late).symm

/-- A line of a k6 file about a request of the given time. -/
def requestAt (time : String) : List Char :=
  "\x7b\"metric\":\"http_req_duration\",\"type\":\"Point\",\"data\":\x7b\"time\":\"".toList ++
    time.toList ++ "\",\"value\":30\x7d\x7d\n".toList

/-- The times of a few seconds after a thousand. -/
def secondOf (time : Json) : Option ℚ :=
  if equals time "1970-01-01T00:16:45Z" then some 1005
  else if equals time "1970-01-01T00:16:52Z" then some 1012
  else if equals time "1970-01-01T00:17:00Z" then some 1020
  else none

/-- The first sample comes five seconds after the start, and none in the five seconds after the
    scale-up. -/
theorem markers_separate_quiet :
    let polls := [⟨1000, .failed, .number 10⟩, ⟨1005, .nothing, .number 80⟩,
      ⟨1010, .number 3, .failed⟩]
    let text := requestAt "1970-01-01T00:16:45Z" ++ requestAt "1970-01-01T00:17:00Z"
    let points : List Sample := [(1005, .rat 30), (1020, .rat 30)]
    ∃ info s fig, figHpaScaling (fun _ => none) (fun _ => none) (some (timeline 1000 polls)) =
        .ok info ∧
      Timeseries.loop (fun _ => none) secondOf text = .ok s ∧
      figHpaLatencyTimeseries (fun window _ => window.length) (fun _ => none) secondOf info
        (some text) = .ok fig ∧
      ∀ drawn ∈ fig.markers.zip [(1010 : Int)], ∀ placed ∈ s.samples.zip points,
        (numberLt (.rat placed.1.1) drawn.1 ↔ placed.2.1 < drawn.2) := by
  intro polls text points
  obtain ⟨info, s, fig, found, ran, -, drawn, -, separated⟩ := markers_separate_iff
    (fun window _ => window.length) (fun _ => none) (fun _ => none) secondOf 1000 polls text points
    (by decide +kernel) (by decide +kernel)
  exact ⟨info, s, fig, found, ran, drawn, separated.mpr (by decide +kernel)⟩

/-- The replicas rise at 1010, and the request of 1012 is drawn in front of the marker. -/
theorem late_sample_before_marker :
    let text := requestAt "1970-01-01T00:16:45Z" ++ requestAt "1970-01-01T00:16:52Z"
    let info : Option (List Number × Number) := some ([.rat 10], .rat 0)
    (figHpaScaling (fun _ => none) (fun _ => none) (some (timeline 1000
        [⟨1000, .number 2, .number 10⟩, ⟨1010, .number 3, .number 80⟩]))).toOption =
      some info ∧
    (Timeseries.loop (fun _ => none) secondOf text).toOption.map Timeseries.samples =
      some [(0, .rat 30), (7, .rat 30)] ∧
    (figHpaLatencyTimeseries (fun window _ => window.length) (fun _ => none) secondOf info
        (some text)).toOption = some (.saved [5] [2] [2] [.rat 10]) ∧
    numberLt (.rat 7) (.rat 10) ∧ ¬ (1012 : ℚ) < 1010 := by decide +kernel

end PcdLab.Analysis
