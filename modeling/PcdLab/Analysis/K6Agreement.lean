import Mathlib.Tactic.Ring
import PcdLab.Analysis.K6
import PcdLab.Lib.Loops

/-! # The readers agree

On a file in which every request has its three points, the readers count the same, although
they differ in what they divide by, in how they count the failures, and in how they take
the file apart. What they need of the rest of the file is that its objects are records,
and that no line becomes JSON when whitespace is taken off its ends.
-/

namespace PcdLab.Analysis

open Lib

/-! ## Records -/

/-- What a record counts as. -/
inductive Kind where
  | duration
  | request
  | failed
  | other
  deriving Repr, DecidableEq

def named (members : List (Json.Text × Json)) (key name : String) : Bool :=
  (field members key).any fun v => equals v name

def kind : Json → Kind
  | .obj members =>
      if named members "type" "Point" then
        if named members "metric" "http_req_duration" then .duration
        else if named members "metric" "http_reqs" then .request
        else if named members "metric" "http_req_failed" then .failed
        else .other
      else .other
  | _ => .other

/-- An entry of the data of a record. -/
def datum (key : String) (default : Json) : Json → Json
  | .obj members =>
      match field members "data" with
      | some (.obj data) => (field data key).getD default
      | _ => default
  | _ => default

def value : Json → Json := datum "value" zero

/-- An object whose data, if it has any, is an object. -/
def isRecord : Json → Bool
  | .obj members =>
      match field members "data" with
      | none | some (.obj _) => true
      | _ => false
  | _ => false

def isNumber : Json → Bool
  | .num _ => true
  | _ => false

def isOne : Json → Bool
  | .num (.rat q) => q = 1
  | _ => false

def isZeroOrOne : Json → Bool
  | .num (.rat q) => q = 0 ∨ q = 1
  | _ => false

@[simp] theorem field_nil (key : String) : field [] key = none := rfl

@[simp] theorem get_obj (members : List (Json.Text × Json)) (key : String) (default : Json) :
    get (.obj members) key default = .ok ((field members key).getD default) := rfl

@[simp] theorem ok_bind {α β : Type} (x : α) (f : α → Except PyError β) :
    ((.ok x : Except PyError α) >>= f) = f x := rfl

theorem equals_getD (members : List (Json.Text × Json)) (key name : String) (default : Json)
    (other : equals default name = false) :
    equals ((field members key).getD default) name = named members key name := by
  unfold named
  cases field members key with
  | none => exact other
  | some v => rfl

/-- A record, with its data: there may be none, which is as good as no members. -/
theorem record_obj {obj : Json} (record : isRecord obj) : ∃ members data, obj = .obj members ∧
    get obj "data" emptyDict = .ok (.obj data) ∧
    ∀ key default, datum key default obj = (field data key).getD default := by
  cases obj with
  | obj members =>
      refine ⟨members, ?_⟩
      cases present : field members "data" with
      | none => exact ⟨[], rfl, by simp [present, emptyDict], by simp [datum, present]⟩
      | some v =>
          cases v with
          | obj data => exact ⟨data, rfl, by simp [present], by simp [datum, present]⟩
          | _ => simp [isRecord, present] at record
  | _ => cases record

/-- The tests by which the readers tell the records apart. -/
theorem dispatch_eq {α : Type} (members : List (Json.Text × Json))
    (duration request failed other : α) :
    (if named members "type" "Point" then
      if named members "metric" "http_req_duration" then duration
      else if named members "metric" "http_reqs" then request
      else if named members "metric" "http_req_failed" then failed
      else other
    else other) =
      match kind (.obj members) with
      | .duration => duration
      | .request => request
      | .failed => failed
      | .other => other := by
  simp only [kind]
  cases named members "type" "Point" with
  | false => rfl
  | true =>
      cases named members "metric" "http_req_duration" with
      | true => rfl
      | false =>
          cases named members "metric" "http_reqs" with
          | true => rfl
          | false => cases named members "metric" "http_req_failed" <;> rfl

theorem kind_duration (members : List (Json.Text × Json)) :
    kind (.obj members) = .duration ↔ named members "type" "Point" = true ∧
      named members "metric" "http_req_duration" = true := by
  simp only [kind]
  split
  · split
    · simp_all
    · split
      · simp_all
      · split <;> simp_all
  · simp_all

/-! ## One record -/

section Objects

variable {obj : Json} (record : isRecord obj)

include record

theorem LoadK6.object_eq (s : LoadK6) : s.object obj =
    match kind obj with
    | .duration => .ok { s with durations := s.durations ++ [value obj] }
    | .request => .ok { s with totals := s.totals + 1 }
    | .failed => (positive (value obj)).map fun failed =>
        if failed then { s with errors := s.errors + 1 } else s
    | .other => .ok s := by
  obtain ⟨members, data, rfl, dict, same⟩ := record_obj record
  have worth : value (.obj members) = (field data "value").getD zero := same "value" zero
  have type := equals_getD members "type" "Point" .null rfl
  have duration := equals_getD members "metric" "http_req_duration" (.str []) rfl
  have request := equals_getD members "metric" "http_reqs" (.str []) rfl
  have failed := equals_getD members "metric" "http_req_failed" (.str []) rfl
  unfold LoadK6.object
  rw [dict]
  simp only [get_obj, ok_bind, type, duration, request, failed, ← worth]
  rw [dispatch_eq]
  cases kind (.obj members) with
  | failed =>
      cases positive (value (.obj members)) with
      | error e => rfl
      | ok b => cases b <;> rfl
  | duration | request | other => rfl

theorem ExtractK6.object_eq (ofText : Json.Text → Option Number) (s : ExtractK6) :
    s.object ofText obj =
      match kind obj with
      | .duration => (toFloat ofText (value obj)).map fun x =>
          { s with durValues := s.durValues ++ [x] }
      | .request => .ok { s with reqCount := s.reqCount + 1 }
      | .failed => (toFloat ofText (value obj)).map fun x =>
          { s with failCount := addNumbers s.failCount x }
      | .other => .ok s := by
  obtain ⟨members, data, rfl, dict, same⟩ := record_obj record
  have worth : value (.obj members) = (field data "value").getD zero := same "value" zero
  have type := equals_getD members "type" "Point" (.str []) rfl
  have duration := equals_getD members "metric" "http_req_duration" (.str []) rfl
  have request := equals_getD members "metric" "http_reqs" (.str []) rfl
  have failed := equals_getD members "metric" "http_req_failed" (.str []) rfl
  unfold ExtractK6.object
  rw [dict]
  simp only [get_obj, ok_bind, type, duration, request, failed, ← worth]
  rw [dispatch_eq]
  cases kind (.obj members) with
  | duration | failed => cases toFloat ofText (value (.obj members)) <;> rfl
  | request | other => rfl

/-- No record stops the first pass. -/
theorem ExtractK6.firstPassObject_ok (rps : Json) :
    ∃ rps', ExtractK6.firstPassObject rps obj = .ok rps' := by
  obtain ⟨members, data, rfl, dict, -⟩ := record_obj record
  unfold ExtractK6.firstPassObject
  rw [dict]
  simp only [get_obj, ok_bind]
  split
  · exact ⟨_, rfl⟩
  · split
    · exact ⟨_, rfl⟩
    · split
      · exact ⟨_, rfl⟩
      · exact ⟨_, rfl⟩

theorem countDuration_eq (count : Nat) :
    countDuration count obj = .ok (if kind obj = .duration then count + 1 else count) := by
  obtain ⟨members, data, rfl, -, -⟩ := record_obj record
  have type := equals_getD members "type" "Point" .null rfl
  have duration := equals_getD members "metric" "http_req_duration" .null rfl
  unfold countDuration
  simp only [get_obj, ok_bind, type, duration, kind_duration]
  split
  · rename_i point
    split
    · rename_i timed
      rw [if_pos ⟨point, timed⟩]
      rfl
    · rename_i other
      rw [if_neg fun both => other both.2]
      rfl
  · rename_i other
    rw [if_neg fun both => other both.1]
    rfl

end Objects

/-! ## All records of a file -/

def ofKind (k : Kind) (objs : List Json) : List Json := objs.filter fun obj => kind obj = k

/-- The requests that failed. -/
def failures (objs : List Json) : List Json :=
  (ofKind .failed objs).filter fun obj => isOne (value obj)

theorem ofKind_append (k : Kind) (front rest : List Json) :
    ofKind k (front ++ rest) = ofKind k front ++ ofKind k rest := List.filter_append ..

theorem failures_append (front rest : List Json) :
    failures (front ++ rest) = failures front ++ failures rest := by
  rw [failures, ofKind_append, List.filter_append]
  rfl

theorem zeroOrOne {v : Json} (outcome : isZeroOrOne v) : positive v = .ok (isOne v) ∧
    ∀ ofText, toFloat ofText v = .ok (.rat (if isOne v then 1 else 0)) := by
  unfold isZeroOrOne at outcome
  split at outcome
  · rename_i q
    rcases of_decide_eq_true outcome with rfl | rfl
    · exact ⟨rfl, fun _ => rfl⟩
    · exact ⟨rfl, fun _ => rfl⟩
  · cases outcome

theorem toFloat_number {v : Json} (number : isNumber v) (ofText : Json.Text → Option Number) :
    ∃ x, toFloat ofText v = .ok x ∧ v = .num x := by
  cases v with
  | num x => exact ⟨x, rfl, rfl⟩
  | _ => cases number

section Steps

variable {obj : Json} (record : isRecord obj)
  (outcome : kind obj = .failed → isZeroOrOne (value obj))

include record outcome

theorem LoadK6.step (s : LoadK6) : s.object obj =
    .ok ⟨s.durations ++ (ofKind .duration [obj]).map value, s.errors + (failures [obj]).length,
      s.totals + (ofKind .request [obj]).length⟩ := by
  rw [LoadK6.object_eq record]
  cases counts : kind obj with
  | duration | request | other => simp [ofKind, failures, counts]
  | failed =>
      obtain ⟨shown, -⟩ := zeroOrOne (outcome counts)
      simp only [shown, Except.map]
      cases failed : isOne (value obj) <;> simp [ofKind, failures, counts, failed]

theorem ExtractK6.step (number : kind obj = .duration → isNumber (value obj))
    (ofText : Json.Text → Option Number) {s : ExtractK6} {q : ℚ} (sum : s.failCount = .rat q) :
    ∃ t, s.object ofText obj = .ok t ∧
      t.durValues.map Json.num =
        s.durValues.map Json.num ++ (ofKind .duration [obj]).map value ∧
      t.failCount = .rat (q + (failures [obj]).length) := by
  rw [ExtractK6.object_eq record]
  cases counts : kind obj with
  | duration =>
      obtain ⟨x, shown, same⟩ := toFloat_number (number counts) ofText
      refine ⟨{ s with durValues := s.durValues ++ [x] }, ?_, ?_, ?_⟩
      · simp only [shown, Except.map]
      · simp [ofKind, counts, same]
      · simp [ofKind, failures, counts, sum]
  | request => exact ⟨_, rfl, by simp [ofKind, counts], by simp [ofKind, failures, counts, sum]⟩
  | failed =>
      obtain ⟨-, shown⟩ := zeroOrOne (outcome counts)
      let conclusion : Number := .rat (if isOne (value obj) then 1 else 0)
      have added : addNumbers s.failCount conclusion = .rat (q + (failures [obj]).length) := by
        rw [sum]
        cases failed : isOne (value obj) <;>
          simp [conclusion, addNumbers, ofKind, failures, counts, failed]
      refine ⟨{ s with failCount := addNumbers s.failCount conclusion }, ?_, ?_, added⟩
      · simp only [shown, Except.map]
        rfl
      · simp [ofKind, counts]
  | other => exact ⟨s, rfl, by simp [ofKind, counts], by simp [ofKind, failures, counts, sum]⟩

end Steps

section Loops

variable {objs : List Json}

theorem LoadK6.run (wellFormed : ∀ obj ∈ objs, isRecord obj)
    (outcomes : ∀ obj ∈ objs, kind obj = .failed → isZeroOrOne (value obj)) (s : LoadK6) :
    objs.foldlM LoadK6.object s =
      .ok ⟨s.durations ++ (ofKind .duration objs).map value, s.errors + (failures objs).length,
        s.totals + (ofKind .request objs).length⟩ := by
  induction objs generalizing s with
  | nil => simp [ofKind, failures, pure, Except.pure]
  | cons obj objs ih =>
      obtain ⟨here, later⟩ := List.forall_mem_cons.mp wellFormed
      obtain ⟨outcome, outcomes⟩ := List.forall_mem_cons.mp outcomes
      have first : obj :: objs = [obj] ++ objs := rfl
      rw [List.foldlM_cons, LoadK6.step here outcome, ok_bind, ih later outcomes, first]
      simp only [ofKind_append, failures_append, List.map_append, List.length_append,
        List.append_assoc, Nat.add_assoc]

theorem ExtractK6.run (wellFormed : ∀ obj ∈ objs, isRecord obj)
    (timed : ∀ obj ∈ objs, kind obj = .duration → isNumber (value obj))
    (outcomes : ∀ obj ∈ objs, kind obj = .failed → isZeroOrOne (value obj))
    (ofText : Json.Text → Option Number) {s : ExtractK6} {q : ℚ} (sum : s.failCount = .rat q) :
    ∃ t, objs.foldlM (ExtractK6.object ofText) s = .ok t ∧
      t.durValues.map Json.num =
        s.durValues.map Json.num ++ (ofKind .duration objs).map value ∧
      t.failCount = .rat (q + (failures objs).length) := by
  induction objs generalizing s q with
  | nil => exact ⟨s, rfl, by simp [ofKind], by simp [ofKind, failures, sum]⟩
  | cons obj objs ih =>
      obtain ⟨here, later⟩ := List.forall_mem_cons.mp wellFormed
      obtain ⟨number, timed⟩ := List.forall_mem_cons.mp timed
      obtain ⟨outcome, outcomes⟩ := List.forall_mem_cons.mp outcomes
      obtain ⟨next, moved, durations, fails⟩ := ExtractK6.step here outcome number ofText sum
      obtain ⟨t, ran, durations', fails'⟩ := ih later timed outcomes fails
      have first : obj :: objs = [obj] ++ objs := rfl
      refine ⟨t, ?_, ?_, ?_⟩
      · rw [List.foldlM_cons, moved, ok_bind, ran]
      · rw [durations', durations, first, ofKind_append, List.map_append, List.append_assoc]
      · rw [fails', first, failures_append, List.length_append, Nat.cast_add, add_assoc]

theorem ExtractK6.firstPass_run (wellFormed : ∀ obj ∈ objs, isRecord obj) (rps : Json) :
    ∃ rps', objs.foldlM ExtractK6.firstPassObject rps = .ok rps' := by
  induction objs generalizing rps with
  | nil => exact ⟨rps, rfl⟩
  | cons obj objs ih =>
      obtain ⟨here, later⟩ := List.forall_mem_cons.mp wellFormed
      obtain ⟨next, passed⟩ := ExtractK6.firstPassObject_ok here rps
      obtain ⟨rps', ran⟩ := ih later next
      refine ⟨rps', ?_⟩
      rw [List.foldlM_cons, passed, ok_bind, ran]

theorem countDuration_run (wellFormed : ∀ obj ∈ objs, isRecord obj) (count : Nat) :
    objs.foldlM countDuration count = .ok (count + (ofKind .duration objs).length) := by
  induction objs generalizing count with
  | nil => rfl
  | cons obj objs ih =>
      obtain ⟨here, later⟩ := List.forall_mem_cons.mp wellFormed
      rw [List.foldlM_cons, countDuration_eq here, ok_bind, ih later]
      by_cases timed : kind obj = .duration
      · simp only [ofKind, timed, if_true, List.filter_cons, decide_true, List.length_cons,
          Nat.add_assoc, Nat.add_comm 1]
      · simp only [ofKind, timed, if_false, List.filter_cons, decide_false, Bool.false_eq_true]

end Loops

/-! ## From lines to records -/

/-- The records of a file, line by line. -/
def records (text : List Char) : List Json := (text.splitOn '\n').filterMap Json.loads

theorem fileLines_records (text : List Char) :
    (Lines.fileLines text).filterMap Json.loads = records text :=
  Lines.filterMap_fileLines (fun line => Json.loads_concat_whitespace (by decide) line)
    Json.loads_nil text

theorem LoadK6.loop_eq (text : List Char) :
    LoadK6.loop text = (records text).foldlM LoadK6.object ⟨[], 0, 0⟩ := by
  rw [← fileLines_records]
  apply foldlM_readings
  · intro s line unread
    simp only [LoadK6.line, unread]
    rfl
  · intro s line obj isRead
    simp only [LoadK6.line, isRead]

theorem countDuration_loop_eq (text : List Char) :
    (Lines.fileLines text).foldlM countDurationLine 0 =
      (records text).foldlM countDuration 0 := by
  rw [← fileLines_records]
  apply foldlM_readings
  · intro count line unread
    simp only [countDurationLine, unread]
    rfl
  · intro count line obj isRead
    simp only [countDurationLine, isRead]

/-- A line without anything but whitespace is not JSON. -/
theorem not_blank {line : List Char} {obj : Json}
    (isRead : Json.loads (Lines.strip line) = some obj) : ¬ (Lines.strip line).isEmpty := by
  intro blank
  rw [List.isEmpty_iff.mp blank, Json.loads_nil] at isRead
  cases isRead

theorem loads_strip_of_some {line : List Char} {obj : Json}
    (isRead : Json.loads line = some obj) : Json.loads (Lines.strip line) = some obj := by
  cases Json.loads_strip line with
  | inl invalid => rw [isRead] at invalid; cases invalid
  | inr same => rw [← same, isRead]

/-- A loop which strips each line before it is read. -/
theorem foldlM_stripped {β : Type} {line : β → List Char → Except PyError β}
    {body : β → Json → Except PyError β}
    (shape : ∀ s l, line s l =
      if (Lines.strip l).isEmpty then pure s
      else
        match Json.loads (Lines.strip l) with
        | none => pure s
        | some obj => body s obj)
    (lines : List (List Char)) (s : β) :
    lines.foldlM line s =
      (lines.filterMap fun l => Json.loads (Lines.strip l)).foldlM body s := by
  apply foldlM_readings
  · intro s l unread
    rw [shape, unread]
    split <;> rfl
  · intro s l obj isRead
    rw [shape, isRead, if_neg (not_blank isRead)]

/-- No line becomes JSON only when whitespace is taken off its ends. -/
def NoneHidden (text : List Char) : Prop :=
  ∀ line ∈ text.splitOn '\n', Json.loads line = none → Json.loads (Lines.strip line) = none

section Stripped

variable {text : List Char} (kept : NoneHidden text)

include kept

theorem stripped_records :
    ((Lines.strip text).splitOn '\n').filterMap Json.loads = records text :=
  (Lines.filterMap_strip Json.loads_nil fun line member => Json.stable_loads (kept line member)).2

theorem firstPass_records :
    (Lines.fileLines text).filterMap (fun line => Json.loads (Lines.strip line)) =
      records text := by
  rw [Lines.filterMap_fileLines]
  · apply List.filterMap_congr
    intro line member
    exact (Json.stable_loads (kept line member)).strip
  · intro line
    rw [Lines.strip_concat (by decide)]
  · rfl

theorem ExtractK6.loop_eq (ofText : Json.Text → Option Number) :
    ExtractK6.loop ofText text =
      (records text).foldlM (ExtractK6.object ofText) ⟨[], 0, .rat 0⟩ := by
  rw [← stripped_records kept]
  apply foldlM_readings
  · intro s line unread
    simp only [ExtractK6.line, unread]
    split <;> rfl
  · intro s line obj isRead
    simp only [ExtractK6.line, isRead, if_neg (not_blank (loads_strip_of_some isRead))]

theorem ExtractK6.firstPass_eq (rps : Json) :
    (Lines.fileLines text).foldlM ExtractK6.firstPass rps =
      (records text).foldlM ExtractK6.firstPassObject rps := by
  rw [← firstPass_records kept]
  exact foldlM_stripped (fun _ _ => rfl) _ _

end Stripped

/-! ## Files -/

/-- Each request has a point of each of the three metrics, wherever they stand. -/
structure K6File (text : List Char) (requests : Nat) : Prop where
  wellFormed : ∀ obj ∈ records text, isRecord obj
  requested : (ofKind .request (records text)).length = requests
  timed : (ofKind .duration (records text)).length = requests
  concluded : (ofKind .failed (records text)).length = requests
  numbers : ∀ obj ∈ records text, kind obj = .duration → isNumber (value obj)
  outcomes : ∀ obj ∈ records text, kind obj = .failed → isZeroOrOne (value obj)
  nonempty : 0 < requests

namespace K6File

variable {text : List Char} {requests : Nat} (file : K6File text requests)

include file

theorem loadK6_loop : LoadK6.loop text = .ok
    ⟨(ofKind .duration (records text)).map value, (failures (records text)).length, requests⟩ := by
  rw [LoadK6.loop_eq, LoadK6.run file.wellFormed file.outcomes, file.requested]
  simp only [List.nil_append, Nat.zero_add]

theorem extractK6_loop (kept : NoneHidden text) (ofText : Json.Text → Option Number) :
    ∃ t, ExtractK6.loop ofText text = .ok t ∧
      t.durValues.map Json.num = (ofKind .duration (records text)).map value ∧
      t.failCount = .rat (failures (records text)).length := by
  rw [ExtractK6.loop_eq kept]
  obtain ⟨t, ran, durations, fails⟩ :=
    ExtractK6.run file.wellFormed file.numbers file.outcomes ofText
      (s := ⟨[], 0, .rat 0⟩) rfl
  refine ⟨t, ran, durations, ?_⟩
  rw [fails, zero_add]

theorem loadK6_eq {ρ : Type} (percentile : List Json → ℚ → ρ) :
    let durations := (ofKind .duration (records text)).map value
    loadK6 percentile (some text) = .ok (some {
      p50Ms := some (percentile durations 50)
      p95Ms := some (percentile durations 95)
      p99Ms := some (percentile durations 99)
      rps := none
      errorRate := some ((failures (records text)).length / requests) }) := by
  have shown : ((ofKind .duration (records text)).map value).isEmpty = false := by
    rw [List.isEmpty_eq_false_iff, ← List.length_pos_iff, List.length_map, file.timed]
    exact file.nonempty
  have positive : requests ≠ 0 := file.nonempty.ne'
  simp only [loadK6, file.loadK6_loop, ok_bind, shown, Bool.false_eq_true, if_false,
    if_neg positive]
  rfl

theorem extractK6Metrics_eq (kept : NoneHidden text) {ρ : Type}
    (percentile : List Json → ℚ → ρ) (ofText : Json.Text → Option Number) :
    let durations := (ofKind .duration (records text)).map value
    extractK6Metrics percentile ofText (some text) = some
      (percentile durations 50, percentile durations 95, percentile durations 99,
        (requests / 60 : ℚ), .rat (100 * ((failures (records text)).length / requests))) := by
  intro durations
  obtain ⟨t, ran, same, fails⟩ := file.extractK6_loop kept ofText
  obtain ⟨rps, passed⟩ := ExtractK6.firstPass_run file.wellFormed .null
  have count : t.durValues.length = requests := by
    rw [← List.length_map (f := Json.num), same, List.length_map, file.timed]
  have shown : t.durValues.isEmpty = false := by
    rw [List.isEmpty_eq_false_iff, ← List.length_pos_iff, count]
    exact file.nonempty
  have atLeastOne : max 1 requests = requests := max_eq_right file.nonempty
  have percentage : scaleNumber (1 / requests) (scaleNumber 100 t.failCount) =
      .rat (100 * ((failures (records text)).length / requests)) := by
    rw [fails]
    simp only [scaleNumber]
    congr 1
    ring
  simp only [extractK6Metrics, ExtractK6.firstPass_eq kept, passed, ok_bind, ran]
  simp only [ExtractK6.result, shown, Bool.false_eq_true, if_false, same, count, atLeastOne,
    percentage]
  rfl

theorem getRpsFromK6_eq {d : ℚ} (lasts : d ≠ 0) :
    getRpsFromK6 (some text) d = .ok (some (requests / d)) := by
  have positive : requests ≠ 0 := file.nonempty.ne'
  simp only [getRpsFromK6, countDuration_loop_eq, countDuration_run file.wellFormed, Nat.zero_add,
    file.timed, ok_bind, if_neg positive, if_neg lasts]
  rfl

end K6File

theorem readers_agree {text : List Char} {requests : Nat} (file : K6File text requests)
    (kept : NoneHidden text) {ρ : Type} (percentile : List Json → ℚ → ρ)
    (ofText : Json.Text → Option Number) {d : ℚ} (lasts : d ≠ 0) :
    (∃ s t, LoadK6.loop text = .ok s ∧ ExtractK6.loop ofText text = .ok t ∧
      s.durations = t.durValues.map Json.num) ∧
    ∃ p50 p95 p99 errorRate rps rate,
      loadK6 percentile (some text) =
        .ok (some ⟨some p50, some p95, some p99, none, some errorRate⟩) ∧
      extractK6Metrics percentile ofText (some text) =
        some (p50, p95, p99, rps, .rat (100 * errorRate)) ∧
      getRpsFromK6 (some text) d = .ok (some rate) ∧ rate * d = requests := by
  refine ⟨?_, ?_⟩
  · obtain ⟨t, ran, same, -⟩ := file.extractK6_loop kept ofText
    exact ⟨_, t, file.loadK6_loop, ran, same.symm⟩
  · refine ⟨_, _, _, _, _, _, file.loadK6_eq percentile,
      file.extractK6Metrics_eq kept percentile ofText, file.getRpsFromK6_eq lasts, ?_⟩
    exact div_mul_cancel₀ _ lasts

/-- A line as k6 writes it. -/
def pointLine (metric value : String) : List Char :=
  "\x7b\"metric\":\"".toList ++ metric.toList ++
    "\",\"type\":\"Point\",\"data\":\x7b\"value\":".toList ++ value.toList ++
    "\x7d\x7d\n".toList

/-- A request that failed, and a line behind it that is not JSON. -/
def failedRequest : List Char :=
  pointLine "http_reqs" "1" ++ pointLine "http_req_duration" "7.5" ++
    pointLine "http_req_failed" "1" ++ "cut".toList

theorem k6File_failedRequest : K6File failedRequest 1 where
  wellFormed := by decide +kernel
  requested := by decide +kernel
  timed := by decide +kernel
  concluded := by decide +kernel
  numbers := by decide +kernel
  outcomes := by decide +kernel
  nonempty := Nat.one_pos

theorem readers_agree_failed : ∃ p50 p95 p99 errorRate rps rate,
    loadK6 (fun durations _ => durations.length) (some failedRequest) =
      .ok (some ⟨some p50, some p95, some p99, none, some errorRate⟩) ∧
    extractK6Metrics (fun durations _ => durations.length) (fun _ => none) (some failedRequest) =
      some (p50, p95, p99, rps, .rat (100 * errorRate)) ∧
    getRpsFromK6 (some failedRequest) 60 = .ok (some rate) ∧ rate * 60 = (1 : Nat) :=
  (readers_agree k6File_failedRequest (by unfold NoneHidden; decide +kernel)
    (fun durations _ => durations.length) (fun _ => none) (by decide)).2

/-- The line in front of the request is not JSON, for it begins with a form feed. It is JSON once
    the text is stripped. -/
def hiddenPoint : List Char :=
  '\x0c' :: pointLine "http_req_duration" "9" ++ failedRequest

theorem hidden_point_read : K6File hiddenPoint 1 ∧
    (LoadK6.loop hiddenPoint).toOption.map (fun s => s.durations.length) = some 1 ∧
    (ExtractK6.loop (fun _ => none) hiddenPoint).toOption.map (fun t => t.durValues.length) =
      some 2 := by
  refine ⟨⟨?_, ?_, ?_, ?_, ?_, ?_, Nat.one_pos⟩, ?_, ?_⟩ <;> decide +kernel

end PcdLab.Analysis
