import PcdLab.Analysis.Prometheus
import PcdLab.Lib.Files

/-! # The experiment suite

`run_experiment.sh` and `fault_injection.sh` leave files in one directory, under names which are
made of their arguments, and `run_all.sh` runs all of them and lists what failed. A script that
fails before it opens a file leaves what an earlier run has written, and one that fails while it
writes leaves the first part of what is new. The logs are for people only and are left out.
-/

namespace PcdLab.Experiments.Suite

open Lib Analysis Analysis.Prometheus

/-- `results/`. -/
abbrev Dir := Files String (List Char)

def policies : List String := ["rr", "least-request", "ring-hash", "maglev"]

/-- Each has a script under `load/k6`. -/
def scenarios : List String := ["steady", "burst", "heavy", "spike"]

/-- `POLICY_FILE`. -/
def policyFile : List (String × String) :=
  [("rr", "k8s/43-envoy-config-rr.yaml"),
    ("least-request", "k8s/44-envoy-config-least-request.yaml"),
    ("ring-hash", "k8s/45-envoy-config-ring-hash.yaml"),
    ("maglev", "k8s/46-envoy-config-maglev.yaml")]

def promFile (policy scenario : String) : String := "prom-" ++ policy ++ "-" ++ scenario ++ ".json"

def k6File (policy scenario : String) : String := "k6-" ++ policy ++ "-" ++ scenario ++ ".json"

def faultFile (policy : String) : String := "fault-" ++ policy ++ ".json"

def k6FaultFile (policy : String) : String := "k6-fault-" ++ policy ++ ".json"

/-- What happens in `run_experiment.sh`. -/
inductive Outcome where
  /-- A command fails before the file of the metrics is opened. `k6` may have begun its file. -/
  | failed (k6 : Option (List Char))
  /-- A command fails from there on, be it the one that writes: the last characters of the file
      may be missing. -/
  | cut (k6 : List Char) (metrics : Metrics Answer) (missing : Nat)
  | collected (k6 : List Char) (metrics : Metrics Answer)

/-- What happens in `fault_injection.sh`, for which it makes no difference how `k6` ends. -/
inductive FaultOutcome where
  | failed (k6 : Option (List Char))
  | cut (k6 : Option (List Char)) (deletionTs recoveryEnd : Int) (missing : Nat)
  | recorded (k6 : Option (List Char)) (deletionTs recoveryEnd : Int)

def Outcome.isFailed : Outcome → Bool
  | .failed _ | .cut _ _ _ => true
  | .collected _ _ => false

def FaultOutcome.isFailed : FaultOutcome → Bool
  | .failed _ | .cut _ _ _ _ => true
  | .recorded _ _ _ => false

/-- A script that is run, or a line which `run_all.sh` prints about it. -/
inductive Entry where
  | started (script : String) (arguments : List String)
  | printed (line : String)
  deriving DecidableEq

/-- What a script leaves, and whether it succeeds. -/
structure Result where
  log : List Entry
  dir : Dir
  ok : Bool

/-- What the scripts are given: how Python prints what is no text, and where `results/` is. -/
structure Setup where
  repr : Json → Json.Text
  resultsDir : List Char

variable (setup : Setup)

/-- What `collect_prometheus.sh` writes. -/
def Setup.promText (policy scenario : String) (m : Metrics Answer) : List Char :=
  promJson policy.toList scenario.toList (m.map fun a => query setup.repr a.curl)

/-- What `fault_injection.sh` writes. -/
def Setup.faultText (policy : String) (deletionTs recoveryTime : Int) : List Char :=
  "\x7b\n  \"policy\": \"".toList ++ (policy.toList ++
    ("\",\n  \"deletion_ts\": ".toList ++ (Json.printed deletionTs ++
      (",\n  \"recovery_time_s\": ".toList ++ (Json.printed recoveryTime ++
        (",\n  \"k6_output\": \"".toList ++ ((setup.resultsDir ++ '/' ::
          (k6FaultFile policy).toList) ++ "\"\n\x7d\n".toList)))))))

/-- A file, if there is one. -/
def writeSome (dir : Dir) (name : String) : Option (List Char) → Dir
  | some text => dir.write name text
  | none => dir

/-- `run_experiment.sh`. -/
def runExperiment (dir : Dir) (policy scenario : String) (outcome : Outcome) : Result :=
  let log := [.started "run_experiment.sh" [policy, scenario]]
  if (policyFile.lookup policy).isSome ∧ scenario ∈ scenarios then
    match outcome with
    | .failed k6 => ⟨log, writeSome dir (k6File policy scenario) k6, false⟩
    | .cut k6 metrics missing =>
        ⟨log, (dir.write (k6File policy scenario) k6).write (promFile policy scenario)
          ((setup.promText policy scenario metrics).rdrop missing), false⟩
    | .collected k6 metrics =>
        ⟨log, (dir.write (k6File policy scenario) k6).write (promFile policy scenario)
          (setup.promText policy scenario metrics), true⟩
  else ⟨log, dir, false⟩

/-- `fault_injection.sh`. -/
def faultInjection (dir : Dir) (policy : String) (outcome : FaultOutcome) : Result :=
  let log := [.started "fault_injection.sh" [policy]]
  if (policyFile.lookup policy).isSome then
    match outcome with
    | .failed k6 => ⟨log, writeSome dir (k6FaultFile policy) k6, false⟩
    | .cut k6 deletionTs recoveryEnd missing =>
        ⟨log, (writeSome dir (k6FaultFile policy) k6).write (faultFile policy)
          ((setup.faultText policy deletionTs (recoveryEnd - deletionTs)).rdrop missing), false⟩
    | .recorded k6 deletionTs recoveryEnd =>
        ⟨log, (writeSome dir (k6FaultFile policy) k6).write (faultFile policy)
          (setup.faultText policy deletionTs (recoveryEnd - deletionTs)), true⟩
  else ⟨log, dir, false⟩

/-- The directory, `FAILED`, and what has been run and printed. -/
structure Progress where
  dir : Dir
  failed : List String
  log : List Entry

def verdict (ok : Bool) (name : String) : Entry :=
  .printed ((if ok then "OK: " else "FAILED: ") ++ name)

def Progress.note (s : Progress) (name : String) (r : Result) : Progress where
  dir := r.dir
  failed := if r.ok then s.failed else s.failed ++ [name]
  log := s.log ++ r.log ++ [verdict r.ok name]

/-- `run_all.sh`. -/
def runAll (dir : Dir) (outcome : String → String → Outcome) (fault : String → FaultOutcome) :
    Progress :=
  let experiments : Progress := policies.foldl (fun s policy =>
    scenarios.foldl (fun s scenario => s.note (policy ++ "/" ++ scenario)
      (runExperiment setup s.dir policy scenario (outcome policy scenario))) s) ⟨dir, [], []⟩
  policies.foldl (fun s policy =>
    s.note ("fault/" ++ policy) (faultInjection setup s.dir policy (fault policy))) experiments

/-! ## Any sequence of runs -/

inductive Event where
  | experiment (policy scenario : String) (outcome : Outcome)
  | fault (policy : String) (outcome : FaultOutcome)

def Event.run (dir : Dir) : Event → Result
  | .experiment policy scenario outcome => runExperiment setup dir policy scenario outcome
  | .fault policy outcome => faultInjection setup dir policy outcome

def runs (dir : Dir) (events : List Event) : Dir :=
  events.foldl (fun dir e => (e.run setup dir).dir) dir

def Outcome.k6 : Outcome → Option (List Char)
  | .failed k6 => k6
  | .cut k6 _ _ | .collected k6 _ => some k6

def FaultOutcome.k6 : FaultOutcome → Option (List Char)
  | .failed k6 | .cut k6 _ _ _ | .recorded k6 _ _ => k6

/-- The metrics for which a file is opened, and how many characters it lacks in the end. -/
structure Collected where
  metrics : Metrics Answer
  missing : Nat

/-- The times for which a file is opened. -/
structure Recorded where
  deletionTs : Int
  recoveryEnd : Int
  missing : Nat

def Outcome.result : Outcome → Option Collected
  | .failed _ => none
  | .cut _ metrics missing => some ⟨metrics, missing⟩
  | .collected _ metrics => some ⟨metrics, 0⟩

def FaultOutcome.result : FaultOutcome → Option Recorded
  | .failed _ => none
  | .cut _ deletionTs recoveryEnd missing => some ⟨deletionTs, recoveryEnd, missing⟩
  | .recorded _ deletionTs recoveryEnd => some ⟨deletionTs, recoveryEnd, 0⟩

/-- What the file has in the end. -/
def Setup.collectedText (policy scenario : String) (c : Collected) : List Char :=
  (setup.promText policy scenario c.metrics).rdrop c.missing

def Setup.recordedText (policy : String) (r : Recorded) : List Char :=
  (setup.faultText policy r.deletionTs (r.recoveryEnd - r.deletionTs)).rdrop r.missing

@[simp] theorem collectedText_whole (policy scenario : String) (metrics : Metrics Answer) :
    setup.collectedText policy scenario ⟨metrics, 0⟩ = setup.promText policy scenario metrics :=
  List.rdrop_zero _

@[simp] theorem recordedText_whole (policy : String) (deletionTs recoveryEnd : Int) :
    setup.recordedText policy ⟨deletionTs, recoveryEnd, 0⟩ =
      setup.faultText policy deletionTs (recoveryEnd - deletionTs) :=
  List.rdrop_zero _

/-- A file which may not be written. -/
def written (name : String) (text : Option (List Char)) : List (String × List Char) :=
  (text.map fun text => (name, text)).toList

/-- The files which a run writes, in their order. -/
def Event.writes : Event → List (String × List Char)
  | .experiment policy scenario outcome =>
      if policy ∈ policies ∧ scenario ∈ scenarios then
        written (k6File policy scenario) outcome.k6 ++
          written (promFile policy scenario)
            (outcome.result.map (setup.collectedText policy scenario))
      else []
  | .fault policy outcome =>
      if policy ∈ policies then
        written (k6FaultFile policy) outcome.k6 ++
          written (faultFile policy) (outcome.result.map (setup.recordedText policy))
      else []

theorem policyFile_lookup (policy : String) :
    (policyFile.lookup policy).isSome ↔ policy ∈ policies := by
  rw [List.lookup_isSome_iff]
  simp [policyFile, policies]

theorem writeSome_eq (dir : Dir) (name : String) (text : Option (List Char)) :
    writeSome dir name text = dir.writeAll (written name text) := by
  cases text <;> rfl

theorem run_writes (dir : Dir) (e : Event) :
    (e.run setup dir).dir = dir.writeAll (e.writes setup) := by
  cases e with
  | experiment policy scenario outcome =>
      simp only [Event.run, runExperiment, Event.writes, policyFile_lookup]
      split
      · rw [Files.writeAll_append, ← writeSome_eq, ← writeSome_eq]
        cases outcome with
        | failed | cut => rfl
        | collected => simp [Outcome.k6, Outcome.result, writeSome]
      · rfl
  | fault policy outcome =>
      simp only [Event.run, faultInjection, Event.writes, policyFile_lookup]
      split
      · rw [Files.writeAll_append, ← writeSome_eq, ← writeSome_eq]
        cases outcome with
        | failed | cut => rfl
        | recorded => simp [FaultOutcome.k6, FaultOutcome.result, writeSome]
      · rfl

theorem runs_writes (dir : Dir) (events : List Event) :
    runs setup dir events = dir.writeAll (events.flatMap (Event.writes setup)) := by
  induction events generalizing dir with
  | nil => rfl
  | cons e events ih =>
      rw [List.flatMap_cons, Files.writeAll_append, ← run_writes, ← ih]
      rfl

/-! ## Who writes what -/

/-- The metrics which the run collects for the policy and the scenario. -/
def Event.collected (policy scenario : String) : Event → Option Collected
  | .experiment p s outcome => if p = policy ∧ s = scenario then outcome.result else none
  | .fault _ _ => none

/-- What the run has `k6` write for the policy and the scenario. -/
def Event.k6 (policy scenario : String) : Event → Option (List Char)
  | .experiment p s outcome => if p = policy ∧ s = scenario then outcome.k6 else none
  | .fault _ _ => none

/-- The times which the run records for the policy. -/
def Event.recorded (policy : String) : Event → Option Recorded
  | .experiment _ _ _ => none
  | .fault p outcome => if p = policy then outcome.result else none

theorem promFile_injective : ∀ p ∈ policies, ∀ s ∈ scenarios, ∀ q ∈ policies, ∀ r ∈ scenarios,
    promFile p s = promFile q r → p = q ∧ s = r := by
  decide +kernel

theorem k6File_injective : ∀ p ∈ policies, ∀ s ∈ scenarios, ∀ q ∈ policies, ∀ r ∈ scenarios,
    k6File p s = k6File q r → p = q ∧ s = r := by
  decide +kernel

theorem faultFile_injective : ∀ p ∈ policies, ∀ q ∈ policies,
    faultFile p = faultFile q → p = q := by
  decide +kernel

theorem names_apart : ∀ p ∈ policies, ∀ s ∈ scenarios, ∀ q ∈ policies,
    k6FaultFile q ≠ promFile p s ∧ k6FaultFile q ≠ k6File p s ∧ faultFile q ≠ promFile p s ∧
      faultFile q ≠ k6File p s ∧ ∀ r ∈ policies, k6FaultFile q ≠ faultFile r := by
  decide +kernel

theorem kinds_apart : ∀ p ∈ policies, ∀ s ∈ scenarios, ∀ q ∈ policies, ∀ r ∈ scenarios,
    k6File p s ≠ promFile q r := by
  decide +kernel

theorem lastOf_experiment {p s : String} (inside : p ∈ policies ∧ s ∈ scenarios)
    (outcome : Outcome) (name : String) :
    Files.lastOf name (Event.writes setup (.experiment p s outcome)) =
      (if promFile p s = name then outcome.result.map (setup.collectedText p s) else none).or
        (if k6File p s = name then outcome.k6 else none) := by
  rw [Event.writes, if_pos inside, Files.lastOf_append, written, written, Files.lastOf_option,
    Files.lastOf_option]

theorem lastOf_fault {p : String} (inside : p ∈ policies) (outcome : FaultOutcome)
    (name : String) :
    Files.lastOf name (Event.writes setup (.fault p outcome)) =
      (if faultFile p = name then outcome.result.map (setup.recordedText p) else none).or
        (if k6FaultFile p = name then outcome.k6 else none) := by
  rw [Event.writes, if_pos inside, Files.lastOf_append, written, written, Files.lastOf_option,
    Files.lastOf_option]

section

variable {policy scenario : String} (known : policy ∈ policies)

include known

section

variable (planned : scenario ∈ scenarios)

include planned

theorem elsewhere {p s : String} (outside : ¬ (p ∈ policies ∧ s ∈ scenarios)) :
    ¬ (p = policy ∧ s = scenario) := by
  rintro ⟨rfl, rfl⟩
  exact outside ⟨known, planned⟩

theorem lastOf_promFile (e : Event) :
    Files.lastOf (promFile policy scenario) (e.writes setup) =
      (e.collected policy scenario).map (setup.collectedText policy scenario) := by
  cases e with
  | experiment p s outcome =>
      by_cases inside : p ∈ policies ∧ s ∈ scenarios
      · have other := kinds_apart p inside.1 s inside.2 policy known scenario planned
        have same := promFile_injective p inside.1 s inside.2 policy known scenario planned
        rw [lastOf_experiment setup inside, if_neg other, Option.or_none, Event.collected]
        by_cases here : p = policy ∧ s = scenario
        · obtain ⟨rfl, rfl⟩ := here
          simp
        · have away : promFile p s ≠ promFile policy scenario := fun named => here (same named)
          simp [away, here]
      · have away := elsewhere known planned inside
        simp [Event.writes, inside, Event.collected, away]
  | fault p outcome =>
      by_cases inside : p ∈ policies
      · obtain ⟨k6, -, recorded, -⟩ := names_apart policy known scenario planned p inside
        rw [lastOf_fault setup inside, if_neg recorded, if_neg k6]
        rfl
      · simp [Event.writes, inside, Event.collected]

theorem lastOf_k6File (e : Event) :
    Files.lastOf (k6File policy scenario) (e.writes setup) = e.k6 policy scenario := by
  cases e with
  | experiment p s outcome =>
      by_cases inside : p ∈ policies ∧ s ∈ scenarios
      · have other := (kinds_apart policy known scenario planned p inside.1 s inside.2).symm
        have same := k6File_injective p inside.1 s inside.2 policy known scenario planned
        rw [lastOf_experiment setup inside, if_neg other, Option.none_or, Event.k6]
        by_cases here : p = policy ∧ s = scenario
        · obtain ⟨rfl, rfl⟩ := here
          simp
        · have away : k6File p s ≠ k6File policy scenario := fun named => here (same named)
          rw [if_neg away, if_neg here]
      · have away := elsewhere known planned inside
        simp [Event.writes, inside, Event.k6, away]
  | fault p outcome =>
      by_cases inside : p ∈ policies
      · obtain ⟨-, k6, -, recorded, -⟩ := names_apart policy known scenario planned p inside
        rw [lastOf_fault setup inside, if_neg recorded, if_neg k6]
        rfl
      · simp [Event.writes, inside, Event.k6]

end

theorem lastOf_faultFile (e : Event) :
    Files.lastOf (faultFile policy) (e.writes setup) =
      (e.recorded policy).map (setup.recordedText policy) := by
  cases e with
  | experiment p s outcome =>
      by_cases inside : p ∈ policies ∧ s ∈ scenarios
      · obtain ⟨-, -, prom, k6, -⟩ := names_apart p inside.1 s inside.2 policy known
        rw [lastOf_experiment setup inside, if_neg prom.symm, if_neg k6.symm]
        rfl
      · simp [Event.writes, inside, Event.recorded]
  | fault p outcome =>
      by_cases inside : p ∈ policies
      · have same := faultFile_injective p inside policy known
        have k6 : k6FaultFile p ≠ faultFile policy :=
          (names_apart "rr" (by decide) "steady" (by decide) p inside).2.2.2.2 policy known
        rw [lastOf_fault setup inside, if_neg k6, Option.or_none, Event.recorded]
        by_cases here : p = policy
        · subst here
          simp
        · have away : faultFile p ≠ faultFile policy := fun named => here (same named)
          simp [away, here]
      · have away : p ≠ policy := fun same => inside (same ▸ known)
        simp [Event.writes, inside, Event.recorded, away]

end

/-- A file has what was written into it last. -/
theorem runs_last {name : String} {f : Event → Option (List Char)}
    (each : ∀ e : Event, Files.lastOf name (e.writes setup) = f e) (dir : Dir)
    (events : List Event) : runs setup dir events name =
      (events.reverse.findSome? f).or (dir name) := by
  rw [runs_writes, Files.writeAll_apply, Files.lastOf_flatMap name _ f each]

/-- What a sequence of runs has collected last for the policy and the scenario. -/
def lastCollected (events : List Event) (policy scenario : String) : Option Collected :=
  events.reverse.findSome? (Event.collected policy scenario)

def lastMetrics (events : List Event) (policy scenario : String) : Option (Metrics Answer) :=
  (lastCollected events policy scenario).map Collected.metrics

def lastK6 (events : List Event) (policy scenario : String) : Option (List Char) :=
  events.reverse.findSome? (Event.k6 policy scenario)

/-- What a sequence of runs has recorded last for the policy. -/
def lastRecorded (events : List Event) (policy : String) : Option Recorded :=
  events.reverse.findSome? (Event.recorded policy)

section

variable (dir : Dir) (events : List Event) {policy scenario : String} (known : policy ∈ policies)

include known

theorem runs_promFile (planned : scenario ∈ scenarios) :
    runs setup dir events (promFile policy scenario) =
      ((lastCollected events policy scenario).map (setup.collectedText policy scenario)).or
        (dir (promFile policy scenario)) := by
  rw [runs_last setup (lastOf_promFile setup known planned), lastCollected, List.map_findSome?]
  rfl

theorem runs_k6File (planned : scenario ∈ scenarios) :
    runs setup dir events (k6File policy scenario) =
      (lastK6 events policy scenario).or (dir (k6File policy scenario)) :=
  runs_last setup (lastOf_k6File setup known planned) dir events

theorem runs_faultFile : runs setup dir events (faultFile policy) =
    ((lastRecorded events policy).map (setup.recordedText policy)).or
      (dir (faultFile policy)) := by
  rw [runs_last setup (lastOf_faultFile setup known), lastRecorded, List.map_findSome?]
  rfl

end

/-! ## `run_all.sh` -/

def suite (outcome : String → String → Outcome) (fault : String → FaultOutcome) : List Event :=
  (policies.flatMap fun policy => scenarios.map fun scenario =>
    .experiment policy scenario (outcome policy scenario)) ++
  policies.map fun policy => .fault policy (fault policy)

/-- As it stands in `FAILED`. -/
def Event.name : Event → String
  | .experiment policy scenario _ => policy ++ "/" ++ scenario
  | .fault policy _ => "fault/" ++ policy

def Event.fails : Event → Bool
  | .experiment _ _ outcome => outcome.isFailed
  | .fault _ outcome => outcome.isFailed

def Event.start : Event → Entry
  | .experiment policy scenario _ => .started "run_experiment.sh" [policy, scenario]
  | .fault policy _ => .started "fault_injection.sh" [policy]

/-- One of the runs of `run_all.sh`, whatever happens in it. -/
def Event.IsPlanned : Event → Prop
  | .experiment policy scenario _ => policy ∈ policies ∧ scenario ∈ scenarios
  | .fault policy _ => policy ∈ policies

theorem run_succeeds {e : Event} (planned : e.IsPlanned) (dir : Dir) :
    (e.run setup dir).ok = !e.fails := by
  cases e with
  | experiment policy scenario outcome =>
      simp only [Event.IsPlanned] at planned
      simp only [Event.run, runExperiment, policyFile_lookup, planned, and_self, if_true]
      cases outcome <;> rfl
  | fault policy outcome =>
      simp only [Event.IsPlanned] at planned
      simp only [Event.run, faultInjection, policyFile_lookup, planned, if_true]
      cases outcome <;> rfl

/-- A run starts its own script, and no other. -/
theorem run_log (dir : Dir) (e : Event) : (e.run setup dir).log = [e.start] := by
  cases e with
  | experiment policy scenario outcome =>
      simp only [Event.run, runExperiment]
      split
      · cases outcome <;> rfl
      · rfl
  | fault policy outcome =>
      simp only [Event.run, faultInjection]
      split
      · cases outcome <;> rfl
      · rfl

theorem notes_eq {events : List Event} (planned : ∀ e ∈ events, e.IsPlanned) (s : Progress) :
    events.foldl (fun s e => s.note e.name (e.run setup s.dir)) s =
      ⟨runs setup s.dir events, s.failed ++ (events.filter Event.fails).map Event.name,
        s.log ++ events.flatMap fun e => [e.start, verdict (!e.fails) e.name]⟩ := by
  induction events generalizing s with
  | nil => simp [runs]
  | cons e events ih =>
      obtain ⟨here, later⟩ := List.forall_mem_cons.mp planned
      have stepped : s.note e.name (e.run setup s.dir) =
          ⟨(e.run setup s.dir).dir, s.failed ++ (if e.fails then [e.name] else []),
            s.log ++ [e.start, verdict (!e.fails) e.name]⟩ := by
        rw [Progress.note, run_succeeds setup here, run_log]
        cases e.fails <;> simp
      rw [List.foldl_cons, stepped, ih later]
      cases fails : e.fails <;> simp [runs, fails]

theorem suite_planned (outcome : String → String → Outcome) (fault : String → FaultOutcome) :
    ∀ e ∈ suite outcome fault, e.IsPlanned := by
  intro e member
  rcases List.mem_append.mp member with experiment | injected
  · obtain ⟨policy, known, inner⟩ := List.mem_flatMap.mp experiment
    obtain ⟨scenario, planned, rfl⟩ := List.mem_map.mp inner
    exact ⟨known, planned⟩
  · obtain ⟨policy, known, rfl⟩ := List.mem_map.mp injected
    exact known

theorem runAll_eq (dir : Dir) (outcome : String → String → Outcome)
    (fault : String → FaultOutcome) : runAll setup dir outcome fault =
      ⟨runs setup dir (suite outcome fault),
        ((suite outcome fault).filter Event.fails).map Event.name,
        (suite outcome fault).flatMap fun e => [e.start, verdict (!e.fails) e.name]⟩ := by
  have folded : runAll setup dir outcome fault =
      (suite outcome fault).foldl (fun (s : Progress) e => s.note e.name (e.run setup s.dir))
        ⟨dir, [], []⟩ := by
    simp only [suite, List.foldl_append, List.foldl_flatMap, List.foldl_map]
    rfl
  rw [folded, notes_eq setup (suite_planned outcome fault), List.nil_append, List.nil_append]

section

variable {outcome : String → String → Outcome} {fault : String → FaultOutcome}

theorem experiment_once {policy scenario : String} (known : policy ∈ policies)
    (planned : scenario ∈ scenarios) :
    .experiment policy scenario (outcome policy scenario) ∈ suite outcome fault :=
  List.mem_append_left _ (List.mem_flatMap.mpr ⟨policy, known, List.mem_map_of_mem planned⟩)

theorem fault_once {policy : String} (known : policy ∈ policies) :
    .fault policy (fault policy) ∈ suite outcome fault :=
  List.mem_append_right _ (List.mem_map_of_mem known)

theorem experiment_of_suite {policy scenario : String} {other : Outcome}
    (member : .experiment policy scenario other ∈ suite outcome fault) :
    other = outcome policy scenario := by
  rcases List.mem_append.mp member with experiment | injected
  · obtain ⟨_, -, inner⟩ := List.mem_flatMap.mp experiment
    obtain ⟨_, -, same⟩ := List.mem_map.mp inner
    cases same
    rfl
  · obtain ⟨_, -, same⟩ := List.mem_map.mp injected
    cases same

theorem fault_of_suite {policy : String} {other : FaultOutcome}
    (member : .fault policy other ∈ suite outcome fault) : other = fault policy := by
  rcases List.mem_append.mp member with experiment | injected
  · obtain ⟨_, -, inner⟩ := List.mem_flatMap.mp experiment
    obtain ⟨_, -, same⟩ := List.mem_map.mp inner
    cases same
  · obtain ⟨_, -, same⟩ := List.mem_map.mp injected
    cases same
    rfl

end

/-- Whatever fails on the way, each experiment and each fault injection is run once, with one
    verdict behind it. A file that is opened has the results of this run, all of them or the first
    part, and where none is opened there is what was there before. `FAILED` lists the
    runs which do not come to their end, in their order. -/
theorem run_all_runs_each_once (dir : Dir) (outcome : String → String → Outcome)
    (fault : String → FaultOutcome) : ∃ after failed log,
    runAll setup dir outcome fault = ⟨after, failed, log⟩ ∧
      (∀ policy ∈ policies, ∀ scenario ∈ scenarios, after (promFile policy scenario) =
        match outcome policy scenario with
        | .failed _ => dir (promFile policy scenario)
        | .cut _ metrics missing =>
            some ((setup.promText policy scenario metrics).rdrop missing)
        | .collected _ metrics => some (setup.promText policy scenario metrics)) ∧
      (∀ policy ∈ policies, after (faultFile policy) =
        match fault policy with
        | .failed _ => dir (faultFile policy)
        | .cut _ deletionTs recoveryEnd missing =>
            some ((setup.faultText policy deletionTs (recoveryEnd - deletionTs)).rdrop missing)
        | .recorded _ deletionTs recoveryEnd =>
            some (setup.faultText policy deletionTs (recoveryEnd - deletionTs))) ∧
      failed = (policies.flatMap fun policy =>
        (scenarios.filter fun scenario => (outcome policy scenario).isFailed).map fun scenario =>
          policy ++ "/" ++ scenario) ++
        (policies.filter fun policy => (fault policy).isFailed).map ("fault/" ++ ·) ∧
      log = (policies.flatMap fun policy => scenarios.flatMap fun scenario =>
        [.started "run_experiment.sh" [policy, scenario],
          verdict (!(outcome policy scenario).isFailed) (policy ++ "/" ++ scenario)]) ++
        policies.flatMap fun policy => [.started "fault_injection.sh" [policy],
          verdict (!(fault policy).isFailed) ("fault/" ++ policy)] := by
  refine ⟨_, _, _, runAll_eq setup dir outcome fault, ?_, ?_, ?_, ?_⟩
  · intro policy known scenario planned
    have once : .experiment policy scenario (outcome policy scenario) ∈
        (suite outcome fault).reverse := List.mem_reverse.mpr (experiment_once known planned)
    rw [runs_promFile setup _ _ known planned, lastCollected, Files.findSome?_alone once]
    · rw [Event.collected, if_pos ⟨rfl, rfl⟩]
      cases outcome policy scenario with
      | failed | cut => rfl
      | collected => simp [Outcome.result]
    · intro other member away
      rw [List.mem_reverse] at member
      cases other with
      | fault => rfl
      | experiment p s o =>
          apply if_neg
          rintro ⟨rfl, rfl⟩
          exact away (experiment_of_suite member ▸ rfl)
  · intro policy known
    have once : .fault policy (fault policy) ∈ (suite outcome fault).reverse :=
      List.mem_reverse.mpr (fault_once known)
    rw [runs_faultFile setup _ _ known, lastRecorded, Files.findSome?_alone once]
    · rw [Event.recorded, if_pos rfl]
      cases fault policy with
      | failed | cut => rfl
      | recorded => simp [FaultOutcome.result]
    · intro other member away
      rw [List.mem_reverse] at member
      cases other with
      | experiment => rfl
      | fault p o =>
          apply if_neg
          rintro rfl
          exact away (fault_of_suite member ▸ rfl)
  · simp [suite, List.filter_flatMap, List.map_flatMap, List.filter_map, Function.comp_def,
      Event.fails, Event.name]
  · simp [suite, List.flatMap_append, List.flatMap_assoc, List.flatMap_map, Event.start,
      Event.fails, Event.name]

end PcdLab.Experiments.Suite
