import Mathlib.Data.List.Count
import PcdLab.Lib.Runs

/-! # The fault injection experiment

`fault_injection.sh` deletes all worker pods and polls the cluster until four containers
are ready and four pods are listed. The pods which it deletes are listed until they have
terminated, so the two counts do not tell old pods from new ones. The script and the
cluster take turns in any order.
-/

namespace PcdLab.Experiments

open Lib.Runs

/-- A worker pod, which has one container. -/
structure Pod where
  /-- It was created after the deletion. -/
  replacement : Bool
  ready : Bool
  deriving Repr, DecidableEq

/-- `TIMEOUT=120`. -/
def timeout : Nat := 120

/-- What `kubectl get pods` prints for the first poll, once `grep -c` has counted it. -/
def containersReady (pods : List Pod) : Nat := pods.countP Pod.ready

def replacementsReady (pods : List Pod) : Nat := pods.countP fun p => p.replacement && p.ready

/-- The pods from before the deletion which are still ready, terminating or not. -/
def oldReady (pods : List Pod) : Nat := pods.countP fun p => !p.replacement && p.ready

/-- The command which the script runs next, or how it has ended. -/
inductive Phase where
  /-- `DELETION_TS=$(date +%s)` -/
  | stamping
  /-- `kubectl delete --wait=false` -/
  | deleting
  /-- `RECOVERY_START=$(date +%s)` -/
  | starting
  /-- `READY=$(kubectl get ..)` and `TOTAL=$(kubectl get ..)` -/
  | countingReady
  | countingTotal
  /-- The test of the two counts, and that of the time. -/
  | testing
  | checkingTime
  /-- `sleep 2` -/
  | sleeping (since : Nat)
  /-- `RECOVERY_END=$(date +%s)` -/
  | ending
  /-- `wait "$K6_PID" || true` -/
  | waiting
  /-- The result is written. -/
  | writing
  | written (recoveryTime : Nat)
  | exited
  deriving Repr, DecidableEq

/-- Which test has ended the loop. -/
inductive Exit where
  | counts
  | timeout
  deriving Repr, DecidableEq

/-- What the statements observe of a run; the script does not read it. -/
structure Observed where
  /-- The cluster when `READY` was counted last, as far as `kubectl` answered. -/
  polled : List Pod := []
  /-- The loop has been left. -/
  left : Option Exit := none
  /-- The time and the cluster when `RECOVERY_END` was read. -/
  ended : Option (Nat × List Pod) := none
  deriving Repr, DecidableEq

structure Experiment where
  phase : Phase
  deletionTs : Nat
  recoveryStart : Nat
  ready : Nat
  total : Nat
  recoveryEnd : Nat
  clock : Nat
  pods : List Pod
  deleted : Bool
  /-- `k6` is still running in the background. -/
  k6Runs : Bool
  observed : Observed
  deriving Repr, DecidableEq

inductive Event where
  /-- The next command of the script runs, or fails. -/
  | command
  | commandFails
  | tick
  | k6Ends
  /-- A pod is created, and becomes ready. -/
  | appears
  | becomesReady (i : Nat)
  /-- The container of a pod from before the deletion changes its readiness; the pod is gone. -/
  | turns (i : Nat) (ready : Bool)
  | terminates (i : Nat)
  deriving Repr, DecidableEq

namespace Experiment

/-- The pods before the deletion are ready or not, and the script has come to its fifth step. -/
def start (ready : List Bool) (clock : Nat) : Experiment :=
  ⟨.stamping, 0, 0, 0, 0, 0, clock, ready.map fun r => ⟨false, r⟩, false, true, {}⟩

/-- One of the two `break`s comes next. -/
def breaks (s : Experiment) : Bool :=
  match s.phase with
  | .testing => s.total ≥ 4 ∧ s.ready ≥ 4
  | .checkingTime => s.clock - s.recoveryStart > timeout
  | _ => false

def leave (s : Experiment) (exit : Exit) : Experiment :=
  { s with phase := .ending, observed := { s.observed with left := some exit } }

/-- The next command runs. -/
def command (s : Experiment) : Option Experiment :=
  match s.phase with
  | .stamping => some { s with deletionTs := s.clock, phase := .deleting }
  | .deleting => some { s with deleted := true, phase := .starting }
  | .starting => some { s with recoveryStart := s.clock, phase := .countingReady }
  | .countingReady =>
      some { s with
        ready := containersReady s.pods
        phase := .countingTotal
        observed := { s.observed with polled := s.pods } }
  | .countingTotal => some { s with total := s.pods.length, phase := .testing }
  | .testing => some (if s.breaks then s.leave .counts else { s with phase := .checkingTime })
  | .checkingTime =>
      some (if s.breaks then s.leave .timeout else { s with phase := .sleeping s.clock })
  | .sleeping since =>
      if since + 2 ≤ s.clock then some { s with phase := .countingReady } else none
  | .ending =>
      some { s with
        recoveryEnd := s.clock
        phase := .waiting
        observed := { s.observed with ended := some (s.clock, s.pods) } }
  | .waiting => if s.k6Runs then none else some { s with phase := .writing }
  | .writing => some { s with phase := .written (s.recoveryEnd - s.deletionTs) }
  | .written _ | .exited => none

/-- The next command fails. A poll then counts nothing, the failure of `k6` is passed over, and
    any other failure ends the script. -/
def commandFails (s : Experiment) : Option Experiment :=
  match s.phase with
  | .countingReady =>
      some { s with
        ready := 0
        phase := .countingTotal
        observed := { s.observed with polled := [] } }
  | .countingTotal => some { s with total := 0, phase := .testing }
  | .testing | .waiting | .written _ | .exited => none
  | _ => some { s with phase := .exited }

def step (s : Experiment) : Event → Option Experiment
  | .command => s.command
  | .commandFails => s.commandFails
  | .tick => some { s with clock := s.clock + 1 }
  | .k6Ends => some { s with k6Runs := false }
  | .appears => some { s with pods := s.pods ++ [⟨s.deleted, false⟩] }
  | .becomesReady i =>
      match s.pods[i]? with
      | some p => some { s with pods := s.pods.set i { p with ready := true } }
      | none => none
  | .turns i ready =>
      match s.pods[i]? with
      | some ⟨false, _⟩ => some { s with pods := s.pods.set i ⟨false, ready⟩ }
      | _ => none
  | .terminates i =>
      match s.pods[i]? with
      | some ⟨false, _⟩ => some { s with pods := s.pods.eraseIdx i }
      | _ => none

/-- The loop is left by the timeout, or by the counts while `READY` counts a pod from before the
    deletion. -/
def LeavesWrongly (s : Experiment) (e : Event) : Prop :=
  e = .command ∧ s.breaks = true ∧ (s.phase = .checkingTime ∨ oldReady s.observed.polled ≠ 0)

instance (s : Experiment) (e : Event) : Decidable (LeavesWrongly s e) :=
  inferInstanceAs (Decidable (_ ∧ _ ∧ (_ ∨ _)))

/-! ## The cluster -/

/-- `READY` counts old pods and new ones alike. -/
theorem containersReady_eq (pods : List Pod) :
    containersReady pods = replacementsReady pods + oldReady pods := by
  induction pods with
  | nil => rfl
  | cons p pods ih =>
      unfold containersReady replacementsReady oldReady at ih ⊢
      rw [List.countP_cons, List.countP_cons, List.countP_cons, ih]
      cases p.replacement <;> cases p.ready <;> simp <;> omega

theorem replacementsReady_appears (pods : List Pod) (p : Pod) :
    replacementsReady pods ≤ replacementsReady (pods ++ [p]) := by
  rw [replacementsReady, replacementsReady, List.countP_append]
  exact Nat.le_add_right _ _

theorem replacementsReady_set {pods : List Pod} {i : Nat} {p q : Pod} (here : pods[i]? = some p)
    (more : (p.replacement && p.ready) = true → (q.replacement && q.ready) = true) :
    replacementsReady pods ≤ replacementsReady (pods.set i q) := by
  obtain ⟨inside, rfl⟩ := List.getElem?_eq_some_iff.mp here
  have counted : (if (pods[i].replacement && pods[i].ready) = true then 1 else 0) ≤
      replacementsReady pods :=
    List.boole_getElem_le_countP (p := fun p => p.replacement && p.ready) inside
  rw [replacementsReady, replacementsReady, List.countP_set inside]
  unfold replacementsReady at counted
  split <;> rename_i was
  · rw [if_pos (more was)]
    omega
  · omega

theorem replacementsReady_eraseIdx {pods : List Pod} {i : Nat} {r : Bool}
    (here : pods[i]? = some ⟨false, r⟩) :
    replacementsReady pods ≤ replacementsReady (pods.eraseIdx i) := by
  obtain ⟨inside, same⟩ := List.getElem?_eq_some_iff.mp here
  have apart : pods = pods.take i ++ ⟨false, r⟩ :: pods.drop (i + 1) := by
    rw [← same, List.getElem_cons_drop, List.take_append_drop]
  rw [List.eraseIdx_eq_take_drop_succ]
  conv_lhs => rw [apart]
  simp [replacementsReady]

/-! ## The script -/

/-- What one step can do, one rule for each stage of the script and one for all that happens
    outside it: the clock goes on, and no replacement that is ready is lost. -/
inductive Step (s : Experiment) : Event → Experiment → Prop where
  | stamps (phase : s.phase = .stamping) :
      Step s .command { s with deletionTs := s.clock, phase := .deleting }
  | deletes (phase : s.phase = .deleting) :
      Step s .command { s with deleted := true, phase := .starting }
  | starts (phase : s.phase = .starting) :
      Step s .command { s with recoveryStart := s.clock, phase := .countingReady }
  | countsReady {e polled} (phase : s.phase = .countingReady)
      (listed : replacementsReady polled ≤ replacementsReady s.pods) :
      Step s e { s with
        ready := containersReady polled
        phase := .countingTotal
        observed := { s.observed with polled := polled } }
  | countsTotal {e count} (phase : s.phase = .countingTotal) :
      Step s e { s with total := count, phase := .testing }
  | tests (phase : s.phase = .testing) :
      Step s .command (if s.breaks then s.leave .counts else { s with phase := .checkingTime })
  | checksTime (phase : s.phase = .checkingTime) :
      Step s .command
        (if s.breaks then s.leave .timeout else { s with phase := .sleeping s.clock })
  | wakes {since} (phase : s.phase = .sleeping since) :
      Step s .command { s with phase := .countingReady }
  | ends (phase : s.phase = .ending) :
      Step s .command { s with
        recoveryEnd := s.clock
        phase := .waiting
        observed := { s.observed with ended := some (s.clock, s.pods) } }
  | waits (phase : s.phase = .waiting) : Step s .command { s with phase := .writing }
  | writes (phase : s.phase = .writing) :
      Step s .command { s with phase := .written (s.recoveryEnd - s.deletionTs) }
  | exits : Step s .commandFails { s with phase := .exited }
  | outside {e clock pods k6Runs} (other : e ≠ .command) (later : s.clock ≤ clock)
      (more : replacementsReady s.pods ≤ replacementsReady pods) :
      Step s e { s with clock := clock, pods := pods, k6Runs := k6Runs }

theorem step_rule {s t : Experiment} {e : Event} (moved : s.step e = some t) : s.Step e t := by
  cases e with
  | command =>
      simp only [step, command] at moved
      split at moved <;> rename_i phase
      · exact Option.some.inj moved ▸ .stamps phase
      · exact Option.some.inj moved ▸ .deletes phase
      · exact Option.some.inj moved ▸ .starts phase
      · exact Option.some.inj moved ▸ .countsReady phase (Nat.le_refl _)
      · exact Option.some.inj moved ▸ .countsTotal phase
      · exact Option.some.inj moved ▸ .tests phase
      · exact Option.some.inj moved ▸ .checksTime phase
      · obtain ⟨-, same⟩ := Option.ite_none_right_eq_some.mp moved
        exact Option.some.inj same ▸ .wakes phase
      · exact Option.some.inj moved ▸ .ends phase
      · obtain ⟨-, same⟩ := Option.ite_none_left_eq_some.mp moved
        exact Option.some.inj same ▸ .waits phase
      · exact Option.some.inj moved ▸ .writes phase
      · cases moved
      · cases moved
  | commandFails =>
      simp only [step, commandFails] at moved
      split at moved
      · rename_i phase
        exact Option.some.inj moved ▸
          @Step.countsReady s .commandFails [] phase (Nat.zero_le _)
      · rename_i phase
        exact Option.some.inj moved ▸ .countsTotal phase
      · cases moved
      · cases moved
      · cases moved
      · cases moved
      · exact Option.some.inj moved ▸ .exits
  | tick =>
      cases moved
      exact .outside (by simp) (Nat.le_succ _) (Nat.le_refl _)
  | k6Ends =>
      cases moved
      exact .outside (by simp) (Nat.le_refl _) (Nat.le_refl _)
  | appears =>
      cases moved
      exact .outside (by simp) (Nat.le_refl _) (replacementsReady_appears _ _)
  | becomesReady i =>
      simp only [step] at moved
      split at moved
      · rename_i p here
        cases moved
        refine .outside (by simp) (Nat.le_refl _) (replacementsReady_set here ?_)
        intro both
        exact (Bool.and_true _).trans (Bool.and_eq_true_iff.mp both).1
      · cases moved
  | turns i r =>
      simp only [step] at moved
      split at moved
      · rename_i was here
        cases moved
        exact .outside (by simp) (Nat.le_refl _) (replacementsReady_set here fun both => both)
      · cases moved
  | terminates i =>
      simp only [step] at moved
      split at moved
      · rename_i was here
        cases moved
        exact .outside (by simp) (Nat.le_refl _) (replacementsReady_eraseIdx here)
      · cases moved

/-! ## The record -/

/-- The loop has been left, by the counts only if `READY` was four at least. -/
def HasLeft (s : Experiment) : Prop :=
  ∃ exit, s.observed.left = some exit ∧ (exit = .counts → 4 ≤ s.ready)

/-- What is on record for each stage of the script. -/
def OnRecord (s : Experiment) : Prop :=
  match s.phase with
  | .ending => s.HasLeft ∧ s.observed.ended = none
  | .waiting | .writing => s.HasLeft ∧ s.deletionTs ≤ s.recoveryEnd ∧
      ∃ pods, s.observed.ended = some (s.recoveryEnd, pods)
  | .written recoveryTime => s.HasLeft ∧
      ∃ pods, s.observed.ended = some (s.deletionTs + recoveryTime, pods)
  | .exited => True
  | _ => s.observed.left = none ∧ s.observed.ended = none

/-- The cluster at the last poll, what was counted of it, and what has become of it since. -/
structure Ordered (s : Experiment) : Prop where
  stamped : s.deletionTs ≤ s.clock
  counted : s.ready = containersReady s.observed.polled
  onRecord : s.OnRecord
  sincePoll : s.observed.ended = none →
    replacementsReady s.observed.polled ≤ replacementsReady s.pods
  atEnd : ∀ time pods, s.observed.ended = some (time, pods) →
    replacementsReady s.observed.polled ≤ replacementsReady pods

/-- The loop has been left by the timeout, or by counts with an old pod among them. -/
def LeftWrongly (s : Experiment) : Prop :=
  ∃ exit, s.observed.left = some exit ∧ (exit = .timeout ∨ oldReady s.observed.polled ≠ 0)

namespace Ordered

variable {s t : Experiment}

theorem start (ready : List Bool) (clock : Nat) : Ordered (.start ready clock) where
  stamped := Nat.zero_le _
  counted := rfl
  onRecord := ⟨rfl, rfl⟩
  sincePoll := fun _ => Nat.zero_le _
  atEnd := by
    intro time pods ended
    cases ended

/-- The script does nothing that concerns the cluster or the record of it. -/
theorem goes_on (ordered : s.Ordered) (clock : t.clock = s.clock) (pods : t.pods = s.pods)
    (observed : t.observed = s.observed) (ready : t.ready = s.ready)
    (stamped : t.deletionTs ≤ s.clock) (onRecord : t.OnRecord) : t.Ordered where
  stamped := clock ▸ stamped
  counted := by
    rw [ready, observed]
    exact ordered.counted
  onRecord := onRecord
  sincePoll := by
    rw [observed, pods]
    exact ordered.sincePoll
  atEnd := by
    rw [observed]
    exact ordered.atEnd

/-- The loop is left, or goes on with `next`. -/
theorem test (ordered : s.Ordered) (inside : s.observed.left = none ∧ s.observed.ended = none)
    {exit : Exit} (enough : s.breaks = true → exit = .counts → 4 ≤ s.ready) {next : Experiment}
    (nextOrdered : next.Ordered) :
    Ordered (if s.breaks then s.leave exit else next) := by
  split
  · rename_i broke
    exact ⟨ordered.stamped, ordered.counted, ⟨⟨exit, rfl, enough broke⟩, inside.2⟩,
      ordered.sincePoll, ordered.atEnd⟩
  · exact nextOrdered

theorem step (ordered : s.Ordered) {e : Event} (moved : s.step e = some t) : t.Ordered := by
  have record := ordered.onRecord
  have stamped := ordered.stamped
  cases step_rule moved with
  | stamps phase =>
      simp only [OnRecord, phase] at record
      exact ordered.goes_on rfl rfl rfl rfl (Nat.le_refl _) record
  | deletes phase =>
      simp only [OnRecord, phase] at record
      exact ordered.goes_on rfl rfl rfl rfl stamped record
  | starts phase =>
      simp only [OnRecord, phase] at record
      exact ordered.goes_on rfl rfl rfl rfl stamped record
  | countsReady phase listed =>
      simp only [OnRecord, phase] at record
      refine ⟨stamped, rfl, record, fun _ => listed, ?_⟩
      intro time pods ended
      rw [record.2] at ended
      cases ended
  | countsTotal phase =>
      simp only [OnRecord, phase] at record
      exact ordered.goes_on rfl rfl rfl rfl stamped record
  | tests phase =>
      simp only [OnRecord, phase] at record
      refine ordered.test record ?_ (ordered.goes_on rfl rfl rfl rfl stamped record)
      intro broke _
      simp only [breaks, phase, decide_eq_true_eq] at broke
      exact broke.2
  | checksTime phase =>
      simp only [OnRecord, phase] at record
      refine ordered.test record ?_ (ordered.goes_on rfl rfl rfl rfl stamped record)
      intro _ other
      cases other
  | wakes phase =>
      simp only [OnRecord, phase] at record
      exact ordered.goes_on rfl rfl rfl rfl stamped record
  | ends phase =>
      simp only [OnRecord, phase] at record
      refine ⟨stamped, ordered.counted, ⟨record.1, stamped, _, rfl⟩, ?_, ?_⟩
      · intro unpolled
        cases unpolled
      · intro time pods ended
        cases ended
        exact ordered.sincePoll record.2
  | waits phase =>
      simp only [OnRecord, phase] at record
      exact ordered.goes_on rfl rfl rfl rfl stamped record
  | writes phase =>
      simp only [OnRecord, phase] at record
      obtain ⟨left, before, pods, ended⟩ := record
      refine ordered.goes_on rfl rfl rfl rfl stamped ⟨left, pods, ?_⟩
      rw [ended, Nat.add_sub_cancel' before]
  | exits => exact ordered.goes_on rfl rfl rfl rfl stamped trivial
  | outside other later more =>
      exact ⟨Nat.le_trans stamped later, ordered.counted, record,
        fun unpolled => Nat.le_trans (ordered.sincePoll unpolled) more, ordered.atEnd⟩

/-- A step which does not leave the loop, and does not count `READY`, changes nothing here. -/
theorem leftWrongly_still {e : Event} (stays : e = .command → s.breaks = false)
    (left : t.observed.left = s.observed.left) (polled : t.observed.polled = s.observed.polled) :
    t.LeftWrongly ↔ s.LeftWrongly ∨ LeavesWrongly s e := by
  have not : ¬ LeavesWrongly s e := by
    rintro ⟨ran, broke, -⟩
    exact Bool.false_ne_true ((stays ran).symm.trans broke)
  rw [LeftWrongly, LeftWrongly, left, polled]
  exact (or_iff_left not).symm

/-- At a test of the loop, the step decides. -/
theorem leftWrongly_test (inside : s.observed.left = none) {exit : Exit}
    (which : exit = .timeout ↔ s.phase = .checkingTime) {next : Experiment}
    (goesOn : next.observed = s.observed) :
    Experiment.LeftWrongly (if s.breaks then s.leave exit else next) ↔
      s.LeftWrongly ∨ LeavesWrongly s .command := by
  cases broke : s.breaks with
  | true => simp [LeftWrongly, LeavesWrongly, leave, inside, broke, which]
  | false => simp [LeftWrongly, LeavesWrongly, goesOn, inside, broke]

/-- The loop is left wrongly by the steps which do so, and no later step takes it back. -/
theorem leftWrongly_step (ordered : s.Ordered) {e : Event} (moved : s.step e = some t) :
    t.LeftWrongly ↔ s.LeftWrongly ∨ LeavesWrongly s e := by
  have record := ordered.onRecord
  cases step_rule moved with
  | stamps phase => exact leftWrongly_still (fun _ => by simp only [breaks, phase]) rfl rfl
  | deletes phase => exact leftWrongly_still (fun _ => by simp only [breaks, phase]) rfl rfl
  | starts phase => exact leftWrongly_still (fun _ => by simp only [breaks, phase]) rfl rfl
  | countsReady phase listed =>
      simp only [OnRecord, phase] at record
      simp [LeftWrongly, LeavesWrongly, breaks, phase, record.1]
  | countsTotal phase => exact leftWrongly_still (fun _ => by simp only [breaks, phase]) rfl rfl
  | tests phase =>
      simp only [OnRecord, phase] at record
      exact leftWrongly_test record.1 (by simp [phase]) rfl
  | checksTime phase =>
      simp only [OnRecord, phase] at record
      exact leftWrongly_test record.1 (by simp [phase]) rfl
  | wakes phase => exact leftWrongly_still (fun _ => by simp only [breaks, phase]) rfl rfl
  | ends phase => exact leftWrongly_still (fun _ => by simp only [breaks, phase]) rfl rfl
  | waits phase => exact leftWrongly_still (fun _ => by simp only [breaks, phase]) rfl rfl
  | writes phase => exact leftWrongly_still (fun _ => by simp only [breaks, phase]) rfl rfl
  | exits => exact leftWrongly_still (fun ran => by cases ran) rfl rfl
  | outside other _ _ => exact leftWrongly_still (fun ran => absurd ran other) rfl rfl

/-- A run has left the loop wrongly exactly if one of its steps did. -/
theorem leftWrongly_iff {ready : List Bool} {clock : Nat} {events : List Event}
    (ran : exec Experiment.step (.start ready clock) events = some s) :
    s.Ordered ∧
      (s.LeftWrongly ↔ Somewhere Experiment.step LeavesWrongly (.start ready clock) events) := by
  have initially := start ready clock
  have kept : ∀ s e t, Ordered s → s.step e = some t → t.Ordered :=
    fun _ _ _ ordered moved => ordered.step moved
  have flag := flag_iff_somewhere Ordered LeftWrongly kept
    (fun _ _ _ ordered moved => ordered.leftWrongly_step moved) initially ran
  have fresh : ¬ (Experiment.start ready clock).LeftWrongly := by
    rintro ⟨exit, left, -⟩
    cases left
  refine ⟨exec_invariant Ordered kept initially ran, flag.trans ?_⟩
  exact or_iff_right fresh

end Ordered

end Experiment

/-! ## The recorded recovery -/

open Experiment

/-- A recorded recovery time is that of a cluster with four replacements that are ready, with
    neither the timeout nor a pod from before the deletion having ended the wait, exactly if no
    step has left the loop by the timeout or with such a pod among those counted. -/
theorem recovery_recorded_iff (ready : List Bool) (clock : Nat) (events : List Event)
    (s : Experiment) (ran : exec step (.start ready clock) events = some s) (recoveryTime : Nat)
    (recorded : s.phase = .written recoveryTime) :
    ∃ pods, s.observed.ended = some (s.deletionTs + recoveryTime, pods) ∧
      ((4 ≤ replacementsReady pods ∧ s.observed.left = some .counts ∧
          oldReady s.observed.polled = 0) ↔
        ¬ Somewhere step LeavesWrongly (.start ready clock) events) := by
  obtain ⟨ordered, wrongly⟩ := Ordered.leftWrongly_iff ran
  have record := ordered.onRecord
  simp only [OnRecord, recorded] at record
  obtain ⟨⟨exit, left, enough⟩, pods, ended⟩ := record
  have atEnd := ordered.atEnd _ _ ended
  have counted := ordered.counted
  rw [containersReady_eq] at counted
  rw [← wrongly]
  refine ⟨pods, ended, ?_, ?_⟩
  · rintro ⟨-, byCounts, fresh⟩ ⟨other, same, timedOut | old⟩
    · rw [byCounts, timedOut] at same
      cases same
    · exact old fresh
  · intro never
    have byCounts : exit = .counts := by
      cases exit with
      | counts => rfl
      | timeout => exact absurd ⟨_, left, .inl rfl⟩ never
    have fresh : oldReady s.observed.polled = 0 := by
      by_contra old
      exact never ⟨_, left, .inr old⟩
    have four := enough byCounts
    exact ⟨by omega, byCounts ▸ left, fresh⟩

/-- The commands of a run which passes its first test, after which `k6` comes to its end. -/
def firstTest : List Event := List.replicate 7 .command ++ [.k6Ends, .command, .command]

/-- The old pods terminate and four new ones become ready before the first poll. -/
def recovers : List Event :=
  [.command, .command, .command, .terminates 0, .terminates 0, .tick, .appears, .appears,
    .appears, .appears, .becomesReady 0, .becomesReady 1, .becomesReady 2, .becomesReady 3] ++
    [.command, .command, .command, .command, .k6Ends, .command, .command]

theorem recovery_recorded_after_one_second : ∃ s pods,
    exec step (.start [true, true] 10) recovers = some s ∧ s.phase = .written 1 ∧
      s.observed.ended = some (s.deletionTs + 1, pods) ∧ 4 ≤ replacementsReady pods := by
  have replayed : (exec step (.start [true, true] 10) recovers).map (fun s => s.phase) =
      some (.written 1) := by
    decide +kernel
  obtain ⟨s, ran, recorded⟩ := Option.map_eq_some_iff.mp replayed
  obtain ⟨pods, ended, exactly⟩ := recovery_recorded_iff _ _ _ s ran 1 recorded
  exact ⟨s, pods, ran, recorded, ended, (exactly.mpr (by decide +kernel)).1⟩

/-- Nothing becomes ready after the first poll, in which there are no pods. -/
def timesOut : List Event :=
  [.command, .command, .command, .terminates 0, .command, .command, .command] ++
    List.replicate 121 .tick ++ [.command, .command, .k6Ends, .command, .command]

/-- Four new pods become ready, but whenever all pods are to be counted, `kubectl` fails. -/
def uncounted : List Event :=
  [.command, .command, .command, .terminates 0, .appears, .appears, .appears, .appears,
    .becomesReady 0, .becomesReady 1, .becomesReady 2, .becomesReady 3, .command, .commandFails,
    .command] ++ List.replicate 121 .tick ++ [.command, .command, .k6Ends, .command, .command]

/-- Four pods which are still terminating are recorded as a recovery within the same second,
    a cluster without pods as one after 121 seconds, and so is one of which only the timeout has
    ended the wait. -/
theorem recovery_recorded_without_replacements :
    ((exec step (.start [true, true, true, true] 10) firstTest).map fun s =>
      (s.phase, s.observed.ended.map fun x => (x.1, replacementsReady x.2))) =
        some (.written 0, some (10, 0)) ∧
    ((exec step (.start [true] 10) timesOut).map fun s =>
      (s.phase, s.observed.ended.map fun x => (x.1, replacementsReady x.2))) =
        some (.written 121, some (131, 0)) ∧
    ((exec step (.start [true] 10) uncounted).map fun s => (s.phase, s.observed.left)) =
      some (.written 121, some .timeout) := by
  refine ⟨?_, ?_, ?_⟩ <;> decide +kernel

end PcdLab.Experiments
