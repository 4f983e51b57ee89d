import PcdLab.Experiments.FaultInjection

/-! # The polling loop comes to an end

Whatever the cluster does, `fault_injection.sh` has only so many commands to run: each turn of
its loop takes two seconds at least, and behind the timeout there is no further turn. The rank of
a state counts the commands that are left. Behind the loop the script waits for `k6`.
-/

namespace PcdLab.Experiments

open Lib.Runs

namespace Experiment

/-- How often the loop can still sleep, so many seconds after `RECOVERY_START`. -/
def turnsLeft (elapsed : Nat) : Nat := (timeout + 2 - elapsed) / 2

def commandsLeft (s : Experiment) : Nat :=
  match s.phase with
  | .stamping => 5 * turnsLeft 0 + 10
  | .deleting => 5 * turnsLeft 0 + 9
  | .starting => 5 * turnsLeft 0 + 8
  | .countingReady => 5 * turnsLeft (s.clock - s.recoveryStart) + 7
  | .countingTotal => 5 * turnsLeft (s.clock - s.recoveryStart) + 6
  | .testing => 5 * turnsLeft (s.clock - s.recoveryStart) + 5
  | .checkingTime => 5 * turnsLeft (s.clock - s.recoveryStart) + 4
  | .sleeping since => 5 * turnsLeft (since - s.recoveryStart) + 3
  | .ending => 3
  | .waiting => 2
  | .writing => 1
  | .written _ | .exited => 0

/-- Within the loop the clock is behind `RECOVERY_START`, and no sleep begins past the
    timeout. -/
def Paced (s : Experiment) : Prop :=
  match s.phase with
  | .sleeping since =>
      s.recoveryStart ≤ since ∧ since ≤ s.recoveryStart + timeout ∧ since ≤ s.clock
  | .countingReady | .countingTotal | .testing | .checkingTime => s.recoveryStart ≤ s.clock
  | _ => True

/-- The script takes a turn. -/
def ofScript : Experiment → Event → Bool
  | _, .command | _, .commandFails => true
  | _, _ => false

def hasEnded (s : Experiment) : Prop :=
  match s.phase with
  | .written _ | .exited => True
  | _ => False

/-- The script is in `wait "$K6_PID"`. -/
def waitsForK6 (s : Experiment) : Prop := s.phase = .waiting ∧ s.k6Runs = true

theorem command_ranked {s t : Experiment} (paced : s.Paced) (moved : s.command = some t) :
    t.Paced ∧ t.commandsLeft + 1 ≤ s.commandsLeft := by
  unfold command at moved
  split at moved <;> rename_i phase
  · cases moved
    simp [Paced, commandsLeft, phase]
  · cases moved
    simp [Paced, commandsLeft, phase]
  · cases moved
    simp [Paced, commandsLeft, phase]
  · cases moved
    simp_all [Paced, commandsLeft]
  · cases moved
    simp_all [Paced, commandsLeft]
  · cases moved
    split
    · simp [Paced, commandsLeft, phase, leave]
    · simp_all [Paced, commandsLeft]
  · cases moved
    simp only [Paced, phase] at paced
    split
    · simp [Paced, commandsLeft, phase, leave]
    · rename_i stays
      simp only [breaks, phase, decide_eq_true_eq, Nat.not_lt] at stays
      simp only [Paced, commandsLeft, phase, timeout] at paced stays ⊢
      omega
  · rename_i since
    obtain ⟨slept, same⟩ := Option.ite_none_right_eq_some.mp moved
    cases same
    simp only [Paced, phase] at paced
    simp only [Paced, commandsLeft, phase, turnsLeft, timeout] at paced ⊢
    omega
  · cases moved
    simp [Paced, commandsLeft, phase]
  · obtain ⟨-, same⟩ := Option.ite_none_left_eq_some.mp moved
    cases same
    simp [Paced, commandsLeft, phase]
  · cases moved
    simp [Paced, commandsLeft, phase]
  · cases moved
  · cases moved

theorem commandFails_ranked {s t : Experiment} (paced : s.Paced)
    (moved : s.commandFails = some t) : t.Paced ∧ t.commandsLeft + 1 ≤ s.commandsLeft := by
  unfold commandFails at moved
  split at moved <;> rename_i phase
  · cases moved
    simp_all [Paced, commandsLeft]
  · cases moved
    simp_all [Paced, commandsLeft]
  · cases moved
  · cases moved
  · cases moved
  · cases moved
  · cases moved
    refine ⟨trivial, ?_⟩
    simp only [commandsLeft]
    split <;> simp_all

/-- Whatever else happens leaves the script where it is, and only moves the clock on. -/
theorem outside_ranked {s t : Experiment} (paced : s.Paced) (phase : t.phase = s.phase)
    (started : t.recoveryStart = s.recoveryStart) (later : s.clock ≤ t.clock) :
    t.Paced ∧ t.commandsLeft ≤ s.commandsLeft := by
  have fewer : turnsLeft (t.clock - s.recoveryStart) ≤ turnsLeft (s.clock - s.recoveryStart) := by
    unfold turnsLeft
    omega
  constructor
  · simp only [Paced, phase, started]
    simp only [Paced] at paced
    split at paced <;> simp_all <;> omega
  · simp only [commandsLeft, phase, started]
    split <;> omega

theorem step_ranked {s t : Experiment} {e : Event} (paced : s.Paced)
    (moved : s.step e = some t) :
    t.Paced ∧ t.commandsLeft + (ofScript s e).toNat ≤ s.commandsLeft := by
  cases e with
  | command => exact command_ranked paced moved
  | commandFails => exact commandFails_ranked paced moved
  | tick =>
      cases moved
      exact outside_ranked paced rfl rfl (Nat.le_succ _)
  | k6Ends =>
      cases moved
      exact outside_ranked paced rfl rfl (Nat.le_refl _)
  | appears =>
      cases moved
      exact outside_ranked paced rfl rfl (Nat.le_refl _)
  | becomesReady i | turns i ready | terminates i =>
      simp only [step] at moved
      split at moved
      · cases moved
        exact outside_ranked paced rfl rfl (Nat.le_refl _)
      · cases moved

theorem command_runs {s : Experiment} (awake : ∀ since, s.phase ≠ .sleeping since)
    (free : ¬ s.waitsForK6) : s.hasEnded ∨ ∃ t, s.command = some t := by
  cases phase : s.phase with
  | written | exited =>
      left
      simp only [hasEnded, phase]
  | sleeping since => exact absurd phase (awake since)
  | waiting =>
      have finished : s.k6Runs = false := by
        by_contra runs
        exact free ⟨phase, by simpa using runs⟩
      right
      simp [command, phase, finished]
  | stamping | deleting | starting | countingReady | countingTotal | testing | checkingTime
  | ending | writing =>
      right
      simp only [command, phase]
      exact ⟨_, rfl⟩

/-- A script which has not ended has a command to run, if need be after two seconds, or when `k6`
    has ended. -/
theorem goes_on {s : Experiment} (paced : s.Paced) :
    s.hasEnded ∨
      (s.waitsForK6 ∧ ∃ t, exec Experiment.step s [.k6Ends, .command] = some t) ∨
      (¬ s.waitsForK6 ∧ ∃ waits ≤ 2, ∃ t,
        exec Experiment.step s (List.replicate waits .tick ++ [.command]) = some t) := by
  by_cases sleeps : ∃ since, s.phase = .sleeping since
  · obtain ⟨since, phase⟩ := sleeps
    have busy : ¬ s.waitsForK6 := by
      rintro ⟨waiting, -⟩
      rw [phase] at waiting
      cases waiting
    simp only [Paced, phase] at paced
    refine .inr (.inr ⟨busy, 2, Nat.le_refl _,
      { s with clock := s.clock + 1 + 1, phase := .countingReady }, ?_⟩)
    simpa [List.replicate, exec, Experiment.step, command, phase] using paced.2.2
  · have awake : ∀ since, s.phase ≠ .sleeping since := fun since phase => sleeps ⟨since, phase⟩
    by_cases waits : s.waitsForK6
    · refine .inr (.inl ⟨waits, { s with phase := .writing, k6Runs := false }, ?_⟩)
      simp [exec, Experiment.step, command, waits.1]
    · cases command_runs awake waits with
      | inl ended => exact .inl ended
      | inr runs =>
          obtain ⟨t, ran⟩ := runs
          exact .inr (.inr ⟨waits, 0, Nat.zero_le _, t, exec_single (a := Event.command) ran⟩)

end Experiment

/-- In every run the script runs at most 315 commands, however long the cluster takes; and before
    it has ended it is never more than two seconds away from its next command, but for the wait
    for `k6`, which is over when `k6` is. -/
theorem script_ends (ready : List Bool) (clock : Nat) (events : List Event) (s : Experiment)
    (ran : exec Experiment.step (.start ready clock) events = some s) :
    tally Experiment.step Experiment.ofScript (.start ready clock) events ≤
        5 * (timeout / 2 + 1) + 10 ∧
      (s.hasEnded ∨
        (s.waitsForK6 ∧ ∃ t, exec Experiment.step s [.k6Ends, .command] = some t) ∨
        (¬ s.waitsForK6 ∧ ∃ waits ≤ 2, ∃ t,
          exec Experiment.step s (List.replicate waits .tick ++ [.command]) = some t)) := by
  have ranked : s.Paced ∧ 0 + tally Experiment.step Experiment.ofScript (.start ready clock)
      events + s.commandsLeft ≤ 5 * (timeout / 2 + 1) + 10 := by
    refine exec_tally (fun n s => s.Paced ∧ n + s.commandsLeft ≤ 5 * (timeout / 2 + 1) + 10) ?_
      ⟨trivial, ?_⟩ ran
    · rintro n s e t ⟨paced, bounded⟩ moved
      obtain ⟨paced, fewer⟩ := Experiment.step_ranked paced moved
      exact ⟨paced, by omega⟩
    · simp [Experiment.start, Experiment.commandsLeft, Experiment.turnsLeft, timeout]
  exact ⟨by omega, Experiment.goes_on ranked.1⟩

/-- Two polls, between which the script sleeps; behind the second it is interrupted. -/
def interrupted : List Event :=
  [.command, .command, .command, .command, .commandFails, .command, .command, .tick, .tick,
    .command, .command, .commandFails, .command, .commandFails]

theorem script_ends_interrupted : ∃ s : Experiment,
    exec Experiment.step (.start [true] 7) interrupted = some s ∧
      tally Experiment.step Experiment.ofScript (.start [true] 7) interrupted ≤
        5 * (timeout / 2 + 1) + 10 := by
  have runs : (exec Experiment.step (.start [true] 7) interrupted).isSome := by decide
  obtain ⟨s, ran⟩ := Option.isSome_iff_exists.mp runs
  exact ⟨s, ran, (script_ends [true] 7 interrupted s ran).1⟩

end PcdLab.Experiments
