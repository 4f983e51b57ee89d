import PcdLab.Worker.Gauge

/-! # The delay of `/work`

The delay is the sum of two numbers read from text, each anywhere in the range of a
`u64`. The worker is shipped as a release build, in which such a sum wraps around, and
what is left of it both decides whether the handler sleeps and is what it reports.
-/

namespace PcdLab.Worker

open Shared.Socket

variable {F : Type}

/-- The state which `main` sets up, from the value of `BASE_DELAY_MS` if it has one. -/
def AppState.ofEnv (podName : String) (baseDelayMs : Option String) : AppState where
  podName := podName
  baseDelayMs := (baseDelayMs.bind parseU64).getD 0

/-- The `delay_ms` of a body. -/
def Handler.delayMs : Handler F → Option Nat
  | .ready _ (.work _ delayMs _) => some delayMs
  | _ => none

/-- A call of `handle_work` which starts at `now` and is not dropped: how long it sleeps, and the
    delay in its body. -/
def workDelays (platform : Platform F) (app : AppState) (params : Params) (now woken : Nat) :
    Option (Nat × Nat) :=
  (handleWork platform app params now).bind fun handler =>
    match handler with
    | .sleeping totalMs =>
        (handler.wake platform app woken none).bind fun awake =>
          awake.delayMs.map fun delayMs => (totalMs, delayMs)
    | _ => handler.delayMs.map fun delayMs => (0, delayMs)

/-- The handler sleeps as long as it reports, also when that is not at all. -/
theorem workDelays_eq (platform : Platform F) (app : AppState) (params : Params)
    (now woken : Nat) : workDelays platform app params now woken =
      (addU64 platform.profile app.baseDelayMs (extraMs params)).map fun totalMs =>
        (totalMs, totalMs) := by
  unfold workDelays handleWork
  cases addU64 platform.profile app.baseDelayMs (extraMs params) with
  | none => rfl
  | some totalMs =>
      by_cases sleeps : totalMs > 0
      · simp [sleeps, Handler.wake, Handler.delayMs]
      · have zero : totalMs = 0 := by omega
        simp [zero, Handler.delayMs]

/-- The delay is what it should be for a base delay and the parameters of a request: the sum, no
    less than the base, and no less than for parameters that ask for less. -/
structure DelayKept (platform : Platform F) (app : AppState) (params : Params)
    (now woken : Nat) : Prop where
  exact : workDelays platform app params now woken =
    some (app.baseDelayMs + extraMs params, app.baseDelayMs + extraMs params)
  base_le : ∃ ms, workDelays platform app params now woken = some (ms, ms) ∧ app.baseDelayMs ≤ ms
  monotone : ∀ params', extraMs params' ≤ extraMs params →
    ∃ ms ms', workDelays platform app params now woken = some (ms, ms) ∧
      workDelays platform app params' now woken = some (ms', ms') ∧ ms' ≤ ms

/-- In a release build the sum is cut to 64 bits. -/
theorem workDelays_release {platform : Platform F} (release : platform.profile = .release)
    (app : AppState) (params : Params) (now woken : Nat) :
    workDelays platform app params now woken =
      some ((app.baseDelayMs + extraMs params) % 2 ^ 64,
        (app.baseDelayMs + extraMs params) % 2 ^ 64) := by
  rw [workDelays_eq, release]
  rfl

theorem workDelays_of_lt {platform : Platform F} (release : platform.profile = .release)
    {app : AppState} {params : Params} (fits : app.baseDelayMs + extraMs params < 2 ^ 64)
    (now woken : Nat) : workDelays platform app params now woken =
      some (app.baseDelayMs + extraMs params, app.baseDelayMs + extraMs params) := by
  rw [workDelays_release release, Nat.mod_eq_of_lt fits]

/-- The worker keeps to the delay it is asked for exactly when base delay and parameter together
    are below 2^64. -/
theorem delay_kept_iff (platform : Platform F) (release : platform.profile = .release)
    (podName baseDelayMs : String) (base : Nat) (parsed : parseU64 baseDelayMs = some base)
    (params : Params) (now woken : Nat) :
    DelayKept platform (.ofEnv podName (some baseDelayMs)) params now woken ↔
      base + extraMs params < 2 ^ 64 := by
  have own : (AppState.ofEnv podName (some baseDelayMs)).baseDelayMs = base := by
    simp only [AppState.ofEnv, Option.bind_some, parsed, Option.getD_some]
  have whole := workDelays_release release (.ofEnv podName (some baseDelayMs)) params now woken
  constructor
  · intro kept
    have exact := kept.exact
    rw [whole, Option.some.injEq, Prod.mk.injEq] at exact
    rw [← own, ← exact.1]
    exact Nat.mod_lt _ (Nat.two_pow_pos 64)
  · intro fits
    rw [← own] at fits
    have exact := workDelays_of_lt release fits now woken
    refine ⟨exact, ⟨_, exact, Nat.le_add_right _ _⟩, ?_⟩
    intro params' less
    have fits' : (AppState.ofEnv podName (some baseDelayMs)).baseDelayMs + extraMs params' <
        2 ^ 64 := by omega
    exact ⟨_, _, exact, workDelays_of_lt release fits' now woken, Nat.add_le_add_left less _⟩

/-- The slow worker, asked for the longer of the two delays of the load tests. -/
theorem delay_kept_slow_worker :
    DelayKept milliseconds (.ofEnv "dlb-worker-slow" (some "300")) [("ms", "500")] 0 800 :=
  (delay_kept_iff milliseconds rfl "dlb-worker-slow" "300" 300 (by decide +kernel)
    [("ms", "500")] 0 800).mpr (by decide +kernel)

/-- The longest delay that can be asked for. -/
def longest : Params := [("ms", "18446744073709551615")]

/-- It takes one millisecond off a base delay of 50, and one of 1 is not slept at all. -/
theorem longest_delay_wraps :
    workDelays milliseconds (.ofEnv "worker" (some "50")) longest 0 49 = some (49, 49) ∧
      workDelays milliseconds (.ofEnv "worker" (some "1")) longest 0 0 = some (0, 0) ∧
      ¬ DelayKept milliseconds (.ofEnv "worker" (some "50")) longest 0 49 := by
  have wraps : workDelays milliseconds (.ofEnv "worker" (some "50")) longest 0 49 =
      some (49, 49) := by
    decide +kernel
  refine ⟨wraps, by decide +kernel, ?_⟩
  intro kept
  obtain ⟨ms, same, base_le⟩ := kept.base_le
  rw [wraps, Option.some.injEq, Prod.mk.injEq] at same
  have base : (AppState.ofEnv "worker" (some "50")).baseDelayMs = 50 := by
    decide +kernel
  rw [base, ← same.1] at base_le
  omega

end PcdLab.Worker
