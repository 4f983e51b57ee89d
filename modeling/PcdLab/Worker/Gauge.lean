import PcdLab.Worker.Handlers

/-! # The gauge of active requests

The gauge goes up when a handler starts and down when it records that it is done. A
handler which ends in between, because it panics or is dropped while it waits, is
never counted out again. These are the only ways in which the gauge can go wrong.
-/

namespace PcdLab.Worker

open Lib Lib.Runs Shared.Socket

variable {F : Type} {platform : Platform F} {app : AppState}

/-- The gauge shows the number of handlers which have started and not yet ended. -/
def Exact (s : Pod F) : Prop := s.metrics.activeRequests = some (s.live.length : Int)

/-- The requests whose handlers panic before their await: `/work` when its addition overflows
    in a debug build, `/cpu` when its duration or its deadline is out of range. -/
def Panics (platform : Platform F) (app : AppState) (now : Nat) : Request → Prop
  | .get => False
  | .work params => platform.profile = .debug ∧ 2 ^ 64 ≤ app.baseDelayMs + extraMs params
  | .cpu params => ∀ duration, platform.fromSecsF64 (durationSecs platform params) = some duration →
      platform.addDuration now duration = none

theorem compute_eq_none (now : Nat) (request : Request) :
    compute platform app now request = none ↔ Panics platform app now request := by
  cases request with
  | get => simp only [compute, Panics, reduceCtorEq]
  | work params =>
      simp only [compute, handleWork, Panics, Option.map_eq_none_iff]
      cases platform.profile with
      | debug => simp [addU64]
      | release => simp [addU64]
  | cpu params =>
      simp only [compute, handleCpu, Panics, Option.bind_eq_none_iff, Option.map_eq_none_iff]

/-- A handler ends without counting itself out: it is dropped, or panics before its await. -/
def Leak (platform : Platform F) (app : AppState) (s : Pod F) : Event F → Prop
  | .drop _ => True
  | .compute i now =>
      ∃ request, s.live[i]? = some (.entered request) ∧ Panics platform app now request
  | _ => False

/-- The gauge is ahead of the handlers by `excess`. -/
def Counts (excess : Nat) (s : Pod F) : Prop :=
  s.metrics.activeRequests = some (s.live.length + excess : Int)

theorem exact_iff {s : Pod F} {excess : Nat} (counts : Counts excess s) :
    Exact s ↔ excess = 0 := by
  unfold Exact
  unfold Counts at counts
  rw [counts, Option.some.injEq]
  omega

theorem length_eraseIdx {live : List (Handler F)} {i : Nat} {h : Handler F}
    (here : live[i]? = some h) : (live.eraseIdx i).length + 1 = live.length := by
  obtain ⟨inside, -⟩ := List.getElem?_eq_some_iff.mp here
  rw [List.length_eraseIdx_of_lt inside]
  omega

/-- One step takes the gauge along with the handlers, except that a leak leaves it behind. -/
theorem counts_step {s t : Pod F} {e : Event F} {excess : Nat} (counts : Counts excess s)
    (moved : step platform app s e = some t) :
    (Leak platform app s e ∧ Counts (excess + 1) t) ∨
      (¬ Leak platform app s e ∧ Counts excess t) := by
  unfold Counts at counts ⊢
  cases e with
  | start request =>
      cases moved
      right
      refine ⟨id, ?_⟩
      simp only [activeInc, counts, Option.map_some, List.length_append, List.length_singleton,
        Option.some.injEq]
      omega
  | compute i now =>
      simp only [step] at moved
      split at moved
      · rename_i request here
        split at moved
        · rename_i handler computed
          cases moved
          right
          refine ⟨?_, ?_⟩
          · rintro ⟨other, found, panics⟩
            cases here.symm.trans found
            cases computed.symm.trans ((compute_eq_none now request).mpr panics)
          · simp only [List.length_set, counts]
        · rename_i panics
          cases moved
          left
          refine ⟨⟨request, here, (compute_eq_none now request).mp panics⟩, ?_⟩
          have shorter := length_eraseIdx here
          simp only [counts, Option.some.injEq]
          omega
      · cases moved
  | wake i now result =>
      obtain ⟨handler, -, rfl⟩ := Option.map_eq_some_iff.mp moved
      right
      refine ⟨id, ?_⟩
      simp only [List.length_set, counts]
  | finish i =>
      simp only [step] at moved
      split at moved
      · rename_i endpoint body here
        cases moved
        right
        refine ⟨id, ?_⟩
        have shorter := length_eraseIdx here
        simp only [recordDone, counts, Option.map_some, Option.some.injEq]
        omega
      · cases moved
  | drop i =>
      simp only [step, Option.ite_none_right_eq_some] at moved
      obtain ⟨waits, same⟩ := moved
      cases same
      left
      refine ⟨trivial, ?_⟩
      cases here : s.live[i]? with
      | none => simp [here] at waits
      | some handler =>
          have shorter := length_eraseIdx here
          simp only [counts, Option.some.injEq]
          omega

/-- The gauge is exact at the end of exactly those runs in which no handler was dropped at its
    await, and none panicked before it. -/
theorem gauge_exact_iff (platform : Platform F) (app : AppState) (events : List (Event F))
    (s : Pod F) (ran : exec (step platform app) .start events = some s) :
    Exact s ↔ ¬ Somewhere (step platform app) (Leak platform app) .start events := by
  have start : ∃ excess, Counts excess (Pod.start : Pod F) := ⟨0, rfl⟩
  have exact_start : Exact (Pod.start : Pod F) := rfl
  have preserved : ∀ (u : Pod F) e v, (∃ excess, Counts excess u) →
      step platform app u e = some v → ∃ excess, Counts excess v := by
    rintro u e v ⟨excess, counts⟩ moved
    cases counts_step counts moved with
    | inl leaked => exact ⟨_, leaked.2⟩
    | inr kept => exact ⟨_, kept.2⟩
  have raised : ∀ (u : Pod F) e v, (∃ excess, Counts excess u) →
      step platform app u e = some v → (¬ Exact v ↔ ¬ Exact u ∨ Leak platform app u e) := by
    rintro u e v ⟨excess, counts⟩ moved
    rw [exact_iff counts]
    cases counts_step counts moved with
    | inl leaked =>
        rw [exact_iff leaked.2]
        simp [leaked.1]
    | inr kept =>
        rw [exact_iff kept.2]
        simp [kept.1]
  have flagged := flag_iff_somewhere (fun s => ∃ excess, Counts excess s) (fun s => ¬ Exact s)
    preserved raised start ran
  rw [← not_iff_not, flagged]
  simp [exact_start]

/-- A platform on which numbers are milliseconds and durations nanoseconds. -/
def milliseconds : Platform Int where
  profile := .release
  parseF64 text := text.toInt?.map (1000 * ·)
  tenth := 100
  zero := 0
  fromSecsF64 n := if 0 ≤ n ∧ n < 2 ^ 64 * 1000 then some (n.toNat * 1000000) else none
  addDuration instant duration :=
    if instant + duration < 2 ^ 63 * 1000000000 then some (instant + duration) else none
  headerValue text := text.toList.all fun c => (32 ≤ c.toNat ∧ c.toNat < 127) ∨ c = '\t'

/-- `/work?ms=50` and `/cpu` overlap, and both respond. -/
def overlapping : List (Event Int) :=
  [.start (.work [("ms", "50")]), .compute 0 0, .start (.cpu []), .compute 1 1,
    .wake 0 50 none, .finish 0, .wake 0 200000000 (some 1618), .finish 0]

theorem gauge_exact_overlapping : ∃ s : Pod Int,
    exec (step milliseconds ⟨"worker", 0⟩) .start overlapping = some s ∧
      ¬ Somewhere (step milliseconds ⟨"worker", 0⟩) (Leak milliseconds ⟨"worker", 0⟩) .start
        overlapping := by
  have replayed : ((exec (step milliseconds ⟨"worker", 0⟩) .start overlapping).map fun s =>
      (s.metrics.activeRequests, s.live.length)) = some (some 0, 0) := by
    decide +kernel
  obtain ⟨s, ran, ends⟩ := Option.map_eq_some_iff.mp replayed
  simp only [Prod.mk.injEq] at ends
  obtain ⟨gauge, idle⟩ := ends
  have exact : Exact s := by
    rw [Exact, gauge, idle]
    rfl
  exact ⟨s, ran, (gauge_exact_iff milliseconds ⟨"worker", 0⟩ overlapping s ran).mp exact⟩

/-- The client of `/work?ms=50` goes away during the sleep. -/
def disconnected : List (Event Int) :=
  [.start (.work [("ms", "50")]), .compute 0 0, .drop 0]

theorem dropped_handler_counted : ¬ ∀ (events : List (Event Int)) (s : Pod Int),
    exec (step milliseconds ⟨"worker", 0⟩) .start events = some s → Exact s := by
  intro always
  have replayed : ((exec (step milliseconds ⟨"worker", 0⟩) .start disconnected).map fun s =>
      (s.metrics.activeRequests, s.live.length)) = some (some 1, 0) := by
    decide +kernel
  obtain ⟨s, ran, ends⟩ := Option.map_eq_some_iff.mp replayed
  simp only [Prod.mk.injEq] at ends
  obtain ⟨gauge, idle⟩ := ends
  have exact := always disconnected s ran
  rw [Exact, gauge, idle] at exact
  cases exact

end PcdLab.Worker
