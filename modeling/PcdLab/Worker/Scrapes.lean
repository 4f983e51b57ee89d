import Mathlib.Data.List.Count
import PcdLab.Worker.Recording

/-! # What the metrics of the worker account for

The gauge, the histogram and the counter are read while requests come and go. Of each
request they tell how far it has come, and a handler which is dropped or panics stays in the
gauge. A scrape reads them one after the other, so that it may see states which never were.
-/

namespace PcdLab.Worker

open Lib Lib.Runs Shared.Socket
open scoped List

variable {F : Type} {platform : Platform F} {app : AppState}

def Move.starts : Recording F → Move F → Bool
  | _, .start _ => true
  | _, _ => false

/-- A handler ends without leaving the gauge: its client goes away, or it panics. -/
def Recording.leaks (platform : Platform F) (app : AppState) (s : Recording F) : Move F → Bool
  | .drop _ => true
  | .compute i now =>
      match s.stages[i]? with
      | some (.running (.entered request)) => (compute platform app now request).isNone
      | _ => false
  | _ => false

/-- In the histogram, and not yet in the counter. -/
def Stage.between : Stage F → Option (String × String)
  | .observed endpoint _ => some (endpoint, "200")
  | _ => none

def between (stages : List (Stage F)) : List (String × String) :=
  stages.filterMap Stage.between

/-- In the counter, and not yet responding. -/
def Stage.answering : Stage F → Option (String × String)
  | .counted endpoint _ => some (endpoint, "200")
  | _ => none

def answering (stages : List (Stage F)) : List (String × String) :=
  stages.filterMap Stage.answering

def Body.endpoint : Body F → String
  | .get _ _ => "/get"
  | .work _ _ _ => "/work"
  | .cpu _ _ _ => "/cpu"

/-- The gauge is ahead of the handlers by those which leaked. -/
def Drifts (leaked : Nat) (s : Recording F) : Prop :=
  s.metrics.activeRequests = some (((handlers s.stages).length + leaked : Nat) : Int)

theorem drifts_step {s t : Recording F} {move : Move F} {leaked : Nat}
    (drifts : Drifts leaked s) (moved : Moved platform app s move t) :
    Drifts (leaked + (s.leaks platform app move).toNat) t := by
  unfold Drifts at drifts ⊢
  cases moved with
  | start request =>
      simp only at drifts
      simp only [activeInc, drifts, Recording.leaks]
      simp
      omega
  | @compute m before after sent request now =>
      simp only at drifts
      simp only [Recording.leaks, getElem?_between, drifts]
      cases compute platform app now request with
      | none => simp; omega
      | some next => simp
  | wake now result woken => simpa [Recording.leaks] using drifts
  | drop waits =>
      simp only at drifts
      simp only [Recording.leaks, drifts]
      simp
      omega
  | dec endpoint body =>
      simp only at drifts
      simp only [activeDec, Recording.leaks, drifts]
      simp
      omega
  | observe endpoint body => simpa [durationObserve, Recording.leaks] using drifts
  | count endpoint body => simpa [totalInc, Recording.leaks] using drifts
  | answer endpoint body => simpa [Recording.leaks] using drifts

/-- Whoever has come in is in the gauge, in the histogram, or on the way between them. -/
def Admits (started : Nat) (s : Recording F) : Prop :=
  ∃ gauge durations, s.metrics.activeRequests = some gauge ∧
    s.metrics.requestDuration = some durations ∧
    gauge + ((unobserved s.stages).length + durations.length : Nat) = (started : Int)

theorem admits_step {s t : Recording F} {move : Move F} {started : Nat}
    (admits : Admits started s) (moved : Moved platform app s move t) :
    Admits (started + (move.starts s).toNat) t := by
  obtain ⟨gauge, durations, gauged, observed, sum⟩ := admits
  cases moved with
  | start request =>
      simp only at gauged sum
      refine ⟨gauge + 1, durations, by simp [activeInc, gauged], observed, ?_⟩
      simp [Move.starts] at sum ⊢
      omega
  | @compute m before after sent request now =>
      refine ⟨gauge, durations, gauged, observed, ?_⟩
      cases compute platform app now request with
      | none => simpa [Move.starts] using sum
      | some next => simpa [Move.starts] using sum
  | wake now result woken =>
      refine ⟨gauge, durations, gauged, observed, ?_⟩
      simpa [Move.starts] using sum
  | drop waits =>
      refine ⟨gauge, durations, gauged, observed, ?_⟩
      simpa [Move.starts] using sum
  | dec endpoint body =>
      simp only at gauged sum
      refine ⟨gauge - 1, durations, by simp [activeDec, gauged], observed, ?_⟩
      simp [Move.starts] at sum ⊢
      omega
  | observe endpoint body =>
      simp only at observed sum
      refine ⟨gauge, durations ++ [endpoint], gauged, by simp [durationObserve, observed], ?_⟩
      simp [Move.starts] at sum ⊢
      omega
  | count endpoint body =>
      refine ⟨gauge, durations, gauged, observed, ?_⟩
      simpa [Move.starts] using sum
  | answer endpoint body =>
      refine ⟨gauge, durations, gauged, observed, ?_⟩
      simpa [Move.starts] using sum

/-- The body of a response tells the route which it is counted under. -/
def Stage.Honest : Stage F → Prop
  | .running (.ready endpoint body) | .leaving endpoint body | .observed endpoint body
  | .counted endpoint body => body.endpoint = endpoint
  | .running _ => True

theorem compute_honest {now : Nat} {request : Request} {next : Handler F}
    (computed : compute platform app now request = some next) : (Stage.running next).Honest := by
  cases request with
  | get =>
      cases computed
      rfl
  | work params =>
      obtain ⟨totalMs, -, rfl⟩ := Option.map_eq_some_iff.mp computed
      split
      · trivial
      · rfl
  | cpu params =>
      obtain ⟨duration, -, computed⟩ := Option.bind_eq_some_iff.mp computed
      obtain ⟨deadline, -, rfl⟩ := Option.map_eq_some_iff.mp computed
      trivial

theorem wake_honest {now : Nat} {result : Option F} {handler awake : Handler F}
    (woken : handler.wake platform app now result = some awake) :
    (Stage.running awake).Honest := by
  cases handler with
  | entered | ready => cases woken
  | sleeping totalMs =>
      cases woken
      rfl
  | spinning duration deadline =>
      obtain ⟨-, same⟩ := Option.ite_none_right_eq_some.mp woken
      cases same
      rfl

/-- The entry of the counter which a response stands for. -/
def Response.entry (response : Response F) : String × String := (response.body.endpoint, "200")

/-- The counter follows the histogram, and the responses follow the counter, as long as the
    name of the pod can be put in a header. -/
structure Agrees (platform : Platform F) (app : AppState) (s : Recording F) : Prop where
  totals : Completes s.metrics.requestsTotal (between s.stages)
    (s.metrics.requestDuration.map fun durations => durations.map (·, "200"))
  responses : platform.headerValue app.podName = true →
    Completes (some (s.responses.map Response.entry)) (answering s.stages) s.metrics.requestsTotal
  silent : platform.headerValue app.podName = false → s.responses = []
  honest : ∀ stage ∈ s.stages, stage.Honest

section

variable (before after : List (Stage F)) (handler : Handler F) (endpoint : String) (body : Body F)

@[simp] theorem between_nil : between ([] : List (Stage F)) = [] := rfl

@[simp] theorem between_append : between (before ++ after) = between before ++ between after :=
  List.filterMap_append

@[simp] theorem between_running :
    between (.running handler :: after) = between after := rfl

@[simp] theorem between_leaving :
    between (.leaving endpoint body :: after) = between after := rfl

@[simp] theorem between_observed :
    between (.observed endpoint body :: after) = (endpoint, "200") :: between after := rfl

@[simp] theorem between_counted :
    between (.counted endpoint body :: after) = between after := rfl

@[simp] theorem answering_nil : answering ([] : List (Stage F)) = [] := rfl

@[simp] theorem answering_append :
    answering (before ++ after) = answering before ++ answering after :=
  List.filterMap_append

@[simp] theorem answering_running :
    answering (.running handler :: after) = answering after := rfl

@[simp] theorem answering_leaving :
    answering (.leaving endpoint body :: after) = answering after := rfl

@[simp] theorem answering_observed :
    answering (.observed endpoint body :: after) = answering after := rfl

@[simp] theorem answering_counted :
    answering (.counted endpoint body :: after) = (endpoint, "200") :: answering after := rfl

end

theorem honest_replaced {before after : List (Stage F)} {x y : Stage F}
    (honest : ∀ stage ∈ before ++ x :: after, stage.Honest) (new : y.Honest) :
    ∀ stage ∈ before ++ y :: after, stage.Honest := by
  intro stage member
  rcases List.mem_append.mp member with front | back
  · exact honest stage (List.mem_append_left _ front)
  · rcases List.mem_cons.mp back with rfl | back
    · exact new
    · exact honest stage (List.mem_append_right _ (List.mem_cons_of_mem _ back))

theorem honest_removed {before after : List (Stage F)} {x : Stage F}
    (honest : ∀ stage ∈ before ++ x :: after, stage.Honest) :
    ∀ stage ∈ before ++ after, stage.Honest := by
  intro stage member
  apply honest
  rcases List.mem_append.mp member with front | back
  · exact List.mem_append_left _ front
  · exact List.mem_append_right _ (List.mem_cons_of_mem _ back)

/-- Handlers change in front of the counter, and what has been counted stays. -/
theorem Agrees.elsewhere {s : Recording F} (agrees : Agrees platform app s) {m : Metrics}
    {stages : List (Stage F)} (totals : Completes m.requestsTotal (between stages)
      (m.requestDuration.map fun durations => durations.map (·, "200")))
    (counter : m.requestsTotal = s.metrics.requestsTotal)
    (same : answering stages = answering s.stages) (honest : ∀ stage ∈ stages, stage.Honest) :
    Agrees platform app ⟨m, stages, s.responses⟩ := by
  refine ⟨totals, ?_, agrees.silent, honest⟩
  simp only [counter, same]
  exact agrees.responses

theorem agrees_step {s t : Recording F} {move : Move F} (agrees : Agrees platform app s)
    (moved : Moved platform app s move t) : Agrees platform app t := by
  have totals := agrees.totals
  have honest := agrees.honest
  cases moved with
  | start request =>
      refine agrees.elsewhere (by simpa [activeInc] using totals) rfl (by simp) ?_
      intro stage member
      rcases List.mem_append.mp member with front | new
      · exact honest stage front
      · cases List.mem_singleton.mp new
        trivial
  | @compute m before after sent request now =>
      cases computed : compute platform app now request with
      | none =>
          refine agrees.elsewhere (by simpa using totals) rfl (by simp) ?_
          simpa using honest_removed honest
      | some next =>
          refine agrees.elsewhere (by simpa using totals) rfl (by simp) ?_
          simpa using honest_replaced honest (compute_honest computed)
  | wake now result woken =>
      exact agrees.elsewhere (by simpa using totals) rfl (by simp)
        (honest_replaced honest (wake_honest woken))
  | drop waits =>
      exact agrees.elsewhere (by simpa using totals) rfl (by simp) (honest_removed honest)
  | dec endpoint body =>
      have same := honest (.running (.ready endpoint body)) (by simp)
      exact agrees.elsewhere (by simpa [activeDec] using totals) rfl (by simp)
        (honest_replaced honest same)
  | @observe m before after sent endpoint body =>
      have same := honest (.leaving endpoint body) (by simp)
      refine agrees.elsewhere ?_ rfl (by simp) (honest_replaced honest same)
      have earlier : Completes m.requestsTotal (between before ++ between after)
          (m.requestDuration.map fun durations => durations.map (·, "200")) := by
        simpa using totals
      simpa [durationObserve, Function.comp_def] using earlier.leave [(endpoint, "200")]
  | @count m before after sent endpoint body =>
      have same := honest (.observed endpoint body) (by simp)
      refine ⟨?_, ?_, agrees.silent, honest_replaced honest same⟩
      · have later : Completes m.requestsTotal
            (between before ++ [(endpoint, "200")] ++ between after)
            (m.requestDuration.map fun durations => durations.map (·, "200")) := by
          simpa using totals
        simpa [totalInc] using later.arrive
      · intro named
        have earlier : Completes (some (sent.map Response.entry))
            (answering before ++ answering after) m.requestsTotal := by
          simpa using agrees.responses named
        simpa [totalInc] using earlier.leave [(endpoint, "200")]
  | @answer m before after sent endpoint body =>
      have same : body.endpoint = endpoint := honest (.counted endpoint body) (by simp)
      refine ⟨by simpa using totals, ?_, ?_, honest_removed honest⟩
      · intro named
        have later : Completes (some (sent.map Response.entry))
            (answering before ++ [(endpoint, "200")] ++ answering after) m.requestsTotal := by
          simpa using agrees.responses named
        simpa [jsonResponse, named, Response.entry, same] using later.arrive
      · intro unnamed
        have unsent : sent = [] := agrees.silent unnamed
        simp [jsonResponse, unnamed, unsent]

theorem agrees_exec {moves : List (Move F)} {s : Recording F}
    (ran : exec (Recording.step platform app) .start moves = some s) : Agrees platform app s := by
  have agrees : Agrees platform app .start := by
    refine ⟨⟨[], [], rfl, rfl, .refl _⟩, ?_, fun _ => rfl,
      fun stage member => absurd member List.not_mem_nil⟩
    exact fun _ => ⟨[], [], rfl, rfl, .refl _⟩
  exact exec_invariant (Agrees platform app)
    (fun _ _ _ holds moved => agrees_step holds (moved_of_step moved)) agrees ran

/-- At every moment of every run: the gauge is ahead of the handlers in front of `record_done`
    by exactly those that were dropped or panicked; gauge and histogram together have all
    requests that came in but those between their first two updates; the counter has those of
    the histogram but the ones between the last two; and the responses are those the counter
    has but the ones between the counter and their response, or none at all when the name of the
    pod cannot be put in a header. -/
theorem metrics_account (platform : Platform F) (app : AppState) (moves : List (Move F))
    (s : Recording F) (ran : exec (Recording.step platform app) .start moves = some s) :
    ∃ gauge durations totals, s.metrics = ⟨some gauge, some durations, some totals⟩ ∧
      gauge = (handlers s.stages).length +
        tally (Recording.step platform app) (Recording.leaks platform app) .start moves ∧
      gauge + (unobserved s.stages).length + durations.length =
        tally (Recording.step platform app) (fun s move => move.starts s) .start moves ∧
      durations.map (·, "200") ~ totals ++ between s.stages ∧
      (platform.headerValue app.podName = true →
        totals ~ s.responses.map Response.entry ++ answering s.stages) ∧
      (platform.headerValue app.podName = false → s.responses = []) := by
  have drifts : Drifts 0 (Recording.start : Recording F) := rfl
  have admits : Admits 0 (Recording.start : Recording F) := ⟨0, [], rfl, rfl, rfl⟩
  have drifted : Drifts (0 + tally (Recording.step platform app)
      (Recording.leaks platform app) .start moves) s :=
    exec_tally Drifts (fun _ _ _ _ holds moved => drifts_step holds (moved_of_step moved))
      drifts ran
  have admitted : Admits (0 + tally (Recording.step platform app)
      (fun s move => move.starts s) .start moves) s :=
    exec_tally Admits (fun _ _ _ _ holds moved => admits_step holds (moved_of_step moved))
      admits ran
  have agreed := agrees_exec ran
  obtain ⟨gauge, durations, gauged, observed, sum⟩ := admitted
  obtain ⟨totals, entries, counted, noted, same⟩ := agreed.totals
  rw [observed, Option.map_some, Option.some.injEq] at noted
  refine ⟨gauge, durations, totals, ?_, ?_, ?_, noted ▸ same, ?_, agreed.silent⟩
  · rw [← gauged, ← observed, ← counted]
  · unfold Drifts at drifted
    rw [gauged, Option.some.injEq] at drifted
    omega
  · omega
  · intro named
    obtain ⟨_, _, sent, there, answered⟩ := agreed.responses named
    cases Option.some.inj sent
    cases Option.some.inj (counted.symm.trans there)
    exact answered

theorem metrics_account_interleaved : ∃ (s : Recording Int) (gauge : Int)
    (durations : List String), exec (Recording.step milliseconds ⟨"worker", 0⟩) .start
      interleaved = some s ∧ s.metrics.activeRequests = some gauge ∧
    s.metrics.requestDuration = some durations ∧
      gauge + (unobserved s.stages).length + durations.length = 2 := by
  obtain ⟨s, ran⟩ := interleaved_runs
  obtain ⟨gauge, durations, totals, metrics, -, sum, -⟩ :=
    metrics_account milliseconds ⟨"worker", 0⟩ interleaved s ran
  have two : tally (Recording.step milliseconds ⟨"worker", 0⟩) (fun s move => move.starts s)
      .start interleaved = 2 := by
    decide +kernel
  rw [two] at sum
  refine ⟨s, gauge, durations, ran, ?_, ?_, sum⟩
  · rw [metrics]
  · rw [metrics]

/-! ## Scrapes -/

/-- The entries of the metrics stay, and new ones come behind them. -/
def Grows (early late : Metrics) : Prop :=
  (∀ durations, early.requestDuration = some durations →
    ∃ later, late.requestDuration = some later ∧ durations <+: later) ∧
  ∀ totals, early.requestsTotal = some totals →
    ∃ later, late.requestsTotal = some later ∧ totals <+: later

theorem Grows.refl (m : Metrics) : Grows m m :=
  ⟨fun durations same => ⟨durations, same, List.prefix_rfl⟩,
    fun totals same => ⟨totals, same, List.prefix_rfl⟩⟩

theorem grows_step {m : Metrics} {s t : Recording F} {move : Move F} (grows : Grows m s.metrics)
    (moved : Moved platform app s move t) : Grows m t.metrics := by
  obtain ⟨observing, counting⟩ := grows
  cases moved with
  | start | compute | wake | drop | dec | answer => exact ⟨observing, counting⟩
  | observe endpoint body =>
      refine ⟨?_, counting⟩
      intro durations same
      obtain ⟨later, now, front⟩ := observing durations same
      simp only at now
      exact ⟨later ++ [endpoint], by simp [durationObserve, now],
        front.trans (List.prefix_append later _)⟩
  | count endpoint body =>
      refine ⟨observing, ?_⟩
      intro totals same
      obtain ⟨later, now, front⟩ := counting totals same
      simp only at now
      exact ⟨later ++ [(endpoint, "200")], by simp [totalInc, now],
        front.trans (List.prefix_append later _)⟩

/-- In each endpoint's numbers: what is in the histogram is in the counter, or on the way. -/
theorem Agrees.endpoint_count {s : Recording F} (agrees : Agrees platform app s) :
    ∃ durations totals, s.metrics.requestDuration = some durations ∧
      s.metrics.requestsTotal = some totals ∧ ∀ endpoint, durations.count endpoint =
        totals.count (endpoint, "200") + (between s.stages).count (endpoint, "200") := by
  obtain ⟨totals, entries, counted, noted, same⟩ := agrees.totals
  obtain ⟨durations, observed, rfl⟩ := Option.map_eq_some_iff.mp noted
  refine ⟨durations, totals, observed, counted, ?_⟩
  intro endpoint
  have injective : Function.Injective fun name : String => (name, "200") := by
    intro a b same
    exact congrArg Prod.fst same
  rw [← List.count_map_of_injective durations _ injective endpoint,
    same.count_eq (endpoint, "200"), List.count_append]

/-- A scrape reads one metric after the other while handlers go on. What it has read of an
    endpoint is never more in the counter than in the histogram if it reads the counter first,
    and is more in the histogram than in the counter by at most the handlers between their last
    two updates if it reads the histogram first. -/
theorem scrapes_agree (platform : Platform F) (app : AppState) (moves later : List (Move F))
    (s t : Recording F) (ran : exec (Recording.step platform app) .start moves = some s)
    (went : exec (Recording.step platform app) s later = some t) :
    ∃ durations totals durations' totals',
      s.metrics.requestDuration = some durations ∧ s.metrics.requestsTotal = some totals ∧
      t.metrics.requestDuration = some durations' ∧ t.metrics.requestsTotal = some totals' ∧
      ∀ endpoint, totals.count (endpoint, "200") ≤ durations'.count endpoint ∧
        durations.count endpoint ≤
          totals'.count (endpoint, "200") + (between t.stages).count (endpoint, "200") := by
  obtain ⟨durations, totals, observed, counted, early⟩ := (agrees_exec ran).endpoint_count
  obtain ⟨durations', totals', observed', counted', late⟩ :=
    (agrees_exec (exec_append ran went)).endpoint_count
  have grows : Grows s.metrics t.metrics :=
    exec_invariant (fun u => Grows s.metrics u.metrics)
      (fun _ _ _ holds moved => grows_step holds (moved_of_step moved)) (Grows.refl _) went
  obtain ⟨_, same, observing⟩ := grows.1 durations observed
  cases observed'.symm.trans same
  obtain ⟨_, same, counting⟩ := grows.2 totals counted
  cases counted'.symm.trans same
  refine ⟨durations, totals, durations', totals', observed, counted, observed', counted', ?_⟩
  intro endpoint
  have more := observing.sublist.count_le endpoint
  have told := counting.sublist.count_le (endpoint, "200")
  have before := early endpoint
  have after := late endpoint
  constructor
  · omega
  · omega

theorem scrapes_agree_interleaved : ∃ (s t : Recording Int) (totals : List (String × String))
    (durations : List String),
    exec (Recording.step milliseconds ⟨"worker", 0⟩) .start (interleaved.take 9) = some s ∧
    exec (Recording.step milliseconds ⟨"worker", 0⟩) s (interleaved.drop 9) = some t ∧
    s.metrics.requestsTotal = some totals ∧ t.metrics.requestDuration = some durations ∧
      totals.count ("/get", "200") ≤ durations.count "/get" := by
  have both : ∃ p : Recording Int × Recording Int,
      ((exec (Recording.step milliseconds ⟨"worker", 0⟩) .start (interleaved.take 9)).bind fun s =>
        (exec (Recording.step milliseconds ⟨"worker", 0⟩) s (interleaved.drop 9)).map fun t =>
          (s, t)) = some p :=
    Option.isSome_iff_exists.mp (by decide +kernel)
  obtain ⟨p, replayed⟩ := both
  obtain ⟨s, ran, rest⟩ := Option.bind_eq_some_iff.mp replayed
  obtain ⟨t, went, -⟩ := Option.map_eq_some_iff.mp rest
  obtain ⟨_, totals, durations, _, -, counted, observed, -, each⟩ :=
    scrapes_agree milliseconds ⟨"worker", 0⟩ _ _ s t ran went
  exact ⟨s, t, totals, durations, ran, went, counted, observed, (each "/get").1⟩

end PcdLab.Worker
