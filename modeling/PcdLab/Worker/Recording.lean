import Mathlib.Data.List.Perm.Basic
import Mathlib.Data.Option.Basic
import PcdLab.Worker.Gauge

/-! # Recording that a request is done

`record_done` updates three metrics one after the other, each update is atomic only by
itself, and the response is built behind it. Here the steps of other handlers may come between
them, and a scrape may read the metrics there. Nothing new comes of it: up to the order of the
entries, the worker does what it does when all this is one step.
-/

namespace PcdLab.Worker

open Lib Lib.Runs Shared.Socket
open scoped List

variable {F : Type} {platform : Platform F} {app : AppState}

/-! ## The three updates -/

def activeDec (m : Metrics) : Metrics :=
  { m with activeRequests := m.activeRequests.map (· - 1) }

def durationObserve (m : Metrics) (endpoint : String) : Metrics :=
  { m with requestDuration := m.requestDuration.map (· ++ [endpoint]) }

def totalInc (m : Metrics) (endpoint : String) : Metrics :=
  { m with requestsTotal := m.requestsTotal.map (· ++ [(endpoint, "200")]) }

theorem recordDone_eq (m : Metrics) (endpoint : String) :
    recordDone m endpoint = totalInc (durationObserve (activeDec m) endpoint) endpoint := rfl

/-- Where a handler is: still in front of `record_done`, behind its first or second update, or
    behind the third and in front of its response. -/
inductive Stage (F : Type) where
  | running (handler : Handler F)
  | leaving (endpoint : String) (body : Body F)
  | observed (endpoint : String) (body : Body F)
  | counted (endpoint : String) (body : Body F)
  deriving Repr, DecidableEq

def Stage.handler : Stage F → Option (Handler F)
  | .running handler => some handler
  | _ => none

/-- Counted out of the gauge, and not yet in the histogram. -/
def Stage.unobserved : Stage F → Option String
  | .leaving endpoint _ => some endpoint
  | _ => none

/-- Counted out of the gauge, and not yet in the counter. -/
def Stage.uncounted : Stage F → Option (String × String)
  | .leaving endpoint _ | .observed endpoint _ => some (endpoint, "200")
  | _ => none

/-- Counted out of the gauge, and not yet responding. -/
def Stage.unanswered : Stage F → Option (Body F)
  | .leaving _ body | .observed _ body | .counted _ body => some body
  | .running _ => none

structure Recording (F : Type) where
  metrics : Metrics
  stages : List (Stage F)
  responses : List (Response F)
  deriving Repr, DecidableEq

def Recording.start : Recording F := ⟨initMetrics, [], []⟩

/-- The steps of the handlers, numbered as they stand in the list of stages. -/
inductive Move (F : Type) where
  | start (request : Request)
  | compute (i now : Nat)
  | wake (i now : Nat) (result : Option F)
  | drop (i : Nat)
  | dec (i : Nat)
  | observe (i : Nat)
  | count (i : Nat)
  /-- The response is built, and goes out; or the handler panics. -/
  | answer (i : Nat)
  deriving Repr, DecidableEq

/-- A stage gives way to what comes behind it, if anything does. -/
def put (stages : List (Stage F)) (i : Nat) : Option (Stage F) → List (Stage F)
  | some next => stages.set i next
  | none => stages.eraseIdx i

def Recording.step (platform : Platform F) (app : AppState) (s : Recording F) :
    Move F → Option (Recording F)
  | .start request =>
      some { s with
        metrics := activeInc s.metrics
        stages := s.stages ++ [.running (.entered request)] }
  | .compute i now =>
      match s.stages[i]? with
      | some (.running (.entered request)) =>
          some { s with
            stages := put s.stages i ((compute platform app now request).map .running) }
      | _ => none
  | .wake i now result =>
      match s.stages[i]? with
      | some (.running handler) =>
          (handler.wake platform app now result).map fun awake =>
            { s with stages := put s.stages i (some (.running awake)) }
      | _ => none
  | .drop i =>
      match s.stages[i]? with
      | some (.running handler) =>
          if handler.waits then some { s with stages := put s.stages i none } else none
      | _ => none
  | .dec i =>
      match s.stages[i]? with
      | some (.running (.ready endpoint body)) =>
          some { s with
            metrics := activeDec s.metrics
            stages := put s.stages i (some (.leaving endpoint body)) }
      | _ => none
  | .observe i =>
      match s.stages[i]? with
      | some (.leaving endpoint body) =>
          some { s with
            metrics := durationObserve s.metrics endpoint
            stages := put s.stages i (some (.observed endpoint body)) }
      | _ => none
  | .count i =>
      match s.stages[i]? with
      | some (.observed endpoint body) =>
          some { s with
            metrics := totalInc s.metrics endpoint
            stages := put s.stages i (some (.counted endpoint body)) }
      | _ => none
  | .answer i =>
      match s.stages[i]? with
      | some (.counted _ body) =>
          some { s with
            stages := put s.stages i none
            responses := s.responses ++ (jsonResponse platform app.podName body).toList }
      | _ => none

/-! ## A handler in its place -/

theorem getElem?_between {α : Type} (before after : List α) (x : α) :
    (before ++ x :: after)[before.length]? = some x := by
  rw [List.getElem?_append_right (Nat.le_refl _), Nat.sub_self, List.getElem?_cons_zero]

theorem set_between {α : Type} (before after : List α) (x y : α) :
    (before ++ x :: after).set before.length y = before ++ y :: after := by
  rw [List.set_append_right _ _ (Nat.le_refl _), Nat.sub_self, List.set_cons_zero]

theorem eraseIdx_between {α : Type} (before after : List α) (x : α) :
    (before ++ x :: after).eraseIdx before.length = before ++ after := by
  rw [List.eraseIdx_append_of_length_le (Nat.le_refl _), Nat.sub_self, List.eraseIdx_cons_zero]

theorem put_between (before after : List (Stage F)) (x : Stage F) (next : Option (Stage F)) :
    put (before ++ x :: after) before.length next = before ++ next.toList ++ after := by
  cases next with
  | none => rw [put, eraseIdx_between, Option.toList_none, List.append_nil]
  | some y => rw [put, set_between, Option.toList_some, List.append_assoc, List.singleton_append]

theorem split_at {α : Type} {l : List α} {i : Nat} {x : α} (here : l[i]? = some x) :
    ∃ before after, l = before ++ x :: after ∧ i = before.length := by
  obtain ⟨inside, found⟩ := List.getElem?_eq_some_iff.mp here
  refine ⟨l.take i, l.drop (i + 1), ?_, ?_⟩
  · rw [← found, List.getElem_cons_drop, List.take_append_drop]
  · rw [List.length_take, Nat.min_eq_left (Nat.le_of_lt inside)]

/-- The moves, with the handler that moves in its place. -/
inductive Moved (platform : Platform F) (app : AppState) :
    Recording F → Move F → Recording F → Prop where
  | start {m stages sent} (request : Request) :
      Moved platform app ⟨m, stages, sent⟩ (.start request)
        ⟨activeInc m, stages ++ [.running (.entered request)], sent⟩
  | compute {m before after sent} (request : Request) (now : Nat) :
      Moved platform app ⟨m, before ++ .running (.entered request) :: after, sent⟩
        (.compute before.length now)
        ⟨m, before ++ ((compute platform app now request).map .running).toList ++ after, sent⟩
  | wake {m before after sent} {handler awake : Handler F} (now : Nat) (result : Option F) :
      handler.wake platform app now result = some awake →
      Moved platform app ⟨m, before ++ .running handler :: after, sent⟩
        (.wake before.length now result) ⟨m, before ++ .running awake :: after, sent⟩
  | drop {m before after sent} {handler : Handler F} :
      handler.waits = true →
      Moved platform app ⟨m, before ++ .running handler :: after, sent⟩
        (.drop before.length) ⟨m, before ++ after, sent⟩
  | dec {m before after sent} (endpoint : String) (body : Body F) :
      Moved platform app ⟨m, before ++ .running (.ready endpoint body) :: after, sent⟩
        (.dec before.length) ⟨activeDec m, before ++ .leaving endpoint body :: after, sent⟩
  | observe {m before after sent} (endpoint : String) (body : Body F) :
      Moved platform app ⟨m, before ++ .leaving endpoint body :: after, sent⟩
        (.observe before.length)
        ⟨durationObserve m endpoint, before ++ .observed endpoint body :: after, sent⟩
  | count {m before after sent} (endpoint : String) (body : Body F) :
      Moved platform app ⟨m, before ++ .observed endpoint body :: after, sent⟩
        (.count before.length)
        ⟨totalInc m endpoint, before ++ .counted endpoint body :: after, sent⟩
  | answer {m before after sent} (endpoint : String) (body : Body F) :
      Moved platform app ⟨m, before ++ .counted endpoint body :: after, sent⟩
        (.answer before.length)
        ⟨m, before ++ after, sent ++ (jsonResponse platform app.podName body).toList⟩

theorem moved_of_step {s t : Recording F} {move : Move F}
    (moved : Recording.step platform app s move = some t) : Moved platform app s move t := by
  obtain ⟨m, stages, sent⟩ := s
  cases move with
  | start request =>
      cases moved
      exact .start request
  | compute i now =>
      simp only [Recording.step] at moved
      split at moved
      · rename_i request here
        cases moved
        obtain ⟨before, after, rfl, rfl⟩ := split_at here
        rw [put_between]
        exact .compute request now
      · cases moved
  | wake i now result =>
      simp only [Recording.step] at moved
      split at moved
      · rename_i handler here
        obtain ⟨awake, woken, rfl⟩ := Option.map_eq_some_iff.mp moved
        obtain ⟨before, after, rfl, rfl⟩ := split_at here
        rw [put, set_between]
        exact .wake now result woken
      · cases moved
  | drop i =>
      simp only [Recording.step] at moved
      split at moved
      · rename_i handler here
        obtain ⟨waits, same⟩ := Option.ite_none_right_eq_some.mp moved
        cases same
        obtain ⟨before, after, rfl, rfl⟩ := split_at here
        rw [put, eraseIdx_between]
        exact .drop waits
      · cases moved
  | dec i =>
      simp only [Recording.step] at moved
      split at moved
      · rename_i endpoint body here
        cases moved
        obtain ⟨before, after, rfl, rfl⟩ := split_at here
        rw [put, set_between]
        exact .dec endpoint body
      · cases moved
  | observe i =>
      simp only [Recording.step] at moved
      split at moved
      · rename_i endpoint body here
        cases moved
        obtain ⟨before, after, rfl, rfl⟩ := split_at here
        rw [put, set_between]
        exact .observe endpoint body
      · cases moved
  | count i =>
      simp only [Recording.step] at moved
      split at moved
      · rename_i endpoint body here
        cases moved
        obtain ⟨before, after, rfl, rfl⟩ := split_at here
        rw [put, set_between]
        exact .count endpoint body
      · cases moved
  | answer i =>
      simp only [Recording.step] at moved
      split at moved
      · rename_i endpoint body here
        cases moved
        obtain ⟨before, after, rfl, rfl⟩ := split_at here
        rw [put, eraseIdx_between]
        exact .answer endpoint body
      · cases moved

theorem step_of_moved {s t : Recording F} {move : Move F} (moved : Moved platform app s move t) :
    Recording.step platform app s move = some t := by
  cases moved with
  | start request => rfl
  | compute request now => simp only [Recording.step, getElem?_between, put_between]
  | wake now result woken =>
      simp only [Recording.step, getElem?_between, woken, Option.map_some, put, set_between]
  | drop waits =>
      simp only [Recording.step, getElem?_between, waits, if_true, put, eraseIdx_between]
  | dec endpoint body => simp only [Recording.step, getElem?_between, put, set_between]
  | observe endpoint body => simp only [Recording.step, getElem?_between, put, set_between]
  | count endpoint body => simp only [Recording.step, getElem?_between, put, set_between]
  | answer endpoint body => simp only [Recording.step, getElem?_between, put, eraseIdx_between]

/-! ## Entries that are still to come -/

/-- Up to their order, the later entries are the early ones and those still missing. -/
def Completes {α : Type} (early : Option (List α)) (missing : List α) (late : Option (List α)) :
    Prop :=
  ∃ es ls, early = some es ∧ late = some ls ∧ ls.Perm (es ++ missing)

namespace Completes

variable {α : Type} {early late : Option (List α)} {before after : List α}

theorem leave (completes : Completes early (before ++ after) late) (new : List α) :
    Completes early (before ++ new ++ after) (late.map (· ++ new)) := by
  obtain ⟨es, ls, rfl, rfl, same⟩ := completes
  refine ⟨es, ls ++ new, rfl, rfl, ?_⟩
  calc ls ++ new
    _ ~ es ++ (before ++ after) ++ new := same.append_right new
    _ = (es ++ before) ++ (after ++ new) := by simp only [List.append_assoc]
    _ ~ (es ++ before) ++ (new ++ after) := .append_left _ List.perm_append_comm
    _ = es ++ (before ++ new ++ after) := by simp only [List.append_assoc]

theorem arrive {new : List α} (completes : Completes early (before ++ new ++ after) late) :
    Completes (early.map (· ++ new)) (before ++ after) late := by
  obtain ⟨es, ls, rfl, rfl, same⟩ := completes
  refine ⟨es ++ new, ls, rfl, rfl, ?_⟩
  calc ls
    _ ~ es ++ (before ++ new ++ after) := same
    _ = es ++ ((before ++ new) ++ after) := rfl
    _ ~ es ++ ((new ++ before) ++ after) := .append_left _ (.append_right _ List.perm_append_comm)
    _ = es ++ new ++ (before ++ after) := by simp only [List.append_assoc]

end Completes

/-! ## The worker whose updates are one step -/

def handlers (stages : List (Stage F)) : List (Handler F) := stages.filterMap Stage.handler

def unobserved (stages : List (Stage F)) : List String := stages.filterMap Stage.unobserved

/-- The entries which are still to be made in the counter. -/
def uncounted (stages : List (Stage F)) : List (String × String) :=
  stages.filterMap Stage.uncounted

/-- The responses which are still to be made. -/
def unanswered (platform : Platform F) (app : AppState) (stages : List (Stage F)) :
    List (Response F) :=
  (stages.filterMap Stage.unanswered).flatMap fun body =>
    (jsonResponse platform app.podName body).toList

section

variable (before after : List (Stage F)) (handler : Handler F) (endpoint : String) (body : Body F)

@[simp] theorem handlers_nil : handlers ([] : List (Stage F)) = [] := rfl

@[simp] theorem handlers_append :
    handlers (before ++ after) = handlers before ++ handlers after :=
  List.filterMap_append

@[simp] theorem handlers_running :
    handlers (.running handler :: after) = handler :: handlers after := rfl

@[simp] theorem handlers_leaving :
    handlers (.leaving endpoint body :: after) = handlers after := rfl

@[simp] theorem handlers_observed :
    handlers (.observed endpoint body :: after) = handlers after := rfl

@[simp] theorem handlers_counted :
    handlers (.counted endpoint body :: after) = handlers after := rfl

@[simp] theorem unobserved_nil : unobserved ([] : List (Stage F)) = [] := rfl

@[simp] theorem unobserved_append :
    unobserved (before ++ after) = unobserved before ++ unobserved after :=
  List.filterMap_append

@[simp] theorem unobserved_running :
    unobserved (.running handler :: after) = unobserved after := rfl

@[simp] theorem unobserved_leaving :
    unobserved (.leaving endpoint body :: after) = endpoint :: unobserved after := rfl

@[simp] theorem unobserved_observed :
    unobserved (.observed endpoint body :: after) = unobserved after := rfl

@[simp] theorem unobserved_counted :
    unobserved (.counted endpoint body :: after) = unobserved after := rfl

@[simp] theorem uncounted_nil : uncounted ([] : List (Stage F)) = [] := rfl

@[simp] theorem uncounted_append :
    uncounted (before ++ after) = uncounted before ++ uncounted after :=
  List.filterMap_append

@[simp] theorem uncounted_running :
    uncounted (.running handler :: after) = uncounted after := rfl

@[simp] theorem uncounted_leaving :
    uncounted (.leaving endpoint body :: after) = (endpoint, "200") :: uncounted after := rfl

@[simp] theorem uncounted_observed :
    uncounted (.observed endpoint body :: after) = (endpoint, "200") :: uncounted after := rfl

@[simp] theorem uncounted_counted :
    uncounted (.counted endpoint body :: after) = uncounted after := rfl

variable (platform : Platform F) (app : AppState)

@[simp] theorem unanswered_nil : unanswered platform app [] = [] := rfl

@[simp] theorem unanswered_append :
    unanswered platform app (before ++ after) =
      unanswered platform app before ++ unanswered platform app after := by
  simp only [unanswered, List.filterMap_append, List.flatMap_append]

@[simp] theorem unanswered_running :
    unanswered platform app (.running handler :: after) = unanswered platform app after := rfl

@[simp] theorem unanswered_leaving :
    unanswered platform app (.leaving endpoint body :: after) =
      (jsonResponse platform app.podName body).toList ++ unanswered platform app after := rfl

@[simp] theorem unanswered_observed :
    unanswered platform app (.observed endpoint body :: after) =
      (jsonResponse platform app.podName body).toList ++ unanswered platform app after := rfl

@[simp] theorem unanswered_counted :
    unanswered platform app (.counted endpoint body :: after) =
      (jsonResponse platform app.podName body).toList ++ unanswered platform app after := rfl

end

/-- The metrics and responses of `c` are those of `s` once the handlers which have left the
    gauge are through. -/
structure Settles (platform : Platform F) (app : AppState) (s : Recording F) (c : Pod F) :
    Prop where
  gauge : c.metrics.activeRequests = s.metrics.activeRequests
  live : c.live = handlers s.stages
  durations : Completes s.metrics.requestDuration (unobserved s.stages) c.metrics.requestDuration
  totals : Completes s.metrics.requestsTotal (uncounted s.stages) c.metrics.requestsTotal
  responses : Completes (some s.responses) (unanswered platform app s.stages) (some c.responses)

theorem settles_start : Settles platform app Recording.start (Pod.start : Pod F) where
  gauge := rfl
  live := rfl
  durations := ⟨[], [], rfl, rfl, .refl _⟩
  totals := ⟨[], [], rfl, rfl, .refl _⟩
  responses := ⟨[], [], rfl, rfl, .refl _⟩

theorem handler_between (before after : List (Stage F)) (handler : Handler F) :
    (handlers (before ++ .running handler :: after))[(handlers before).length]? =
      some handler := by
  rw [handlers_append, handlers_running, getElem?_between]

theorem set_handlers (before after : List (Stage F)) (handler next : Handler F) :
    (handlers (before ++ .running handler :: after)).set (handlers before).length next =
      handlers (before ++ .running next :: after) := by
  rw [handlers_append, handlers_running, set_between, handlers_append, handlers_running]

theorem erase_handlers (before after : List (Stage F)) (handler : Handler F) :
    (handlers (before ++ .running handler :: after)).eraseIdx (handlers before).length =
      handlers (before ++ after) := by
  rw [handlers_append, handlers_running, eraseIdx_between, handlers_append]

/-- Handlers in front of `record_done` can change as they like. -/
theorem Settles.elsewhere {s : Recording F} {c : Pod F} (settled : Settles platform app s c)
    {stages : List (Stage F)}
    (observing : stages.filterMap Stage.unobserved = s.stages.filterMap Stage.unobserved)
    (counting : stages.filterMap Stage.uncounted = s.stages.filterMap Stage.uncounted)
    (answering : stages.filterMap Stage.unanswered = s.stages.filterMap Stage.unanswered) :
    Settles platform app { s with stages := stages } { c with live := handlers stages } where
  gauge := settled.gauge
  live := rfl
  durations := by
    rw [unobserved, observing]
    exact settled.durations
  totals := by
    rw [uncounted, counting]
    exact settled.totals
  responses := by
    rw [unanswered, answering]
    exact settled.responses

theorem settles_step {s t : Recording F} {c : Pod F} {move : Move F}
    (settled : Settles platform app s c) (moved : Moved platform app s move t) :
    ∃ events c', exec (step platform app) c events = some c' ∧ Settles platform app t c' := by
  have live := settled.live
  cases moved with
  | start request =>
      have same := settled.gauge
      refine ⟨[.start request], _, rfl, ?_, ?_, ?_, ?_, ?_⟩
      · simp only [activeInc, same]
      · simp [live]
      · simpa [activeInc] using settled.durations
      · simpa [activeInc] using settled.totals
      · simpa using settled.responses
  | @compute m before after sent request now =>
      refine ⟨_, _, exec_single (a := .compute (handlers before).length now) ?_,
        settled.elsewhere ?_ ?_ ?_⟩
      · simp only [step, live, handler_between]
        cases compute platform app now request with
        | none => simp [eraseIdx_between]
        | some next => simp
      · cases compute platform app now request <;>
          simp [List.filterMap_cons, Stage.unobserved]
      · cases compute platform app now request <;>
          simp [List.filterMap_cons, Stage.uncounted]
      · cases compute platform app now request <;>
          simp [List.filterMap_cons, Stage.unanswered]
  | @wake m before after sent handler awake now result woken =>
      refine ⟨_, _, exec_single (a := .wake (handlers before).length now result) ?_,
        settled.elsewhere ?_ ?_ ?_⟩
      · simp only [step, live, handler_between, Option.bind_some, woken, Option.map_some,
          set_handlers]
      · simp [List.filterMap_cons, Stage.unobserved]
      · simp [List.filterMap_cons, Stage.uncounted]
      · simp [List.filterMap_cons, Stage.unanswered]
  | @drop m before after sent handler waits =>
      refine ⟨_, _, exec_single (a := .drop (handlers before).length) ?_,
        settled.elsewhere ?_ ?_ ?_⟩
      · simp only [step, live, handler_between, Option.map_some, Option.getD_some, waits, if_true,
          erase_handlers]
      · simp [List.filterMap_cons, Stage.unobserved]
      · simp [List.filterMap_cons, Stage.uncounted]
      · simp [List.filterMap_cons, Stage.unanswered]
  | @dec m before after sent endpoint body =>
      have same := settled.gauge
      refine ⟨_, _, exec_single (a := .finish (handlers before).length)
        (by simp only [step, live, handler_between]; rfl), ?_, ?_, ?_, ?_, ?_⟩
      · simp only [recordDone, activeDec, same]
      · simp [eraseIdx_between]
      · have earlier : Completes m.requestDuration (unobserved before ++ unobserved after)
            c.metrics.requestDuration := by
          simpa using settled.durations
        simpa [activeDec, recordDone] using earlier.leave [endpoint]
      · have earlier : Completes m.requestsTotal (uncounted before ++ uncounted after)
            c.metrics.requestsTotal := by
          simpa using settled.totals
        simpa [activeDec, recordDone] using earlier.leave [(endpoint, "200")]
      · have earlier : Completes (some sent)
            (unanswered platform app before ++ unanswered platform app after)
            (some c.responses) := by
          simpa using settled.responses
        simpa using earlier.leave (jsonResponse platform app.podName body).toList
  | @observe m before after sent endpoint body =>
      refine ⟨[], c, rfl, settled.gauge, ?_, ?_, ?_, ?_⟩
      · simpa using live
      · have later : Completes m.requestDuration
            (unobserved before ++ [endpoint] ++ unobserved after) c.metrics.requestDuration := by
          simpa using settled.durations
        simpa [durationObserve] using later.arrive
      · simpa [durationObserve] using settled.totals
      · simpa using settled.responses
  | @count m before after sent endpoint body =>
      refine ⟨[], c, rfl, settled.gauge, ?_, ?_, ?_, ?_⟩
      · simpa using live
      · simpa [totalInc] using settled.durations
      · have later : Completes m.requestsTotal
            (uncounted before ++ [(endpoint, "200")] ++ uncounted after)
            c.metrics.requestsTotal := by
          simpa using settled.totals
        simpa [totalInc] using later.arrive
      · simpa using settled.responses
  | @answer m before after sent endpoint body =>
      refine ⟨[], c, rfl, settled.gauge, ?_, ?_, ?_, ?_⟩
      · simpa using live
      · simpa using settled.durations
      · simpa using settled.totals
      · have later : Completes (some sent)
            (unanswered platform app before ++ (jsonResponse platform app.podName body).toList ++
              unanswered platform app after) (some c.responses) := by
          simpa using settled.responses
        simpa using later.arrive

theorem settles_exec {s t : Recording F} {c : Pod F} {moves : List (Move F)}
    (settled : Settles platform app s c)
    (ran : exec (Recording.step platform app) s moves = some t) :
    ∃ events c', exec (step platform app) c events = some c' ∧ Settles platform app t c' := by
  induction moves generalizing s c with
  | nil =>
      cases Option.some.inj ran
      exact ⟨[], c, rfl, settled⟩
  | cons move moves ih =>
      obtain ⟨u, first, rest⟩ := exec_cons.mp ran
      obtain ⟨events, d, made, settled⟩ := settles_step settled (moved_of_step first)
      obtain ⟨later, c', behind, settled⟩ := ih settled rest
      exact ⟨events ++ later, c', exec_append made behind, settled⟩

/-! ## The other way -/

/-- `record_done` in one go. -/
def Event.moves : Event F → List (Move F)
  | .start request => [.start request]
  | .compute i now => [.compute i now]
  | .wake i now result => [.wake i now result]
  | .finish i => [.dec i, .observe i, .count i, .answer i]
  | .drop i => [.drop i]

def Pod.recording (c : Pod F) : Recording F :=
  ⟨c.metrics, c.live.map .running, c.responses⟩

theorem recording_split {live : List (Handler F)} {i : Nat} {handler : Handler F}
    (here : live[i]? = some handler) :
    ∃ before after, live.map Stage.running = before ++ .running handler :: after ∧
      i = before.length := by
  apply split_at
  rw [List.getElem?_map, here, Option.map_some]

/-- The updates of a handler, with no other step between them, are `record_done`. -/
theorem recording_step {c d : Pod F} {event : Event F}
    (moved : step platform app c event = some d) :
    exec (Recording.step platform app) c.recording event.moves = some d.recording := by
  obtain ⟨m, live, sent⟩ := c
  cases event with
  | start request =>
      cases moved
      simp [Event.moves, exec, Recording.step, Pod.recording]
  | compute i now =>
      simp only [step] at moved
      split at moved
      · rename_i request here
        obtain ⟨before, after, shape, rfl⟩ := recording_split here
        have made := step_of_moved (@Moved.compute _ platform app m before after sent request now)
        split at moved
        · rename_i next computed
          cases moved
          simp only [computed, Option.map_some, Option.toList_some] at made
          simpa [Event.moves, Pod.recording, shape, set_between] using exec_single made
        · rename_i panics
          cases moved
          simp only [panics, Option.map_none, Option.toList_none] at made
          simpa [Event.moves, Pod.recording, shape, ← List.eraseIdx_map, eraseIdx_between]
            using exec_single made
      · cases moved
  | wake i now result =>
      obtain ⟨awake, woken, rfl⟩ := Option.map_eq_some_iff.mp moved
      obtain ⟨handler, here, waking⟩ := Option.bind_eq_some_iff.mp woken
      obtain ⟨before, after, shape, rfl⟩ := recording_split here
      have made := step_of_moved
        (@Moved.wake _ platform app m before after sent _ _ now result waking)
      simpa [Event.moves, Pod.recording, shape, set_between] using exec_single made
  | finish i =>
      simp only [step] at moved
      split at moved
      · rename_i endpoint body here
        cases moved
        obtain ⟨before, after, shape, rfl⟩ := recording_split here
        have out := step_of_moved (@Moved.dec _ platform app m before after sent endpoint body)
        have seen := step_of_moved
          (@Moved.observe _ platform app (activeDec m) before after sent endpoint body)
        have counted := step_of_moved (@Moved.count _ platform app
          (durationObserve (activeDec m) endpoint) before after sent endpoint body)
        have answered := step_of_moved (@Moved.answer _ platform app
          (recordDone m endpoint) before after sent endpoint body)
        rw [← recordDone_eq] at counted
        apply exec_cons.mpr
        refine ⟨_, ?_, exec_cons.mpr ⟨_, seen, exec_cons.mpr ⟨_, counted, ?_⟩⟩⟩
        · simpa [Pod.recording, shape] using out
        · have last := exec_single answered
          simpa [Pod.recording, shape, ← List.eraseIdx_map, eraseIdx_between] using last
      · cases moved
  | drop i =>
      obtain ⟨waits, same⟩ := Option.ite_none_right_eq_some.mp moved
      cases same
      cases here : live[i]? with
      | none => simp [here] at waits
      | some handler =>
          simp only [here, Option.map_some, Option.getD_some] at waits
          obtain ⟨before, after, shape, rfl⟩ := recording_split here
          have made := step_of_moved (@Moved.drop _ platform app m before after sent _ waits)
          simpa [Event.moves, Pod.recording, shape, ← List.eraseIdx_map, eraseIdx_between]
            using exec_single made

theorem recording_exec {c d : Pod F} {events : List (Event F)}
    (ran : exec (step platform app) c events = some d) :
    exec (Recording.step platform app) c.recording (events.flatMap Event.moves) =
      some d.recording := by
  induction events generalizing c with
  | nil =>
      cases Option.some.inj ran
      rfl
  | cons event events ih =>
      obtain ⟨u, first, rest⟩ := exec_cons.mp ran
      rw [List.flatMap_cons]
      exact exec_append (recording_step first) (ih rest)

/-- The worker whose three updates and response may be apart, and the worker with which they are
    one step, do the same: each run of the one ends as a run of the other, once the handlers that
    have left the gauge are through. -/
theorem recording_in_pieces (platform : Platform F) (app : AppState) :
    (∀ moves s, exec (Recording.step platform app) .start moves = some s →
      ∃ events c, exec (step platform app) .start events = some c ∧ Settles platform app s c) ∧
    (∀ events c, exec (step platform app) .start events = some c →
      exec (Recording.step platform app) .start (events.flatMap Event.moves) =
        some c.recording) := by
  constructor
  · intro moves s ran
    exact settles_exec settles_start ran
  · intro events c ran
    exact recording_exec ran

/-- `/get` and `/work?ms=50` overlap, and so do their updates. -/
def interleaved : List (Move Int) :=
  [.start .get, .start (.work [("ms", "50")]), .compute 0 0, .compute 1 1, .dec 0,
    .wake 1 51 none, .dec 1, .observe 1, .observe 0, .count 1, .count 0, .answer 0]

theorem interleaved_runs : ∃ s : Recording Int,
    exec (Recording.step milliseconds ⟨"worker", 0⟩) .start interleaved = some s :=
  Option.isSome_iff_exists.mp (by decide +kernel)

theorem recording_in_pieces_interleaved : ∃ s : Recording Int,
    exec (Recording.step milliseconds ⟨"worker", 0⟩) .start interleaved = some s ∧
      ∃ events c, exec (step milliseconds ⟨"worker", 0⟩) .start events = some c ∧
        Settles milliseconds ⟨"worker", 0⟩ s c := by
  obtain ⟨s, ran⟩ := interleaved_runs
  exact ⟨s, ran, (recording_in_pieces milliseconds ⟨"worker", 0⟩).1 interleaved s ran⟩

end PcdLab.Worker
