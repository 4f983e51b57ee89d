import Mathlib.Data.List.Basic
import PcdLab.Lib.Runs

/-! # Tasks that share nothing

A loop spawns tasks, and the tasks take their steps in any order. They share nothing
but the output, where each line stands behind those printed before it, whichever
task they come from. So what becomes of a task, and what it prints, is settled by
its own steps.
-/

namespace PcdLab.Lib.Tasks

open Runs

/-- A kind of task: how one starts from its parameter, its steps, and what it has to print
    in a state which is an end. -/
structure Kind (κ σ ℓ ω : Type*) where
  start : κ → σ
  step : Machine σ ℓ
  line : σ → Option ω

inductive Event (κ ℓ : Type*) where
  | spawn (k : κ)
  /-- The loop turns without a new task. -/
  | idle
  | task (i : Nat) (a : ℓ)
  deriving Repr, DecidableEq

/-- The tasks in the order in which they were spawned, and the lines with their tasks. -/
structure Pool (σ ω : Type*) where
  tasks : List σ := []
  output : List (Nat × ω) := []
  deriving Repr, DecidableEq

variable {κ σ ℓ ω : Type*}

/-- What the step from `t` to `u` prints: the line of the end, if this is the step which gets
    there. -/
def Kind.prints (K : Kind κ σ ℓ ω) (t u : σ) : Option ω :=
  if (K.line t).isSome then none else K.line u

def Kind.pool (K : Kind κ σ ℓ ω) : Machine (Pool σ ω) (Event κ ℓ)
  | s, .spawn k => some { s with tasks := s.tasks ++ [K.start k] }
  | s, .idle => some s
  | s, .task i a =>
      s.tasks[i]?.bind fun t => (K.step t a).map fun u =>
        { tasks := s.tasks.set i u
          output := s.output ++ ((K.prints t u).map fun line => (i, line)).toList }

/-- The lines of task `i`, in their order. -/
def Pool.lines (s : Pool σ ω) (i : Nat) : List ω :=
  (s.output.filter fun entry => entry.1 = i).map Prod.snd

def Event.spawned : Event κ ℓ → Option κ
  | .spawn k => some k
  | _ => none

def Event.own (i : Nat) : Event κ ℓ → Option ℓ
  | .task j a => if j = i then some a else none
  | _ => none

/-- The parameters of the tasks, and the steps of task `i`. -/
def spawned (es : List (Event κ ℓ)) : List κ := es.filterMap Event.spawned

def own (i : Nat) (es : List (Event κ ℓ)) : List ℓ := es.filterMap (Event.own i)

/-- The step with which a task gets to an end is the last that can print. -/
def Kind.Ends (K : Kind κ σ ℓ ω) : Prop :=
  (∀ k, K.line (K.start k) = none) ∧
    ∀ t a u, K.step t a = some u → (K.line t).isSome → K.line u = K.line t

/-! ## A task and its own steps -/

/-- What the steps behind it say of task `i`, as far as it has been spawned. -/
structure Kind.Follows (K : Kind κ σ ℓ ω) (es : List (Event κ ℓ)) (s : Pool σ ω) : Prop where
  length : s.tasks.length = (spawned es).length
  task : ∀ i t, s.tasks[i]? = some t → ∃ k, (spawned es)[i]? = some k ∧
    exec K.step (K.start k) (own i es) = some t ∧ s.lines i = (K.line t).toList
  none : ∀ i, s.tasks.length ≤ i → own i es = [] ∧ s.lines i = []

variable {K : Kind κ σ ℓ ω}

theorem lines_append (s : Pool σ ω) (i j : Nat) (tasks : List σ) (line : Option ω) :
    Pool.lines ⟨tasks, s.output ++ (line.map fun l => (i, l)).toList⟩ j =
      s.lines j ++ if i = j then line.toList else [] := by
  cases line with
  | none => simp [Pool.lines]
  | some l =>
      by_cases same : i = j
      · simp [Pool.lines, same]
      · simp [Pool.lines, same]

namespace Kind.Follows

theorem spawn {es : List (Event κ ℓ)} {s : Pool σ ω} (ends : K.Ends) (inv : K.Follows es s)
    (k : κ) : K.Follows (es ++ [.spawn k]) { s with tasks := s.tasks ++ [K.start k] } := by
  have more : spawned (es ++ [.spawn k]) = spawned es ++ [k] := by
    simp [spawned, Event.spawned]
  have same : ∀ i, own i (es ++ [.spawn k]) = own i es := by
    intro i
    simp [own, Event.own]
  constructor
  case length => simp [more, inv.length]
  case task =>
    intro i t found
    rw [more, same]
    by_cases old : i < s.tasks.length
    · rw [List.getElem?_append_left old] at found
      rw [List.getElem?_append_left (inv.length ▸ old)]
      exact inv.task i t found
    · obtain ⟨inside, rfl⟩ := List.getElem?_eq_some_iff.mp found
      have here : i = s.tasks.length := by
        simp only [List.length_append, List.length_singleton] at inside
        omega
      obtain ⟨quiet, silent⟩ := inv.none i (Nat.le_of_not_lt old)
      refine ⟨k, ?_, ?_, ?_⟩
      · rw [here, inv.length]
        exact List.getElem?_concat_length
      · rw [quiet]
        simp [exec, here]
      · have unprinted := ends.1 k
        rw [show Pool.lines { s with tasks := s.tasks ++ [K.start k] } i = [] from silent]
        simp [here, unprinted]
  case none =>
    intro i past
    rw [same]
    apply inv.none
    simp only [List.length_append, List.length_singleton] at past
    omega

theorem idle {es : List (Event κ ℓ)} {s : Pool σ ω} (inv : K.Follows es s) :
    K.Follows (es ++ [.idle]) s := by
  have spawns : spawned (es ++ [.idle]) = spawned es := by
    simp [spawned, Event.spawned]
  have same : ∀ i, own i (es ++ [.idle]) = own i es := by
    intro i
    simp [own, Event.own]
  constructor
  · rw [spawns, inv.length]
  · intro i t found
    rw [spawns, same]
    exact inv.task i t found
  · intro i past
    rw [same]
    exact inv.none i past

theorem task_step {es : List (Event κ ℓ)} {s : Pool σ ω} (ends : K.Ends) (inv : K.Follows es s)
    {i : Nat} {a : ℓ} {t u : σ} (found : s.tasks[i]? = some t) (moved : K.step t a = some u) :
    K.Follows (es ++ [.task i a]) ⟨s.tasks.set i u,
      s.output ++ ((K.prints t u).map fun line => (i, line)).toList⟩ := by
  have same : spawned (es ++ [.task i a]) = spawned es := by
    simp [spawned, Event.spawned]
  have inside : i < s.tasks.length := (List.getElem?_eq_some_iff.mp found).1
  have owns : ∀ j, own j (es ++ [.task i a]) = own j es ++ if i = j then [a] else [] := by
    intro j
    by_cases here : i = j
    · simp [own, Event.own, here]
    · simp [own, Event.own, here]
  constructor
  case length => simpa [same] using inv.length
  case task =>
    intro j v there
    rw [same, owns, lines_append]
    by_cases here : i = j
    · subst here
      rw [List.getElem?_set_self inside] at there
      obtain rfl := Option.some.inj there
      obtain ⟨k, param, ran, printed⟩ := inv.task i t found
      refine ⟨k, param, ?_, ?_⟩
      · simpa using exec_append ran (exec_cons.mpr ⟨u, moved, rfl⟩)
      · rw [printed, if_pos rfl, Kind.prints]
        cases ended : K.line t with
        | none => simp
        | some l =>
            have kept := ends.2 t a u moved (by simp [ended])
            simp [kept, ended]
    · rw [List.getElem?_set_ne here] at there
      obtain ⟨k, param, ran, printed⟩ := inv.task j v there
      refine ⟨k, param, ?_, ?_⟩
      · simpa [here] using ran
      · simpa [here] using printed
  case none =>
    intro j past
    simp only [List.length_set] at past
    have other : i ≠ j := by omega
    rw [owns, lines_append]
    simpa [other] using inv.none j past

end Kind.Follows

/-- Whatever the others do, a task is where its own steps have taken it, and has printed its
    line once if it has come to an end, and nothing else. -/
theorem exec_task (ends : K.Ends) {es : List (Event κ ℓ)} {s : Pool σ ω}
    (ran : exec K.pool {} es = some s) {i : Nat} {t : σ} (found : s.tasks[i]? = some t) :
    ∃ k, (spawned es)[i]? = some k ∧ exec K.step (K.start k) (own i es) = some t ∧
      s.lines i = (K.line t).toList := by
  have empty : K.Follows [] {} := by
    constructor
    · rfl
    · intro i t found
      cases found
    · intro i _
      exact ⟨rfl, rfl⟩
  have follows : K.Follows ([] ++ es) s := by
    apply exec_history (K.Follows) _ empty ran
    intro before s e t inv moved
    cases e with
    | spawn k =>
        cases Option.some.inj moved
        exact inv.spawn ends k
    | idle =>
        cases Option.some.inj moved
        exact inv.idle
    | task i a =>
        simp only [Kind.pool, Option.bind_eq_some_iff, Option.map_eq_some_iff] at moved
        obtain ⟨v, found, u, moved, rfl⟩ := moved
        exact inv.task_step ends found moved
  exact follows.task i t found

/-- No other task can hold a task up: the steps it can take alone, it can take in the pool. -/
theorem exec_alone {s : Pool σ ω} {i : Nat} {t u : σ} {as : List ℓ}
    (found : s.tasks[i]? = some t) (ran : exec K.step t as = some u) :
    ∃ r, exec K.pool s (as.map (.task i)) = some r ∧ r.tasks = s.tasks.set i u := by
  induction as generalizing s t with
  | nil =>
      cases Option.some.inj ran
      refine ⟨s, rfl, ?_⟩
      obtain ⟨inside, rfl⟩ := List.getElem?_eq_some_iff.mp found
      exact (List.set_getElem_self inside).symm
  | cons a as ih =>
      obtain ⟨v, first, rest⟩ := exec_cons.mp ran
      have inside : i < s.tasks.length := (List.getElem?_eq_some_iff.mp found).1
      obtain ⟨r, runs, tasks⟩ := ih (s := ⟨s.tasks.set i v,
        s.output ++ ((K.prints t v).map fun line => (i, line)).toList⟩)
        (List.getElem?_set_self inside) rest
      refine ⟨r, exec_cons.mpr ⟨_, ?_, runs⟩, ?_⟩
      · simp only [Kind.pool, found, Option.bind_some, first, Option.map_some]
      · rw [tasks]
        exact List.set_set ..

end PcdLab.Lib.Tasks
