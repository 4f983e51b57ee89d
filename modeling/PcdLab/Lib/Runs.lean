import Mathlib.Logic.Relation

/-! # Runs of a labelled machine

A machine is a partial step function. Every choice which the surroundings can
make (what arrives, what is lost, what times out) is a label, so that a list of
labels is one interleaving and `exec` replays it. Properties of all runs are
stated over `Reach`, whose guard restricts the labels that may occur; properties
of one run are stated over its list of labels.
-/

namespace PcdLab.Lib.Runs

variable {σ ℓ τ : Type*}

/-- One step, resolved by its label. `none` is a label the state does not allow. -/
abbrev Machine (σ ℓ : Type*) := σ → ℓ → Option σ

def exec (step : Machine σ ℓ) : σ → List ℓ → Option σ
  | s, [] => some s
  | s, a :: as => (step s a).bind (exec step · as)

/-- Some step of the run satisfies `bad`, judged by the state before it and its label. -/
def Somewhere (step : Machine σ ℓ) (bad : σ → ℓ → Prop) : σ → List ℓ → Prop
  | _, [] => False
  | s, a :: as => bad s a ∨ ∃ t, step s a = some t ∧ Somewhere step bad t as

/-- The property holds in all states of the run, its ends included. -/
def Throughout (step : Machine σ ℓ) (good : σ → Prop) : σ → List ℓ → Prop
  | s, [] => good s
  | s, a :: as => good s ∧ ∀ t, step s a = some t → Throughout step good t as

/-- The states of runs all of whose steps meet the guard. -/
inductive Reach (step : Machine σ ℓ) (guard : σ → ℓ → Prop) (start : σ) : σ → Prop where
  | start : Reach step guard start start
  | step {s a t} : Reach step guard start s → guard s a → step s a = some t →
      Reach step guard start t

/-- The guard which excludes nothing. -/
def anyStep : σ → ℓ → Prop := fun _ _ => True

theorem exec_cons {step : Machine σ ℓ} {s u : σ} {a : ℓ} {as : List ℓ} :
    exec step s (a :: as) = some u ↔ ∃ t, step s a = some t ∧ exec step t as = some u := by
  simp only [exec, Option.bind_eq_some_iff]

theorem exec_single {step : Machine σ ℓ} {s t : σ} {a : ℓ} (moved : step s a = some t) :
    exec step s [a] = some t :=
  exec_cons.mpr ⟨t, moved, rfl⟩

theorem exec_append {step : Machine σ ℓ} {s t u : σ} {as bs : List ℓ}
    (first : exec step s as = some t) (second : exec step t bs = some u) :
    exec step s (as ++ bs) = some u := by
  induction as generalizing s with
  | nil =>
      cases Option.some.inj first
      exact second
  | cons a as ih =>
      obtain ⟨v, moved, rest⟩ := exec_cons.mp first
      exact exec_cons.mpr ⟨v, moved, ih rest⟩

theorem not_somewhere {step : Machine σ ℓ} {bad : σ → ℓ → Prop} (never : ∀ s a, ¬ bad s a)
    (s : σ) (as : List ℓ) : ¬ Somewhere step bad s as := by
  induction as generalizing s with
  | nil => exact id
  | cons a as ih =>
      rintro (now | ⟨t, -, later⟩)
      · exact never s a now
      · exact ih t later

theorem Somewhere.mono {step : Machine σ ℓ} {bad worse : σ → ℓ → Prop} {s : σ} {as : List ℓ}
    (happened : Somewhere step worse s as) (weaker : ∀ s a, worse s a → bad s a) :
    Somewhere step bad s as := by
  induction as generalizing s with
  | nil => exact happened
  | cons a as ih =>
      cases happened with
      | inl now => exact .inl (weaker s a now)
      | inr later =>
          obtain ⟨t, moved, later⟩ := later
          exact .inr ⟨t, moved, ih later⟩

/-- A run can be replayed to find out. -/
instance Somewhere.decidable {step : Machine σ ℓ} {bad : σ → ℓ → Prop}
    [∀ s a, Decidable (bad s a)] : (s : σ) → (as : List ℓ) → Decidable (Somewhere step bad s as)
  | _, [] => inferInstanceAs (Decidable False)
  | s, a :: as =>
      match moved : step s a with
      | none => decidable_of_iff (bad s a) (by simp [Somewhere, moved])
      | some t =>
          have : Decidable (Somewhere step bad t as) := Somewhere.decidable t as
          decidable_of_iff (bad s a ∨ Somewhere step bad t as) (by simp [Somewhere, moved])

/-- Where the first step is known, a run is that step and the rest. -/
theorem somewhere_cons {step : Machine σ ℓ} {bad : σ → ℓ → Prop} {s u : σ} {a : ℓ}
    (first : step s a = some u) (as : List ℓ) :
    Somewhere step bad s (a :: as) ↔ bad s a ∨ Somewhere step bad u as := by
  simp only [Somewhere, first, Option.some.injEq, exists_eq_left']

theorem throughout_cons {step : Machine σ ℓ} {good : σ → Prop} {s u : σ} {a : ℓ}
    (first : step s a = some u) (as : List ℓ) :
    Throughout step good s (a :: as) ↔ good s ∧ Throughout step good u as := by
  simp only [Throughout, first, Option.some.injEq, forall_eq']

/-- Where a step is judged by its label alone, a run is judged by its labels. -/
theorem somewhere_iff_mem {step : Machine σ ℓ} {bad : σ → ℓ → Prop} {label : ℓ → Prop}
    (same : ∀ s a t, step s a = some t → (bad s a ↔ label a)) {s t : σ} {as : List ℓ}
    (ran : exec step s as = some t) : Somewhere step bad s as ↔ ∃ a ∈ as, label a := by
  induction as generalizing s with
  | nil => simp only [Somewhere, List.not_mem_nil, false_and, exists_false]
  | cons a as ih =>
      obtain ⟨u, first, rest⟩ := exec_cons.mp ran
      rw [somewhere_cons first, ih rest, same s a u first]
      simp only [List.mem_cons, exists_eq_or_imp]

/-- A run all of whose steps meet the guard ends in a state reached under it. -/
theorem Reach.extend {step : Machine σ ℓ} {guard : σ → ℓ → Prop} {start s t : σ}
    {as : List ℓ} (before : Reach step guard start s) (ran : exec step s as = some t)
    (allowed : ¬ Somewhere step (fun s a => ¬ guard s a) s as) : Reach step guard start t := by
  induction as generalizing s with
  | nil => exact (Option.some.inj ran) ▸ before
  | cons a as ih =>
      obtain ⟨u, first, rest⟩ := exec_cons.mp ran
      have ok : guard s a := Classical.not_not.mp (fun h => allowed (.inl h))
      exact ih (before.step ok first) rest (fun later => allowed (.inr ⟨u, first, later⟩))

theorem Reach.of_exec {step : Machine σ ℓ} {start t : σ} {as : List ℓ}
    (ran : exec step start as = some t) : Reach step anyStep start t :=
  Reach.start.extend ran (not_somewhere (fun _ _ h => h trivial) start as)

/-- A run without a bad step ends in a state which is reached without one. -/
theorem Reach.of_never {step : Machine σ ℓ} {bad : σ → ℓ → Prop} {start t : σ} {as : List ℓ}
    (ran : exec step start as = some t) (never : ¬ Somewhere step bad start as) :
    Reach step (fun s a => ¬ bad s a) start t :=
  Reach.start.extend ran fun happened =>
    never (happened.mono fun _ _ twice => Classical.not_not.mp twice)

/-- As `of_exec`, for a guard which the labels of the run meet in every state. -/
theorem Reach.of_labels {step : Machine σ ℓ} {guard : σ → ℓ → Prop} {start t : σ}
    {as : List ℓ} (ran : exec step start as = some t) (allowed : ∀ a ∈ as, ∀ s, guard s a) :
    Reach step guard start t := by
  have allowing : ∀ {as : List ℓ} (s : σ), (∀ a ∈ as, ∀ s, guard s a) →
      ¬ Somewhere step (fun s a => ¬ guard s a) s as := by
    intro as
    induction as with
    | nil => exact fun _ _ => id
    | cons a as ih =>
        rintro s each (now | ⟨u, -, later⟩)
        · exact now (each a List.mem_cons_self s)
        · exact ih u (fun a member => each a (List.mem_cons_of_mem _ member)) later
  exact Reach.start.extend ran (allowing start allowed)

/-- The rule for invariants: it holds at the start, and one guarded step keeps it. -/
theorem Reach.invariant {step : Machine σ ℓ} {guard : σ → ℓ → Prop} {start s : σ}
    (inv : σ → Prop) (initially : inv start)
    (preserved : ∀ s a t, inv s → guard s a → step s a = some t → inv t)
    (reach : Reach step guard start s) : inv s := by
  induction reach with
  | start => exact initially
  | step _ ok moved ih => exact preserved _ _ _ ih ok moved

/-- Forward simulation: if each guarded step is matched by abstract steps, every
    reachable state is abstracted by a state which the abstract system reaches. -/
theorem Reach.simulates {step : Machine σ ℓ} {guard : σ → ℓ → Prop} {start s : σ}
    {inv : σ → Prop} {spec : τ → τ → Prop} {view : σ → τ}
    (initially : inv start)
    (preserved : ∀ s a t, inv s → guard s a → step s a = some t → inv t)
    (matched : ∀ s a t, inv s → guard s a → step s a = some t →
      Relation.ReflTransGen spec (view s) (view t))
    (reach : Reach step guard start s) :
    Relation.ReflTransGen spec (view start) (view s) := by
  induction reach with
  | start => exact .refl
  | step before ok moved ih =>
      exact ih.trans (matched _ _ _ (before.invariant inv initially preserved) ok moved)

/-- What one step keeps, a run keeps. -/
theorem exec_invariant {step : Machine σ ℓ} (inv : σ → Prop)
    (preserved : ∀ s a t, inv s → step s a = some t → inv t)
    {s t : σ} {as : List ℓ} (holds : inv s) (ran : exec step s as = some t) : inv t := by
  induction as generalizing s with
  | nil => exact Option.some.inj ran ▸ holds
  | cons a as ih =>
      obtain ⟨u, first, rest⟩ := exec_cons.mp ran
      exact ih (preserved _ _ _ holds first) rest

/-- What one step keeps of a state and of the labels behind it, a run keeps. -/
theorem exec_history {step : Machine σ ℓ} (inv : List ℓ → σ → Prop)
    (preserved : ∀ before s a t, inv before s → step s a = some t → inv (before ++ [a]) t)
    {before as : List ℓ} {s t : σ} (holds : inv before s) (ran : exec step s as = some t) :
    inv (before ++ as) t := by
  induction as generalizing s before with
  | nil => simpa only [List.append_nil, Option.some.inj ran] using holds
  | cons a as ih =>
      obtain ⟨u, first, rest⟩ := exec_cons.mp ran
      have behind := ih (preserved before s a u holds first) rest
      rwa [List.append_assoc] at behind

/-- How many steps of the run are such as `p` says. -/
def tally (step : Machine σ ℓ) (p : σ → ℓ → Bool) : σ → List ℓ → Nat
  | _, [] => 0
  | s, a :: as => (p s a).toNat + ((step s a).map fun t => tally step p t as).getD 0

/-- A count which every step takes along is right at the end of every run. -/
theorem exec_tally {step : Machine σ ℓ} {p : σ → ℓ → Bool} (inv : Nat → σ → Prop)
    (preserved : ∀ n s a t, inv n s → step s a = some t → inv (n + (p s a).toNat) t)
    {n : Nat} {s t : σ} {as : List ℓ} (holds : inv n s) (ran : exec step s as = some t) :
    inv (n + tally step p s as) t := by
  induction as generalizing n s with
  | nil => exact Option.some.inj ran ▸ holds
  | cons a as ih =>
      obtain ⟨u, first, rest⟩ := exec_cons.mp ran
      have later := ih (preserved n s a u holds first) rest
      simpa only [tally, first, Option.map_some, Option.getD_some, Nat.add_assoc] using later

/-- A flag which a bad step raises, and no step takes back, is up behind a bad step. -/
theorem flag_of_somewhere {step : Machine σ ℓ} {bad : σ → ℓ → Prop} (inv flag : σ → Prop)
    (preserved : ∀ s a t, inv s → step s a = some t → inv t)
    (kept : ∀ s a t, inv s → flag s → step s a = some t → flag t)
    (raised : ∀ s a t, inv s → bad s a → step s a = some t → flag t)
    {s t : σ} {as : List ℓ} (holds : inv s) (ran : exec step s as = some t)
    (happened : Somewhere step bad s as) : flag t := by
  induction as generalizing s with
  | nil => exact happened.elim
  | cons a as ih =>
      obtain ⟨u, first, rest⟩ := exec_cons.mp ran
      cases happened with
      | inl now =>
          have up : inv u ∧ flag u := ⟨preserved _ _ _ holds first, raised _ _ _ holds now first⟩
          have both := exec_invariant (fun s => inv s ∧ flag s)
            (fun s a t h moved => ⟨preserved s a t h.1 moved, kept s a t h.1 h.2 moved⟩) up rest
          exact both.2
      | inr later =>
          obtain ⟨v, moved, later⟩ := later
          cases Option.some.inj (first.symm.trans moved)
          exact ih (preserved _ _ _ holds first) rest later

/-- When a flag is raised by exactly the bad steps and never taken back, it is up
    at the end of a run iff the run contains a bad step. -/
theorem flag_iff_somewhere {step : Machine σ ℓ} {bad : σ → ℓ → Prop} (inv flag : σ → Prop)
    (preserved : ∀ s a t, inv s → step s a = some t → inv t)
    (raised : ∀ s a t, inv s → step s a = some t → (flag t ↔ flag s ∨ bad s a))
    {s t : σ} {as : List ℓ} (holds : inv s) (ran : exec step s as = some t) :
    flag t ↔ flag s ∨ Somewhere step bad s as := by
  induction as generalizing s with
  | nil =>
      have same : s = t := Option.some.inj ran
      simp only [same, Somewhere, or_false]
  | cons a as ih =>
      obtain ⟨u, first, rest⟩ := exec_cons.mp ran
      have tail := ih (preserved _ _ _ holds first) rest
      rw [tail, raised _ _ _ holds first, somewhere_cons first, or_assoc]

theorem Throughout.here {step : Machine σ ℓ} {good : σ → Prop} {s : σ} {as : List ℓ}
    (holds : Throughout step good s as) : good s := by
  cases as with
  | nil => exact holds
  | cons a as => exact holds.1

theorem Throughout.last {step : Machine σ ℓ} {good : σ → Prop} {s t : σ} {as : List ℓ}
    (holds : Throughout step good s as) (ran : exec step s as = some t) : good t := by
  induction as generalizing s with
  | nil => exact Option.some.inj ran ▸ holds
  | cons a as ih =>
      obtain ⟨u, first, rest⟩ := exec_cons.mp ran
      exact ih (holds.2 u first) rest

/-- The rule for a property which holds up to the first bad step, and not behind it: it
    holds throughout a run iff the run contains no bad step. -/
theorem throughout_iff_never {step : Machine σ ℓ} {bad : σ → ℓ → Prop} {good : σ → Prop}
    (inv : σ → Prop) (sound : ∀ s, inv s → good s)
    (preserved : ∀ s a t, inv s → ¬ bad s a → step s a = some t → inv t)
    (spoiled : ∀ s a t, inv s → bad s a → step s a = some t → ¬ good t)
    {s t : σ} {as : List ℓ} (holds : inv s) (ran : exec step s as = some t) :
    Throughout step good s as ↔ ¬ Somewhere step bad s as := by
  induction as generalizing s with
  | nil => exact iff_of_true (sound s holds) id
  | cons a as ih =>
      obtain ⟨u, first, rest⟩ := exec_cons.mp ran
      rw [throughout_cons first, somewhere_cons first]
      by_cases now : bad s a
      · have spoils : ¬ Throughout step good u as := fun later =>
          spoiled s a u holds now first later.here
        simp only [now, spoils, and_false, true_or, not_true_eq_false]
      · rw [ih (preserved s a u holds now first) rest]
        simp only [sound s holds, now, true_and, false_or]

end PcdLab.Lib.Runs
