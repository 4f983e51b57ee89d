import Mathlib.Data.List.Basic

/-! # Batches between markers

A stream whose markers close batches: a marker closes the batch of what came since
the marker before it. A reporter keeps a summary of the current batch only, and puts
it out at each marker. It does not know who put an element or a marker in.
-/

namespace PcdLab.Lib

structure Batches (α : Type*) where
  closed : List (List α) := []
  current : List α := []
  deriving Repr, DecidableEq

namespace Batches

variable {α β : Type*} (marker : α → Bool)

def add (b : Batches α) (x : α) : Batches α :=
  if marker x then ⟨b.closed ++ [b.current], []⟩ else ⟨b.closed, b.current ++ [x]⟩

def addAll (b : Batches α) (xs : List α) : Batches α := xs.foldl (add marker) b

/-- The batches of a whole stream. -/
def ofStream (xs : List α) : Batches α := addAll marker {} xs

variable {marker}

theorem addAll_append (b : Batches α) (xs ys : List α) :
    addAll marker b (xs ++ ys) = addAll marker (addAll marker b xs) ys :=
  List.foldl_append

theorem addAll_unmarked {xs : List α} (unmarked : ∀ x ∈ xs, marker x = false) (b : Batches α) :
    addAll marker b xs = ⟨b.closed, b.current ++ xs⟩ := by
  induction xs generalizing b with
  | nil => simp [addAll]
  | cons x xs ih =>
      obtain ⟨here, later⟩ := List.forall_mem_cons.mp unmarked
      have first : add marker b x = ⟨b.closed, b.current ++ [x]⟩ := by simp [add, here]
      have rest := ih later (add marker b x)
      rw [first] at rest
      simpa only [addAll, List.foldl_cons, first, List.append_assoc, List.singleton_append]
        using rest

theorem addAll_marker {m : α} (marked : marker m = true) (b : Batches α) :
    addAll marker b [m] = ⟨b.closed ++ [b.current], []⟩ := by
  simp [addAll, add, marked]

/-- The current batch is what came since the last marker. -/
theorem current_after_marker {pre post : List α} {m : α} (marked : marker m = true)
    (unmarked : ∀ x ∈ post, marker x = false) :
    (ofStream marker (pre ++ m :: post)).current = post := by
  have apart : pre ++ m :: post = pre ++ [m] ++ post := by simp
  rw [apart, ofStream, addAll_append, addAll_append, addAll_marker marked,
    addAll_unmarked unmarked]
  rfl

theorem current_unmarked {xs : List α} (unmarked : ∀ x ∈ xs, marker x = false) :
    (ofStream marker xs).current = xs := by
  rw [ofStream, addAll_unmarked unmarked]
  rfl

/-! ## Splitting at the markers -/

theorem addAll_splitOnP (b : Batches α) (xs : List α) :
    (addAll marker b xs).closed ++ [(addAll marker b xs).current] =
      b.closed ++ (xs.splitOnP marker).modifyHead (b.current ++ ·) := by
  induction xs generalizing b with
  | nil => simp [addAll]
  | cons x xs ih =>
      have turn : addAll marker b (x :: xs) = addAll marker (add marker b x) xs := rfl
      rw [turn, ih, List.splitOnP_cons_eq_if_modifyHead]
      cases marked : marker x with
      | true =>
          have opened : (xs.splitOnP marker).modifyHead ([] ++ ·) = xs.splitOnP marker :=
            congrFun List.modifyHead_id _
          simp only [add, marked, if_true, opened, List.modifyHead_cons, List.append_nil,
            List.append_assoc, List.singleton_append]
      | false =>
          simp only [add, marked, Bool.false_eq_true, if_false, List.modifyHead_modifyHead,
            Function.comp_def, List.append_assoc, List.singleton_append]

/-- The batches are the stream, split at its markers: the last part is the current batch. -/
theorem ofStream_splitOnP (xs : List α) :
    (ofStream marker xs).closed ++ [(ofStream marker xs).current] = xs.splitOnP marker :=
  (addAll_splitOnP {} xs).trans (congrFun List.modifyHead_id _)

/-- Each element but the markers is in one batch, once, and in its place. -/
theorem flatten_splitOnP (xs : List α) :
    (xs.splitOnP marker).flatten = xs.filter (fun x => !marker x) := by
  induction xs with
  | nil => rfl
  | cons x xs ih =>
      rw [List.splitOnP_cons_eq_if_modifyHead]
      cases marked : marker x with
      | true => simp [marked, ih]
      | false =>
          obtain ⟨first, later, parts⟩ := List.exists_cons_of_ne_nil (xs.splitOnP_ne_nil marker)
          rw [parts, List.flatten_cons] at ih
          simp [parts, marked, ih]

/-! ## Reporters -/

/-- One turn of a reporter: its summary of the current batch, and what it has put out. -/
def report (marker : α → Bool) (init : β) (count : β → α → β) (s : β × List β) (x : α) :
    β × List β :=
  if marker x then (init, s.2 ++ [s.1]) else (count s.1 x, s.2)

/-- A reporter puts out the summaries of the closed batches, and holds that of the current one. -/
theorem foldl_report (marker : α → Bool) (init : β) (count : β → α → β) (xs : List α) :
    xs.foldl (report marker init count) (init, []) =
      ((ofStream marker xs).current.foldl count init,
        (ofStream marker xs).closed.map fun batch => batch.foldl count init) := by
  have carried : ∀ b : Batches α, xs.foldl (report marker init count)
      (b.current.foldl count init, b.closed.map fun batch => batch.foldl count init) =
        ((addAll marker b xs).current.foldl count init,
          (addAll marker b xs).closed.map fun batch => batch.foldl count init) := by
    induction xs with
    | nil => intro b; rfl
    | cons x xs ih =>
        intro b
        have turn : report marker init count (b.current.foldl count init,
            b.closed.map fun batch => batch.foldl count init) x =
              ((add marker b x).current.foldl count init,
                (add marker b x).closed.map fun batch => batch.foldl count init) := by
          cases marked : marker x <;> simp [report, add, marked]
        simp only [List.foldl_cons, turn]
        exact ih (add marker b x)
  exact carried {}

end Batches

end PcdLab.Lib
