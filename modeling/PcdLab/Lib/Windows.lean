import Mathlib.Algebra.BigOperators.Group.List.Basic
import Mathlib.Algebra.Order.Floor.Semiring
import Mathlib.Data.List.Pairwise
import Mathlib.Data.List.Sort
import Mathlib.Tactic.Linarith
import Mathlib.Tactic.Ring

/-! # Windows of one width

Half-open windows which start at the multiples of a width. A time lies in at most one of
them, and in one of the first `n` exactly if it is between zero and the end of the last.
-/

namespace PcdLab.Lib.Windows

section Times

variable {K : Type*} [Field K] [LinearOrder K]

/-- The window of width `w` that starts at `b` has the time `t` in it. -/
def inside (w b t : K) : Bool := b ≤ t ∧ t < b + w

variable [IsStrictOrderedRing K]

/-- One window is added at a time: what it has in it was not in an earlier one. -/
theorem length_filter_inside {w : K} (wide : 0 < w) (t : K) (n : ℕ) :
    (((List.range n).map fun i : ℕ => (i : K) * w).filter (inside w · t)).length =
      if 0 ≤ t ∧ t < n * w then 1 else 0 := by
  induction n with
  | zero =>
      have outside : ¬ (0 ≤ t ∧ t < ((0 : ℕ) : K) * w) := by
        intro both
        rw [Nat.cast_zero, zero_mul] at both
        exact absurd both.2 (not_lt.mpr both.1)
      rw [if_neg outside]
      rfl
  | succ n ih =>
      have start : 0 ≤ (n : K) * w := mul_nonneg n.cast_nonneg wide.le
      have next : ((n + 1 : ℕ) : K) * w = n * w + w := by
        push_cast
        ring
      rw [List.range_succ, List.map_append, List.filter_append, List.length_append, ih, next]
      by_cases last : (n : K) * w ≤ t ∧ t < n * w + w
      · have here : inside w ((n : K) * w) t = true := decide_eq_true last
        have notBefore : ¬ (0 ≤ t ∧ t < (n : K) * w) :=
          fun both => absurd both.2 (not_lt.mpr last.1)
        rw [if_neg notBefore, if_pos ⟨start.trans last.1, last.2⟩]
        simp [here]
      · have here : inside w ((n : K) * w) t = false := decide_eq_false last
        have same : (0 ≤ t ∧ t < (n : K) * w) ↔ 0 ≤ t ∧ t < n * w + w := by
          apply and_congr_right
          intro _
          constructor
          · intro before
            linarith
          · intro before
            by_contra behind
            exact last ⟨not_lt.mp behind, before⟩
        simp [here, same]

variable [FloorSemiring K]

/-- `numpy.arange`: as many steps from `start` as it takes to come to `stop`, which is not one
    of them. -/
def arange (start stop step : K) : List K :=
  (List.range ⌈(stop - start) / step⌉₊).map fun i : ℕ => start + i * step

/-- Up to one step behind `last`, without the last of the steps. -/
theorem dropLast_arange {w last : K} (wide : 0 < w) (positive : 0 ≤ last) :
    (arange 0 (last + w) w).dropLast =
      (List.range ⌈last / w⌉₊).map fun i : ℕ => (i : K) * w := by
  have steps : ⌈(last + w - 0) / w⌉₊ = ⌈last / w⌉₊ + 1 := by
    rw [sub_zero, add_div, div_self wide.ne']
    exact Nat.ceil_add_one (div_nonneg positive wide.le)
  rw [arange, steps, List.range_succ, List.map_append, List.map_singleton, List.dropLast_concat]
  simp only [zero_add]

/-- The windows up to the last time end behind it, unless it is where a window would start. -/
theorem last_lt_iff {w last : K} (wide : 0 < w) :
    last < ⌈last / w⌉₊ * w ↔ ∀ k : ℕ, last ≠ k * w := by
  constructor
  · intro covered k edge
    rw [edge, mul_div_cancel_right₀ _ wide.ne', Nat.ceil_natCast] at covered
    exact lt_irrefl _ covered
  · intro noEdge
    have atMost : last ≤ ⌈last / w⌉₊ * w := (div_le_iff₀ wide).mp (Nat.le_ceil _)
    exact lt_of_le_of_ne atMost (noEdge _)

end Times

section Items

variable {α β : Type*}

theorem length_filter_eq_sum (p : α → Bool) (items : List α) :
    (items.filter p).length = (items.map fun a => if p a then 1 else 0).sum := by
  induction items with
  | nil => rfl
  | cons a items ih =>
      rw [List.map_cons, List.sum_cons, ← ih]
      cases here : p a
      · simp [here]
      · simp [here, Nat.add_comm]

/-- Counted by windows or by items, it is the same pairs. -/
theorem sum_sizes (within : β → α → Bool) (windows : List β) (items : List α) :
    (windows.map fun b => (items.filter (within b)).length).sum =
      (items.map fun a => (windows.filter (within · a)).length).sum := by
  simp only [length_filter_eq_sum]
  induction items with
  | nil => simp
  | cons a items ih => simp only [List.map_cons, List.sum_cons, List.sum_map_add, ih]

/-- When each item is in one window, the sizes of the windows add up to the number of items. -/
theorem sum_sizes_of_once {within : β → α → Bool} {windows : List β} {items : List α}
    (once : ∀ a ∈ items, (windows.filter (within · a)).length = 1) :
    (windows.map fun b => (items.filter (within b)).length).sum = items.length := by
  rw [sum_sizes, List.map_congr_left once, List.map_const', List.sum_replicate_nat, Nat.mul_one]

section Sorting

variable {r s : α → α → Prop} [DecidableRel r] (trans : ∀ {a b c}, s a b → s b c → s a c)
  (forth : ∀ {a b}, r a b → s a b) (back : ∀ {a b}, ¬ r a b → s b a)

include trans forth back

theorem pairwise_orderedInsert {a : α} {items : List α} (sorted : items.Pairwise s) :
    (items.orderedInsert r a).Pairwise s := by
  induction items with
  | nil => exact List.pairwise_singleton s a
  | cons b items ih =>
      obtain ⟨first, rest⟩ := List.pairwise_cons.mp sorted
      rw [List.orderedInsert_cons]
      split
      · rename_i before
        refine List.pairwise_cons.mpr ⟨?_, sorted⟩
        intro c member
        cases member with
        | head => exact forth before
        | tail _ later => exact trans (forth before) (first c later)
      · rename_i behind
        refine List.pairwise_cons.mpr ⟨?_, ih rest⟩
        intro c member
        cases (List.mem_orderedInsert r).mp member with
        | inl new => exact new ▸ back behind
        | inr old => exact first c old

/-- A sort by a test that refines an order sorts by the order. -/
theorem pairwise_insertionSort (items : List α) : (items.insertionSort r).Pairwise s := by
  induction items with
  | nil => exact .nil
  | cons a items ih =>
      rw [List.insertionSort_cons]
      exact pairwise_orderedInsert (s := s) trans forth back ih

end Sorting

end Items

end PcdLab.Lib.Windows
