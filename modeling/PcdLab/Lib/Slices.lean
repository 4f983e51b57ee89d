import Mathlib.Algebra.Order.Floor.Div
import Mathlib.Data.Nat.Basic
import Mathlib.Algebra.BigOperators.Group.List.Basic
import Mathlib.Tactic.Ring

/-! # Cutting a list into slices of a fixed size

`slices b xs` is stated by position: the `i`-th slice is what lies between
`i * b` and `(i + 1) * b`. The recursion which a loop over the list follows is
derived from that, and so are the facts about the slices together.
-/

namespace PcdLab.Lib.Slices

variable {α : Type*}

/-- The elements at positions `i * b` up to `(i + 1) * b`. -/
def slice (b : Nat) (xs : List α) (i : Nat) : List α := (xs.drop (i * b)).take b

def slices (b : Nat) (xs : List α) : List (List α) :=
  (List.range (xs.length ⌈/⌉ b)).map (slice b xs)

@[simp] theorem length_slices (b : Nat) (xs : List α) :
    (slices b xs).length = xs.length ⌈/⌉ b := by
  simp only [slices, List.length_map, List.length_range]

theorem getElem?_slices (b : Nat) (xs : List α) (i : Nat) :
    (slices b xs)[i]? = if i < xs.length ⌈/⌉ b then some (slice b xs i) else none := by
  by_cases inside : i < xs.length ⌈/⌉ b
  · simp only [slices, List.getElem?_map, List.getElem?_range inside, Option.map_some,
      if_pos inside]
  · simp only [slices, List.getElem?_map, if_neg inside, Option.map_eq_none_iff,
      List.getElem?_eq_none_iff, List.length_range]
    omega

@[simp] theorem slices_nil (b : Nat) : slices b ([] : List α) = [] := by
  simp only [slices, List.length_nil, zero_ceilDiv, List.range_zero, List.map_nil]

theorem ceilDiv_step {b n : Nat} (hb : 0 < b) (hn : 0 < n) : n ⌈/⌉ b = (n - b) ⌈/⌉ b + 1 := by
  simp only [Nat.ceilDiv_eq_add_pred_div]
  by_cases small : n ≤ b
  · have first : (n + b - 1) / b = 1 := Nat.div_eq_of_lt_le (by omega) (by omega)
    have rest : (n - b + b - 1) / b = 0 := Nat.div_eq_of_lt (by omega)
    rw [first, rest]
  · have shift : n + b - 1 = (n - b + b - 1) + b := by omega
    rw [shift, Nat.add_div_right _ hb]

theorem lt_ceilDiv {b n i : Nat} (hb : 0 < b) : i < n ⌈/⌉ b ↔ i * b < n := by
  rw [← Nat.not_le, ceilDiv_le_iff_le_mul hb, Nat.mul_comm, Nat.not_le]

/-- A slice as a range of positions, the last of which may be cut short. -/
theorem slice_eq_range (b : Nat) (xs : List α) (i : Nat) :
    slice b xs i = (xs.take (min ((i + 1) * b) xs.length)).drop (i * b) := by
  rw [slice, List.drop_take, List.take_eq_take_iff, List.length_drop, Nat.succ_mul]
  omega

theorem length_slice (b : Nat) (xs : List α) (i : Nat) :
    (slice b xs i).length = min b (xs.length - i * b) := by
  rw [slice, List.length_take, List.length_drop]

/-- The loop view: one slice is taken off the front as long as something is left. -/
theorem slices_of_ne_nil {b : Nat} {xs : List α} (hb : 0 < b) (hne : xs ≠ []) :
    slices b xs = xs.take b :: slices b (xs.drop b) := by
  have count := ceilDiv_step hb (List.length_pos_of_ne_nil hne)
  have later : ∀ i, slice b xs (i + 1) = slice b (xs.drop b) i := by
    intro i
    simp only [slice, List.drop_drop]
    congr 2
    ring
  simp only [slices, count, List.range_succ_eq_map, List.map_cons, List.map_map,
    List.length_drop, slice, Nat.zero_mul, List.drop_zero]
  exact congrArg (List.cons _) (List.map_congr_left (fun i _ => later i))

/-- Induction along the loop: from what is left after a slice to the whole list. -/
theorem sliceInduction {motive : List α → Prop} {b : Nat} (hb : 0 < b) (nil : motive [])
    (step : ∀ xs, xs ≠ [] → motive (xs.drop b) → motive xs) (xs : List α) : motive xs := by
  induction size : xs.length using Nat.strongRecOn generalizing xs with
  | ind n ih =>
      by_cases hne : xs = []
      · exact hne ▸ nil
      · have shorter : (xs.drop b).length < n := by
          have := List.length_pos_of_ne_nil hne
          simp only [List.length_drop]
          omega
        exact step xs hne (ih _ shorter _ rfl)

theorem flatten_slices {b : Nat} (hb : 0 < b) (xs : List α) : (slices b xs).flatten = xs := by
  induction xs using sliceInduction hb with
  | nil => simp only [slices_nil, List.flatten_nil]
  | step xs hne ih =>
      rw [slices_of_ne_nil hb hne, List.flatten_cons, ih, List.take_append_drop]

theorem slice_mem {b : Nat} {xs : List α} (hb : 0 < b) {c : List α} (member : c ∈ slices b xs) :
    c ≠ [] ∧ c.length ≤ b := by
  induction xs using sliceInduction hb with
  | nil => simp only [slices_nil, List.not_mem_nil] at member
  | step xs hne ih =>
      rw [slices_of_ne_nil hb hne] at member
      rcases List.mem_cons.mp member with rfl | later
      · have := List.length_pos_of_ne_nil hne
        refine ⟨List.ne_nil_of_length_pos ?_, List.length_take_le b xs⟩
        rw [List.length_take]
        omega
      · exact ih later

/-- No slice is longer than the whole list. -/
theorem slice_mem_le {b : Nat} {xs : List α} (hb : 0 < b) {c : List α}
    (member : c ∈ slices b xs) : c.length ≤ xs.length := by
  have part := (List.sublist_flatten_of_mem member).length_le
  rwa [flatten_slices hb] at part

/-- No element is lost or counted twice. -/
theorem sum_length_slices {b : Nat} (hb : 0 < b) (xs : List α) :
    ((slices b xs).map List.length).sum = xs.length := by
  rw [← List.length_flatten, flatten_slices hb]

end PcdLab.Lib.Slices
