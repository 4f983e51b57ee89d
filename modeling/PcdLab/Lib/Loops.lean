import Mathlib.Data.List.Basic

/-! # Loops that may be refused

A loop whose body may fail ends with the first failure. What is known of the body for each element
is known of the loop.
-/

namespace PcdLab.Lib

variable {α β ε : Type}

theorem mapM_accepting {l : List α} {f : α → Except ε β} {g : α → β}
    (each : ∀ x ∈ l, f x = .ok (g x)) : l.mapM f = .ok (l.map g) := by
  induction l with
  | nil => rfl
  | cons x l ih =>
      obtain ⟨here, later⟩ := List.forall_mem_cons.mp each
      rw [List.mapM_cons, here, ih later]
      rfl

/-- The first element which is refused ends the loop. -/
theorem mapM_refusing {l : List α} {f : α → Except ε β} {g : α → β} {bad : α → Bool} {e : ε}
    (each : ∀ x ∈ l, f x = if bad x then .error e else .ok (g x)) :
    l.mapM f = if l.any bad then .error e else .ok (l.map g) := by
  induction l with
  | nil => rfl
  | cons x l ih =>
      obtain ⟨here, later⟩ := List.forall_mem_cons.mp each
      rw [List.mapM_cons, here, ih later, List.any_cons]
      cases bad x with
      | true => rfl
      | false => cases l.any bad <;> rfl

/-- A loop over lines which passes over those that are not read is a loop over the rest. -/
theorem foldlM_readings {γ : Type} {read : γ → Option α} {line : β → γ → Except ε β}
    {body : β → α → Except ε β} (unread : ∀ s l, read l = none → line s l = .ok s)
    (isRead : ∀ s l obj, read l = some obj → line s l = body s obj) (lines : List γ) (s : β) :
    lines.foldlM line s = (lines.filterMap read).foldlM body s := by
  rw [List.foldlM_filterMap]
  congr 1
  funext s l
  cases decoded : read l with
  | none => exact unread s l decoded
  | some obj => exact isRead s l obj decoded

end PcdLab.Lib
