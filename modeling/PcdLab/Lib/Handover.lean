import Mathlib.Logic.Relation

/-! # Handing items over one at a time

The purpose of a stop-and-wait protocol, without messages. A giver hands `total`
items to a taker in order: the next item is handed over only when the last one is
confirmed, and confirmed only when it has been handed over. The giver sees its own
confirmations only, and is never more than one item behind the taker.
-/

namespace PcdLab.Lib

/-- How many items the taker holds, and how many the giver knows it to hold. -/
structure Handover where
  held : Nat
  confirmed : Nat
  deriving Repr, DecidableEq

namespace Handover

def start : Handover := ⟨0, 0⟩

/-- One step of a handover of `total` items. -/
inductive Step (total : Nat) : Handover → Handover → Prop where
  | hand {k} (more : k < total) : Step total ⟨k, k⟩ ⟨k + 1, k⟩
  | confirm {k held} (held_next : k < held) : Step total ⟨held, k⟩ ⟨held, k + 1⟩

abbrev Steps (total : Nat) := Relation.ReflTransGen (Step total)

structure Bounds (total : Nat) (h : Handover) : Prop where
  confirmed_le : h.confirmed ≤ h.held
  held_le : h.held ≤ h.confirmed + 1
  held_le_total : h.held ≤ total

variable {total : Nat} {h h' : Handover}

theorem Bounds.start : Bounds total start := ⟨Nat.le_refl 0, Nat.zero_le 1, Nat.zero_le total⟩

theorem Step.bounds (bounds : Bounds total h) (moved : Step total h h') : Bounds total h' := by
  cases moved with
  | hand more => exact ⟨Nat.le_succ _, Nat.le_refl _, more⟩
  | confirm held_next => exact ⟨held_next, Nat.le_succ_of_le bounds.held_le, bounds.held_le_total⟩

theorem Steps.bounds (reached : Steps total .start h) : Bounds total h := by
  induction reached with
  | refl => exact Bounds.start
  | tail _ moved ih => exact moved.bounds ih

/-- A giver who has had every item confirmed has handed over every item. -/
theorem Bounds.complete (bounds : Bounds total h) (done : h.confirmed = total) :
    h.held = total :=
  Nat.le_antisymm bounds.held_le_total (done ▸ bounds.confirmed_le)

end Handover

end PcdLab.Lib
