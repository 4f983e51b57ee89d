import Mathlib.Data.List.Perm.Basic
import Mathlib.Algebra.BigOperators.Group.List.Basic
import Mathlib.Algebra.Order.BigOperators.Group.List
import Mathlib.Algebra.GroupWithZero.Nat

/-! # Datagram channels

A channel is the pool of messages in flight, together with the history of what
was put into it and what became of it. Any message in flight may be taken next,
so the pool is reordered and delayed freely; it may also be dropped or
duplicated, but there is no move which changes a message or makes one up.
-/

namespace PcdLab.Lib

structure Channel (α : Type*) where
  sent : List α := []
  flight : List α := []
  delivered : List α := []
  dropped : List α := []
  deriving DecidableEq, Repr

namespace Channel

variable {α : Type*}

/-- What a channel may do to a message in flight other than delivering it. -/
inductive Fault (α : Type*) where
  | drop (m : α)
  | duplicate (m : α)
  deriving DecidableEq, Repr

def Fault.duplicates : Fault α → Bool
  | .drop _ => false
  | .duplicate _ => true

def send (c : Channel α) (m : α) : Channel α :=
  { c with sent := c.sent ++ [m], flight := c.flight ++ [m] }

section Moves

variable [DecidableEq α]

def deliver (c : Channel α) (m : α) : Option (Channel α) :=
  if m ∈ c.flight then
    some { c with flight := c.flight.erase m, delivered := c.delivered ++ [m] }
  else none

def fault (c : Channel α) : Fault α → Option (Channel α)
  | .drop m =>
      if m ∈ c.flight then
        some { c with flight := c.flight.erase m, dropped := c.dropped ++ [m] }
      else none
  | .duplicate m => if m ∈ c.flight then some { c with flight := m :: c.flight } else none

theorem deliver_eq_some {c d : Channel α} {m : α} :
    c.deliver m = some d ↔ m ∈ c.flight ∧
      d = { c with flight := c.flight.erase m, delivered := c.delivered ++ [m] } := by
  simp only [deliver, Option.ite_none_right_eq_some, Option.some.injEq, eq_comm (b := d)]

theorem deliver_sent {c d : Channel α} {m : α} (moved : c.deliver m = some d) :
    d.sent = c.sent := by
  obtain ⟨-, rfl⟩ := deliver_eq_some.mp moved
  rfl

theorem deliver_delivered {c d : Channel α} {m : α} (moved : c.deliver m = some d) :
    d.delivered = c.delivered ++ [m] := by
  obtain ⟨-, rfl⟩ := deliver_eq_some.mp moved
  rfl

theorem mem_flight_of_deliver {c d : Channel α} {m x : α} (moved : c.deliver m = some d)
    (member : x ∈ d.flight) : x ∈ c.flight := by
  obtain ⟨-, rfl⟩ := deliver_eq_some.mp moved
  exact List.mem_of_mem_erase member

theorem fault_sent {c d : Channel α} {f : Fault α} (moved : c.fault f = some d) :
    d.sent = c.sent := by
  cases f <;> simp only [fault, Option.ite_none_right_eq_some, Option.some.injEq] at moved <;>
    exact moved.2 ▸ rfl

theorem fault_delivered {c d : Channel α} {f : Fault α} (moved : c.fault f = some d) :
    d.delivered = c.delivered := by
  cases f <;> simp only [fault, Option.ite_none_right_eq_some, Option.some.injEq] at moved <;>
    exact moved.2 ▸ rfl

end Moves

@[simp] theorem send_sent (c : Channel α) (m : α) : (c.send m).sent = c.sent ++ [m] := rfl

/-- Nothing is made up: what is in flight or has arrived was put into the channel. -/
structure Genuine (c : Channel α) : Prop where
  flight : ∀ m ∈ c.flight, m ∈ c.sent
  delivered : ∀ m ∈ c.delivered, m ∈ c.sent

namespace Genuine

theorem empty : Genuine ({} : Channel α) where
  flight := by simp
  delivered := by simp

theorem send {c : Channel α} (h : c.Genuine) (m : α) : (c.send m).Genuine where
  flight := by
    intro x member
    rcases List.mem_append.mp member with old | new
    · exact List.mem_append_left _ (h.flight x old)
    · exact List.mem_append_right _ new
  delivered := fun x member => List.mem_append_left _ (h.delivered x member)

variable [DecidableEq α]

theorem deliver {c d : Channel α} {m : α} (h : c.Genuine) (moved : c.deliver m = some d) :
    d.Genuine := by
  obtain ⟨inFlight, rfl⟩ := deliver_eq_some.mp moved
  refine ⟨fun x member => h.flight x (List.mem_of_mem_erase member), fun x member => ?_⟩
  rcases List.mem_append.mp member with old | new
  · exact h.delivered x old
  · exact h.flight x (List.mem_singleton.mp new ▸ inFlight)

theorem fault {c d : Channel α} {f : Fault α} (h : c.Genuine) (moved : c.fault f = some d) :
    d.Genuine := by
  cases f with
  | drop m =>
      obtain ⟨-, rfl⟩ := Option.ite_none_right_eq_some.mp moved |>.imp id Option.some.inj
      exact ⟨fun x member => h.flight x (List.mem_of_mem_erase member), h.delivered⟩
  | duplicate m =>
      obtain ⟨inFlight, rfl⟩ := Option.ite_none_right_eq_some.mp moved |>.imp id Option.some.inj
      refine ⟨fun x member => ?_, h.delivered⟩
      rcases List.mem_cons.mp member with rfl | old
      · exact h.flight x inFlight
      · exact h.flight x old

end Genuine

/-- Nothing is lost sight of: each message put in has arrived, is in flight, or was dropped. -/
def Conserved (c : Channel α) : Prop := (c.delivered ++ c.flight ++ c.dropped).Perm c.sent

namespace Conserved

theorem empty : Conserved ({} : Channel α) := .nil

theorem send {c : Channel α} (h : c.Conserved) (m : α) : (c.send m).Conserved := by
  have moved : (c.delivered ++ (c.flight ++ [m]) ++ c.dropped).Perm
      (c.delivered ++ c.flight ++ c.dropped ++ [m]) := by
    simp only [List.append_assoc]
    exact (List.perm_append_comm.append_left _).append_left _
  exact moved.trans (h.append_right [m])

variable [DecidableEq α]

theorem deliver {c d : Channel α} {m : α} (h : c.Conserved) (moved : c.deliver m = some d) :
    d.Conserved := by
  obtain ⟨inFlight, rfl⟩ := deliver_eq_some.mp moved
  have taken : (c.delivered ++ [m] ++ c.flight.erase m).Perm (c.delivered ++ c.flight) := by
    rw [List.append_assoc]
    exact (List.perm_cons_erase inFlight).symm.append_left _
  exact (taken.append_right c.dropped).trans h

theorem drop {c d : Channel α} {m : α} (h : c.Conserved) (moved : c.fault (.drop m) = some d) :
    d.Conserved := by
  obtain ⟨inFlight, rfl⟩ := Option.ite_none_right_eq_some.mp moved |>.imp id Option.some.inj
  have last : (c.delivered ++ c.flight.erase m ++ (c.dropped ++ [m])).Perm
      (m :: (c.delivered ++ c.flight.erase m ++ c.dropped)) := by
    rw [← List.append_assoc]
    exact List.perm_append_singleton _ _
  have back : (m :: (c.delivered ++ c.flight.erase m)).Perm (c.delivered ++ c.flight) :=
    List.perm_middle.symm.trans ((List.perm_cons_erase inFlight).symm.append_left _)
  exact (last.trans (back.append_right c.dropped)).trans h

theorem fault {c d : Channel α} {f : Fault α} (h : c.Conserved) (single : f.duplicates = false)
    (moved : c.fault f = some d) : d.Conserved := by
  cases f with
  | drop m => exact h.drop moved
  | duplicate m => simp only [Fault.duplicates, Bool.true_eq_false] at single

omit [DecidableEq α] in
/-- By any measure, what arrived, what is in flight and what was dropped add up to what was
    sent. -/
theorem sum_sent {c : Channel α} (h : c.Conserved) (weight : α → Nat) :
    (c.delivered.map weight).sum + (c.flight.map weight).sum + (c.dropped.map weight).sum =
      (c.sent.map weight).sum := by
  rw [← (h.map weight).sum_eq]
  simp only [List.map_append, List.sum_append]

omit [DecidableEq α] in
theorem sum_delivered_le {c : Channel α} (h : c.Conserved) (weight : α → Nat) :
    (c.delivered.map weight).sum ≤ (c.sent.map weight).sum := by
  have whole := h.sum_sent weight
  omega

omit [DecidableEq α] in
theorem mem_sent_of_flight {c : Channel α} (h : c.Conserved) {m : α} (inFlight : m ∈ c.flight) :
    m ∈ c.sent :=
  h.mem_iff.mp (List.mem_append_left _ (List.mem_append_right _ inFlight))

end Conserved

end Channel

end PcdLab.Lib
