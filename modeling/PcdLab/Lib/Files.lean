import Mathlib.Data.List.Basic
import Mathlib.Data.List.Induction

/-! # Files which are written again and again

A directory as a function of its names. Whatever is written under a name stays there until
something else is: the file is what was written to it last.
-/

namespace PcdLab.Lib

variable {ν α ε : Type*}

abbrev Files (ν α : Type*) := ν → Option α

namespace Files

def empty : Files ν α := fun _ => none

section

variable [DecidableEq ν]

def write (files : Files ν α) (name : ν) (content : α) : Files ν α :=
  fun other => if other = name then some content else files other

def writeAll (files : Files ν α) (writes : List (ν × α)) : Files ν α :=
  writes.foldl (fun files pair => files.write pair.1 pair.2) files

/-- What is written under the name last. -/
def lastOf (name : ν) (writes : List (ν × α)) : Option α :=
  (writes.reverse.find? fun pair => pair.1 = name).map Prod.snd

@[simp] theorem write_same (files : Files ν α) (name : ν) (content : α) :
    files.write name content name = some content := if_pos rfl

theorem write_other (files : Files ν α) {name other : ν} (content : α) (apart : other ≠ name) :
    files.write name content other = files other := if_neg apart

theorem writeAll_append (files : Files ν α) (first second : List (ν × α)) :
    files.writeAll (first ++ second) = (files.writeAll first).writeAll second :=
  List.foldl_append

@[simp] theorem lastOf_nil (name : ν) : lastOf name ([] : List (ν × α)) = none := rfl

theorem lastOf_append (name : ν) (first second : List (ν × α)) :
    lastOf name (first ++ second) = (lastOf name second).or (lastOf name first) := by
  rw [lastOf, List.reverse_append, List.find?_append, lastOf, lastOf]
  cases second.reverse.find? fun pair => pair.1 = name with
  | none => rfl
  | some pair => rfl

theorem lastOf_single (name other : ν) (content : α) :
    lastOf name [(other, content)] = if other = name then some content else none := by
  by_cases same : other = name <;> simp [lastOf, same]

/-- Of a file which may not be written. -/
theorem lastOf_option (name other : ν) (content : Option α) :
    lastOf name (content.map fun text => (other, text)).toList =
      if other = name then content else none := by
  cases content with
  | none => rw [ite_self]; rfl
  | some text => exact lastOf_single name other text

theorem writeAll_apply (files : Files ν α) (writes : List (ν × α)) (name : ν) :
    files.writeAll writes name = (lastOf name writes).or (files name) := by
  induction writes using List.reverseRecOn with
  | nil => rfl
  | append_singleton writes pair ih =>
      rw [writeAll_append, lastOf_append]
      by_cases here : pair.1 = name
      · subst here
        simp [writeAll, lastOf]
      · have apart : name ≠ pair.1 := fun same => here same.symm
        simp only [writeAll, List.foldl_cons, List.foldl_nil, write_other _ _ apart]
        simpa [lastOf, here, writeAll] using ih

/-- Where each of several writers writes under a name what `f` says, or does not touch it, the
    last one which does decides. -/
theorem lastOf_flatMap (name : ν) (writes : ε → List (ν × α)) (f : ε → Option α)
    (each : ∀ e, lastOf name (writes e) = f e) (events : List ε) :
    lastOf name (events.flatMap writes) = events.reverse.findSome? f := by
  induction events using List.reverseRecOn with
  | nil => rfl
  | append_singleton events e ih =>
      rw [List.flatMap_append, lastOf_append, List.reverse_append, List.flatMap_singleton, each,
        ih, List.reverse_singleton, List.singleton_append, List.findSome?_cons]
      cases f e with
      | none => rfl
      | some content => rfl

/-- Where all the others say nothing, one of them decides. -/
theorem findSome?_alone {f : ε → Option α} {e : ε} {events : List ε} (member : e ∈ events)
    (others : ∀ other ∈ events, other ≠ e → f other = none) : events.findSome? f = f e := by
  cases said : f e with
  | none =>
      apply List.findSome?_eq_none_iff.mpr
      intro other inside
      by_cases same : other = e
      · rw [same, said]
      · exact others other inside same
  | some content =>
      cases found : events.findSome? f with
      | none => rw [List.findSome?_eq_none_iff.mp found e member] at said; cases said
      | some other =>
          obtain ⟨speaker, inside, speaks⟩ := List.exists_of_findSome?_eq_some found
          by_cases same : speaker = e
          · rw [← speaks, same, said]
          · rw [others speaker inside same] at speaks
            cases speaks

end

end Files

end PcdLab.Lib
