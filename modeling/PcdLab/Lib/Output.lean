import Mathlib.Data.List.Infix

/-! # Programs that only append to an output

A program writes to a sink whose operations may fail. The failures are scripted:
one entry for each operation still to come, and none once the script is used up.
`Writes m out a` says what such a program does under every script, and composes
along the program's own sequencing.
-/

namespace PcdLab.Lib.Output

/-- The failure of one operation. A write that fails may have put out a first part. -/
structure Fault (ε : Type) where
  done : Nat
  error : ε
  deriving DecidableEq, Repr

structure Sink (α ε : Type) where
  faults : List (Option (Fault ε)) := []
  written : List α := []
  deriving DecidableEq, Repr

abbrev Program (α ε β : Type) := EStateM ε (Sink α ε) β

variable {α ε β γ : Type}

/-- Write all of `xs`, or fail with a first part of it written. -/
def write (xs : List α) : Program α ε Unit := fun s =>
  match s.faults with
  | some fault :: later =>
      .error fault.error { faults := later, written := s.written ++ xs.take fault.done }
  | faults => .ok () { faults := faults.tail, written := s.written ++ xs }

/-- Put out one element as a whole, or fail without it. -/
def put (x : α) : Program α ε Unit := fun s =>
  match s.faults with
  | some fault :: later => .error fault.error { s with faults := later }
  | faults => .ok () { faults := faults.tail, written := s.written ++ [x] }

/-- An operation that can fail and puts out nothing. -/
def act : Program α ε Unit := fun s =>
  match s.faults with
  | some fault :: later => .error fault.error { s with faults := later }
  | faults => .ok () { s with faults := faults.tail }

/-- Either an operation happens as a whole, or it fails and nothing is put out. -/
theorem put_cases (x : α) (s : Sink α ε) :
    (∃ t, put x s = .ok () t ∧ t.written = s.written ++ [x]) ∨
      ∃ e t, put x s = .error e t ∧ t.written = s.written := by
  unfold put
  split
  · exact .inr ⟨_, _, rfl, rfl⟩
  · exact .inl ⟨_, rfl, rfl⟩

theorem act_cases (s : Sink α ε) :
    (∃ t, act s = .ok () t ∧ t.written = s.written) ∨
      ∃ e t, act s = .error e t ∧ t.written = s.written := by
  unfold act
  split
  · exact .inr ⟨_, _, rfl, rfl⟩
  · exact .inl ⟨_, rfl, rfl⟩

/-- `m` puts out `out` and returns `a`. If an operation fails it returns that failure and
    has put out a prefix, and without scripted failures it does not fail. -/
def Writes (m : Program α ε β) (out : List α) (a : β) : Prop :=
  ∀ s, (∃ t, m s = .ok a t ∧ t.written = s.written ++ out ∧ (s.faults = [] → t.faults = [])) ∨
    (s.faults ≠ [] ∧ ∃ e t part, m s = .error e t ∧ part <+: out ∧ t.written = s.written ++ part)

/-- All that `m` has put out when it returns, or fails as scripted. -/
def output (m : Program α ε β) (script : List (Option (Fault ε))) : List α :=
  match m { faults := script } with
  | .ok _ t => t.written
  | .error _ t => t.written

namespace Writes

theorem pure (a : β) : Writes (Pure.pure a : Program α ε β) [] a := by
  intro s
  exact .inl ⟨s, rfl, (List.append_nil _).symm, id⟩

theorem bind {m : Program α ε β} {k : β → Program α ε γ} {out more : List α} {a : β} {b : γ}
    (first : Writes m out a) (next : Writes (k a) more b) : Writes (m >>= k) (out ++ more) b := by
  intro s
  rcases first s with ⟨t, ran, wrote, clean⟩ | ⟨scripted, e, t, part, failed, isPrefix, wrote⟩
  · have seq : (m >>= k) s = k a t := by simp only [Bind.bind, EStateM.bind, ran]
    rcases next t with ⟨u, ran', wrote', clean'⟩ | ⟨scripted, e, u, part, failed, isPrefix, wrote'⟩
    · refine .inl ⟨u, seq.trans ran', ?_, clean' ∘ clean⟩
      rw [wrote', wrote, List.append_assoc]
    · refine .inr ⟨fun unscripted => scripted (clean unscripted), e, u, out ++ part,
        seq.trans failed, ?_, ?_⟩
      · exact (List.prefix_append_right_inj out).mpr isPrefix
      · rw [wrote', wrote, List.append_assoc]
  · have seq : (m >>= k) s = .error e t := by simp only [Bind.bind, EStateM.bind, failed]
    exact .inr ⟨scripted, e, t, part, seq, isPrefix.trans (List.prefix_append out more), wrote⟩

theorem write (xs : List α) : Writes (write xs : Program α ε Unit) xs () := by
  intro s
  unfold Output.write
  split
  · rename_i fault later scripted
    exact .inr ⟨by simp only [scripted, ne_eq, reduceCtorEq, not_false_eq_true], _, _, _, rfl,
      List.take_prefix _ _, rfl⟩
  · refine .inl ⟨_, rfl, rfl, fun unscripted => ?_⟩
    simp only [unscripted, List.tail_nil]

theorem put (x : α) : Writes (put x : Program α ε Unit) [x] () := by
  intro s
  unfold Output.put
  split
  · rename_i fault later scripted
    exact .inr ⟨by simp only [scripted, ne_eq, reduceCtorEq, not_false_eq_true], _, _, [], rfl,
      List.nil_prefix, (List.append_nil _).symm⟩
  · refine .inl ⟨_, rfl, rfl, fun unscripted => ?_⟩
    simp only [unscripted, List.tail_nil]

theorem act : Writes (act : Program α ε Unit) [] () := by
  intro s
  unfold Output.act
  split
  · rename_i fault later scripted
    exact .inr ⟨by simp only [scripted, ne_eq, reduceCtorEq, not_false_eq_true], _, _, [], rfl,
      List.nil_prefix, (List.append_nil _).symm⟩
  · refine .inl ⟨_, rfl, (List.append_nil _).symm, fun unscripted => ?_⟩
    simp only [unscripted, List.tail_nil]

/-- A program that returns has put out all of its output. -/
theorem of_ok {m : Program α ε β} {out : List α} {a b : β} {s t : Sink α ε}
    (h : Writes m out a) (ran : m s = .ok b t) : b = a ∧ t.written = s.written ++ out := by
  rcases h s with ⟨u, ran', wrote, -⟩ | ⟨-, e, u, part, failed, -⟩
  · rw [ran'] at ran
    cases ran
    exact ⟨rfl, wrote⟩
  · rw [failed] at ran
    cases ran

/-- Without failures the program runs to its end. -/
theorem clean {m : Program α ε β} {out : List α} {a : β} (h : Writes m out a) :
    ∃ t, m {} = .ok a t ∧ t.written = out := by
  rcases h {} with ⟨t, ran, wrote, -⟩ | ⟨scripted, -⟩
  · exact ⟨t, ran, by simpa using wrote⟩
  · exact absurd rfl scripted

/-- Whatever fails, what was put out is the beginning of the whole. -/
theorem output_beginning {m : Program α ε β} {out : List α} {a : β} (h : Writes m out a)
    (script : List (Option (Fault ε))) : output m script <+: out := by
  unfold output
  rcases h { faults := script } with ⟨t, ran, wrote, -⟩ | ⟨-, e, t, part, failed, isPrefix, wrote⟩
  · have whole : t.written = out := wrote
    simp only [ran, whole, List.prefix_rfl]
  · have first : t.written = part := wrote
    simp only [failed, first, isPrefix]

end Writes

end PcdLab.Lib.Output
