import PcdLab.Lib.JsonPrinting

/-! # JSON texts cut short

Whoever writes a text may stop before its end. As long as there are more containers open than the
text has closing brackets left, no part of the text makes a value, wherever it is cut.
-/

namespace PcdLab.Lib.Json

def isCloser (c : Char) : Bool := c = ']' ∨ c = '\x7d'

theorem atomChar_closer {c : Char} (known : isAtomChar c) : ¬ isCloser c := by
  have inner := (atomChar_inner known).2
  have bracket : c ≠ ']' := ne_of_inner inner (by decide)
  have brace : c ≠ '\x7d' := ne_of_inner inner (by decide)
  simp [isCloser, bracket, brace]

/-! ## What a character takes off the stack -/

theorem complete_stack {v : Json} {stack : List Frame} {t : State}
    (completed : complete v stack = some t) : t.stack.length = stack.length := by
  unfold complete at completed
  split at completed <;> cases completed <;> rfl

theorem endString_stack {isKey : Bool} {s : Text} {stack : List Frame} {t : State}
    (ended : endString isKey s stack = some t) : t.stack.length = stack.length := by
  unfold endString at ended
  split at ended
  · split at ended <;> cases ended
    rfl
  · exact complete_stack ended

theorem openValue_stack {stack : List Frame} {c : Char} {t : State}
    (opened : openValue stack c = some t) : stack.length ≤ t.stack.length := by
  unfold openValue at opened
  repeat' split at opened
  all_goals cases opened
  all_goals simp

theorem closeArray_stack {stack : List Frame} {t : State} (closed : closeArray stack = some t) :
    stack.length = t.stack.length + 1 := by
  unfold closeArray at closed
  split at closed
  · rw [complete_stack closed, List.length_cons]
  · cases closed

theorem closeObject_stack {stack : List Frame} {t : State} (closed : closeObject stack = some t) :
    stack.length = t.stack.length + 1 := by
  unfold closeObject at closed
  split at closed
  · rw [complete_stack closed, List.length_cons]
  · cases closed

theorem separate_stack {stack : List Frame} {c : Char} {t : State}
    (separated : separate stack c = some t) :
    stack.length ≤ t.stack.length + if isCloser c then 1 else 0 := by
  unfold separate at separated
  split at separated
  · cases separated
    simp
  · cases separated
    simp
  · rw [closeArray_stack separated]
    simp [isCloser]
  · rw [closeObject_stack separated]
    simp [isCloser]
  · cases separated

theorem afterValue_stack {s t : State} {c : Char} (read : afterValue s c = some t) :
    s.stack.length ≤ t.stack.length + if isCloser c then 1 else 0 := by
  unfold afterValue at read
  split at read
  · cases read
    exact Nat.le_add_right _ _
  · split at read
    · exact separate_stack read
    · cases read

/-- Only a closing bracket makes the stack shorter, and only by one. -/
theorem step_stack {s t : State} {c : Char} (read : step s c = some t) :
    s.stack.length ≤ t.stack.length + if isCloser c then 1 else 0 := by
  obtain ⟨stack, mode⟩ := s
  cases mode with
  | value =>
      simp only [step] at read
      split at read
      · cases read
        exact Nat.le_add_right _ _
      · exact Nat.le_add_right_of_le (openValue_stack read)
  | firstElement =>
      simp only [step] at read
      split at read
      · cases read
        exact Nat.le_add_right _ _
      · split at read
        · rename_i bracket
          rw [closeArray_stack read, bracket]
          rfl
        · exact Nat.le_add_right_of_le (openValue_stack read)
  | key =>
      simp only [step] at read
      repeat' split at read
      all_goals cases read
      all_goals exact Nat.le_add_right _ _
  | firstKey =>
      simp only [step] at read
      split at read
      · cases read
        exact Nat.le_add_right _ _
      · split at read
        · rename_i brace
          rw [closeObject_stack read, brace]
          rfl
        · split at read <;> cases read
          exact Nat.le_add_right _ _
  | colon =>
      simp only [step] at read
      repeat' split at read
      all_goals cases read
      all_goals exact Nat.le_add_right _ _
  | afterElement | done => exact afterValue_stack read
  | string isKey text =>
      simp only [step] at read
      split at read
      · rw [endString_stack read]
        exact Nat.le_add_right _ _
      · repeat' split at read
        all_goals cases read
        all_goals exact Nat.le_add_right _ _
  | escape isKey text =>
      simp only [step] at read
      split at read
      · cases read
        exact Nat.le_add_right _ _
      · obtain ⟨code, -, rfl⟩ := Option.map_eq_some_iff.mp read
        exact Nat.le_add_right _ _
  | hex isKey text left unit =>
      obtain ⟨digit, -, rfl⟩ := Option.map_eq_some_iff.mp read
      split <;> exact Nat.le_add_right _ _
  | atom text =>
      simp only [step] at read
      split at read
      · obtain ⟨u, closed, behind⟩ := Option.bind_eq_some_iff.mp read
        obtain ⟨v, -, completed⟩ := Option.bind_eq_some_iff.mp closed
        rw [← complete_stack completed]
        exact afterValue_stack behind
      · cases read
        exact Nat.le_add_right _ _

theorem run_stack {s t : State} {text : List Char} (read : run s text = some t) :
    s.stack.length ≤ t.stack.length + text.countP isCloser := by
  induction text generalizing s with
  | nil =>
      cases read
      exact Nat.le_add_right _ _
  | cons c text ih =>
      obtain ⟨u, first, rest⟩ := Option.bind_eq_some_iff.mp read
      have here := step_stack first
      have later := ih rest
      rw [List.countP_cons]
      omega

/-! ## Texts without a value in any part -/

/-- Wherever the text ends, there is no value. -/
def Unfinished (s : State) (text : List Char) : Prop :=
  ∀ part, part <+: text → (run s part).bind finish = none

theorem finish_open {s : State} (isOpen : s.stack ≠ []) : finish s = none := by
  obtain ⟨stack, mode⟩ := s
  cases stack with
  | nil => exact absurd rfl isOpen
  | cons frame stack => rfl

/-- There are more containers open than the text can close. -/
theorem unfinished_of_few {s : State} {text : List Char}
    (few : text.countP isCloser < s.stack.length) : Unfinished s text := by
  intro part inside
  cases read : run s part with
  | none => rfl
  | some t =>
      have bound := run_stack read
      have fewer := inside.sublist.countP_le (p := isCloser)
      apply finish_open
      intro empty
      rw [empty, List.length_nil] at bound
      omega

theorem unfinished_string {chars : List Char} (plain : ∀ c ∈ chars, isPlain c)
    (stack : List Frame) (isKey : Bool) (read : Text) :
    Unfinished ⟨stack, .string isKey read⟩ chars := by
  intro part inside
  have ran := run_string (fun c member => plain c (inside.subset member)) stack isKey read []
  rw [List.append_nil] at ran
  rw [ran]
  cases stack <;> rfl

theorem Unfinished.append {s : State} {front rest : List Char} (first : Unfinished s front)
    (second : ∀ t, run s front = some t → Unfinished t rest) : Unfinished s (front ++ rest) := by
  intro part inside
  cases List.prefix_or_prefix_of_prefix inside (List.prefix_append front rest) with
  | inl short => exact first part short
  | inr long =>
      obtain ⟨more, rfl⟩ := long
      have later := (List.prefix_append_right_inj front).mp inside
      rw [run_append, Option.bind_assoc]
      cases read : run s front with
      | none => rfl
      | some t => exact second t read more later

/-- An object that is never closed. -/
theorem unfinished_object {text : List Char} (brace : text.head? = some '\x7b')
    (closers : text.countP isCloser = 0) : Unfinished start text := by
  obtain ⟨rest, rfl⟩ := List.head?_eq_some_iff.mp brace
  have first : Unfinished start ['\x7b'] := by
    intro part inside
    rcases List.prefix_cons_iff.mp inside with rfl | ⟨more, rfl, empty⟩
    · rfl
    · rw [List.prefix_nil.mp empty]
      rfl
  rw [← List.singleton_append]
  apply first.append
  rintro t ⟨⟩
  apply unfinished_of_few
  rw [List.countP_cons] at closers
  exact (Nat.eq_zero_of_add_eq_zero_right closers) ▸ Nat.one_pos

/-- Of a text which ends with a brace and a line end, both without a value before, only the line
    end can be left out. -/
theorem loads_cut {body : List Char} (unfinished : Unfinished start body) (missing : Nat) :
    loads ((body ++ ['\x7d', '\n']).rdrop missing) =
      if missing ≤ 1 then loads (body ++ ['\x7d', '\n']) else none := by
  have split : body ++ ['\x7d', '\n'] = (body ++ ['\x7d']) ++ ['\n'] := by simp
  rw [split]
  match missing with
  | 0 => rw [List.rdrop_zero, if_pos (by decide)]
  | 1 =>
      rw [List.rdrop_concat_succ, List.rdrop_zero, if_pos (by decide),
        loads_concat_whitespace (by decide : isWhitespace '\n')]
  | missing + 2 =>
      rw [List.rdrop_concat_succ, List.rdrop_concat_succ, if_neg (by omega)]
      exact unfinished _ (List.take_prefix _ _)

end PcdLab.Lib.Json
