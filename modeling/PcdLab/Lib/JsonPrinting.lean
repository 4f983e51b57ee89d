import Mathlib.Data.Rat.Cast.Defs
import PcdLab.Lib.Json

/-! # Printing JSON

An integer that is printed, and a key in quotes, are decoded to themselves, wherever in an
object they stand. A text that a script writes around the values of its variables is decoded piece
by piece: the parts which the script spells out are walked through once and for all, and a value
in between is decoded as it would be by itself.
-/

namespace PcdLab.Lib.Json

/-- The digits, with a sign if there must be one. -/
def printed (z : Int) : List Char :=
  if z < 0 then '-' :: Nat.toDigits 10 z.natAbs else Nat.toDigits 10 z.natAbs

theorem natural_toDigits (n : Nat) : natural (Nat.toDigits 10 n) = n :=
  Nat.ofDigitChars_ten_toDigits

theorem toDigits_isDigit {n : Nat} {c : Char} (member : c ∈ Nat.toDigits 10 n) : c.isDigit :=
  Nat.isDigit_of_mem_toDigits (by decide) (by decide) member

/-- The digits of a number begin with a zero only if it is zero. -/
theorem isWhole_toDigits (n : Nat) : isWhole (Nat.toDigits 10 n) := by
  have leading : ∀ n, 0 < n → (Nat.toDigits 10 n).head? ≠ some '0' := by
    intro n
    induction n using Nat.strongRecOn with
    | ind n ih =>
        intro positive
        rw [Nat.toDigits_eq_if (by decide)]
        split
        · simp [positive.ne']
        · rename_i long
          have shorter := ih (n / 10) (by omega) (by omega)
          rw [List.head?_append]
          cases first : (Nat.toDigits 10 (n / 10)).head? with
          | none => simp [Nat.toDigits_ne_nil] at first
          | some c =>
              rw [first] at shorter
              exact shorter
  cases n with
  | zero => decide
  | succ n => simp [isWhole, Nat.toDigits_ne_nil, leading (n + 1) n.succ_pos]

theorem sign_toDigits (n : Nat) : sign (Nat.toDigits 10 n) = (false, Nat.toDigits 10 n) := by
  unfold sign
  split
  · rename_i rest same
    have digit : '-'.isDigit := toDigits_isDigit (n := n) (same ▸ List.mem_cons_self)
    exact absurd digit (by decide)
  · rfl

theorem number_of_sign {s : List Char} {negative : Bool} {n : Nat}
    (signed : sign s = (negative, Nat.toDigits 10 n)) :
    number s = some (if negative then -(n : ℚ) else n) := by
  have digits : (Nat.toDigits 10 n).takeWhile Char.isDigit = Nat.toDigits 10 n :=
    List.takeWhile_eq_self_iff.mpr fun c member => toDigits_isDigit member
  have nothing : (Nat.toDigits 10 n).dropWhile Char.isDigit = [] :=
    List.dropWhile_eq_nil_iff.mpr fun c member => toDigits_isDigit member
  have size : scaled (natural (Nat.toDigits 10 n ++ [])) (0 - ([] : List Char).length) = n := by
    rw [List.append_nil, natural_toDigits]
    simp [scaled, Rat.mkRat_eq_div]
  simp only [number, signed, digits, nothing, isWhole_toDigits, if_true, decimals,
    Option.bind_some, exponent, Option.map_some, size]

theorem number_printed (z : Int) : number (printed z) = some (z : ℚ) := by
  unfold printed
  split
  · rename_i negative
    have size : ((z.natAbs : Int) : ℚ) = ((-z : Int) : ℚ) := by
      rw [Int.ofNat_natAbs_of_nonpos negative.le]
    rw [number_of_sign (s := '-' :: Nat.toDigits 10 z.natAbs) (n := z.natAbs) rfl]
    rw [Int.cast_natCast] at size
    simp [size]
  · rename_i positive
    have size : ((z.natAbs : Int) : ℚ) = (z : ℚ) := by
      rw [Int.natAbs_of_nonneg (not_lt.mp positive)]
    rw [number_of_sign (sign_toDigits z.natAbs)]
    rw [Int.cast_natCast] at size
    simp [size]

theorem printed_chars {z : Int} {c : Char} (member : c ∈ printed z) : isAtomChar c :=
  number_chars (number_printed z) member

theorem printed_inline (z : Int) : '\n' ∉ printed z := by
  intro member
  exact absurd (printed_chars member) (by decide)

/-- No literal is spelled like a number. -/
theorem atom_of_number {s : List Char} {q : ℚ} (read : number s = some q) :
    atom s = some (.num (.rat q)) := by
  have noLiteral : literals.find? (fun literal => literal.1 = s) = none := by
    have spelled : ∀ literal ∈ literals, number literal.1 = none := by decide
    apply List.find?_eq_none.mpr
    intro literal member same
    have unread := spelled literal member
    rw [of_decide_eq_true same, read] at unread
    cases unread
  rw [atom, noLiteral, read]
  rfl

theorem atom_printed (z : Int) : atom (printed z) = some (.num (.rat z)) :=
  atom_of_number (number_printed z)

theorem printed_ne_nil (z : Int) : printed z ≠ [] := by
  unfold printed
  split
  · exact List.cons_ne_nil _ _
  · exact Nat.toDigits_ne_nil

/-! ## In an object -/

def delimiters : List Char := ['"', '[', ']', '{', '}', ',', ':']

theorem mem_delimiters {c : Char} (ends : isDelimiter c) : c ∈ delimiters := by
  simpa [isDelimiter, delimiters] using ends

theorem delimiter_dry {c : Char} (ends : isDelimiter c) : isWhitespace c = false := by
  have dry : delimiters.all fun d => !isWhitespace d := by decide
  simpa using List.all_eq_true.mp dry c (mem_delimiters ends)

theorem atomChar_inner {c : Char} (known : isAtomChar c) :
    isWhitespace c = false ∧ isDelimiter c = false := by
  have spaces : [' ', '\t', '\n', '\r'].all fun d => !isAtomChar d := by decide
  have ends : delimiters.all fun d => !isAtomChar d := by decide
  constructor
  · apply Bool.eq_false_iff.mpr
    intro white
    have unknown := List.all_eq_true.mp spaces c (by simpa [isWhitespace] using white)
    simp [known] at unknown
  · apply Bool.eq_false_iff.mpr
    intro delimiter
    have unknown := List.all_eq_true.mp ends c (mem_delimiters delimiter)
    simp [known] at unknown

theorem run_atom {chars : List Char} (plain : ∀ c ∈ chars, isAtomChar c) (stack : List Frame)
    (read rest : List Char) : run ⟨stack, .atom read⟩ (chars ++ rest) =
      run ⟨stack, .atom (chars.reverse ++ read)⟩ rest := by
  induction chars generalizing read with
  | nil => rfl
  | cons c chars ih =>
      obtain ⟨here, later⟩ := List.forall_mem_cons.mp plain
      obtain ⟨dry, inner⟩ := atomChar_inner here
      simp only [List.cons_append, run, step, dry, inner, Bool.false_eq_true, or_self, if_false,
        Option.bind_some]
      rw [ih later, List.reverse_cons, List.append_assoc, List.singleton_append]

/-- A member of an object that is an integer, and the delimiter behind it. -/
theorem run_member (z : Int) (members : List (Text × Json)) (key : Text) (stack : List Frame)
    {c : Char} (ends : isDelimiter c) (rest : List Char) :
    run ⟨.member members key :: stack, .value⟩ (printed z ++ c :: rest) =
      (separate (.obj ((key, .num (.rat z)) :: members) :: stack) c).bind (run · rest) := by
  obtain ⟨first, digits, spelled⟩ := List.exists_cons_of_ne_nil (printed_ne_nil z)
  have plain : ∀ c ∈ first :: digits, isAtomChar c :=
    fun c member => printed_chars (spelled ▸ member)
  obtain ⟨dry, inner⟩ := atomChar_inner (plain first List.mem_cons_self)
  have opened : step ⟨.member members key :: stack, .value⟩ first =
      some ⟨.member members key :: stack, .atom [first]⟩ := by
    simp only [step, dry, Bool.false_eq_true, if_false, openValue_inner inner]
  have decoded : atom (digits.reverse ++ [first]).reverse = some (.num (.rat z)) := by
    rw [List.reverse_append, List.reverse_reverse, List.reverse_singleton, List.singleton_append,
      ← spelled, atom_printed]
  rw [spelled, List.cons_append, run, opened, Option.bind_some,
    run_atom (fun c member => plain c (List.mem_cons_of_mem _ member)), run]
  simp only [step, ends, or_true, if_true, decoded, Option.bind_some, complete, afterValue,
    delimiter_dry ends, Bool.false_eq_true, if_false]

/-- A character which stands for itself in a string. -/
def isPlain (c : Char) : Bool := c ≠ '"' ∧ c ≠ '\\' ∧ 32 ≤ c.toNat

theorem run_string {chars : List Char} (plain : ∀ c ∈ chars, isPlain c) (stack : List Frame)
    (isKey : Bool) (read : Text) (rest : List Char) :
    run ⟨stack, .string isKey read⟩ (chars ++ rest) =
      run ⟨stack, .string isKey ((chars.map Char.toNat).reverse ++ read)⟩ rest := by
  induction chars generalizing read with
  | nil => rfl
  | cons c chars ih =>
      obtain ⟨here, later⟩ := List.forall_mem_cons.mp plain
      obtain ⟨quote, escape, visible⟩ := of_decide_eq_true here
      simp only [List.cons_append, run, step, quote, escape, Nat.not_lt.mpr visible, if_false,
        Option.bind_some]
      rw [ih later, List.map_cons, List.reverse_cons, List.append_assoc, List.singleton_append]

/-- A character is never half of a pair. -/
theorem joinSurrogates_chars (chars : List Char) :
    joinSurrogates (chars.map Char.toNat) = chars.map Char.toNat := by
  induction chars with
  | nil => rfl
  | cons c chars ih =>
      cases chars with
      | nil => rfl
      | cons d chars =>
          have whole : ¬ (0xD800 ≤ c.toNat ∧ c.toNat < 0xDC00) := by
            have valid := c.valid
            simp only [UInt32.isValidChar, Nat.isValidChar] at valid
            have same : c.val.toNat = c.toNat := rfl
            omega
          rw [List.map_cons, List.map_cons, joinSurrogates,
            if_neg fun pair => whole ⟨pair.1, pair.2.1⟩]
          exact congrArg (c.toNat :: ·) ih

section Keys

variable {key : List Char} (plain : key.all isPlain)

include plain

/-- Behind the quote that opens a key. -/
theorem run_quoted (members : List (Text × Json)) (stack : List Frame) (rest : List Char) :
    run ⟨.obj members :: stack, .string true []⟩ (key ++ '"' :: ':' :: rest) =
      run ⟨.member members (key.map Char.toNat) :: stack, .value⟩ rest := by
  have closed : step ⟨.obj members :: stack, .string true (key.map Char.toNat).reverse⟩ '"' =
      some ⟨.member members (key.map Char.toNat) :: stack, .colon⟩ := by
    simp [step, endString, joinSurrogates_chars]
  have valued : step ⟨.member members (key.map Char.toNat) :: stack, .colon⟩ ':' =
      some ⟨.member members (key.map Char.toNat) :: stack, .value⟩ := by
    simp [step, isWhitespace]
  rw [run_string (List.all_eq_true.mp plain), List.append_nil, run, closed, Option.bind_some, run,
    valued, Option.bind_some]

/-- The brace that opens an object, and its first key. -/
theorem run_object (rest : List Char) :
    run start ('\x7b' :: '"' :: (key ++ '"' :: ':' :: rest)) =
      run ⟨[.member [] (key.map Char.toNat)], .value⟩ rest := by
  have brace : step start '\x7b' = some ⟨[.obj []], .firstKey⟩ := by
    simp [step, start, isWhitespace, openValue]
  have quote : step ⟨[.obj []], .firstKey⟩ '"' = some ⟨[.obj []], .string true []⟩ := by
    simp [step, isWhitespace]
  rw [run, brace, Option.bind_some, run, quote, Option.bind_some, run_quoted plain]

/-- From an integer to the next value. -/
theorem run_comma (z : Int) (members : List (Text × Json)) (before : Text)
    (stack : List Frame) (rest : List Char) :
    run ⟨.member members before :: stack, .value⟩
        (printed z ++ ',' :: '"' :: (key ++ '"' :: ':' :: rest)) =
      run ⟨.member ((before, .num (.rat z)) :: members) (key.map Char.toNat) :: stack, .value⟩
        rest := by
  have quote : ∀ members, step ⟨.obj members :: stack, .key⟩ '"' =
      some ⟨.obj members :: stack, .string true []⟩ := by
    intro members
    simp [step, isWhitespace]
  rw [run_member z members before stack (by decide)]
  simp only [separate, Option.bind_some]
  rw [run, quote, Option.bind_some, run_quoted plain]

end Keys

/-- The brace that closes an object behind an integer. -/
theorem run_close (z : Int) (members : List (Text × Json)) (key : Text) :
    (run ⟨[.member members key], .value⟩ (printed z ++ ['\x7d'])).bind finish =
      some (.obj (((key, .num (.rat z)) :: members).reverse)) := by
  rw [run_member z members key [] (by decide)]
  rfl

/-- A comma or a brace in place of a value. -/
theorem run_missing (stack : List Frame) {c : Char} (ends : c = ',' ∨ c = '\x7d')
    (rest : List Char) : run ⟨stack, .value⟩ (c :: rest) = none := by
  have refused : step ⟨stack, .value⟩ c = none := by
    rcases ends with rfl | rfl <;> simp [step, isWhitespace, openValue, isDelimiter]
  rw [run, refused, Option.bind_none]

/-! ## Values between known parts -/

theorem number_ne_nil {s : List Char} {q : ℚ} (read : number s = some q) : s ≠ [] := by
  rintro rfl
  cases read

/-- A part of the text which is known leads from one state to another. -/
theorem run_part {s t : State} {part : List Char} (walked : run s part = some t)
    (rest : List Char) : run s (part ++ rest) = run t rest := by
  rw [run_append, walked, Option.bind_some]

/-- What ends an atom ends it as the value of a member. -/
theorem run_value {chars : List Char} (plain : ∀ c ∈ chars, isAtomChar c) (nonempty : chars ≠ [])
    {c : Char} (ends : isWhitespace c ∨ isDelimiter c) (members : List (Text × Json))
    (key : Text) (stack : List Frame) (rest : List Char) :
    run ⟨.member members key :: stack, .value⟩ (chars ++ c :: rest) =
      (atom chars).bind fun v =>
        run ⟨.obj ((key, v) :: members) :: stack, .afterElement⟩ (c :: rest) := by
  obtain ⟨first, others, rfl⟩ := List.exists_cons_of_ne_nil nonempty
  obtain ⟨dry, inner⟩ := atomChar_inner (plain first List.mem_cons_self)
  have opened : step ⟨.member members key :: stack, .value⟩ first =
      some ⟨.member members key :: stack, .atom [first]⟩ := by
    simp only [step, dry, Bool.false_eq_true, if_false, openValue_inner inner]
  have whole : (others.reverse ++ [first]).reverse = first :: others := by
    rw [List.reverse_append, List.reverse_reverse, List.reverse_singleton,
      List.singleton_append]
  rw [List.cons_append, run, opened, Option.bind_some,
    run_atom (fun c member => plain c (List.mem_cons_of_mem _ member)), run]
  simp only [step, ends, if_true, whole]
  cases atom (first :: others) with
  | none => rfl
  | some v => rfl

/-- A value, and the part of the text behind it. -/
theorem run_value_part {chars part : List Char} {c : Char} {t : Json → State}
    {members : List (Text × Json)} {key : Text} {stack : List Frame}
    (plain : ∀ c ∈ chars, isAtomChar c) (nonempty : chars ≠ [])
    (first : part.head? = some c) (ends : isWhitespace c ∨ isDelimiter c)
    (walked : ∀ v, run ⟨.obj ((key, v) :: members) :: stack, .afterElement⟩ part =
      some (t v)) (rest : List Char) :
    run ⟨.member members key :: stack, .value⟩ (chars ++ (part ++ rest)) =
      (atom chars).bind fun v => run (t v) rest := by
  obtain ⟨others, rfl⟩ := List.head?_eq_some_iff.mp first
  rw [List.cons_append, run_value plain nonempty ends]
  congr 1
  funext v
  rw [← List.cons_append, run_part (walked v)]

/-- A string, and the part of the text behind it, which begins with the quote. -/
theorem run_string_part {chars part : List Char} {t : Text → State} {stack : List Frame}
    (plain : ∀ c ∈ chars, isPlain c)
    (walked : ∀ read, run ⟨stack, .string false read⟩ part =
      some (t (joinSurrogates read.reverse))) (rest : List Char) :
    run ⟨stack, .string false []⟩ (chars ++ (part ++ rest)) =
      run (t (chars.map Char.toNat)) rest := by
  rw [run_string plain, List.append_nil, run_part (walked _), List.reverse_reverse,
    joinSurrogates_chars]

end PcdLab.Lib.Json
