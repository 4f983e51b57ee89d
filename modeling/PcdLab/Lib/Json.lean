import Mathlib.Data.List.Induction
import Mathlib.Data.List.TakeWhile
import Mathlib.Data.Rat.Defs
import Mathlib.Algebra.Field.Rat
import PcdLab.Lib.Lines

/-! # JSON texts

A decoder of JSON texts which reads one character at a time and keeps the containers that
are open on a stack. Numbers are exact, strings are lists of code points, of which
some may be surrogates without a partner, and `NaN` and the infinities are numbers too.
-/

namespace PcdLab.Lib

inductive Number where
  | rat (value : ℚ)
  | nan
  | infinity (negative : Bool)
  deriving DecidableEq

/-- A text as code points. -/
abbrev Json.Text := List Nat

inductive Json where
  | null
  | bool (value : Bool)
  | num (value : Number)
  | str (text : Json.Text)
  | arr (elements : List Json)
  /-- The members in the order of the text, repeated keys included. -/
  | obj (members : List (Json.Text × Json))

namespace Json

def text (s : String) : Text := s.toList.map Char.toNat

/-! ## Numbers and literals -/

def natural (digits : List Char) : Nat :=
  digits.foldl (fun n c => 10 * n + (c.toNat - '0'.toNat)) 0

/-- A sign, if there is one, and what follows it. -/
def sign (s : List Char) : Bool × List Char :=
  match s with
  | '-' :: rest => (true, rest)
  | rest => (false, rest)

/-- The decimals behind a point, if there is one, and what follows them. -/
def decimals (s : List Char) : Option (List Char × List Char) :=
  match s with
  | '.' :: rest =>
      if rest.takeWhile Char.isDigit = [] then none
      else some (rest.takeWhile Char.isDigit, rest.dropWhile Char.isDigit)
  | rest => some ([], rest)

/-- The sign of an exponent may be a plus. -/
def exponentSign (s : List Char) : Bool × List Char :=
  match s with
  | '+' :: rest => (false, rest)
  | rest => sign rest

def exponent : List Char → Option Int
  | [] => some 0
  | e :: rest =>
      let (negative, digits) := exponentSign rest
      if (e = 'e' ∨ e = 'E') ∧ digits ≠ [] ∧ digits.all Char.isDigit then
        some (if negative then -(natural digits : Int) else natural digits)
      else none

/-- `n * 10 ^ e`. -/
def scaled (n : Nat) (e : Int) : ℚ :=
  if 0 ≤ e then mkRat (n * 10 ^ e.toNat) 1 else mkRat n (10 ^ (-e).toNat)

/-- No leading zeros. -/
def isWhole (digits : List Char) : Bool :=
  digits = ['0'] ∨ (digits ≠ [] ∧ digits.head? ≠ some '0')

def number (s : List Char) : Option ℚ :=
  let (negative, rest) := sign s
  let whole := rest.takeWhile Char.isDigit
  if isWhole whole then
    (decimals (rest.dropWhile Char.isDigit)).bind fun (fraction, rest) =>
      (exponent rest).map fun e =>
        let value := scaled (natural (whole ++ fraction)) (e - fraction.length)
        if negative then -value else value
  else none

def literals : List (List Char × Json) :=
  [("null".toList, .null), ("true".toList, .bool true), ("false".toList, .bool false),
    ("NaN".toList, .num .nan), ("Infinity".toList, .num (.infinity false)),
    ("-Infinity".toList, .num (.infinity true))]

/-- A value without quotes or brackets. -/
def atom (s : List Char) : Option Json :=
  match literals.find? fun literal => literal.1 = s with
  | some literal => some literal.2
  | none => (number s).map fun q => .num (.rat q)

/-! ## Strings -/

def escaped (c : Char) : Option Nat :=
  match c with
  | '"' | '\\' | '/' => some c.toNat
  | 'b' => some 8
  | 'f' => some 12
  | 'n' => some 10
  | 'r' => some 13
  | 't' => some 9
  | _ => none

def hexDigit (c : Char) : Option Nat :=
  if c.isDigit then some (c.toNat - '0'.toNat)
  else if 'a' ≤ c ∧ c ≤ 'f' then some (c.toNat - 'a'.toNat + 10)
  else if 'A' ≤ c ∧ c ≤ 'F' then some (c.toNat - 'A'.toNat + 10)
  else none

/-- A high surrogate and the low one behind it are one code point. -/
def joinSurrogates : Text → Text
  | high :: low :: rest =>
      if 0xD800 ≤ high ∧ high < 0xDC00 ∧ 0xDC00 ≤ low ∧ low < 0xE000 then
        (0x10000 + (high - 0xD800) * 0x400 + (low - 0xDC00)) :: joinSurrogates rest
      else high :: joinSurrogates (low :: rest)
  | short => short

/-! ## The machine -/

/-- A container that is open, the last element first. In an object that waits for the value of a
    member, the key is known. -/
inductive Frame where
  | arr (elements : List Json)
  | obj (members : List (Text × Json))
  | member (members : List (Text × Json)) (key : Text)

/-- What may come next. Texts under way are kept the last character first. -/
inductive Mode where
  | value
  | firstElement
  | key
  | firstKey
  | colon
  | afterElement
  | string (isKey : Bool) (read : Text)
  | escape (isKey : Bool) (read : Text)
  | hex (isKey : Bool) (read : Text) (left unit : Nat)
  | atom (read : List Char)
  | done (v : Json)

structure State where
  stack : List Frame
  mode : Mode

def start : State := ⟨[], .value⟩

def isWhitespace (c : Char) : Bool := c = ' ' ∨ c = '\t' ∨ c = '\n' ∨ c = '\r'

/-- Quotes and brackets, and what separates elements, end an atom. -/
def isDelimiter (c : Char) : Bool :=
  c = '"' ∨ c = '[' ∨ c = ']' ∨ c = '{' ∨ c = '}' ∨ c = ',' ∨ c = ':'

/-- A value is complete. -/
def complete (v : Json) : List Frame → Option State
  | [] => some ⟨[], .done v⟩
  | .arr elements :: stack => some ⟨.arr (v :: elements) :: stack, .afterElement⟩
  | .member members key :: stack => some ⟨.obj ((key, v) :: members) :: stack, .afterElement⟩
  | .obj _ :: _ => none

def endString (isKey : Bool) (s : Text) (stack : List Frame) : Option State :=
  if isKey then
    match stack with
    | .obj members :: stack => some ⟨.member members s :: stack, .colon⟩
    | _ => none
  else complete (.str s) stack

/-- The first character of a value. -/
def openValue (stack : List Frame) (c : Char) : Option State :=
  if c = '"' then some ⟨stack, .string false []⟩
  else if c = '[' then some ⟨.arr [] :: stack, .firstElement⟩
  else if c = '{' then some ⟨.obj [] :: stack, .firstKey⟩
  else if isDelimiter c then none
  else some ⟨stack, .atom [c]⟩

def closeArray : List Frame → Option State
  | .arr elements :: stack => complete (.arr elements.reverse) stack
  | _ => none

def closeObject : List Frame → Option State
  | .obj members :: stack => complete (.obj members.reverse) stack
  | _ => none

/-- A character behind a value, which is not whitespace. -/
def separate (stack : List Frame) (c : Char) : Option State :=
  match stack, c with
  | .arr elements :: stack, ',' => some ⟨.arr elements :: stack, .value⟩
  | .obj members :: stack, ',' => some ⟨.obj members :: stack, .key⟩
  | stack, ']' => closeArray stack
  | stack, '}' => closeObject stack
  | _, _ => none

/-- A character behind a value. -/
def afterValue (s : State) (c : Char) : Option State :=
  if isWhitespace c then some s
  else
    match s.mode with
    | .afterElement => separate s.stack c
    | _ => none

def step (s : State) (c : Char) : Option State :=
  match s.mode with
  | .value => if isWhitespace c then some s else openValue s.stack c
  | .firstElement =>
      if isWhitespace c then some s
      else if c = ']' then closeArray s.stack
      else openValue s.stack c
  | .key =>
      if isWhitespace c then some s
      else if c = '"' then some ⟨s.stack, .string true []⟩
      else none
  | .firstKey =>
      if isWhitespace c then some s
      else if c = '}' then closeObject s.stack
      else if c = '"' then some ⟨s.stack, .string true []⟩
      else none
  | .colon =>
      if isWhitespace c then some s else if c = ':' then some ⟨s.stack, .value⟩ else none
  | .afterElement | .done _ => afterValue s c
  | .string isKey read =>
      if c = '"' then endString isKey (joinSurrogates read.reverse) s.stack
      else if c = '\\' then some ⟨s.stack, .escape isKey read⟩
      else if c.toNat < 32 then none
      else some ⟨s.stack, .string isKey (c.toNat :: read)⟩
  | .escape isKey read =>
      if c = 'u' then some ⟨s.stack, .hex isKey read 4 0⟩
      else (escaped c).map fun code => ⟨s.stack, .string isKey (code :: read)⟩
  | .hex isKey read left unit =>
      (hexDigit c).map fun digit =>
        if left ≤ 1 then ⟨s.stack, .string isKey ((16 * unit + digit) :: read)⟩
        else ⟨s.stack, .hex isKey read (left - 1) (16 * unit + digit)⟩
  | .atom read =>
      if isWhitespace c ∨ isDelimiter c then
        ((atom read.reverse).bind fun v => complete v s.stack).bind fun s => afterValue s c
      else some ⟨s.stack, .atom (c :: read)⟩

/-- The end of the text. -/
def finish (s : State) : Option Json :=
  match s.stack, s.mode with
  | [], .done v => some v
  | [], .atom read => atom read.reverse
  | _, _ => none

def run : State → List Char → Option State
  | s, [] => some s
  | s, c :: rest => (step s c).bind (run · rest)

/-- `json.loads`, where `none` is a `JSONDecodeError`. -/
def loads (s : List Char) : Option Json := (run start s).bind finish

/-! ## What an atom is made of -/

def isAtomChar (c : Char) : Bool := c.isDigit ∨ c.isAlpha ∨ c = '+' ∨ c = '-' ∨ c = '.'

theorem sign_chars {s : List Char} {c : Char} (member : c ∈ s) :
    isAtomChar c ∨ c ∈ (sign s).2 := by
  unfold sign
  split
  · cases member with
    | head => exact .inl (by decide)
    | tail _ later => exact .inr later
  · exact .inr member

theorem exponentSign_chars {s : List Char} {c : Char} (member : c ∈ s) :
    isAtomChar c ∨ c ∈ (exponentSign s).2 := by
  unfold exponentSign
  split
  · cases member with
    | head => exact .inl (by decide)
    | tail _ later => exact .inr later
  · exact sign_chars member

theorem isAtomChar_digit {c : Char} (digit : c.isDigit) : isAtomChar c := by
  simp [isAtomChar, digit]

theorem digit_or_rest {s : List Char} {c : Char} (member : c ∈ s) :
    isAtomChar c ∨ c ∈ s.dropWhile Char.isDigit := by
  rw [← List.takeWhile_append_dropWhile (p := Char.isDigit) (l := s)] at member
  cases List.mem_append.mp member with
  | inl digit => exact .inl (isAtomChar_digit (List.mem_takeWhile_imp digit))
  | inr rest => exact .inr rest

theorem exponent_chars {s : List Char} {e : Int} (read : exponent s = some e) {c : Char}
    (member : c ∈ s) : isAtomChar c := by
  cases s with
  | nil => cases member
  | cons first rest =>
      obtain ⟨⟨letter, -, digits⟩, -⟩ := Option.ite_none_right_eq_some.mp read
      cases member with
      | head => rcases letter with rfl | rfl <;> decide
      | tail _ later =>
          cases exponentSign_chars later with
          | inl known => exact known
          | inr digit => exact isAtomChar_digit (List.all_eq_true.mp digits c digit)

theorem decimals_chars {s fraction rest : List Char} (read : decimals s = some (fraction, rest))
    {c : Char} (member : c ∈ s) : isAtomChar c ∨ c ∈ rest := by
  unfold decimals at read
  split at read
  · split at read
    · cases read
    · cases read
      cases member with
      | head => exact .inl (by decide)
      | tail _ later => exact digit_or_rest later
  · cases read
    exact .inr member

theorem number_chars {s : List Char} {q : ℚ} (read : number s = some q) {c : Char}
    (member : c ∈ s) : isAtomChar c := by
  obtain ⟨-, digits⟩ := Option.ite_none_right_eq_some.mp read
  obtain ⟨⟨fraction, rest⟩, point, e⟩ := Option.bind_eq_some_iff.mp digits
  obtain ⟨e, exponential, -⟩ := Option.map_eq_some_iff.mp e
  cases sign_chars member with
  | inl known => exact known
  | inr unsigned =>
      cases digit_or_rest unsigned with
      | inl known => exact known
      | inr behind =>
          cases decimals_chars point behind with
          | inl known => exact known
          | inr last => exact exponent_chars exponential last

theorem atom_chars {s : List Char} {v : Json} (read : atom s = some v) :
    ∀ c ∈ s, isAtomChar c := by
  have spelled : literals.all fun literal => literal.1.all isAtomChar := by decide
  unfold atom at read
  split at read
  · rename_i literal found
    have same : literal.1 = s := by simpa using List.find?_some found
    have known := List.all_eq_true.mp spelled literal (List.mem_of_find?_eq_some found)
    exact same ▸ List.all_eq_true.mp known
  · obtain ⟨q, numeral, -⟩ := Option.map_eq_some_iff.mp read
    intro c member
    exact number_chars numeral member

/-! ## The ends of a text -/

/-- A character which can stand in a text only within a string. -/
def isForeign (c : Char) : Bool := !isWhitespace c && !isDelimiter c && !isAtomChar c

theorem atom_foreign {c : Char} (foreign : isForeign c) {s : List Char} (member : c ∈ s) :
    atom s = none := by
  cases read : atom s with
  | none => rfl
  | some v =>
      have known := atom_chars read c member
      simp [isForeign, known] at foreign

theorem run_append (s : State) (front rest : List Char) :
    run s (front ++ rest) = (run s front).bind (run · rest) := by
  induction front generalizing s with
  | nil => rfl
  | cons c front ih =>
      simp only [List.cons_append, run, Option.bind_assoc, ih]

theorem loads_append (front rest : List Char) :
    loads (front ++ rest) = (run start front).bind fun s => (run s rest).bind finish := by
  rw [loads, run_append, Option.bind_assoc]

/-- Whitespace at the end of a text makes no difference, in whatever state it is read. -/
theorem finish_whitespace {c : Char} (white : isWhitespace c) (s : State) :
    (step s c).bind finish = finish s := by
  have spelled : c = ' ' ∨ c = '\t' ∨ c = '\n' ∨ c = '\r' := by
    simpa [isWhitespace] using white
  obtain ⟨stack, mode⟩ := s
  cases mode with
  | value | firstElement | key | firstKey | colon => simp [step, white]
  | afterElement | done => simp [step, afterValue, white]
  | string isKey read =>
      rcases spelled with rfl | rfl | rfl | rfl <;> simp [step, finish]
  | escape isKey read =>
      rcases spelled with rfl | rfl | rfl | rfl <;> simp [step, escaped, finish]
  | hex isKey read left unit =>
      rcases spelled with rfl | rfl | rfl | rfl <;> simp [step, hexDigit, finish]
  | atom read =>
      simp only [step, white, true_or, if_true]
      cases decoded : atom read.reverse with
      | none => cases stack <;> simp [finish, decoded]
      | some v =>
          rcases stack with _ | ⟨frame, stack⟩
          · simp [complete, afterValue, white, finish, decoded]
          · cases frame <;> simp [complete, afterValue, white, finish]

theorem ne_of_inner {c d : Char} (inner : isDelimiter c = false)
    (delimiter : isDelimiter d = true) : c ≠ d := by
  intro same
  rw [← same, inner] at delimiter
  cases delimiter

/-- What is no delimiter begins an atom. -/
theorem openValue_inner {c : Char} (inner : isDelimiter c = false) (stack : List Frame) :
    openValue stack c = some ⟨stack, .atom [c]⟩ := by
  have quote : c ≠ '"' := ne_of_inner inner (by decide)
  have bracket : c ≠ '[' := ne_of_inner inner (by decide)
  have brace : c ≠ '{' := ne_of_inner inner (by decide)
  simp [openValue, quote, bracket, brace, inner]

section Foreign

variable {c : Char} (foreign : isForeign c)

include foreign

theorem foreign_dry : isWhitespace c = false := by
  simp only [isForeign, Bool.and_eq_true, Bool.not_eq_true'] at foreign
  exact foreign.1.1

theorem foreign_inner : isDelimiter c = false := by
  simp only [isForeign, Bool.and_eq_true, Bool.not_eq_true'] at foreign
  exact foreign.1.2

theorem foreign_ne {d : Char} (delimiter : isDelimiter d = true) : c ≠ d :=
  ne_of_inner (foreign_inner foreign) delimiter

/-- An atom with a foreign character in it is no value. -/
theorem finish_atom_foreign {read : List Char} (member : c ∈ read) (stack : List Frame) :
    finish ⟨stack, .atom read⟩ = none := by
  cases stack with
  | nil => exact atom_foreign foreign (List.mem_reverse.mpr member)
  | cons frame stack => rfl

/-- Behind a foreign character at the end of a text there is no value, in whatever state it
    is read. -/
theorem finish_foreign (s : State) : (step s c).bind finish = none := by
  have dry := foreign_dry foreign
  have inner := foreign_inner foreign
  have closing : c ≠ ']' := foreign_ne foreign (by decide)
  have ending : c ≠ '}' := foreign_ne foreign (by decide)
  have quote : c ≠ '"' := foreign_ne foreign (by decide)
  have comma : c ≠ ',' := foreign_ne foreign (by decide)
  have colon : c ≠ ':' := foreign_ne foreign (by decide)
  obtain ⟨stack, mode⟩ := s
  cases mode with
  | value =>
      simp only [step, dry, Bool.false_eq_true, if_false, openValue_inner inner,
        Option.bind_some]
      exact finish_atom_foreign foreign List.mem_cons_self stack
  | firstElement =>
      simp only [step, dry, closing, Bool.false_eq_true, if_false, openValue_inner inner,
        Option.bind_some]
      exact finish_atom_foreign foreign List.mem_cons_self stack
  | key => simp [step, dry, quote]
  | firstKey => simp [step, dry, ending, quote]
  | colon => simp [step, dry, colon]
  | afterElement => simp [step, afterValue, dry, separate, comma]
  | string isKey read =>
      simp only [step, quote, if_false]
      split
      · cases stack <;> rfl
      · split
        · rfl
        · cases stack <;> rfl
  | escape isKey read =>
      simp only [step]
      split
      · cases stack <;> rfl
      · cases escaped c <;> cases stack <;> rfl
  | hex isKey read left unit =>
      simp only [step]
      cases hexDigit c with
      | none => rfl
      | some digit =>
          simp only [Option.map_some, Option.bind_some]
          split <;> cases stack <;> rfl
  | atom read =>
      simp only [step, dry, foreign_inner foreign, Bool.false_eq_true, or_self, if_false,
        Option.bind_some]
      exact finish_atom_foreign foreign List.mem_cons_self stack
  | done v => simp [step, afterValue, dry]

/-- Once an atom has a foreign character in it, nothing makes a value of the text. -/
theorem run_atom_foreign {read : List Char} (member : c ∈ read) (stack : List Frame)
    (rest : List Char) : (run ⟨stack, .atom read⟩ rest).bind finish = none := by
  induction rest generalizing read with
  | nil => exact finish_atom_foreign foreign member stack
  | cons d rest ih =>
      have invalid := atom_foreign foreign (List.mem_reverse.mpr member)
      by_cases ends : isWhitespace d ∨ isDelimiter d
      · simp [run, step, ends, invalid]
      · simp only [run, step, ends, if_false, Option.bind_some]
        exact ih (List.mem_cons_of_mem d member)

theorem loads_cons_foreign (rest : List Char) : loads (c :: rest) = none := by
  have opened : step start c = some ⟨[], .atom [c]⟩ := by
    simp only [step, start, foreign_dry foreign, Bool.false_eq_true, if_false,
      openValue_inner (foreign_inner foreign)]
  rw [loads, run, opened, Option.bind_some]
  exact run_atom_foreign foreign List.mem_cons_self [] rest

theorem loads_concat_foreign (front : List Char) : loads (front ++ [c]) = none := by
  rw [loads_append]
  cases run start front with
  | none => rfl
  | some s =>
      simp only [Option.bind_some, run, Option.bind_fun_some]
      exact finish_foreign foreign s

end Foreign

theorem loads_cons_whitespace {c : Char} (white : isWhitespace c) (rest : List Char) :
    loads (c :: rest) = loads rest := by
  have stays : step start c = some start := by simp [step, start, white]
  rw [loads, run, stays, Option.bind_some, loads]

theorem loads_concat_whitespace {c : Char} (white : isWhitespace c) (front : List Char) :
    loads (front ++ [c]) = loads front := by
  rw [loads_append, loads]
  congr 1
  funext s
  simp only [run, Option.bind_fun_some]
  exact finish_whitespace white s

theorem loads_nil : loads [] = none := rfl

/-- What can be taken off the ends of a text leaves the value as it is, if there is one. -/
theorem loads_around {before s behind : List Char}
    (before_ends : ∀ c ∈ before, isWhitespace c ∨ isForeign c)
    (behind_ends : ∀ c ∈ behind, isWhitespace c ∨ isForeign c) :
    loads (before ++ s ++ behind) = none ∨ loads (before ++ s ++ behind) = loads s := by
  induction before with
  | nil =>
      rw [List.nil_append]
      induction behind using List.reverseRecOn with
      | nil => exact .inr (by rw [List.append_nil])
      | append_singleton behind c ih =>
          rw [← List.append_assoc]
          cases behind_ends c (List.mem_append_right _ List.mem_cons_self) with
          | inl white =>
              rw [loads_concat_whitespace white]
              exact ih fun d member => behind_ends d (List.mem_append_left _ member)
          | inr foreign => exact .inl (loads_concat_foreign foreign _)
  | cons c before ih =>
      obtain ⟨here, later⟩ := List.forall_mem_cons.mp before_ends
      rw [List.cons_append, List.cons_append]
      cases here with
      | inl white =>
          rw [loads_cons_whitespace white]
          exact ih later
      | inr foreign => exact .inl (loads_cons_foreign foreign _)

/-! ## Lines -/

theorem ends_of_isSpace {c : Char} (space : Lines.isSpace c) :
    isWhitespace c ∨ isForeign c := by
  have all : ∀ n ∈ Lines.spaces, isWhitespace (Char.ofNat n) ∨ isForeign (Char.ofNat n) := by
    decide
  have member := all c.toNat (List.contains_iff_mem.mp space)
  rwa [Char.ofNat_toNat] at member

theorem loads_strip (line : List Char) :
    loads line = none ∨ loads line = loads (Lines.strip line) := by
  obtain ⟨before, behind, whole, front, back⟩ := Lines.strip_around line
  have around := loads_around (s := Lines.strip line)
    (fun c member => ends_of_isSpace (front c member))
    fun c member => ends_of_isSpace (back c member)
  rwa [← whole] at around

/-- Taking whitespace off a line does not change what it is decoded to, unless this is what makes
    the line a value. -/
theorem stable_loads {line : List Char}
    (kept : loads line = none → loads (Lines.strip line) = none) : Lines.Stable loads line := by
  intro before s behind whole front back
  have core : Lines.strip s = Lines.strip line := by
    rw [whole, Lines.strip_append front back]
  have around : loads line = none ∨ loads line = loads s := by
    rw [whole]
    exact loads_around (fun c member => ends_of_isSpace (front c member))
      fun c member => ends_of_isSpace (back c member)
  cases around with
  | inr same => exact same.symm
  | inl invalid =>
      rw [invalid]
      cases loads_strip s with
      | inl failed => exact failed
      | inr same => rw [same, core, kept invalid]

theorem forgiving_loads : Lines.Forgiving loads where
  empty := loads_nil
  front := by
    intro c line v space found
    cases ends_of_isSpace space with
    | inl white => rwa [loads_cons_whitespace white] at found
    | inr foreign => rw [loads_cons_foreign foreign] at found; cases found
  back := by
    intro c line v space found
    cases ends_of_isSpace space with
    | inl white => rwa [loads_concat_whitespace white] at found
    | inr foreign => rw [loads_concat_foreign foreign] at found; cases found

end Json

end PcdLab.Lib
