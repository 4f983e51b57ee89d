import Mathlib.Data.List.DropRight
import Mathlib.Data.List.Induction

/-! # Lines of a text

A text file is read line by line, with the line ends, or as a whole, which is stripped of
the whitespace at its ends and then split. The two ways of reading see the same in each
line, as long as it makes no difference to a reader what whitespace a line has at its ends.
-/

namespace PcdLab.Lib.Lines

/-- The code points of whitespace, as far as `str.strip` is concerned. -/
def spaces : List Nat :=
  [9, 10, 11, 12, 13, 28, 29, 30, 31, 32, 0x85, 0xA0, 0x1680, 0x2000, 0x2001, 0x2002, 0x2003,
    0x2004, 0x2005, 0x2006, 0x2007, 0x2008, 0x2009, 0x200A, 0x2028, 0x2029, 0x202F, 0x205F, 0x3000]

def isSpace (c : Char) : Bool := spaces.contains c.toNat

/-- `str.strip`. -/
def strip (s : List Char) : List Char := (s.dropWhile isSpace).rdropWhile isSpace

/-- The lines which a file object yields: up to a line end each, which they keep, and what is
    left behind the last line end. -/
def fileLines (s : List Char) : List (List Char) :=
  (s.splitOn '\n').dropLast.map (· ++ ['\n']) ++
    ((s.splitOn '\n').getLast?.filter fun line => !line.isEmpty).toList

theorem strip_around (s : List Char) : ∃ before behind, s = before ++ strip s ++ behind ∧
    (∀ c ∈ before, isSpace c) ∧ ∀ c ∈ behind, isSpace c := by
  refine ⟨s.takeWhile isSpace, (s.dropWhile isSpace).rtakeWhile isSpace, ?_, ?_, ?_⟩
  · rw [strip, List.append_assoc, List.rdropWhile_append_rtakeWhile,
      List.takeWhile_append_dropWhile]
  · intro c member
    exact List.mem_takeWhile_imp member
  · intro c member
    exact List.mem_rtakeWhile_imp member

theorem strip_cons {c : Char} (space : isSpace c) (s : List Char) : strip (c :: s) = strip s := by
  rw [strip, List.dropWhile_cons_of_pos space, strip]

theorem strip_concat {c : Char} (space : isSpace c) (s : List Char) :
    strip (s ++ [c]) = strip s := by
  rw [strip, List.dropWhile_append]
  split
  · rename_i blank
    rw [strip, List.isEmpty_iff.mp blank, List.dropWhile_cons_of_pos space, List.dropWhile_nil]
  · rw [List.rdropWhile_concat_pos _ _ _ space, strip]

theorem strip_append {before s behind : List Char} (front : ∀ c ∈ before, isSpace c)
    (back : ∀ c ∈ behind, isSpace c) : strip (before ++ s ++ behind) = strip s := by
  induction before with
  | nil =>
      rw [List.nil_append]
      induction behind using List.reverseRecOn with
      | nil => rw [List.append_nil]
      | append_singleton behind c ih =>
          have space := back c (List.mem_append_right _ List.mem_cons_self)
          rw [← List.append_assoc, strip_concat space]
          exact ih fun d member => back d (List.mem_append_left _ member)
  | cons c before ih =>
      obtain ⟨space, later⟩ := List.forall_mem_cons.mp front
      rw [List.cons_append, List.cons_append, strip_cons space]
      exact ih later

/-- Whitespace inside a text stays. -/
theorem strip_of_ends {s : List Char} {c d : Char} (first : s.head? = some c)
    (last : s.getLast? = some d) (front : isSpace c = false) (back : isSpace d = false) :
    strip s = s := by
  obtain ⟨rest, shape⟩ := List.head?_eq_some_iff.mp first
  obtain ⟨before, ending⟩ := List.getLast?_eq_some_iff.mp last
  rw [strip, shape, List.dropWhile_cons_of_neg (by simp [front]), ← shape, ending,
    List.rdropWhile_concat_neg _ _ _ (by simp [back])]

/-- Lines that are written one behind the other. -/
theorem splitOn_lines {lines : List (List Char)} (whole : ∀ line ∈ lines, '\n' ∉ line) :
    (lines.flatMap (· ++ ['\n'])).splitOn '\n' = lines ++ [[]] := by
  induction lines with
  | nil => rfl
  | cons line lines ih =>
      obtain ⟨here, later⟩ := List.forall_mem_cons.mp whole
      rw [List.flatMap_cons, List.append_assoc, List.singleton_append,
        List.splitOn_append_cons_self_of_not_mem here, ih later, List.cons_append]

section Readers

variable {α : Type*} {read : List Char → Option α}

/-- A reader of lines sees the same in the line when whitespace is taken off its ends. -/
def Stable (read : List Char → Option α) (line : List Char) : Prop :=
  ∀ before s behind, line = before ++ s ++ behind → (∀ c ∈ before, isSpace c) →
    (∀ c ∈ behind, isSpace c) → read s = read line

theorem Stable.strip {line : List Char} (stable : Stable read line) :
    read (strip line) = read line := by
  obtain ⟨before, behind, whole, front, back⟩ := strip_around line
  exact stable before (Lines.strip line) behind whole front back

theorem Stable.tail {c : Char} {line : List Char} (space : isSpace c)
    (stable : Stable read (c :: line)) : Stable read line ∧ read line = read (c :: line) := by
  have same : read line = read (c :: line) :=
    stable [c] line [] (List.append_nil _).symm (by simpa using space) (by simp)
  refine ⟨?_, same⟩
  intro before s behind whole front back
  rw [same]
  apply stable (c :: before) s behind
  · rw [whole, List.cons_append, List.cons_append]
  · exact List.forall_mem_cons.mpr ⟨space, front⟩
  · exact back

theorem Stable.front {c : Char} {line : List Char} (space : isSpace c)
    (stable : Stable read (line ++ [c])) :
    Stable read line ∧ read line = read (line ++ [c]) := by
  have same : read line = read (line ++ [c]) :=
    stable [] line [c] rfl (by simp) (by simpa using space)
  refine ⟨?_, same⟩
  intro before s behind whole front back
  rw [same]
  apply stable before s (behind ++ [c])
  · rw [whole, List.append_assoc]
  · exact front
  · intro d member
    cases List.mem_append.mp member with
    | inl old => exact back d old
    | inr new => exact List.mem_singleton.mp new ▸ space

/-- The line ends, and a last line without anything in it, make no difference. -/
theorem filterMap_fileLines (ends : ∀ line, read (line ++ ['\n']) = read line)
    (empty : read [] = none) (s : List Char) :
    (fileLines s).filterMap read = (s.splitOn '\n').filterMap read := by
  obtain ⟨front, last, parts⟩ := (List.eq_nil_or_concat (s.splitOn '\n')).resolve_left
    (List.splitOn_ne_nil '\n' s)
  have terminated : (front.map (· ++ ['\n'])).filterMap read = front.filterMap read := by
    rw [List.filterMap_map]
    congr 1
    funext line
    exact ends line
  rw [fileLines, parts, List.concat_eq_append, List.dropLast_concat, List.getLast?_concat,
    List.filterMap_append, List.filterMap_append, terminated]
  cases last with
  | nil => simp [empty]
  | cons c last => rfl

/-- A character at the front of a text is one of its first line, or a line end of its own. -/
theorem readings_cons {c : Char} {s : List Char} (space : isSpace c) (empty : read [] = none)
    (stable : ∀ line ∈ (c :: s).splitOn '\n', Stable read line) :
    (∀ line ∈ s.splitOn '\n', Stable read line) ∧
      (s.splitOn '\n').filterMap read = ((c :: s).splitOn '\n').filterMap read := by
  rw [List.splitOn_cons_eq_if_modifyHead] at stable ⊢
  by_cases ended : (c == '\n') = true
  · rw [if_pos ended] at stable ⊢
    refine ⟨fun line member => stable line (List.mem_cons_of_mem _ member), ?_⟩
    rw [List.filterMap_cons_none empty]
  · rw [if_neg ended] at stable ⊢
    obtain ⟨first, later, parts⟩ := List.exists_cons_of_ne_nil (List.splitOn_ne_nil '\n' s)
    rw [parts, List.modifyHead_cons] at stable ⊢
    obtain ⟨here, behind⟩ := List.forall_mem_cons.mp stable
    obtain ⟨shorter, same⟩ := here.tail space
    refine ⟨List.forall_mem_cons.mpr ⟨shorter, behind⟩, ?_⟩
    simp only [List.filterMap_cons, same]

theorem splitOn_concat {c : Char} (other : c ≠ '\n') (s : List Char) :
    ∃ front last, s.splitOn '\n' = front ++ [last] ∧
      (s ++ [c]).splitOn '\n' = front ++ [last ++ [c]] := by
  induction s with
  | nil => exact ⟨[], [], rfl, by simp [List.splitOn_cons_eq_if_modifyHead, other]⟩
  | cons d s ih =>
      obtain ⟨front, last, parts, longer⟩ := ih
      rw [List.cons_append, List.splitOn_cons_eq_if_modifyHead,
        List.splitOn_cons_eq_if_modifyHead, parts, longer]
      by_cases ended : (d == '\n') = true
      · exact ⟨[] :: front, last, by rw [if_pos ended]; rfl, by rw [if_pos ended]; rfl⟩
      · rw [if_neg ended, if_neg ended]
        cases front with
        | nil => exact ⟨[], d :: last, rfl, rfl⟩
        | cons first front => exact ⟨(d :: first) :: front, last, rfl, rfl⟩

theorem readings_concat {c : Char} {s : List Char} (space : isSpace c) (empty : read [] = none)
    (stable : ∀ line ∈ (s ++ [c]).splitOn '\n', Stable read line) :
    (∀ line ∈ s.splitOn '\n', Stable read line) ∧
      (s.splitOn '\n').filterMap read = ((s ++ [c]).splitOn '\n').filterMap read := by
  by_cases ended : c = '\n'
  · rw [ended, List.splitOn_append_cons_self] at stable ⊢
    refine ⟨fun line member => stable line (List.mem_append_left _ member), ?_⟩
    simp [empty]
  · obtain ⟨front, last, parts, longer⟩ := splitOn_concat ended s
    rw [longer] at stable ⊢
    rw [parts]
    obtain ⟨shorter, same⟩ := (stable _ (List.mem_append_right _ List.mem_cons_self)).front space
    refine ⟨?_, ?_⟩
    · intro line member
      cases List.mem_append.mp member with
      | inl early => exact stable line (List.mem_append_left _ early)
      | inr ending => exact List.mem_singleton.mp ending ▸ shorter
    · simp only [List.filterMap_append, List.filterMap_cons, List.filterMap_nil, same]

theorem readings_dropWhile (empty : read [] = none) {s : List Char}
    (stable : ∀ line ∈ s.splitOn '\n', Stable read line) :
    (∀ line ∈ (s.dropWhile isSpace).splitOn '\n', Stable read line) ∧
      ((s.dropWhile isSpace).splitOn '\n').filterMap read = (s.splitOn '\n').filterMap read := by
  induction s with
  | nil => exact ⟨stable, rfl⟩
  | cons c s ih =>
      by_cases space : isSpace c
      · obtain ⟨shorter, same⟩ := readings_cons space empty stable
        rw [List.dropWhile_cons_of_pos space, ← same]
        exact ih shorter
      · rw [List.dropWhile_cons_of_neg space]
        exact ⟨stable, rfl⟩

theorem readings_rdropWhile (empty : read [] = none) {s : List Char}
    (stable : ∀ line ∈ s.splitOn '\n', Stable read line) :
    (∀ line ∈ (s.rdropWhile isSpace).splitOn '\n', Stable read line) ∧
      ((s.rdropWhile isSpace).splitOn '\n').filterMap read = (s.splitOn '\n').filterMap read := by
  induction s using List.reverseRecOn with
  | nil => exact ⟨stable, rfl⟩
  | append_singleton s c ih =>
      by_cases space : isSpace c
      · obtain ⟨shorter, same⟩ := readings_concat space empty stable
        rw [List.rdropWhile_concat_pos _ _ _ space, ← same]
        exact ih shorter
      · rw [List.rdropWhile_concat_neg _ _ _ space]
        exact ⟨stable, rfl⟩

/-- A text that is stripped before it is split reads the same. -/
theorem filterMap_strip (empty : read [] = none) {s : List Char}
    (stable : ∀ line ∈ s.splitOn '\n', Stable read line) :
    (∀ line ∈ (strip s).splitOn '\n', Stable read line) ∧
      ((strip s).splitOn '\n').filterMap read = (s.splitOn '\n').filterMap read := by
  obtain ⟨shorter, same⟩ := readings_dropWhile empty stable
  obtain ⟨stripped, equal⟩ := readings_rdropWhile empty shorter
  exact ⟨stripped, equal.trans same⟩

/-- A reader that makes something of a line makes the same of it without the whitespace at its
    ends. -/
structure Forgiving (read : List Char → Option α) : Prop where
  empty : read [] = none
  front : ∀ {c line v}, isSpace c → read (c :: line) = some v → read line = some v
  back : ∀ {c line v}, isSpace c → read (line ++ [c]) = some v → read line = some v

namespace Forgiving

variable (forgiving : Forgiving read)

include forgiving

theorem cons {c : Char} (space : isSpace c) (s : List Char) :
    (((c :: s).splitOn '\n').filterMap read).Sublist ((s.splitOn '\n').filterMap read) := by
  rw [List.splitOn_cons_eq_if_modifyHead]
  by_cases ended : (c == '\n') = true
  · rw [if_pos ended, List.filterMap_cons_none forgiving.empty]
  · rw [if_neg ended]
    obtain ⟨first, later, parts⟩ := List.exists_cons_of_ne_nil (List.splitOn_ne_nil '\n' s)
    rw [parts, List.modifyHead_cons]
    cases found : read (c :: first) with
    | none =>
        rw [List.filterMap_cons_none found]
        exact (List.sublist_cons_self first later).filterMap read
    | some v =>
        rw [List.filterMap_cons_some found, List.filterMap_cons_some (forgiving.front space found)]

theorem concat {c : Char} (space : isSpace c) (s : List Char) :
    (((s ++ [c]).splitOn '\n').filterMap read).Sublist ((s.splitOn '\n').filterMap read) := by
  by_cases ended : c = '\n'
  · rw [ended, List.splitOn_append_cons_self, List.filterMap_append]
    simp [forgiving.empty]
  · obtain ⟨front, last, parts, longer⟩ := splitOn_concat ended s
    rw [parts, longer, List.filterMap_append, List.filterMap_append]
    apply List.Sublist.append_left
    cases found : read (last ++ [c]) with
    | none =>
        rw [List.filterMap_cons_none found]
        exact List.nil_sublist _
    | some v =>
        rw [List.filterMap_cons_some found, List.filterMap_cons_some (forgiving.back space found)]

/-- Whatever is read of a text is still read once the text has been stripped. -/
theorem strip (s : List Char) :
    ((s.splitOn '\n').filterMap read).Sublist (((Lines.strip s).splitOn '\n').filterMap read) := by
  have front : ∀ s : List Char,
      ((s.splitOn '\n').filterMap read).Sublist
        (((s.dropWhile isSpace).splitOn '\n').filterMap read) := by
    intro s
    induction s with
    | nil => exact List.Sublist.refl _
    | cons c s ih =>
        by_cases space : isSpace c
        · rw [List.dropWhile_cons_of_pos space]
          exact (forgiving.cons space s).trans ih
        · rw [List.dropWhile_cons_of_neg space]
  have back : ∀ s : List Char,
      ((s.splitOn '\n').filterMap read).Sublist
        (((s.rdropWhile isSpace).splitOn '\n').filterMap read) := by
    intro s
    induction s using List.reverseRecOn with
    | nil => exact List.Sublist.refl _
    | append_singleton s c ih =>
        by_cases space : isSpace c
        · rw [List.rdropWhile_concat_pos _ _ _ space]
          exact (forgiving.concat space s).trans ih
        · rw [List.rdropWhile_concat_neg _ _ _ space]
  exact (front s).trans (back _)

end Forgiving
end Readers

end PcdLab.Lib.Lines
