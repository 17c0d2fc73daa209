import GradientMerge.Data.Csv
import Mathlib.Data.List.DropRight
import Mathlib.Data.List.Induction

/-!
Contract: blanks around the fields of a line do not show in them once they are trimmed.

Owns:
- texts with blanks at either end, and their pieces between separators;
- the cells of a line, which are its fields without the blanks around them;
- whether a line is passed over, by its cells.

Does not own: which numbers stand in cells.
-/

namespace GradientMerge

/-! ### Blanks at the ends -/

theorem trimBlanks_eq_rdropWhile (text : List Char) :
    trimBlanks text = (text.dropWhile isBlank).rdropWhile isBlank := rfl

theorem trimBlanks_cons_of_blank
    {character : Char}
    (blank : isBlank character = true)
    (text : List Char) :
    trimBlanks (character :: text) = trimBlanks text := by
  rw [trimBlanks_eq_rdropWhile, List.dropWhile_cons_of_pos blank, ← trimBlanks_eq_rdropWhile]

theorem trimBlanks_concat_of_blank
    {character : Char}
    (blank : isBlank character = true)
    (text : List Char) :
    trimBlanks (text ++ [character]) = trimBlanks text := by
  rw [trimBlanks_eq_rdropWhile, List.dropWhile_append]
  split
  next onlyBlanks =>
    rw [List.isEmpty_iff] at onlyBlanks
    rw [List.dropWhile_cons_of_pos blank, trimBlanks_eq_rdropWhile, onlyBlanks]
    rfl
  next => rw [List.rdropWhile_concat_pos _ _ _ blank, ← trimBlanks_eq_rdropWhile]

theorem trimBlanks_cons_of_not_blank
    {character : Char}
    (visible : isBlank character = false)
    (text : List Char) :
    ∃ rest, trimBlanks (character :: text) = character :: rest := by
  have notBlank : ¬ isBlank character = true := by rw [visible]; exact Bool.false_ne_true
  rw [trimBlanks_eq_rdropWhile, List.dropWhile_cons_of_neg notBlank]
  induction text using List.reverseRecOn with
  | nil =>
    refine ⟨[], ?_⟩
    exact List.rdropWhile_concat_neg isBlank [] character notBlank
  | append_singleton text last inductionHypothesis =>
    cases blank : isBlank last with
    | true =>
      rw [← List.cons_append, List.rdropWhile_concat_pos _ _ _ blank]
      exact inductionHypothesis
    | false =>
      rw [← List.cons_append, List.rdropWhile_concat_neg _ _ _ (by rw [blank]; exact Bool.false_ne_true)]
      exact ⟨text ++ [last], rfl⟩

/-- A trimmed text is empty, or begins with a character that is not blank. -/
theorem trimBlanks_cases (text : List Char) :
    trimBlanks text = [] ∨
      ∃ character rest, trimBlanks text = character :: rest ∧ isBlank character = false := by
  induction text with
  | nil => exact .inl rfl
  | cons character text inductionHypothesis =>
    cases blank : isBlank character with
    | true =>
      rw [trimBlanks_cons_of_blank blank]
      exact inductionHypothesis
    | false =>
      obtain ⟨rest, trimmed⟩ := trimBlanks_cons_of_not_blank blank text
      exact .inr ⟨character, rest, trimmed, blank⟩

/-! ### Pieces -/

theorem pieces_separator (separator : Char) (text : List Char) :
    pieces separator (separator :: text) = [] :: pieces separator text :=
  if_pos rfl

/-- A character that is no separator belongs to the first piece. -/
theorem exists_pieces_cons
    {separator character : Char}
    (inPiece : character ≠ separator)
    (text : List Char) :
    ∃ first others, pieces separator text = first :: others ∧
      pieces separator (character :: text) = (character :: first) :: others := by
  obtain ⟨first, others, split⟩ := List.exists_cons_of_ne_nil (pieces_ne_nil separator text)
  refine ⟨first, others, split, ?_⟩
  rw [pieces, if_neg inPiece, split]

/-- A character that is no separator belongs to the last piece where it ends the text. -/
theorem exists_pieces_concat
    {separator character : Char}
    (inPiece : character ≠ separator)
    (text : List Char) :
    ∃ front last, pieces separator text = front ++ [last] ∧
      pieces separator (text ++ [character]) = front ++ [last ++ [character]] := by
  induction text with
  | nil =>
    refine ⟨[], [], rfl, ?_⟩
    rw [List.nil_append, pieces, if_neg inPiece]
    rfl
  | cons other text inductionHypothesis =>
    obtain ⟨front, last, split, splitBehind⟩ := inductionHypothesis
    by_cases separates : other = separator
    · subst separates
      refine ⟨[] :: front, last, ?_, ?_⟩
      · rw [pieces_separator, split, List.cons_append]
      · rw [List.cons_append, pieces_separator, splitBehind, List.cons_append]
    · cases front with
      | nil =>
        refine ⟨[], other :: last, ?_, ?_⟩
        · rw [pieces, if_neg separates, split]
          rfl
        · rw [List.cons_append, pieces, if_neg separates, splitBehind]
          rfl
      | cons first front =>
        refine ⟨(other :: first) :: front, last, ?_, ?_⟩
        · rw [pieces, if_neg separates, split]
          rfl
        · rw [List.cons_append, pieces, if_neg separates, splitBehind]
          rfl

namespace Csv

/-! ### Cells -/

/-- The fields of a line without the blanks around them. -/
def cells (text : List Char) : List (List Char) := (pieces ',' text).map trimBlanks

theorem ne_comma_of_blank {character : Char} (blank : isBlank character = true) : character ≠ ',' := by
  rintro rfl
  exact absurd blank (by decide)

theorem cells_cons_of_blank
    {character : Char}
    (blank : isBlank character = true)
    (text : List Char) :
    cells (character :: text) = cells text := by
  obtain ⟨first, others, split, splitBehind⟩ := exists_pieces_cons (ne_comma_of_blank blank) text
  unfold cells
  rw [split, splitBehind, List.map_cons, List.map_cons, trimBlanks_cons_of_blank blank]

theorem cells_concat_of_blank
    {character : Char}
    (blank : isBlank character = true)
    (text : List Char) :
    cells (text ++ [character]) = cells text := by
  obtain ⟨front, last, split, splitBehind⟩ := exists_pieces_concat (ne_comma_of_blank blank) text
  unfold cells
  rw [split, splitBehind, List.map_append, List.map_append, List.map_singleton, List.map_singleton,
    trimBlanks_concat_of_blank blank]

/-- The blanks around a line do not show in its cells. -/
theorem cells_trimBlanks (text : List Char) : cells (trimBlanks text) = cells text := by
  have behind (text : List Char) : cells (text.rdropWhile isBlank) = cells text := by
    induction text using List.reverseRecOn with
    | nil => rfl
    | append_singleton text last inductionHypothesis =>
      by_cases blank : isBlank last = true
      · rw [List.rdropWhile_concat_pos _ _ _ blank, inductionHypothesis, cells_concat_of_blank blank]
      · rw [List.rdropWhile_concat_neg _ _ _ blank]
  have inFront (text : List Char) : cells (text.dropWhile isBlank) = cells text := by
    induction text with
    | nil => rfl
    | cons first text inductionHypothesis =>
      by_cases blank : isBlank first = true
      · rw [List.dropWhile_cons_of_pos blank, inductionHypothesis, cells_cons_of_blank blank]
      · rw [List.dropWhile_cons_of_neg blank]
  rw [trimBlanks_eq_rdropWhile, behind, inFront]

/-- Whether cells are those of a line that is passed over: there is only one and it is empty, or the
first one begins a comment. -/
def isPassedOverByCells : List (List Char) → Bool
  | [[]] => true
  | ('#' :: _) :: _ => true
  | _ => false

/-- Whether a line is passed over shows in its cells. -/
theorem isPassedOver_trimBlanks (text : List Char) :
    isPassedOver (trimBlanks text) = isPassedOverByCells (cells text) := by
  rw [← cells_trimBlanks]
  rcases trimBlanks_cases text with blank | ⟨character, rest, trimmed, visible⟩
  · rw [blank]
    rfl
  · rw [trimmed]
    by_cases separates : character = ','
    · subst separates
      obtain ⟨first, others, split⟩ := List.exists_cons_of_ne_nil (pieces_ne_nil ',' rest)
      unfold cells
      rw [pieces_separator, split]
      rfl
    · obtain ⟨first, others, -, split⟩ := exists_pieces_cons separates rest
      obtain ⟨firstRest, firstTrimmed⟩ := trimBlanks_cons_of_not_blank visible first
      unfold cells isPassedOver
      rw [split, List.map_cons, firstTrimmed]
      by_cases comment : character = '#'
      · subst comment
        rfl
      · simp [isPassedOverByCells, comment]

end Csv

end GradientMerge
