import GradientMerge.Proofs.FieldSpacing
import GradientMerge.Proofs.Outcome
import GradientMerge.Proofs.PartitionReading
import Mathlib.Algebra.BigOperators.Group.List.Basic
import Mathlib.Data.List.Flatten

/-!
Contract: which texts are datasets, of which instances, and how every other text fails.

Owns:
- a dataset as its instances one after the other;
- the three things that a line can be: passed over, an instance, or an offence with its failure;
- the reading of lines up to the first offence, by induction on the lines;
- texts that differ only in lines that are passed over and in blanks around fields.

Does not own: the splitting into lines, blank characters, and the grammar of numbers.
-/

namespace GradientMerge

open Outcome

/-! ### Datasets as their instances -/

namespace Dataset

variable {α : Type}

theorem flatten_rows (dataset : Dataset α) : dataset.rows.flatten = dataset.values.toList := by
  have upTo : ∀ count ≤ dataset.rowCount, ((List.range count).filterMap dataset.row?).flatten =
      dataset.values.toList.take (count * dataset.width) := by
    intro count
    induction count with
    | zero =>
      intro _
      rw [Nat.zero_mul]
      rfl
    | succ count inductionHypothesis =>
      intro within
      have isRow : dataset.row? count = some _ := if_pos within
      rw [List.range_succ, List.filterMap_append, List.flatten_append,
        inductionHypothesis (Nat.le_of_succ_le within), List.filterMap_cons_some isRow,
        List.filterMap_nil, List.flatten_singleton, Array.toList_extract, List.extract_eq_take_drop,
        Nat.succ_mul, Nat.add_sub_cancel_left, ← List.take_add]
  have all : dataset.rowCount * dataset.width = dataset.values.toList.length :=
    Nat.div_mul_cancel (Nat.dvd_of_mod_eq_zero dataset.width_dvd)
  rw [rows, upTo _ (Nat.le_refl _), all, List.take_length]

theorem length_of_mem_rows
    {dataset : Dataset α}
    {row : List α}
    (member : row ∈ dataset.rows) :
    row.length = dataset.width := by
  obtain ⟨index, -, found⟩ := List.mem_filterMap.1 member
  exact (isRow_of_row? found).length

theorem length_flatten_of_full
    {width : Nat}
    {rows : List (List α)}
    (full : ∀ row ∈ rows, row.length = width) :
    rows.flatten.length = rows.length * width := by
  rw [List.length_flatten, List.sum_eq_card_nsmul _ width (by simpa using full), List.length_map]
  rfl

/-- Lists of one length are known from what they are together. -/
theorem rows_eq
    {dataset : Dataset α}
    {rows : List (List α)}
    (full : ∀ row ∈ rows, row.length = dataset.width)
    (values : dataset.values.toList = rows.flatten) :
    dataset.rows = rows := by
  have sameValues : dataset.rows.flatten = rows.flatten := dataset.flatten_rows.trans values
  have lengths {some : List (List α)} (full : ∀ row ∈ some, row.length = dataset.width) :
      some.map List.length = List.replicate some.length dataset.width :=
    List.eq_replicate_iff.2 ⟨List.length_map _, by simpa using full⟩
  have sameLength : dataset.rows.length = rows.length := by
    have counted := congrArg List.length sameValues
    rw [length_flatten_of_full fun row => length_of_mem_rows, length_flatten_of_full full] at counted
    exact Nat.eq_of_mul_eq_mul_right dataset.width_pos counted
  rw [List.eq_iff_flatten_eq, lengths fun row => length_of_mem_rows, lengths full, sameLength]
  exact ⟨sameValues, rfl⟩

theorem eq_of_rows
    {first second : Dataset α}
    (sameWidth : first.width = second.width)
    (sameRows : first.rows = second.rows) :
    first = second := by
  have sameValues : first.values.toList = second.values.toList := by
    rw [← flatten_rows, ← flatten_rows, sameRows]
  cases first
  cases second
  rw [Dataset.mk.injEq]
  exact ⟨sameWidth, Array.toList_inj.1 sameValues⟩

theorem exists_ofValues_of_full
    {width : Nat}
    (positive : 0 < width)
    {rows : List (List α)}
    (full : ∀ row ∈ rows, row.length = width) :
    ∃ dataset : Dataset α, ofValues rows.flatten.toArray width = .ok dataset ∧
      dataset.width = width ∧ dataset.rows = rows := by
  have size : rows.flatten.toArray.size = rows.length * width := by
    rw [List.size_toArray, length_flatten_of_full full]
  have fits : 0 < width ∧ rows.flatten.toArray.size % width = 0 :=
    ⟨positive, by rw [size, Nat.mul_mod_left]⟩
  exact ⟨⟨width, rows.flatten.toArray, fits.1, fits.2⟩, dif_pos fits, rfl,
    rows_eq full List.toList_toArray⟩

end Dataset

namespace Csv

/-! ### Lines -/

/-- The number in a field with blanks around it. -/
def fieldNumber (field : List Char) : Except NumberFault Single := number (trimBlanks field)

/-- Whether these are the numbers in fields. -/
def AreNumbers (fields : List (List Char)) (values : List Single) : Prop :=
  fields.map fieldNumber = values.map .ok

/-- Whether a line is a text that is blank or a comment. -/
def IsSkipped (bytes : List UInt8) : Prop :=
  ∃ text, Utf8.decode? bytes = some text ∧ isPassedOver (trimBlanks text.toList) = true

/-- Whether a line is a text that is neither blank nor a comment, with these fields between its
commas. -/
def HasFields (bytes : List UInt8) (fields : List (List Char)) : Prop :=
  ∃ text, Utf8.decode? bytes = some text ∧ isPassedOver (trimBlanks text.toList) = false ∧
    pieces ',' (trimBlanks text.toList) = fields

/-- Whether a line is an instance of these values. -/
def IsInstance (width : Nat) (bytes : List UInt8) (values : List Single) : Prop :=
  ∃ fields, HasFields bytes fields ∧ AreNumbers fields values ∧ values.length = width

/-- Whether the line with a number offends in a way that is this failure. A field that is no number
comes before a wrong number of fields, and the first such field before the others. -/
inductive Offends (width line : Nat) (bytes : List UInt8) : WorkerError → Prop where
  | notText
      (undecodable : Utf8.decode? bytes = none) :
      Offends width line bytes (.io .notText)
  | notNumber
      {before later : List (List Char)}
      {field : List Char}
      {values : List Single}
      {fault : NumberFault}
      (hasFields : HasFields bytes (before ++ field :: later))
      (inFront : AreNumbers before values)
      (failed : fieldNumber field = .error fault) :
      Offends width line bytes (.invalidLine line (Quoted.write field ++ ": " ++ fault.text))
  | wrongCount
      {fields : List (List Char)}
      {values : List Single}
      (hasFields : HasFields bytes fields)
      (areNumbers : AreNumbers fields values)
      (differs : values.length ≠ width) :
      Offends width line bytes
        (.invalidLine line s!"expected {width} values, got {values.length}")

section Lines

variable {width line : Nat} {bytes : List UInt8}

theorem HasFields.readLine_eq {fields : List (List Char)} (hasFields : HasFields bytes fields) :
    readLine width line bytes =
      (do
        let values ← fields.mapM (fieldValue line)
        if values.length = width then
          .ok values
        else
          .error (.invalidLine line s!"expected {width} values, got {values.length}")) := by
  obtain ⟨text, decoded, holds, rfl⟩ := hasFields
  unfold readLine
  rw [decoded]
  dsimp only
  rw [holds, if_neg Bool.false_ne_true]
  rfl

theorem map_fieldValue
    {fields : List (List Char)}
    {values : List Single}
    (areNumbers : AreNumbers fields values)
    (line : Nat) :
    fields.map (fieldValue line) = values.map .ok := by
  induction fields generalizing values with
  | nil =>
    rw [List.map_eq_nil_iff.1 areNumbers.symm]
    rfl
  | cons field fields inductionHypothesis =>
    cases values with
    | nil => cases areNumbers
    | cons value values =>
      obtain ⟨first, others⟩ := List.cons.inj areNumbers
      have isValue : fieldValue line field = .ok value := mapError_eq_ok_iff.2 first
      rw [List.map_cons, List.map_cons, isValue, inductionHypothesis others]

theorem IsSkipped.readLine_eq (skipped : IsSkipped bytes) : readLine width line bytes = .ok [] := by
  obtain ⟨text, decoded, passedOver⟩ := skipped
  unfold readLine
  rw [decoded]
  dsimp only
  rw [passedOver, if_pos rfl]

theorem IsInstance.readLine_eq
    {values : List Single}
    (isInstance : IsInstance width bytes values) :
    readLine width line bytes = .ok values := by
  obtain ⟨fields, hasFields, areNumbers, length⟩ := isInstance
  rw [hasFields.readLine_eq, mapM_of_map_eq (map_fieldValue areNumbers line), ok_bind, if_pos length]

theorem Offends.readLine_eq
    {cause : WorkerError}
    (offends : Offends width line bytes cause) :
    readLine width line bytes = .error cause := by
  cases offends with
  | notText undecodable =>
    unfold readLine
    rw [undecodable]
  | @notNumber before later field values fault hasFields inFront failed =>
    have fails : fieldValue line field =
        .error (.invalidLine line (Quoted.write field ++ ": " ++ fault.text)) := by
      unfold fieldValue
      rw [show number (trimBlanks field) = .error fault from failed]
      rfl
    rw [hasFields.readLine_eq, mapM_of_first_error (map_fieldValue inFront line) fails]
    rfl
  | wrongCount hasFields areNumbers differs =>
    rw [hasFields.readLine_eq, mapM_of_map_eq (map_fieldValue areNumbers line), ok_bind,
      if_neg differs]

/-- A line is passed over, an instance or an offence. -/
theorem line_cases (width line : Nat) (bytes : List UInt8) :
    IsSkipped bytes ∨ (∃ values, IsInstance width bytes values) ∨
      ∃ cause, Offends width line bytes cause := by
  cases decoded : Utf8.decode? bytes with
  | none => exact .inr (.inr ⟨_, .notText decoded⟩)
  | some text =>
    cases passedOver : isPassedOver (trimBlanks text.toList) with
    | true => exact .inl ⟨text, decoded, passedOver⟩
    | false =>
      have hasFields : HasFields bytes (pieces ',' (trimBlanks text.toList)) :=
        ⟨text, decoded, passedOver, rfl⟩
      right
      rcases map_cases fieldNumber (pieces ',' (trimBlanks text.toList)) with
        ⟨values, areNumbers⟩ | ⟨before, field, later, fault, values, split, inFront, failed⟩
      · by_cases length : values.length = width
        · exact .inl ⟨values, _, hasFields, areNumbers, length⟩
        · exact .inr ⟨_, .wrongCount hasFields areNumbers length⟩
      · rw [split] at hasFields
        exact .inr ⟨_, .notNumber hasFields inFront failed⟩

theorem IsSkipped.not_isInstance
    {values : List Single}
    (skipped : IsSkipped bytes)
    (isInstance : IsInstance width bytes values) :
    False := by
  obtain ⟨text, decoded, passedOver⟩ := skipped
  obtain ⟨fields, ⟨other, otherDecoded, holds, -⟩, -⟩ := isInstance
  obtain rfl := Option.some.inj (decoded.symm.trans otherDecoded)
  rw [passedOver] at holds
  cases holds

end Lines

/-! ### Lines in a row -/

/-- Whether each of these lines is passed over or an instance, and these are the instances in their
order. -/
inductive Reads (width : Nat) : List (List UInt8) → List (List Single) → Prop where
  | nil : Reads width [] []
  | skip
      {bytes : List UInt8}
      {lines : List (List UInt8)}
      {rows : List (List Single)}
      (skipped : IsSkipped bytes)
      (others : Reads width lines rows) :
      Reads width (bytes :: lines) rows
  | row
      {bytes : List UInt8}
      {values : List Single}
      {lines : List (List UInt8)}
      {rows : List (List Single)}
      (isInstance : IsInstance width bytes values)
      (others : Reads width lines rows) :
      Reads width (bytes :: lines) (values :: rows)

section Rows

variable {width : Nat} {lines : List (List UInt8)} {rows : List (List Single)}

theorem Reads.full (reads : Reads width lines rows) : ∀ row ∈ rows, row.length = width := by
  induction reads with
  | nil => exact fun row member => (List.not_mem_nil member).elim
  | skip skipped others inductionHypothesis => exact inductionHypothesis
  | row isInstance others inductionHypothesis =>
    obtain ⟨fields, -, -, length⟩ := isInstance
    exact List.forall_mem_cons.2 ⟨length, inductionHypothesis⟩

/-- Lines that are passed over or instances are counted, and the values of the instances collected. -/
theorem Reads.readLines_append
    (reads : Reads width lines rows)
    (number : Nat)
    (values : Array Single)
    (later : List (List UInt8)) :
    readLines width number values (lines ++ later) =
      readLines width (number + lines.length) (values ++ rows.flatten.toArray) later := by
  induction reads generalizing number values with
  | nil =>
    rw [List.flatten_nil, Array.append_empty]
    rfl
  | @skip bytes lines rows skipped others inductionHypothesis =>
    rw [List.cons_append, readLines, skipped.readLine_eq, ok_bind, Array.append_empty,
      inductionHypothesis, List.length_cons, Nat.add_assoc, Nat.add_comm 1]
  | @row bytes row lines rows isInstance others inductionHypothesis =>
    rw [List.cons_append, readLines, isInstance.readLine_eq, ok_bind, inductionHypothesis,
      List.length_cons, Nat.add_assoc, Nat.add_comm 1, List.flatten_cons, Array.append_assoc,
      List.append_toArray row]

/-- Either all lines are read, or there is a first one that offends. -/
theorem lines_cases (width number : Nat) (lines : List (List UInt8)) :
    (∃ rows, Reads width lines rows) ∨
      ∃ before bytes later rows cause, lines = before ++ bytes :: later ∧
        Reads width before rows ∧ Offends width (number + before.length) bytes cause := by
  induction lines generalizing number with
  | nil => exact .inl ⟨[], .nil⟩
  | cons first lines inductionHypothesis =>
    have counted (before : List (List UInt8)) :
        number + 1 + before.length = number + (first :: before).length := by
      rw [List.length_cons]
      omega
    rcases line_cases width number first with skipped | ⟨values, isInstance⟩ | ⟨cause, offends⟩
    · rcases inductionHypothesis (number + 1) with
        ⟨rows, reads⟩ | ⟨before, bytes, later, rows, cause, rfl, reads, offends⟩
      · exact .inl ⟨rows, .skip skipped reads⟩
      · rw [counted] at offends
        exact .inr ⟨first :: before, bytes, later, rows, cause, rfl, .skip skipped reads, offends⟩
    · rcases inductionHypothesis (number + 1) with
        ⟨rows, reads⟩ | ⟨before, bytes, later, rows, cause, rfl, reads, offends⟩
      · exact .inl ⟨values :: rows, .row isInstance reads⟩
      · rw [counted] at offends
        exact .inr ⟨first :: before, bytes, later, values :: rows, cause, rfl,
          .row isInstance reads, offends⟩
    · exact .inr ⟨[], first, lines, [], cause, rfl, .nil, offends⟩

end Rows

/-! ### Texts -/

section Texts

variable {width : Nat} {bytes : List UInt8}

theorem Reads.exists_parse
    {rows : List (List Single)}
    (positive : 0 < width)
    (reads : Reads width (lines bytes) rows) :
    ∃ dataset, parse bytes width = .ok dataset ∧ dataset.width = width ∧ dataset.rows = rows := by
  have collected := reads.readLines_append 1 #[] []
  rw [List.append_nil, Array.empty_append] at collected
  obtain ⟨dataset, made, sameWidth, sameRows⟩ := Dataset.exists_ofValues_of_full positive reads.full
  refine ⟨dataset, ?_, sameWidth, sameRows⟩
  unfold parse
  rw [collected]
  exact made

theorem Offends.parse_eq
    {before later : List (List UInt8)}
    {line : List UInt8}
    {rows : List (List Single)}
    {cause : WorkerError}
    (split : lines bytes = before ++ line :: later)
    (reads : Reads width before rows)
    (offends : Offends width (before.length + 1) line cause) :
    parse bytes width = .error cause := by
  rw [Nat.add_comm] at offends
  unfold parse
  rw [split, reads.readLines_append, readLines, offends.readLine_eq]
  rfl

theorem parse_cases (positive : 0 < width) (bytes : List UInt8) :
    (∃ dataset, parse bytes width = .ok dataset ∧ dataset.width = width ∧
        Reads width (lines bytes) dataset.rows) ∨
      ∃ before line later rows cause, lines bytes = before ++ line :: later ∧
        Reads width before rows ∧ Offends width (before.length + 1) line cause ∧
        parse bytes width = .error cause := by
  rcases lines_cases width 1 (lines bytes) with
    ⟨rows, reads⟩ | ⟨before, line, later, rows, cause, split, reads, offends⟩
  · obtain ⟨dataset, parsed, sameWidth, rfl⟩ := reads.exists_parse positive
    exact .inl ⟨dataset, parsed, sameWidth, reads⟩
  · rw [Nat.add_comm] at offends
    exact .inr ⟨before, line, later, rows, cause, split, reads, offends,
      offends.parse_eq split reads⟩

theorem parse_eq_ok_iff (positive : 0 < width) {dataset : Dataset Single} :
    parse bytes width = .ok dataset ↔
      dataset.width = width ∧ Reads width (lines bytes) dataset.rows := by
  constructor
  · intro parsed
    rcases parse_cases positive bytes with
      ⟨other, otherParsed, sameWidth, reads⟩ | ⟨_, _, _, _, cause, -, -, -, failed⟩
    · rw [parsed] at otherParsed
      obtain rfl := Except.ok.inj otherParsed
      exact ⟨sameWidth, reads⟩
    · rw [parsed] at failed
      cases failed
  · rintro ⟨sameWidth, reads⟩
    obtain ⟨other, parsed, otherWidth, sameRows⟩ := reads.exists_parse positive
    rw [parsed, Dataset.eq_of_rows (otherWidth.trans sameWidth.symm) sameRows]

theorem parse_eq_error_iff (positive : 0 < width) {cause : WorkerError} :
    parse bytes width = .error cause ↔
      ∃ before line later rows, lines bytes = before ++ line :: later ∧
        Reads width before rows ∧ Offends width (before.length + 1) line cause := by
  constructor
  · intro failed
    rcases parse_cases positive bytes with
      ⟨other, parsed, -, -⟩ | ⟨before, line, later, rows, other, split, reads, offends, otherFailed⟩
    · rw [failed] at parsed
      cases parsed
    · rw [failed] at otherFailed
      obtain rfl := Except.error.inj otherFailed
      exact ⟨before, line, later, rows, split, reads, offends⟩
  · rintro ⟨before, line, later, rows, split, reads, offends⟩
    exact offends.parse_eq split reads

end Texts

/-! ### Lines that are passed over, and blanks around fields -/

/-- Whether two lines are texts with the same fields up to the blanks around them. -/
def SpacedAlike (first second : List UInt8) : Prop :=
  ∃ firstText secondText, Utf8.decode? first = some firstText ∧
    Utf8.decode? second = some secondText ∧ cells firstText.toList = cells secondText.toList

/-- Whether lines are the same up to lines that are passed over and blanks around fields. -/
inductive LaidOutAlike : List (List UInt8) → List (List UInt8) → Prop where
  | nil : LaidOutAlike [] []
  | skipFirst
      {line : List UInt8}
      {first second : List (List UInt8)}
      (skipped : IsSkipped line)
      (others : LaidOutAlike first second) :
      LaidOutAlike (line :: first) second
  | skipSecond
      {line : List UInt8}
      {first second : List (List UInt8)}
      (skipped : IsSkipped line)
      (others : LaidOutAlike first second) :
      LaidOutAlike first (line :: second)
  | same
      (line : List UInt8)
      {first second : List (List UInt8)}
      (others : LaidOutAlike first second) :
      LaidOutAlike (line :: first) (line :: second)
  | spaced
      {firstLine secondLine : List UInt8}
      {first second : List (List UInt8)}
      (alike : SpacedAlike firstLine secondLine)
      (others : LaidOutAlike first second) :
      LaidOutAlike (firstLine :: first) (secondLine :: second)

section Layout

variable {width : Nat} {rows : List (List Single)}

theorem SpacedAlike.symm {first second : List UInt8} (alike : SpacedAlike first second) :
    SpacedAlike second first := by
  obtain ⟨firstText, secondText, firstDecoded, secondDecoded, sameCells⟩ := alike
  exact ⟨secondText, firstText, secondDecoded, firstDecoded, sameCells.symm⟩

theorem SpacedAlike.isSkipped
    {first second : List UInt8}
    (alike : SpacedAlike first second)
    (skipped : IsSkipped first) :
    IsSkipped second := by
  obtain ⟨firstText, secondText, firstDecoded, secondDecoded, sameCells⟩ := alike
  obtain ⟨text, decoded, passedOver⟩ := skipped
  obtain rfl := Option.some.inj (decoded.symm.trans firstDecoded)
  refine ⟨secondText, secondDecoded, ?_⟩
  rw [isPassedOver_trimBlanks, ← sameCells, ← isPassedOver_trimBlanks, passedOver]

theorem SpacedAlike.isInstance
    {first second : List UInt8}
    {values : List Single}
    (alike : SpacedAlike first second)
    (isInstance : IsInstance width first values) :
    IsInstance width second values := by
  obtain ⟨firstText, secondText, firstDecoded, secondDecoded, sameCells⟩ := alike
  obtain ⟨fields, ⟨text, decoded, holds, rfl⟩, areNumbers, length⟩ := isInstance
  obtain rfl := Option.some.inj (decoded.symm.trans firstDecoded)
  -- The numbers of a line depend on its cells alone.
  have ofCells (text : List Char) : (pieces ',' (trimBlanks text)).map fieldNumber =
      (cells text).map number := by
    rw [← cells_trimBlanks, cells, List.map_map]
    rfl
  refine ⟨_, ⟨secondText, secondDecoded, ?_, rfl⟩, ?_, length⟩
  · rw [isPassedOver_trimBlanks, ← sameCells, ← isPassedOver_trimBlanks, holds]
  · rw [AreNumbers, ofCells, ← sameCells, ← ofCells]
    exact areNumbers

theorem IsSkipped.reads_of_cons
    {line : List UInt8}
    {lines : List (List UInt8)}
    (skipped : IsSkipped line)
    (reads : Reads width (line :: lines) rows) :
    Reads width lines rows := by
  cases reads with
  | skip _ others => exact others
  | row isInstance others => exact (skipped.not_isInstance isInstance).elim

/-- One line in front of others may stand for another one that can do no less. -/
theorem Reads.replaceFirst
    {firstLine secondLine : List UInt8}
    {first second : List (List UInt8)}
    (reads : Reads width (firstLine :: first) rows)
    (skips : IsSkipped firstLine → IsSkipped secondLine)
    (isInstance : ∀ values, IsInstance width firstLine values → IsInstance width secondLine values)
    (others : ∀ {rows}, Reads width first rows → Reads width second rows) :
    Reads width (secondLine :: second) rows := by
  cases reads with
  | skip skipped reads => exact .skip (skips skipped) (others reads)
  | row isFirst reads => exact .row (isInstance _ isFirst) (others reads)

theorem LaidOutAlike.symm
    {first second : List (List UInt8)}
    (alike : LaidOutAlike first second) :
    LaidOutAlike second first := by
  induction alike with
  | nil => exact .nil
  | skipFirst skipped others inductionHypothesis => exact .skipSecond skipped inductionHypothesis
  | skipSecond skipped others inductionHypothesis => exact .skipFirst skipped inductionHypothesis
  | same line others inductionHypothesis => exact .same line inductionHypothesis
  | spaced alike others inductionHypothesis => exact .spaced alike.symm inductionHypothesis

theorem LaidOutAlike.reads
    {first second : List (List UInt8)}
    (alike : LaidOutAlike first second)
    (reads : Reads width first rows) :
    Reads width second rows := by
  induction alike generalizing rows with
  | nil => exact reads
  | skipFirst skipped others inductionHypothesis =>
    exact inductionHypothesis (skipped.reads_of_cons reads)
  | skipSecond skipped others inductionHypothesis => exact .skip skipped (inductionHypothesis reads)
  | same line others inductionHypothesis =>
    exact reads.replaceFirst id (fun values => id) inductionHypothesis
  | spaced alike others inductionHypothesis =>
    exact reads.replaceFirst alike.isSkipped (fun values => alike.isInstance) inductionHypothesis

end Layout

/-! ### Acceptance -/

/-- A text is the dataset whose rows are the values of its instances in order, exactly if each of its
lines is passed over or an instance. Every other text fails as its first offending line does, whose
number counts all lines from one on. Lines that are passed over and blanks around fields never change
the dataset. -/
theorem parse_acceptsInstances {width : Nat} (positive : 0 < width) (bytes : List UInt8) :
    (∀ dataset, parse bytes width = .ok dataset ↔
      dataset.width = width ∧ Reads width (lines bytes) dataset.rows) ∧
    ((∃ dataset, parse bytes width = .ok dataset) ↔ ∃ rows, Reads width (lines bytes) rows) ∧
    (∀ cause, parse bytes width = .error cause ↔
      ∃ before line later rows, lines bytes = before ++ line :: later ∧
        Reads width before rows ∧ Offends width (before.length + 1) line cause) ∧
    ∀ other, LaidOutAlike (lines bytes) (lines other) →
      ∀ dataset, parse bytes width = .ok dataset ↔ parse other width = .ok dataset := by
  refine ⟨fun dataset => parse_eq_ok_iff positive, ⟨?_, ?_⟩, fun cause => parse_eq_error_iff positive,
    ?_⟩
  · rintro ⟨dataset, parsed⟩
    exact ⟨dataset.rows, ((parse_eq_ok_iff positive).1 parsed).2⟩
  · rintro ⟨rows, reads⟩
    obtain ⟨dataset, parsed, -⟩ := reads.exists_parse positive
    exact ⟨dataset, parsed⟩
  · intro other alike dataset
    rw [parse_eq_ok_iff positive, parse_eq_ok_iff positive]
    exact and_congr_right fun _ => ⟨alike.reads, alike.symm.reads⟩

/-- A comment, two instances with blanks around their fields, and an empty line between them. -/
def commentedPairs : List UInt8 := Utf8.encode "# pairs\n1, 2\n\n 3.5 ,-4"

/-- A comment, and a byte that begins no character. -/
def brokenLine : List UInt8 := [0x23, 0x0a, 0xff]

/-- The pairs are two instances of two values, and the broken line is the second one. -/
theorem parse_acceptsInstances_of_commentedPairs :
    (0 < 2 ∧ Reads 2 (lines commentedPairs)
      [[⟨0x3f800000⟩, ⟨0x40000000⟩], [⟨0x40600000⟩, ⟨0xc0800000⟩]]) ∧
    ∃ before line later rows, lines brokenLine = before ++ line :: later ∧ Reads 2 before rows ∧
      Offends 2 (before.length + 1) line (.io .notText) := by
  have pairs : (parse commentedPairs 2).toOption.map (·.rows) =
      some [[⟨0x3f800000⟩, ⟨0x40000000⟩], [⟨0x40600000⟩, ⟨0xc0800000⟩]] := by decide +kernel
  have broken : parse brokenLine 2 = .error (.io .notText) := rfl
  have positive : 0 < 2 := by decide
  obtain ⟨accepts, -⟩ := parse_acceptsInstances positive commentedPairs
  obtain ⟨-, -, rejects, -⟩ := parse_acceptsInstances positive brokenLine
  refine ⟨⟨positive, ?_⟩, (rejects _).1 broken⟩
  cases parsed : parse commentedPairs 2 with
  | error cause =>
    rw [parsed] at pairs
    cases pairs
  | ok dataset =>
    rw [parsed] at pairs
    rw [← Option.some.inj pairs]
    exact ((accepts dataset).1 parsed).2

end Csv

end GradientMerge
