import GradientMerge.Json.Layout
import GradientMerge.Json.Reader
import GradientMerge.Proofs.Outcome

/-!
Contract: what the readers of JSON make of the pieces of text that are written.

Every statement is about a piece with more text behind it. A number has no end of its own, so that
what stands behind it must be something that does not go on with it.

Owns: the bytes of written texts, blanks, punctuation, quoted names, and the digits of numbers.

Does not own: the structure of arrays and records, and the values of numbers that are not whole.
-/

namespace GradientMerge

/-! ### Bytes -/

namespace Utf8

theorem encode_append (first second : String) :
    encode (first ++ second) = encode first ++ encode second := by
  simp [encode, String.toUTF8]

@[simp] theorem encode_empty : encode "" = [] := rfl

theorem encode_ofList
    {characters : List Char}
    (ascii : ∀ character ∈ characters, character.toNat ≤ 127) :
    encode (String.ofList characters) = characters.map Json.byteOf := by
  have bytes : encode (String.ofList characters) = characters.flatMap String.utf8EncodeChar := by
    simp [encode, String.toUTF8, List.utf8Encode]
  rw [bytes]
  clear bytes
  induction characters with
  | nil => rfl
  | cons character characters inductionHypothesis =>
    rw [List.forall_mem_cons] at ascii
    have small : character.val.toNat ≤ 127 := ascii.1
    have isByte : String.utf8EncodeChar character = [Json.byteOf character] := by
      simp only [String.utf8EncodeChar, small, ↓reduceIte]
      rfl
    rw [List.flatMap_cons, isByte, inductionHypothesis ascii.2]
    rfl

@[simp] theorem encode_quote : encode "\"" = [0x22] := rfl

@[simp] theorem encode_comma : encode "," = [Json.byteOf ','] := rfl

@[simp] theorem encode_bracketOpen : encode "[" = [Json.byteOf '['] := rfl

@[simp] theorem encode_bracketClose : encode "]" = [Json.byteOf ']'] := rfl

@[simp] theorem encode_braceOpen : encode "\x7b" = [0x7b] := rfl

@[simp] theorem encode_braceClose : encode "\x7d" = [0x7d] := rfl

@[simp] theorem encode_quoteColon : encode "\":" = [0x22, Json.byteOf ':'] := rfl

@[simp] theorem encode_quoteColonSpace : encode "\": " = [0x22, Json.byteOf ':', 0x20] := rfl

end Utf8

namespace Json

/-! ### Blanks and punctuation -/

/-- Whether a text is nothing but blanks. -/
def AreBlanks (blanks : List UInt8) : Prop := ∀ byte ∈ blanks, isBlankByte byte

theorem AreBlanks.nil : AreBlanks [] := fun _ member => nomatch member

theorem skipBlanks_of_cons
    {blanks : List UInt8}
    (areBlanks : AreBlanks blanks)
    {byte : UInt8}
    (visible : isBlankByte byte = false)
    (rest : List UInt8) :
    skipBlanks (blanks ++ byte :: rest) = byte :: rest := by
  induction blanks with
  | nil => simp [skipBlanks, visible]
  | cons blank blanks inductionHypothesis =>
    have isBlank : isBlankByte blank := areBlanks blank List.mem_cons_self
    have others : AreBlanks blanks := fun other member => areBlanks other (List.mem_cons_of_mem _ member)
    simp only [skipBlanks, List.cons_append, List.dropWhile_cons, isBlank, ↓reduceIte]
    exact inductionHypothesis others

/-- The blanks at the beginning of a line. -/
def lineBreakBytes (depth : Nat) : List UInt8 := 0x0a :: List.replicate (2 * depth) 0x20

theorem encode_lineBreak (depth : Nat) :
    Utf8.encode (JsonLayout.lineBreak depth) = lineBreakBytes depth := by
  have ascii : ∀ character ∈ List.replicate (2 * depth) ' ', character.toNat ≤ 127 := by
    intro character member
    rw [List.eq_of_mem_replicate member]
    decide
  unfold JsonLayout.lineBreak
  rw [Utf8.encode_append, Utf8.encode_ofList ascii, List.map_replicate]
  rfl

theorem areBlanks_lineBreakBytes (depth : Nat) : AreBlanks (lineBreakBytes depth) := by
  intro byte member
  rcases List.mem_cons.1 member with rfl | isSpace
  · decide
  · rw [List.eq_of_mem_replicate isSpace]
    decide

theorem punctuation_cons
    {blanks : List UInt8}
    (areBlanks : AreBlanks blanks)
    {expected : UInt8}
    (visible : isBlankByte expected = false)
    (rest : List UInt8) :
    punctuation expected (blanks ++ expected :: rest) = .ok ((), rest) := by
  unfold punctuation
  rw [skipBlanks_of_cons areBlanks visible]
  exact if_pos rfl

/-! ### Quoted names -/

/-- Whether a byte stands for itself between quotes. -/
def isPlainByte (byte : UInt8) : Bool := 0x20 ≤ byte && byte != 0x22 && byte != 0x5c

theorem stringBody_plain
    {readEscape : Reader (List UInt8)}
    {body : List UInt8}
    (plain : ∀ byte ∈ body, isPlainByte byte)
    {fuel : Nat}
    (enough : body.length < fuel)
    (rest : List UInt8) :
    stringBody readEscape fuel (body ++ 0x22 :: rest) = .ok (body, rest) := by
  induction body generalizing fuel with
  | nil =>
    cases fuel with
    | zero => cases enough
    | succ fuel => rfl
  | cons byte body inductionHypothesis =>
    cases fuel with
    | zero => cases enough
    | succ fuel =>
      rw [List.forall_mem_cons] at plain
      have isPlain := plain.1
      simp only [isPlainByte, Bool.and_eq_true, bne_iff_ne, ne_eq, decide_eq_true_eq] at isPlain
      obtain ⟨⟨printable, notQuote⟩, notEscape⟩ := isPlain
      have behind := inductionHypothesis plain.2 (Nat.lt_of_succ_lt_succ enough)
      have notControl : ¬ byte < 0x20 := UInt8.not_lt.2 printable
      rw [List.cons_append, stringBody, if_neg notQuote, if_neg notEscape, if_neg notControl, behind]
      rfl

/-- Whether a name is written as it is read. -/
def IsPlainName (name : String) : Prop := ∀ byte ∈ Utf8.encode name, isPlainByte byte

instance (name : String) : Decidable (IsPlainName name) :=
  decidable_of_iff ((Utf8.encode name).all isPlainByte = true) List.all_eq_true

theorem quoted_plain
    {name : String}
    (plain : IsPlainName name)
    (rest : List UInt8) :
    quoted (Utf8.encode name ++ 0x22 :: rest) = .ok (name, rest) := by
  have enough : (Utf8.encode name).length < (Utf8.encode name ++ 0x22 :: rest).length + 1 := by
    rw [List.length_append]
    omega
  unfold quoted
  rw [stringBody_plain plain enough, Outcome.ok_bind]
  simp only [Utf8.decode?_encode]

/-! ### Digits -/

/-- The value of a digit. -/
def digitOf (byte : UInt8) : Nat := byte.toNat - 0x30

/-- The number that digits make behind another number. -/
def digitsFrom (value : Nat) (digits : List UInt8) : Nat :=
  digits.foldl (fun value digit => 10 * value + digitOf digit) value

/-- The digits of a natural number. -/
def decimalBytes (value : Nat) : List UInt8 := (Nat.toDigits 10 value).map byteOf

/-- Whether a text does not go on with a number in front of it. -/
def EndsNumber (rest : List UInt8) : Prop :=
  ∀ byte ∈ rest.head?, isDigitByte byte = false ∧ byte ≠ byteOf '.' ∧ byte ≠ byteOf 'e' ∧
    byte ≠ byteOf 'E'

theorem byteOf_digit {digit : Char} (isDigit : digit.isDigit) :
    isDigitByte (byteOf digit) ∧ digitOf (byteOf digit) = digit.toNat - '0'.toNat := by
  have bounds : 48 ≤ digit.toNat ∧ digit.toNat ≤ 57 := by
    simp only [Char.isDigit, Bool.and_eq_true, decide_eq_true_eq] at isDigit
    exact ⟨isDigit.1, isDigit.2⟩
  have value : (byteOf digit).toNat = digit.toNat := by
    rw [byteOf, UInt8.toNat_ofNat']
    omega
  refine ⟨?_, ?_⟩
  · simp only [isDigitByte, Bool.and_eq_true, decide_eq_true_eq, UInt8.le_iff_toNat_le, value]
    exact bounds
  · rw [digitOf, value]
    rfl

theorem isDigitByte_of_mem_decimalBytes
    {value : Nat}
    {byte : UInt8}
    (member : byte ∈ decimalBytes value) :
    isDigitByte byte := by
  obtain ⟨digit, isDigit, rfl⟩ := List.mem_map.1 member
  exact (byteOf_digit (Nat.isDigit_of_mem_toDigits (by decide) (by decide) isDigit)).1

theorem digitsFrom_decimalBytes (value : Nat) : digitsFrom 0 (decimalBytes value) = value := by
  have read (digits : List Char) (areDigits : ∀ digit ∈ digits, digit.isDigit) (start : Nat) :
      digitsFrom start (digits.map byteOf) = Nat.ofDigitChars 10 digits start := by
    induction digits generalizing start with
    | nil => rfl
    | cons digit digits inductionHypothesis =>
      rw [List.forall_mem_cons] at areDigits
      rw [List.map_cons, digitsFrom, List.foldl_cons, (byteOf_digit areDigits.1).2]
      exact inductionHypothesis areDigits.2 _
  unfold decimalBytes
  rw [read]
  · exact Nat.ofDigitChars_toDigits (by decide) (by decide)
  · exact fun digit member => Nat.isDigit_of_mem_toDigits (by decide) (by decide) member

theorem encode_repr (value : Nat) : Utf8.encode value.repr = decimalBytes value := by
  have isText : value.repr = String.ofList (Nat.toDigits 10 value) := rfl
  rw [isText, Utf8.encode_ofList, decimalBytes]
  intro digit member
  have isDigit := Nat.isDigit_of_mem_toDigits (by decide) (by decide) member
  simp only [Char.isDigit, Bool.and_eq_true, decide_eq_true_eq] at isDigit
  exact Nat.le_trans isDigit.2 (by decide)

theorem decimalBytes_of_lt {value : Nat} (small : value < 10) :
    decimalBytes value = [byteOf value.digitChar] := by
  rw [decimalBytes, Nat.toDigits_of_lt_base small]
  rfl

theorem decimalBytes_of_le {value : Nat} (large : 10 ≤ value) :
    decimalBytes value = decimalBytes (value / 10) ++ [byteOf (value % 10).digitChar] := by
  rw [decimalBytes, Nat.toDigits_of_base_le (by decide) large, List.map_append]
  rfl

theorem decimalBytes_ne_nil (value : Nat) : decimalBytes value ≠ [] := by
  by_cases small : value < 10
  · rw [decimalBytes_of_lt small]
    exact List.cons_ne_nil _ _
  · rw [decimalBytes_of_le (Nat.not_lt.1 small)]
    exact List.append_ne_nil_of_right_ne_nil _ (List.cons_ne_nil _ _)

/-- The first digit of a positive number is not zero. -/
theorem head_decimalBytes
    {value : Nat}
    (positive : 0 < value) :
    ∃ first others, decimalBytes value = first :: others ∧ first ≠ 0x30 := by
  induction value using Nat.strongRecOn with
  | ind value inductionHypothesis =>
    by_cases small : value < 10
    · refine ⟨_, [], decimalBytes_of_lt small, ?_⟩
      have each : ∀ digit < 10, 0 < digit → byteOf digit.digitChar ≠ 0x30 := by decide
      exact each value small positive
    · have large : 10 ≤ value := Nat.not_lt.1 small
      have shorter : value / 10 < value := Nat.div_lt_self positive (by decide)
      obtain ⟨first, others, isNumber, notZero⟩ :=
        inductionHypothesis (value / 10) shorter (Nat.div_pos large (by decide))
      exact ⟨first, _, by rw [decimalBytes_of_le large, isNumber]; rfl, notZero⟩

/-- No zero stands in front of other digits. -/
theorem others_of_decimalBytes_eq
    {value : Nat}
    {others : List UInt8}
    (isNumber : decimalBytes value = 0x30 :: others) :
    others = [] := by
  rcases Nat.eq_zero_or_pos value with rfl | positive
  · rw [decimalBytes_of_lt (by decide)] at isNumber
    exact (List.cons.inj isNumber).2.symm
  · obtain ⟨first, behind, isOther, notZero⟩ := head_decimalBytes positive
    rw [isOther] at isNumber
    exact absurd (List.cons.inj isNumber).1 notZero

theorem digitsFrom_le (value : Nat) (digits : List UInt8) : value ≤ digitsFrom value digits := by
  induction digits generalizing value with
  | nil => exact Nat.le_refl _
  | cons digit digits inductionHypothesis =>
    have grown : value ≤ 10 * value + digitOf digit := by omega
    exact Nat.le_trans grown (inductionHypothesis _)

/-- Digits are taken as long as their number fits. -/
theorem takeDigits_eq
    {value : Nat}
    {digits : List UInt8}
    (fits : digitsFrom value digits ≤ wholeLimit) :
    takeDigits value digits = (digitsFrom value digits, digits.length) := by
  induction digits generalizing value with
  | nil => rfl
  | cons digit digits inductionHypothesis =>
    have grown : 10 * value + digitOf digit ≤ wholeLimit := Nat.le_trans (digitsFrom_le _ digits) fits
    have behind : takeDigits (10 * value + digitOf digit) digits =
        (digitsFrom (10 * value + digitOf digit) digits, digits.length) := inductionHypothesis fits
    rw [takeDigits]
    simp only [digitOf] at grown behind
    simp only [if_neg (Nat.not_lt.2 grown), behind]
    rfl

theorem takeWhile_digits
    {digits rest : List UInt8}
    (areDigits : ∀ byte ∈ digits, isDigitByte byte)
    (ends : ∀ byte ∈ rest.head?, isDigitByte byte = false) :
    (digits ++ rest).takeWhile isDigitByte = digits ∧
      (digits ++ rest).dropWhile isDigitByte = rest := by
  induction digits with
  | nil =>
    cases rest with
    | nil => exact ⟨rfl, rfl⟩
    | cons byte rest =>
      have stops : isDigitByte byte = false := ends byte rfl
      simp [stops]
  | cons digit digits inductionHypothesis =>
    rw [List.forall_mem_cons] at areDigits
    obtain ⟨taken, dropped⟩ := inductionHypothesis areDigits.2
    simp [areDigits.1, taken, dropped]

/-! ### Whole numbers -/

theorem wholeDigits_eq
    {digits rest : List UInt8}
    (areDigits : ∀ byte ∈ digits, isDigitByte byte)
    (nonempty : digits ≠ [])
    (head : ∀ others, digits = 0x30 :: others → others = [])
    (ends : ∀ byte ∈ rest.head?, isDigitByte byte = false) :
    wholeDigits (digits ++ rest) = .ok (digits, rest) := by
  obtain ⟨taken, dropped⟩ := takeWhile_digits areDigits ends
  unfold wholeDigits
  rw [taken, dropped]
  cases digits with
  | nil => exact absurd rfl nonempty
  | cons first others =>
    have plain : ¬ (first = 0x30 ∧ others ≠ []) := by
      rintro ⟨rfl, more⟩
      exact more (head others rfl)
    exact if_neg plain

theorem fractionDigits_of_ends {rest : List UInt8} (ends : EndsNumber rest) :
    fractionDigits rest = .ok ([], rest) := by
  cases rest with
  | nil => rfl
  | cons byte rest => exact if_neg (ends byte rfl).2.1

theorem exponentPart_of_ends {rest : List UInt8} (ends : EndsNumber rest) :
    exponentPart rest = .ok (none, rest) := by
  cases rest with
  | nil => rfl
  | cons byte rest =>
    obtain ⟨-, -, small, capital⟩ := ends byte rfl
    exact if_neg (not_or.2 ⟨small, capital⟩)

/-- A number is made of its parts. -/
theorem unsignedNumber_eq
    {negative : Bool}
    {bytes behindDigits behindFraction rest digits fraction : List UInt8}
    {exponent : Option Int}
    {value : JsonNumber}
    (isWhole : wholeDigits bytes = .ok (digits, behindDigits))
    (isFraction : fractionDigits behindDigits = .ok (fraction, behindFraction))
    (isExponent : exponentPart behindFraction = .ok (exponent, rest))
    (isValue :
      numberValue? negative (fraction.isEmpty && exponent.isNone) digits fraction
        (exponent.getD 0) = some value) :
    unsignedNumber negative bytes = .ok (value, rest) := by
  unfold unsignedNumber
  simp only [isWhole, Outcome.ok_bind, isFraction, isExponent, isValue]

theorem unsignedNumber_decimalBytes
    {value : Nat}
    {rest : List UInt8}
    (fits : value ≤ wholeLimit)
    (ends : EndsNumber rest) :
    unsignedNumber false (decimalBytes value ++ rest) = .ok (.natural value, rest) := by
  have isWhole : wholeDigits (decimalBytes value ++ rest) = .ok (decimalBytes value, rest) :=
    wholeDigits_eq (fun byte => isDigitByte_of_mem_decimalBytes) (decimalBytes_ne_nil value)
      (fun others => others_of_decimalBytes_eq) (fun byte member => (ends byte member).1)
  have taken : takeDigits 0 (decimalBytes value) = (value, (decimalBytes value).length) := by
    rw [takeDigits_eq, digitsFrom_decimalBytes]
    rwa [digitsFrom_decimalBytes]
  apply unsignedNumber_eq isWhole (fractionDigits_of_ends ends) (exponentPart_of_ends ends)
  simp [numberValue?, taken]

/-! ### Values -/

section Values

variable {α : Type}

/-- Whether a piece of text begins with something else than a blank or the end of an array. -/
abbrev Begins (bytes : List UInt8) : Prop :=
  ∃ byte others, bytes = byte :: others ∧ isBlankByte byte = false ∧ byte ≠ byteOf ']'

/-- Whether a reader takes a piece of text for a value, with any blanks in front of it and any text
behind it that does not go on with a number. -/
structure Reads (reader : Reader α) (bytes : List UInt8) (value : α) : Prop where
  begins : Begins bytes
  reads : ∀ blanks rest, AreBlanks blanks → EndsNumber rest →
    reader (blanks ++ (bytes ++ rest)) = .ok (value, rest)

theorem Reads.map
    {β : Type}
    (convert : α → β)
    {reader : Reader α}
    {bytes : List UInt8}
    {value : α}
    (reads : Reads reader bytes value) :
    Reads (fun bytes => (reader bytes).map fun result => (convert result.1, result.2)) bytes
      (convert value) where
  begins := reads.begins
  reads blanks rest areBlanks ends := by
    rw [reads.reads blanks rest areBlanks ends]
    rfl

theorem visible_of_isDigitByte {byte : UInt8} (isDigit : isDigitByte byte) :
    isBlankByte byte = false ∧ byte ≠ byteOf ']' := by
  simp only [isDigitByte, Bool.and_eq_true, decide_eq_true_eq, UInt8.le_iff_toNat_le] at isDigit
  have bounds : 48 ≤ byte.toNat ∧ byte.toNat ≤ 57 := isDigit
  refine ⟨?_, ?_⟩
  · simp only [isBlankByte, Bool.or_eq_false_iff, beq_eq_false_iff_ne, ne_eq, ← UInt8.toNat_inj]
    refine ⟨⟨⟨?_, ?_⟩, ?_⟩, ?_⟩ <;> simp <;> omega
  · rintro rfl
    exact absurd bounds.2 (by decide)

theorem reads_wholeNumber
    {least greatest value : Nat}
    (inside : least ≤ value ∧ value ≤ greatest)
    (fits : value ≤ wholeLimit) :
    Reads (wholeNumber least greatest) (decimalBytes value) value := by
  obtain ⟨first, others, isNumber⟩ := List.exists_cons_of_ne_nil (decimalBytes_ne_nil value)
  have isDigit : isDigitByte first :=
    isDigitByte_of_mem_decimalBytes (isNumber ▸ List.mem_cons_self)
  obtain ⟨visible, notClosing⟩ := visible_of_isDigitByte isDigit
  refine ⟨⟨first, others, isNumber, visible, notClosing⟩, ?_⟩
  intro blanks rest areBlanks ends
  have read := unsignedNumber_decimalBytes fits ends
  rw [isNumber, List.cons_append] at read ⊢
  have notSign : first ≠ byteOf '-' := by
    rintro rfl
    cases isDigit
  have begins : beginsNumber first := by simp [beginsNumber, isDigit]
  have isAny : anyNumber (blanks ++ first :: (others ++ rest)) = .ok (.natural value, rest) := by
    unfold anyNumber
    rw [skipBlanks_of_cons areBlanks visible]
    simp only [begins, ↓reduceIte, number, if_neg notSign]
    exact read
  unfold wholeNumber Reader.accept
  rw [isAny, Outcome.ok_bind]
  simp only [if_pos inside]

end Values

end Json

end GradientMerge
