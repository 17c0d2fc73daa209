import GradientMerge.Number.Text
import GradientMerge.Proofs.JsonTokens
import Mathlib.Algebra.Ring.Nat

/-!
Contract: what the reader of JSON numbers makes of the text of a number in a model file.

Owns:
- the digits before the point, those behind it and the power of ten of a written number;
- each layout is read as a significand and a power of ten, whatever the sign;
- the layout of digits and a power of ten is read as those, or as a whole number of tenths.

Does not own: the rounding of what is read, or the choice of the digits.
-/

namespace GradientMerge
namespace Json

/-! ### Runs of digits -/

theorem digitsFrom_append (value : Nat) (first second : List UInt8) :
    digitsFrom value (first ++ second) = digitsFrom (digitsFrom value first) second :=
  List.foldl_append

theorem digitsFrom_zeros (value count : Nat) :
    digitsFrom value (List.replicate count 0x30) = value * 10 ^ count := by
  induction count generalizing value with
  | zero => exact (Nat.mul_one value).symm
  | succ count ih =>
    rw [List.replicate_succ, ← List.singleton_append, digitsFrom_append, ih, Nat.pow_succ']
    show (10 * value + 0) * 10 ^ count = _
    rw [Nat.add_zero, Nat.mul_comm 10 value, Nat.mul_assoc]

/-- Whether a text is nothing but digits. -/
def AreDigits (bytes : List UInt8) : Prop := ∀ byte ∈ bytes, isDigitByte byte

theorem areDigits_decimalBytes (value : Nat) : AreDigits (decimalBytes value) :=
  fun _ member => isDigitByte_of_mem_decimalBytes member

theorem areDigits_zeros (count : Nat) : AreDigits (List.replicate count 0x30) := by
  intro byte member
  rw [List.eq_of_mem_replicate member]
  decide

theorem AreDigits.append
    {first second : List UInt8}
    (areFirst : AreDigits first)
    (areSecond : AreDigits second) :
    AreDigits (first ++ second) := by
  intro byte member
  rcases List.mem_append.mp member with inFirst | inSecond
  · exact areFirst byte inFirst
  · exact areSecond byte inSecond

theorem AreDigits.take {bytes : List UInt8} (areDigits : AreDigits bytes) (count : Nat) :
    AreDigits (bytes.take count) :=
  fun byte member => areDigits byte (List.mem_of_mem_take member)

theorem AreDigits.drop {bytes : List UInt8} (areDigits : AreDigits bytes) (count : Nat) :
    AreDigits (bytes.drop count) :=
  fun byte member => areDigits byte (List.mem_of_mem_drop member)

/-! ### The parts of a number -/

theorem fractionDigits_point
    {fraction rest : List UInt8}
    (areDigits : AreDigits fraction)
    (nonempty : fraction ≠ [])
    (ends : ∀ byte ∈ rest.head?, isDigitByte byte = false) :
    fractionDigits (byteOf '.' :: (fraction ++ rest)) = .ok (fraction, rest) := by
  obtain ⟨taken, dropped⟩ := takeWhile_digits areDigits ends
  rw [fractionDigits, if_pos rfl, taken, dropped]
  cases fraction with
  | nil => exact absurd rfl nonempty
  | cons digit digits => rfl

/-- The sign in front of a power of ten. -/
def exponentSignByte (negative : Bool) : UInt8 := byteOf (if negative then '-' else '+')

theorem exponentPart_signed
    (negative : Bool)
    (magnitude : Nat)
    {rest : List UInt8}
    (ends : ∀ byte ∈ rest.head?, isDigitByte byte = false) :
    exponentPart
        (byteOf 'e' :: exponentSignByte negative :: (decimalBytes magnitude ++ rest)) =
      .ok (some (if negative then -(magnitude : Int) else magnitude), rest) := by
  obtain ⟨taken, dropped⟩ := takeWhile_digits (areDigits_decimalBytes magnitude) ends
  have signed :
      exponentSign (exponentSignByte negative :: (decimalBytes magnitude ++ rest)) =
        (negative, decimalBytes magnitude ++ rest) := by
    cases negative <;> rfl
  have value_eq := digitsFrom_decimalBytes magnitude
  rw [exponentPart, if_pos (.inl rfl), signed]
  dsimp only
  rw [taken, dropped]
  cases isNumber : decimalBytes magnitude with
  | nil => exact absurd isNumber (decimalBytes_ne_nil magnitude)
  | cons digit digits =>
    rw [isNumber] at value_eq
    show Except.ok (some (if negative then -((digitsFrom 0 (digit :: digits) : Nat) : Int)
      else ((digitsFrom 0 (digit :: digits) : Nat) : Int)), rest) = _
    rw [value_eq]

/-- The value of a number that is not written as a whole one. -/
theorem numberValue?_real
    {negative : Bool}
    {digits fraction : List UInt8}
    {significand : Nat}
    {exponent : Int}
    (significand_eq : digitsFrom 0 (digits ++ fraction) = significand)
    (fits : significand ≤ wholeLimit)
    {value : Float}
    (scaled : scaled? significand (exponent - (fraction.length : Int)) = some value) :
    numberValue? negative false digits fraction exponent =
      some (.real (if negative then -value else value)) := by
  rw [digitsFrom_append] at significand_eq
  rw [← significand_eq] at fits
  have whole := takeDigits_eq (Nat.le_trans (digitsFrom_le _ fraction) fits)
  have behind := takeDigits_eq fits
  have shift :
      ((digits.length - digits.length : Nat) : Int) - (fraction.length : Int) + exponent =
        exponent - (fraction.length : Int) := by
    omega
  unfold numberValue?
  rw [whole]
  dsimp only
  rw [Bool.false_and, if_neg (by decide), behind]
  dsimp only
  rw [shift, significand_eq, scaled]
  rfl

/-- Bytes that are read as a significand and a power of ten, with any sign in front of them and any
text behind them that does not go on with a number. -/
structure ReadsScaled (bytes : List UInt8) (significand : Nat) (exponent : Int) : Prop where
  begins : ∃ first others, bytes = first :: others ∧ isDigitByte first
  reads :
    ∀ {value : Float},
      scaled? significand exponent = some value →
        ∀ (negative : Bool) (rest : List UInt8),
          EndsNumber rest →
            unsignedNumber negative (bytes ++ rest) =
              .ok (.real (if negative then -value else value), rest)

/-- The sign of a written number. -/
def signBytes (negative : Bool) : List UInt8 := if negative then [byteOf '-'] else []

/-- A single is read by rounding what its digits are read as. -/
theorem ReadsScaled.reads_single
    {bytes : List UInt8}
    {significand : Nat}
    {exponent : Int}
    (readsScaled : ReadsScaled bytes significand exponent)
    {value : Float}
    (scaled : scaled? significand exponent = some value)
    (negative : Bool) :
    Reads single (signBytes negative ++ bytes)
      (Single.ofDouble (if negative then -value else value)) := by
  obtain ⟨first, others, bytes_eq, isDigit⟩ := readsScaled.begins
  obtain ⟨visible, notClosing⟩ := visible_of_isDigitByte isDigit
  have notSign : first ≠ byteOf '-' := by
    rintro rfl
    cases isDigit
  have accepted {blanks rest : List UInt8} {number : JsonNumber}
      (isAny : anyNumber (blanks ++ (signBytes negative ++ bytes ++ rest)) = .ok (number, rest)) :
      single (blanks ++ (signBytes negative ++ bytes ++ rest)) = .ok (number.toSingle, rest) := by
    unfold single Reader.accept
    rw [isAny, Outcome.ok_bind]
  cases negative with
  | false =>
    refine ⟨⟨first, others, bytes_eq, visible, notClosing⟩, ?_⟩
    intro blanks rest areBlanks ends
    refine @accepted blanks rest (.real value) ?_
    have read := readsScaled.reads scaled false rest ends
    show anyNumber (blanks ++ (bytes ++ rest)) = _
    rw [bytes_eq, List.cons_append] at read ⊢
    unfold anyNumber
    rw [skipBlanks_of_cons areBlanks visible]
    simp only [beginsNumber, isDigit, Bool.or_true, ↓reduceIte, number, if_neg notSign]
    exact read
  | true =>
    refine ⟨⟨byteOf '-', bytes, rfl, by decide, by decide⟩, ?_⟩
    intro blanks rest areBlanks ends
    refine @accepted blanks rest (.real (-value)) ?_
    have read := readsScaled.reads scaled true rest ends
    show anyNumber (blanks ++ byteOf '-' :: (bytes ++ rest)) = _
    unfold anyNumber
    rw [skipBlanks_of_cons areBlanks (by decide)]
    simp only [beginsNumber, beq_self_eq_true, Bool.true_or, ↓reduceIte, number]
    exact read

/-! ### Layouts -/

/-- Whether digits can stand before the point: no zero stands in front of other digits. -/
structure AreWhole (digits : List UInt8) : Prop where
  areDigits : AreDigits digits
  nonempty : digits ≠ []
  head : ∀ others, digits = 0x30 :: others → others = []

theorem AreWhole.begins {digits : List UInt8} (areWhole : AreWhole digits) (behind : List UInt8) :
    ∃ first others, digits ++ behind = first :: others ∧ isDigitByte first := by
  obtain ⟨first, others, digits_eq⟩ := List.exists_cons_of_ne_nil areWhole.nonempty
  refine ⟨first, others ++ behind, by rw [digits_eq, List.cons_append], ?_⟩
  exact areWhole.areDigits first (digits_eq ▸ List.mem_cons_self)

/-- Digits with a point among them. -/
theorem readsScaled_point
    {digits fraction : List UInt8}
    {significand : Nat}
    (areWhole : AreWhole digits)
    (areFraction : AreDigits fraction)
    (nonempty : fraction ≠ [])
    (significand_eq : digitsFrom 0 (digits ++ fraction) = significand)
    (fits : significand ≤ wholeLimit) :
    ReadsScaled (digits ++ byteOf '.' :: fraction) significand (-(fraction.length : Int)) := by
  refine ⟨areWhole.begins _, ?_⟩
  intro value scaled negative rest ends
  have notDigit : ∀ byte ∈ rest.head?, isDigitByte byte = false :=
    fun byte member => (ends byte member).1
  have isWhole :
      wholeDigits (digits ++ byteOf '.' :: (fraction ++ rest)) =
        .ok (digits, byteOf '.' :: (fraction ++ rest)) := by
    apply wholeDigits_eq areWhole.areDigits areWhole.nonempty areWhole.head
    rintro byte ⟨⟩
    decide
  have isReal : fraction.isEmpty = false := List.isEmpty_eq_false_iff.mpr nonempty
  rw [List.append_assoc, List.cons_append]
  apply unsignedNumber_eq isWhole (fractionDigits_point areFraction nonempty notDigit)
    (exponentPart_of_ends ends)
  rw [isReal, Bool.false_and]
  apply numberValue?_real significand_eq fits
  rw [Option.getD_none, Int.zero_sub]
  exact scaled

/-- A point and the digits behind it, if there are any. -/
def fractionBytes : List UInt8 → List UInt8
  | [] => []
  | digit :: digits => byteOf '.' :: digit :: digits

/-- A letter and a power of ten with its sign. -/
def exponentBytes (exponent : Int) : List UInt8 :=
  byteOf 'e' :: exponentSignByte (exponent < 0) :: decimalBytes exponent.natAbs

/-- Digits with a power of ten behind them, and a point among them or none. -/
theorem readsScaled_scientific
    {digits fraction : List UInt8}
    {significand : Nat}
    (exponent : Int)
    (areWhole : AreWhole digits)
    (areFraction : AreDigits fraction)
    (significand_eq : digitsFrom 0 (digits ++ fraction) = significand)
    (fits : significand ≤ wholeLimit) :
    ReadsScaled (digits ++ (fractionBytes fraction ++ exponentBytes exponent)) significand
      (exponent - (fraction.length : Int)) := by
  refine ⟨areWhole.begins _, ?_⟩
  intro value scaled negative rest ends
  have notDigit : ∀ byte ∈ rest.head?, isDigitByte byte = false :=
    fun byte member => (ends byte member).1
  have isWhole :
      wholeDigits (digits ++ (fractionBytes fraction ++ (exponentBytes exponent ++ rest))) =
        .ok (digits, fractionBytes fraction ++ (exponentBytes exponent ++ rest)) := by
    apply wholeDigits_eq areWhole.areDigits areWhole.nonempty areWhole.head
    intro byte member
    cases fraction with
    | nil =>
      obtain rfl := Option.some.inj member
      decide
    | cons digit others =>
      obtain rfl := Option.some.inj member
      decide
  have isFraction :
      fractionDigits (fractionBytes fraction ++ (exponentBytes exponent ++ rest)) =
        .ok (fraction, exponentBytes exponent ++ rest) := by
    cases fraction with
    | nil => rfl
    | cons digit others =>
      apply fractionDigits_point areFraction (List.cons_ne_nil _ _)
      rintro byte ⟨⟩
      decide
  have value_eq :
      (if decide (exponent < 0) then -(exponent.natAbs : Int) else exponent.natAbs) = exponent := by
    by_cases below : exponent < 0
    · rw [if_pos (decide_eq_true below)]
      omega
    · rw [if_neg (mt of_decide_eq_true below)]
      omega
  have isExponent :
      exponentPart (exponentBytes exponent ++ rest) = .ok (some exponent, rest) := by
    have signed := exponentPart_signed (exponent < 0) exponent.natAbs notDigit
    rw [value_eq] at signed
    exact signed
  rw [List.append_assoc, List.append_assoc]
  apply unsignedNumber_eq isWhole isFraction isExponent
  rw [Option.isNone_some, Bool.and_false]
  exact numberValue?_real significand_eq fits scaled

end Json

/-! ### The written forms -/

namespace NumberForm

open Json

/-- The characters of a number's digits are ASCII. -/
theorem ascii_toDigits (value : Nat) :
    ∀ character ∈ Nat.toDigits 10 value, character.toNat ≤ 127 := by
  intro digit member
  have isDigit := Nat.isDigit_of_mem_toDigits (by decide) (by decide) member
  simp only [Char.isDigit, Bool.and_eq_true, decide_eq_true_eq] at isDigit
  exact Nat.le_trans isDigit.2 (by decide)

theorem ascii_zeros (count : Nat) :
    ∀ character ∈ List.replicate count '0', character.toNat ≤ 127 := by
  intro character member
  rw [List.eq_of_mem_replicate member]
  decide

theorem ascii_append
    {first second : List Char}
    (isFirst : ∀ character ∈ first, character.toNat ≤ 127)
    (isSecond : ∀ character ∈ second, character.toNat ≤ 127) :
    ∀ character ∈ first ++ second, character.toNat ≤ 127 := by
  intro character member
  rcases List.mem_append.mp member with inFirst | inSecond
  · exact isFirst character inFirst
  · exact isSecond character inSecond

theorem areWhole_decimalBytes (value : Nat) : AreWhole (decimalBytes value) :=
  ⟨areDigits_decimalBytes value, decimalBytes_ne_nil value, fun _ => others_of_decimalBytes_eq⟩

/-- The front of a positive number's digits can stand before the point. -/
theorem areWhole_take
    {value : Nat}
    (positive : 0 < value)
    (count : Nat)
    (some_taken : 0 < count) :
    AreWhole ((decimalBytes value).take count) := by
  obtain ⟨first, others, isNumber, notZero⟩ := head_decimalBytes positive
  obtain ⟨taken, rfl⟩ := Nat.exists_eq_succ_of_ne_zero (Nat.ne_of_gt some_taken)
  refine ⟨(areDigits_decimalBytes value).take _, ?_, ?_⟩
  · rw [isNumber, List.take_succ_cons]
    exact List.cons_ne_nil _ _
  · intro behind begins
    rw [isNumber, List.take_succ_cons] at begins
    exact absurd (List.cons.inj begins).1 notZero

/-- A whole number with zeros behind it and a fraction of zero is read in tenths. -/
theorem readsScaled_layPositional_whole
    {digits : Nat}
    (positive : 0 < digits)
    {exponent : Int}
    (nonneg : 0 ≤ exponent)
    (fits : digits * 10 ^ (exponent.toNat + 1) ≤ wholeLimit) :
    ReadsScaled (Utf8.encode (stored.layPositional (Nat.toDigits 10 digits) exponent))
      (digits * 10 ^ (exponent.toNat + 1)) (-1) := by
  have text_eq :
      Utf8.encode (stored.layPositional (Nat.toDigits 10 digits) exponent) =
        (decimalBytes digits ++ List.replicate exponent.toNat 0x30) ++ byteOf '.' :: [0x30] := by
    unfold layPositional
    rw [if_pos nonneg, Utf8.encode_append,
      Utf8.encode_ofList (ascii_append (ascii_toDigits _) (ascii_zeros _)), List.map_append,
      List.map_replicate]
    rfl
  rw [text_eq]
  apply readsScaled_point _ (areDigits_zeros 1) (List.cons_ne_nil _ _) _ fits
  · refine ⟨(areDigits_decimalBytes _).append (areDigits_zeros _),
      List.append_ne_nil_of_left_ne_nil (decimalBytes_ne_nil _) _, ?_⟩
    intro others begins
    obtain ⟨first, behind, isNumber, notZero⟩ := head_decimalBytes positive
    rw [isNumber, List.cons_append] at begins
    exact absurd (List.cons.inj begins).1 notZero
  · rw [List.append_assoc, digitsFrom_append, digitsFrom_decimalBytes,
      List.replicate_append_replicate, digitsFrom_zeros]

/-- Digits with a point among them. -/
theorem readsScaled_among
    {digits : Nat}
    (positive : 0 < digits)
    (fits : digits ≤ wholeLimit)
    {count : Nat}
    (some_taken : 0 < count)
    (some_left : count < (Nat.toDigits 10 digits).length) :
    ReadsScaled
      (Utf8.encode (String.ofList ((Nat.toDigits 10 digits).take count) ++ "." ++
        String.ofList ((Nat.toDigits 10 digits).drop count)))
      digits (-(((Nat.toDigits 10 digits).length - count : Nat) : Int)) := by
  have text_eq :
      Utf8.encode (String.ofList ((Nat.toDigits 10 digits).take count) ++ "." ++
          String.ofList ((Nat.toDigits 10 digits).drop count)) =
        (decimalBytes digits).take count ++ byteOf '.' :: (decimalBytes digits).drop count := by
    rw [Utf8.encode_append, Utf8.encode_append,
      Utf8.encode_ofList fun c member => ascii_toDigits _ c (List.mem_of_mem_take member),
      Utf8.encode_ofList fun c member => ascii_toDigits _ c (List.mem_of_mem_drop member),
      List.map_take, List.map_drop, List.append_assoc]
    rfl
  have fraction_length :
      ((decimalBytes digits).drop count).length = (Nat.toDigits 10 digits).length - count := by
    rw [List.length_drop, decimalBytes, List.length_map]
  have some_fraction : (decimalBytes digits).drop count ≠ [] := by
    apply List.ne_nil_of_length_pos
    rw [fraction_length]
    omega
  have digits_eq :
      digitsFrom 0 ((decimalBytes digits).take count ++ (decimalBytes digits).drop count) =
        digits := by
    rw [List.take_append_drop]
    exact digitsFrom_decimalBytes digits
  have reads :=
    readsScaled_point (areWhole_take positive count some_taken)
      ((areDigits_decimalBytes digits).drop count) some_fraction digits_eq fits
  rw [text_eq, ← fraction_length]
  exact reads

/-- Digits behind a point and zeros. -/
theorem readsScaled_behind
    {digits : Nat}
    (fits : digits ≤ wholeLimit)
    (zeros : Nat) :
    ReadsScaled
      (Utf8.encode ("0." ++ String.ofList (List.replicate zeros '0' ++ Nat.toDigits 10 digits)))
      digits (-((zeros + (Nat.toDigits 10 digits).length : Nat) : Int)) := by
  have text_eq :
      Utf8.encode ("0." ++ String.ofList (List.replicate zeros '0' ++ Nat.toDigits 10 digits)) =
        [0x30] ++ byteOf '.' :: (List.replicate zeros 0x30 ++ decimalBytes digits) := by
    rw [Utf8.encode_append, Utf8.encode_ofList (ascii_append (ascii_zeros _) (ascii_toDigits _)),
      List.map_append, List.map_replicate]
    rfl
  have fraction_length :
      (List.replicate zeros (0x30 : UInt8) ++ decimalBytes digits).length =
        zeros + (Nat.toDigits 10 digits).length := by
    rw [List.length_append, List.length_replicate, decimalBytes, List.length_map]
  have digits_eq :
      digitsFrom 0 ([0x30] ++ (List.replicate zeros 0x30 ++ decimalBytes digits)) = digits := by
    rw [← List.append_assoc, digitsFrom_append, digitsFrom_append, digitsFrom_zeros,
      show digitsFrom 0 [0x30] = 0 from rfl, Nat.zero_mul]
    exact digitsFrom_decimalBytes digits
  have isZero : AreWhole [0x30] :=
    ⟨areDigits_zeros 1, List.cons_ne_nil _ _, fun _ same => (List.cons.inj same).2.symm⟩
  have reads :=
    readsScaled_point isZero ((areDigits_zeros zeros).append (areDigits_decimalBytes digits))
      (List.append_ne_nil_of_right_ne_nil _ (decimalBytes_ne_nil _)) digits_eq fits
  rw [text_eq, ← fraction_length]
  exact reads

/-- Digits with a point among them or in front of them are read as they are. -/
theorem readsScaled_layPositional_fraction
    {digits : Nat}
    (positive : 0 < digits)
    {exponent : Int}
    (negative : exponent < 0)
    (fits : digits ≤ wholeLimit) :
    ReadsScaled (Utf8.encode (stored.layPositional (Nat.toDigits 10 digits) exponent)) digits
      exponent := by
  unfold layPositional
  rw [if_neg (by omega)]
  dsimp only
  by_cases among : (-exponent).toNat < (Nat.toDigits 10 digits).length
  · rw [if_pos among]
    have reads := readsScaled_among positive fits
      (show 0 < (Nat.toDigits 10 digits).length - (-exponent).toNat by omega) (by omega)
    rw [show -(((Nat.toDigits 10 digits).length -
      ((Nat.toDigits 10 digits).length - (-exponent).toNat) : Nat) : Int) = exponent by omega] at reads
    exact reads
  · rw [if_neg among]
    have reads := readsScaled_behind fits ((-exponent).toNat - (Nat.toDigits 10 digits).length)
    rw [show -(((-exponent).toNat - (Nat.toDigits 10 digits).length +
      (Nat.toDigits 10 digits).length : Nat) : Int) = exponent by omega] at reads
    exact reads

/-- The bytes of a number with a power of ten. -/
theorem encode_layScientific
    {first : Char}
    {others : List Char}
    (ascii : ∀ character ∈ first :: others, character.toNat ≤ 127)
    (leading : Int) :
    Utf8.encode (layScientific (first :: others) leading) =
      [byteOf first] ++ (fractionBytes (others.map byteOf) ++ exponentBytes leading) := by
  have sign_eq :
      Utf8.encode (if leading < 0 then "-" else "+") = [exponentSignByte (leading < 0)] := by
    unfold exponentSignByte
    by_cases below : leading < 0
    · rw [if_pos below, if_pos (decide_eq_true below)]
      rfl
    · rw [if_neg below, if_neg (mt of_decide_eq_true below)]
      rfl
  have exponent_eq :
      Utf8.encode ("e" ++ ((if leading < 0 then "-" else "+") ++ toString leading.natAbs)) =
        exponentBytes leading := by
    rw [Utf8.encode_append, Utf8.encode_append, sign_eq]
    exact congrArg (fun bytes => byteOf 'e' :: exponentSignByte (leading < 0) :: bytes)
      (encode_repr leading.natAbs)
  rw [List.forall_mem_cons] at ascii
  have first_eq : Utf8.encode (String.ofList [first]) = [byteOf first] :=
    Utf8.encode_ofList (List.forall_mem_singleton.mpr ascii.1)
  cases others with
  | nil =>
    show Utf8.encode (String.ofList [first] ++ "" ++ "e" ++ (if leading < 0 then "-" else "+") ++
      toString leading.natAbs) = _
    rw [String.append_empty, String.append_assoc, String.append_assoc, Utf8.encode_append, first_eq,
      exponent_eq]
    rfl
  | cons second others =>
    show Utf8.encode (String.ofList [first] ++ ("." ++ String.ofList (second :: others)) ++ "e" ++
      (if leading < 0 then "-" else "+") ++ toString leading.natAbs) = _
    rw [String.append_assoc, String.append_assoc, String.append_assoc, Utf8.encode_append, first_eq,
      Utf8.encode_append, exponent_eq, Utf8.encode_append, Utf8.encode_ofList ascii.2]
    rfl

/-- Digits with a power of ten are read as they are. -/
theorem readsScaled_layScientific
    {digits : Nat}
    (exponent : Int)
    (fits : digits ≤ wholeLimit) :
    ReadsScaled
      (Utf8.encode
        (layScientific (Nat.toDigits 10 digits)
          (exponent + ((Nat.toDigits 10 digits).length : Int) - 1)))
      digits exponent := by
  have ascii := ascii_toDigits digits
  have areDigits := areDigits_decimalBytes digits
  have nonempty := decimalBytes_ne_nil digits
  have number_eq := digitsFrom_decimalBytes digits
  unfold decimalBytes at areDigits nonempty number_eq
  cases isNumber : Nat.toDigits 10 digits with
  | nil =>
    rw [isNumber] at nonempty
    exact absurd rfl nonempty
  | cons first others =>
    rw [isNumber] at ascii areDigits number_eq
    have reads :=
      @readsScaled_scientific [byteOf first] (others.map byteOf) digits
        (exponent + ((first :: others).length : Int) - 1)
        ⟨areDigits.take 1, List.cons_ne_nil _ _, fun _ same => (List.cons.inj same).2.symm⟩
        (areDigits.drop 1) number_eq fits
    rw [encode_layScientific ascii]
    have exponent_eq :
        exponent + ((first :: others).length : Int) - 1 - ((others.map byteOf).length : Int) =
          exponent := by
      rw [List.length_map, List.length_cons]
      omega
    rw [exponent_eq] at reads
    exact reads

/-- Zero is read in tenths. -/
theorem readsScaled_zero : ReadsScaled (Utf8.encode ("0" ++ stored.wholeFraction)) 0 (-1) :=
  readsScaled_point (areWhole_decimalBytes 0) (areDigits_zeros 1) (List.cons_ne_nil _ _) rfl
    (Nat.zero_le _)

end NumberForm
end GradientMerge
