import GradientMerge.Json.Skip

/-!
Contract: typed readers of JSON text.

A reader asks for a value of its type and fails at the first byte that rules this type out, or when
the text ends before that. It never looks further, so a text that is both cut short and of the
wrong type fails for whichever comes first.

Owns:
- readers of booleans, numbers, strings, lists, optional values, names and records;
- the reading of a whole document.

Does not own: the records and names of any format.
-/

namespace GradientMerge

namespace Json

/-- Fails on a value of another type than the one asked for. A keyword, number or string is read to
its end first, so that one cut short counts as cut short. -/
def mismatch {α : Type} (bytes : List UInt8) : Except JsonError α :=
  match bytes with
  | [] => .error .unexpectedEnd
  | byte :: rest =>
    let after {β : Type} (result : Except JsonError β) : Except JsonError α :=
      result.bind fun _ => .error .malformed
    if byte = byteOf 'n' then after (letters ['u', 'l', 'l'] rest)
    else if byte = byteOf 't' then after (letters ['r', 'u', 'e'] rest)
    else if byte = byteOf 'f' then after (letters ['a', 'l', 's', 'e'] rest)
    else if beginsNumber byte then after (number (byte :: rest))
    else if byte = 0x22 then after (quoted rest)
    else .error .malformed

/-- Reads a value of one type from what another reader gives; `none` is a value out of range. -/
def Reader.accept {α β : Type} (reader : Reader α) (select : α → Option β) : Reader β :=
  fun bytes => do
    let (value, rest) ← reader bytes
    match select value with
    | some selected => .ok (selected, rest)
    | none => .error .malformed

/-- Reads this byte after blanks. -/
def punctuation (expected : UInt8) : Reader Unit := fun bytes =>
  match skipBlanks bytes with
  | [] => .error .unexpectedEnd
  | byte :: rest => if byte = expected then .ok ((), rest) else .error .malformed

/-- Reads `true` or `false`. -/
def boolean : Reader Bool := fun bytes =>
  match skipBlanks bytes with
  | [] => .error .unexpectedEnd
  | byte :: rest =>
    if byte = byteOf 't' then do
      let ((), rest) ← letters ['r', 'u', 'e'] rest
      .ok (true, rest)
    else if byte = byteOf 'f' then do
      let ((), rest) ← letters ['a', 'l', 's', 'e'] rest
      .ok (false, rest)
    else
      mismatch (byte :: rest)

/-- Reads a number. -/
def anyNumber : Reader JsonNumber := fun bytes =>
  match skipBlanks bytes with
  | [] => .error .unexpectedEnd
  | byte :: rest =>
    if beginsNumber byte then number (byte :: rest) else mismatch (byte :: rest)

/-- Reads a whole number from `least` to `greatest`. -/
def wholeNumber (least greatest : Nat) : Reader Nat :=
  Reader.accept anyNumber fun
    | .natural value => if least ≤ value ∧ value ≤ greatest then some value else none
    | _ => none

/-- Reads a number in single precision. -/
def single : Reader Single := Reader.accept anyNumber fun value => some value.toSingle

/-- Reads a number in double precision. -/
def double : Reader Float := Reader.accept anyNumber fun value => some value.toDouble

/-- Reads a string, and fails at once on anything else. -/
def quotedOnly : Reader String := fun bytes =>
  match skipBlanks bytes with
  | [] => .error .unexpectedEnd
  | byte :: rest => if byte = 0x22 then quoted rest else .error .malformed

/-- Reads a string. -/
def text : Reader String := fun bytes =>
  match skipBlanks bytes with
  | [] => .error .unexpectedEnd
  | byte :: rest => if byte = 0x22 then quoted rest else mismatch (byte :: rest)

/-- Reads `null`, and nothing else. -/
def null : Reader Unit := fun bytes =>
  match skipBlanks bytes with
  | [] => .error .unexpectedEnd
  | byte :: rest =>
    if byte = byteOf 'n' then letters ['u', 'l', 'l'] rest else mismatch (byte :: rest)

/-- Reads `null` or a value. -/
def optional {α : Type} (reader : Reader α) : Reader (Option α) := fun bytes =>
  match skipBlanks bytes with
  | byte :: rest =>
    if byte = byteOf 'n' then do
      let ((), rest) ← letters ['u', 'l', 'l'] rest
      .ok (none, rest)
    else do
      let (value, rest) ← reader (byte :: rest)
      .ok (some value, rest)
  | [] => do
    let (value, rest) ← reader []
    .ok (some value, rest)

/-- Moves to the next element of an array: `none` behind the closing bracket, else the text at the
element. -/
def nextElement (first : Bool) (bytes : List UInt8) :
    Except JsonError (Option (List UInt8) × List UInt8) :=
  match skipBlanks bytes with
  | [] => .error .unexpectedEnd
  | byte :: rest =>
    if byte = byteOf ']' then
      .ok (none, rest)
    else if first then
      .ok (some (byte :: rest), byte :: rest)
    else if byte = byteOf ',' then
      match skipBlanks rest with
      | [] => .error .unexpectedEnd
      | byte :: rest =>
        if byte = byteOf ']' then .error .malformed else .ok (some (byte :: rest), byte :: rest)
    else
      .error .malformed

/-- Reads the elements of an array up to its closing bracket. The fuel bounds their number. -/
def elements {α : Type} (reader : Reader α) : Nat → Bool → Reader (List α)
  | 0, _, _ => .error .malformed
  | fuel + 1, first, bytes => do
    match ← nextElement first bytes with
    | (none, rest) => .ok ([], rest)
    | (some bytes, _) =>
      let (value, rest) ← reader bytes
      let (values, rest) ← elements reader fuel false rest
      .ok (value :: values, rest)

/-- Reads an array of values. -/
def list {α : Type} (reader : Reader α) : Reader (List α) := fun bytes =>
  match skipBlanks bytes with
  | [] => .error .unexpectedEnd
  | byte :: rest =>
    if byte = byteOf '[' then
      elements reader (rest.length + 1) true rest
    else
      mismatch (byte :: rest)

/-- A field of a record that is collected in a draft of type `σ`. -/
structure Field (σ : Type) where
  name : String
  /-- Whether the record may leave the field out where fields are told apart by their places. -/
  optional : Bool
  /-- Whether a draft already has the field. -/
  present : σ → Bool
  /-- Reads the field into a draft. -/
  read : σ → Reader σ

/-- A field that `value` finds in a draft and `store` puts there. -/
def Field.ofReader {σ α : Type}
    (name : String)
    (optional : Bool)
    (value : σ → Option α)
    (store : σ → α → σ)
    (reader : Reader α) : Field σ where
  name := name
  optional := optional
  present := fun draft => (value draft).isSome
  read := fun draft bytes => (reader bytes).map fun result => (store draft result.1, result.2)

/-- How a record's keys are treated: whether a key that names no field is passed over, and whether
a key may come again, its last value counting. -/
structure KeyRule where
  passUnknown : Bool
  repeatable : Bool

/-- Moves to the next key of an object: `none` behind the closing brace, else the key. -/
def nextKey (first : Bool) (bytes : List UInt8) :
    Except JsonError (Option String × List UInt8) := do
  let keyAt (bytes : List UInt8) : Except JsonError (Option String × List UInt8) :=
    match bytes with
    | [] => .error .unexpectedEnd
    | byte :: rest =>
      if byte = 0x22 then (quoted rest).map fun key => (some key.1, key.2) else .error .malformed
  match skipBlanks bytes with
  | [] => .error .unexpectedEnd
  | byte :: rest =>
    if byte = 0x7d then
      .ok (none, rest)
    else if first then
      keyAt (byte :: rest)
    else if byte = byteOf ',' then
      keyAt (skipBlanks rest)
    else
      .error .malformed

/-- Reads the members of an object into a draft. The fuel bounds their number. -/
def members {σ : Type} (rule : KeyRule) (fields : List (Field σ)) : Nat → Bool → σ → Reader σ
  | 0, _, _, _ => .error .malformed
  | fuel + 1, first, draft, bytes => do
    match ← nextKey first bytes with
    | (none, rest) => .ok (draft, rest)
    | (some key, rest) =>
      match fields.find? fun field => field.name == key with
      | none =>
        if rule.passUnknown then
          let ((), rest) ← punctuation (byteOf ':') rest
          let ((), rest) ← skipValue rest
          members rule fields fuel false draft rest
        else
          .error .malformed
      | some field =>
        if field.present draft && ! rule.repeatable then
          .error .malformed
        else
          let ((), rest) ← punctuation (byteOf ':') rest
          let (draft, rest) ← field.read draft rest
          members rule fields fuel false draft rest

/-- Reads the fields of a record by their places in an array, which may end early if the fields it
leaves out are optional. -/
def places {σ : Type} : List (Field σ) → Bool → σ → Reader σ
  | [], _, draft, bytes => do
    let ((), rest) ← punctuation (byteOf ']') bytes
    .ok (draft, rest)
  | field :: fields, first, draft, bytes => do
    match ← nextElement first bytes with
    | (none, rest) =>
      if (field :: fields).all Field.optional then .ok (draft, rest) else .error .malformed
    | (some bytes, _) =>
      let (draft, rest) ← field.read draft bytes
      places fields false draft rest

/-- Reads a record as an object or as an array of its fields; `finish` makes the record of the
draft, unless a field is missing. -/
def record {σ α : Type}
    (rule : KeyRule)
    (fields : List (Field σ))
    (draft : σ)
    (finish : σ → Option α) : Reader α := fun bytes =>
  let collected : Except JsonError (σ × List UInt8) :=
    match skipBlanks bytes with
    | [] => .error .unexpectedEnd
    | byte :: rest =>
      if byte = 0x7b then
        members rule fields (rest.length + 1) true draft rest
      else if byte = byteOf '[' then
        places fields true draft rest
      else
        mismatch (byte :: rest)
  collected.bind fun result =>
    match finish result.1 with
    | some value => .ok (value, result.2)
    | none => .error .malformed

/-- Reads a pair as an array of exactly two values. -/
def pair {α : Type} (reader : Reader α) : Reader (α × α) := fun bytes =>
  match skipBlanks bytes with
  | [] => .error .unexpectedEnd
  | byte :: rest =>
    if byte = byteOf '[' then do
      match ← nextElement true rest with
      | (none, _) => .error .malformed
      | (some bytes, _) =>
        let (first, rest) ← reader bytes
        match ← nextElement false rest with
        | (none, _) => .error .malformed
        | (some bytes, _) =>
          let (second, rest) ← reader bytes
          let ((), rest) ← punctuation (byteOf ']') rest
          .ok ((first, second), rest)
    else
      mismatch (byte :: rest)

/-- One alternative of a choice: its name, and how to read what it carries, if anything. -/
structure Alternative (α : Type) where
  name : String
  content : α ⊕ Reader α

/-- Reads one of several alternatives: the name alone, where the alternative carries nothing, or an
object with the name as its only key. -/
def choice {α : Type} (alternatives : List (Alternative α)) : Reader α := fun bytes =>
  match skipBlanks bytes with
  | [] => .error .unexpectedEnd
  | byte :: rest =>
    if byte = 0x22 then do
      let (name, rest) ← quoted rest
      match alternatives.find? fun alternative => alternative.name == name with
      | some ⟨_, .inl value⟩ => .ok (value, rest)
      | _ => .error .malformed
    else if byte = 0x7b then do
      let (name, rest) ← quotedOnly rest
      match alternatives.find? fun alternative => alternative.name == name with
      | none => .error .malformed
      | some alternative =>
        let ((), rest) ← punctuation (byteOf ':') rest
        let (value, rest) ←
          match alternative.content with
          | .inl value => (null rest).map fun result => (value, result.2)
          | .inr reader => reader rest
        let ((), rest) ← punctuation 0x7d rest
        .ok (value, rest)
    else
      .error .malformed

/-- Reads one of several names. -/
def nameOf {α : Type} (names : List (String × α)) : Reader α :=
  choice (names.map fun entry => ⟨entry.1, .inl entry.2⟩)

/-- Reads a whole text: a value with nothing but blanks behind it. -/
def document {α : Type} (reader : Reader α) (bytes : List UInt8) : Except JsonError α := do
  let (value, rest) ← reader bytes
  if (skipBlanks rest).isEmpty then .ok value else .error .malformed

end Json

end GradientMerge
