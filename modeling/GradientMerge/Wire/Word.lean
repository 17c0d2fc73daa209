import GradientMerge.Number.Single

/-!
Contract: numbers of fixed width as bytes.

Owns:
- natural numbers as bytes, most significant byte first;
- single-precision numbers as bytes, least significant byte first;
- the splitting of a stretch of exactly known length off a byte sequence.

Does not own: the records that are made of such numbers.
-/

namespace GradientMerge

namespace Wire

/-- The `width` lowest bytes of a number, most significant first. -/
def encodeNat : Nat → Nat → List UInt8
  | 0, _ => []
  | width + 1, value => UInt8.ofNat (value / Nat.pow 256 width) :: encodeNat width value

/-- The number whose bytes these are, most significant first. -/
def decodeNat (bytes : List UInt8) : Nat :=
  bytes.foldl (fun value byte => 256 * value + byte.toNat) 0

/-- The four bytes of a single-precision number, least significant first. -/
def encodeSingle (value : Single) : List UInt8 := (encodeNat 4 value.bits.toNat).reverse

/-- The bytes of single-precision numbers one after the other. -/
def encodeSingles (values : List Single) : List UInt8 := values.flatMap encodeSingle

/-- The single-precision numbers whose bytes these are; fewer than four bytes at the end are
left out. -/
def decodeSingles : List UInt8 → List Single
  | first :: second :: third :: fourth :: rest =>
    ⟨UInt32.ofNat (decodeNat [fourth, third, second, first])⟩ :: decodeSingles rest
  | _ => []

/-- Splits exactly `count` bytes off the front, if there are as many. -/
def splitExactly? (count : Nat) (bytes : List UInt8) : Option (List UInt8 × List UInt8) :=
  let front := bytes.take count
  if front.length = count then some (front, bytes.drop count) else none

/-- Splits a number of `width` bytes off the front. -/
def splitNat? (width : Nat) (bytes : List UInt8) : Option (Nat × List UInt8) :=
  (splitExactly? width bytes).map fun split => (decodeNat split.1, split.2)

@[simp] theorem length_encodeNat (width value : Nat) :
    (encodeNat width value).length = width := by
  induction width with
  | zero => rfl
  | succ width inductionHypothesis => simp [encodeNat, inductionHypothesis]

@[simp] theorem length_encodeSingle (value : Single) : (encodeSingle value).length = 4 := by
  simp [encodeSingle]

@[simp] theorem length_encodeSingles (values : List Single) :
    (encodeSingles values).length = 4 * values.length := by
  induction values with
  | nil => rfl
  | cons value values inductionHypothesis =>
    simp only [encodeSingles, List.flatMap_cons, List.length_append, length_encodeSingle,
      List.length_cons] at *
    omega

theorem length_decodeSingles
    {count : Nat}
    {bytes : List UInt8}
    (fits : bytes.length = 4 * count) :
    (decodeSingles bytes).length = count := by
  induction count generalizing bytes with
  | zero =>
    cases bytes with
    | nil => rfl
    | cons byte bytes => simp at fits
  | succ count inductionHypothesis =>
    match bytes, fits with
    | [], fits => simp at fits
    | [_], fits => simp at fits; omega
    | [_, _], fits => simp at fits; omega
    | [_, _, _], fits => simp at fits; omega
    | _ :: _ :: _ :: _ :: rest, fits =>
      have restFits : rest.length = 4 * count := by
        simp only [List.length_cons] at fits
        omega
      simp [decodeSingles, inductionHypothesis restFits]

/-- Splitting off succeeds exactly where the bytes are the front followed by the rest. -/
theorem splitExactly?_eq_some_iff
    {count : Nat}
    {bytes front rest : List UInt8} :
    splitExactly? count bytes = some (front, rest) ↔
      bytes = front ++ rest ∧ front.length = count := by
  unfold splitExactly?
  constructor
  · intro split
    dsimp only at split
    split at split
    · rename_i enough
      simp only [Option.some.injEq, Prod.mk.injEq] at split
      obtain ⟨rfl, rfl⟩ := split
      exact ⟨(List.take_append_drop count bytes).symm, enough⟩
    · cases split
  · rintro ⟨rfl, rfl⟩
    simp

end Wire

end GradientMerge
