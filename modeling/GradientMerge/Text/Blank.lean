/-!
Contract: blank characters and the trimming of texts.

Owns: the characters with the Unicode property White_Space, and texts without them at either end.

Does not own: the meaning of the line breaks among them.
-/

namespace GradientMerge

/-- The ranges of code points with the property White_Space. -/
def blankRanges : List (Nat × Nat) :=
  [(0x9, 0xd), (0x20, 0x20), (0x85, 0x85), (0xa0, 0xa0), (0x1680, 0x1680), (0x2000, 0x200a),
    (0x2028, 0x2029), (0x202f, 0x202f), (0x205f, 0x205f), (0x3000, 0x3000)]

/-- Whether a character is white space. -/
def isBlank (character : Char) : Bool :=
  blankRanges.any fun range => range.1 ≤ character.toNat && character.toNat ≤ range.2

/-- Every space and tab of the ASCII range is blank. -/
theorem isBlank_of_isWhitespace
    (character : Char)
    (whitespace : character.isWhitespace = true) :
    isBlank character = true := by
  have cases : character = ' ' ∨ character = '\t' ∨ character = '\r' ∨ character = '\n' := by
    simpa [Char.isWhitespace, or_assoc] using whitespace
  rcases cases with rfl | rfl | rfl | rfl <;> decide

/-- The characters without the blanks at the beginning and at the end. -/
def trimBlanks (characters : List Char) : List Char :=
  ((characters.dropWhile isBlank).reverse.dropWhile isBlank).reverse

end GradientMerge
