import GradientMerge.Text.Combining
import GradientMerge.Text.Shapeless

/-!
Contract: which characters can be shown as they are.

Owns: the decision from the tables of characters without a shape of their own and of characters
that attach to the one before them.

Does not own: how the other characters are written.
-/

namespace GradientMerge

/-- Whether a code point lies in one of the ranges. -/
def isWithin (ranges : Array (Nat × Nat)) (codePoint : Nat) : Bool :=
  ranges.any fun range => range.1 ≤ codePoint && codePoint ≤ range.2

/-- Whether a character can be shown as it is: it has a shape and does not combine with the
character before it. -/
def isVisible (character : Char) : Bool :=
  ! isWithin shapelessRanges character.toNat && ! isWithin combiningRanges character.toNat

end GradientMerge
