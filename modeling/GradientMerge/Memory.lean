/-!
Contract: what can be held in memory and in words.

Owns:
- the limit of addresses, and which rows of items of one size stay within it;
- the limit of words, and the sum of two of them where it is beyond that limit.

Does not own: what the items are, and what becomes of a row that is too long.
-/

namespace GradientMerge

/-- The greatest number of bytes or of places that can be addressed. -/
def addressLimit : Nat := 0x7fffffffffffffff

/-- The number of bytes of a word. -/
def wordBytes : Nat := 8

/-- The greatest number that fits into a word. -/
def wordLimit : Nat := 0xffffffffffffffff

/-- What becomes of a sum of words that is beyond a word. -/
inductive Overflow where
  /-- The program ends there. -/
  | checked
  /-- The sum begins at zero again. -/
  | wrapping
deriving DecidableEq, Repr

/-- The sum of two words, unless the program ends there. -/
def Overflow.sum? (overflow : Overflow) (left right : Nat) : Option Nat :=
  if left + right ≤ wordLimit then
    some (left + right)
  else
    match overflow with
    | .checked => none
    | .wrapping => some ((left + right) % (wordLimit + 1))

/-- Whether there is room for so many items of so many bytes each. -/
def hasRoom (count bytes : Nat) : Bool := bytes * count ≤ addressLimit

end GradientMerge
