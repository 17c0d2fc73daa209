import GradientMerge.Text.Visible

/-!
Contract: the quoted form in which error messages repeat a piece of input.

Owns: the escapes of the quoted form.

Does not own: which characters are visible.
-/

namespace GradientMerge

namespace Quoted

/-- One character inside quotes: the quote and the backslash behind a backslash, four control
characters by a letter or a digit, and whatever cannot be shown by its code point. -/
def escape (character : Char) : List Char :=
  if character = '"' then ['\\', '"']
  else if character = '\\' then ['\\', '\\']
  else if character = '\t' then ['\\', 't']
  else if character = '\r' then ['\\', 'r']
  else if character = '\n' then ['\\', 'n']
  else if character.toNat = 0 then ['\\', '0']
  else if isVisible character then [character]
  else ['\\', 'u', '\x7b'] ++ Nat.toDigits 16 character.toNat ++ ['\x7d']

/-- The characters between quotes, each one escaped where needed. -/
def write (characters : List Char) : String :=
  String.ofList (['"'] ++ characters.flatMap escape ++ ['"'])

end Quoted

end GradientMerge
