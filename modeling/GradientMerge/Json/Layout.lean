/-!
Contract: JSON text that is written.

Owns: values ready to be written, their text with one member or element on a line, and their text
on a single line without blanks.

Does not own: the text of numbers, and strings with characters that need an escape.
-/

namespace GradientMerge

/-- A JSON value to be written: a word such as a number or a keyword, a name in quotes, an array or
an object. -/
inductive JsonLayout where
  | word (text : String)
  | name (text : String)
  | array (elements : List JsonLayout)
  | object (members : List (String × JsonLayout))

namespace JsonLayout

/-- A line break and the blanks before a line of this depth. -/
def lineBreak (depth : Nat) : String := "\n" ++ String.ofList (List.replicate (2 * depth) ' ')

mutual

/-- The text of a value that begins on a line of this depth. -/
def write (depth : Nat) : JsonLayout → String
  | .word text => text
  | .name text => "\"" ++ text ++ "\""
  | .array [] => "[]"
  | .array (element :: elements) =>
    "[" ++ lineBreak (depth + 1) ++ write (depth + 1) element ++
      writeElements (depth + 1) elements ++ lineBreak depth ++ "]"
  | .object [] => "\x7b\x7d"
  | .object (member :: members) =>
    "\x7b" ++ lineBreak (depth + 1) ++ writeMember (depth + 1) member ++
      writeMembers (depth + 1) members ++ lineBreak depth ++ "\x7d"

/-- The texts of further elements, each one on a line of its own behind a comma. -/
def writeElements (depth : Nat) : List JsonLayout → String
  | [] => ""
  | element :: elements =>
    "," ++ lineBreak depth ++ write depth element ++ writeElements depth elements

/-- The text of a member. -/
def writeMember (depth : Nat) : String × JsonLayout → String
  | (key, value) => "\"" ++ key ++ "\": " ++ write depth value

/-- The texts of further members, each one on a line of its own behind a comma. -/
def writeMembers (depth : Nat) : List (String × JsonLayout) → String
  | [] => ""
  | member :: members =>
    "," ++ lineBreak depth ++ writeMember depth member ++ writeMembers depth members

end

mutual

/-- The text of a value on a single line without blanks. -/
def compact : JsonLayout → String
  | .word text => text
  | .name text => "\"" ++ text ++ "\""
  | .array elements => "[" ++ ",".intercalate (compactElements elements) ++ "]"
  | .object members => "\x7b" ++ ",".intercalate (compactMembers members) ++ "\x7d"

/-- The text of each element. -/
def compactElements : List JsonLayout → List String
  | [] => []
  | element :: elements => compact element :: compactElements elements

/-- The text of each member. -/
def compactMembers : List (String × JsonLayout) → List String
  | [] => []
  | (key, value) :: members => ("\"" ++ key ++ "\":" ++ compact value) :: compactMembers members

end

end JsonLayout

end GradientMerge
