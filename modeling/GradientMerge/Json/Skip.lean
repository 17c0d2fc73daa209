import GradientMerge.Json.Number

/-!
Contract: passing over a JSON value that nobody asked for.

Owns: a machine that walks through a value of any depth with a stack of open brackets, one token at
a time.

Does not own: any meaning of the value. Its strings may hold bytes that are no text.
-/

namespace GradientMerge

namespace Json

/-- An open bracket. -/
inductive Bracket where
  | array
  | object
deriving DecidableEq

/-- The closing byte of a bracket. -/
def Bracket.closing : Bracket → UInt8
  | .array => byteOf ']'
  | .object => 0x7d

/-- Where the machine stands: before a value, just behind an opening bracket, or behind a value. -/
inductive SkipPoint where
  | value
  | opened
  | closed
deriving DecidableEq

/-- Where the machine goes: on from a point with the rest of the text, or to its end. -/
inductive SkipStep where
  | continue (point : SkipPoint) (open_ : List Bracket) (rest : List UInt8)
  | done (rest : List UInt8)

/-- Passes over a value at its first byte; brackets are only opened. -/
def skipToken (open_ : List Bracket) : List UInt8 → Except JsonError SkipStep
  | [] => .error .unexpectedEnd
  | byte :: rest =>
    let finish (result : Except JsonError (Unit × List UInt8)) : Except JsonError SkipStep :=
      result.map fun passed => .continue .closed open_ passed.2
    if byte = byteOf 'n' then finish (letters ['u', 'l', 'l'] rest)
    else if byte = byteOf 't' then finish (letters ['r', 'u', 'e'] rest)
    else if byte = byteOf 'f' then finish (letters ['a', 'l', 's', 'e'] rest)
    else if beginsNumber byte then finish (skipNumber (byte :: rest))
    else if byte = 0x22 then finish (skipQuoted rest)
    else if byte = byteOf '[' then .ok (.continue .opened (.array :: open_) rest)
    else if byte = 0x7b then .ok (.continue .opened (.object :: open_) rest)
    else .error .malformed

/-- Goes on to the next value inside a bracket, passing over its key in an object. -/
def skipToMember (bracket : Bracket) (open_ : List Bracket) (bytes : List UInt8) :
    Except JsonError SkipStep :=
  match bracket with
  | .array => .ok (.continue .value (bracket :: open_) bytes)
  | .object =>
    match skipBlanks bytes with
    | [] => .error .unexpectedEnd
    | byte :: rest =>
      if byte = 0x22 then do
        let ((), rest) ← skipQuoted rest
        match skipBlanks rest with
        | [] => .error .unexpectedEnd
        | byte :: rest =>
          if byte = byteOf ':' then
            .ok (.continue .value (bracket :: open_) rest)
          else
            .error .malformed
      else
        .error .malformed

/-- One step of the machine. -/
def skipStep : SkipPoint → List Bracket → List UInt8 → Except JsonError SkipStep
  | .value, open_, bytes => skipToken open_ (skipBlanks bytes)
  | _, [], bytes => .ok (.done bytes)
  | .opened, bracket :: open_, bytes =>
    match skipBlanks bytes with
    | [] => .error .unexpectedEnd
    | byte :: rest =>
      if byte = bracket.closing then
        .ok (.continue .closed open_ rest)
      else
        skipToMember bracket open_ (byte :: rest)
  | .closed, bracket :: open_, bytes =>
    match skipBlanks bytes with
    | [] => .error .unexpectedEnd
    | byte :: rest =>
      if byte = bracket.closing then
        .ok (.continue .closed open_ rest)
      else if byte = byteOf ',' then
        skipToMember bracket open_ rest
      else
        .error .malformed

/-- Runs the machine for at most this many steps. -/
def skipRun : Nat → SkipPoint → List Bracket → List UInt8 → Except JsonError (List UInt8)
  | 0, _, _, _ => .error .malformed
  | fuel + 1, point, open_, bytes => do
    match ← skipStep point open_ bytes with
    | .done rest => .ok rest
    | .continue point open_ rest => skipRun fuel point open_ rest

/-- Passes over a value. Each byte of the text is behind the machine after at most two steps. -/
def skipValue (bytes : List UInt8) : Except JsonError (Unit × List UInt8) := do
  let rest ← skipRun (2 * bytes.length + 2) .value [] bytes
  .ok ((), rest)

end Json

end GradientMerge
