import GradientMerge.Wire.Message

/-!
Contract: messages written to a stream of bytes, each one in a frame behind its length.

Owns:
- the frame of a message's bytes;
- the writing end of a stream, with a limit on the bytes it takes;
- the sending of a message: all of its frame, or as much as the stream takes, or nothing for a
  message that has no bytes.

Does not own: the buffers that frames are made in and received into.
-/

namespace GradientMerge

/-- The frame of a message's bytes: their number in eight bytes, then the bytes. -/
def frame (body : List UInt8) : List UInt8 := Wire.encodeNat 8 body.length ++ body

/-- The writing end of a stream: what was written, and how many bytes it takes in total, if that is
limited. -/
structure Outlet where
  written : List UInt8 := []
  limit : Option Nat := none
  /-- Whether the end was announced to the reader. -/
  isShut : Bool := false
deriving DecidableEq, Repr

namespace Outlet

/-- The bytes of a sequence that the stream still takes. -/
def accepts (outlet : Outlet) (bytes : List UInt8) : List UInt8 :=
  match outlet.limit with
  | none => bytes
  | some limit => bytes.take (limit - outlet.written.length)

/-- Writes all of the bytes, or as many as the stream takes. -/
def write (outlet : Outlet) (bytes : List UInt8) : Except WireError Unit × Outlet :=
  let accepted := outlet.accepts bytes
  (if accepted.length = bytes.length then .ok () else .error .streamFull,
    { outlet with written := outlet.written ++ accepted })

/-- Sends a message in a frame; a message without bytes leaves the stream as it is. -/
def send (outlet : Outlet) (message : Message) : Except WireError Unit × Outlet :=
  match message.encode with
  | .error cause => (.error cause, outlet)
  | .ok body => outlet.write (frame body)

/-- Announces the end of the stream. -/
def shut (outlet : Outlet) : Outlet := { outlet with isShut := true }

end Outlet

end GradientMerge
