import GradientMerge.Wire.Frame

/-!
Contract: the sending of messages through a buffer that is kept from one message to the next.

A message adds its bytes to the buffer behind eight bytes for their number, which are filled in last.
What it has added stays there if it turns out to have no bytes; the next message starts the buffer
anew. The text of a refusal is not copied into the buffer but written behind it.

Owns:
- the bytes that each part of a message adds to a buffer, also where it fails;
- the frame, written as the buffer and a tail;
- messages sent one after the other.

Does not own: the bytes of a message as a whole.
-/

namespace GradientMerge

namespace MergeMessage

/-- Adds a number in four bytes, if it fits into them. -/
def pushWord (buffer : List UInt8) (value : Nat) : Except MergeFormatError Unit × List UInt8 :=
  match encodeWord value with
  | .error cause => (.error cause, buffer)
  | .ok bytes => (.ok (), buffer ++ bytes)

/-- Adds shapes up to the first number that does not fit. -/
def pushShapes (buffer : List UInt8) :
    List (Nat × Nat) → Except MergeFormatError Unit × List UInt8
  | [] => (.ok (), buffer)
  | (rows, columns) :: shapes =>
    match pushWord buffer rows with
    | (.error cause, buffer) => (.error cause, buffer)
    | (.ok (), buffer) =>
      match pushWord buffer columns with
      | (.error cause, buffer) => (.error cause, buffer)
      | (.ok (), buffer) => pushShapes buffer shapes

/-- Adds a message: nothing if its families have different numbers of matrices or too many, else the
numbers in front of the entries as far as they fit, then the entries. -/
def push (buffer : List UInt8) (message : MergeMessage Single) :
    Except MergeFormatError Unit × List UInt8 :=
  if message.matrices.length ≠ message.previous.length then
    (.error (.unequalFamilies message.matrices.length message.previous.length), buffer)
  else
    match encodeWord message.matrices.length with
    | .error cause => (.error cause, buffer)
    | .ok count =>
      let family := message.matrices ++ message.previous
      let front := Wire.encodeNat 4 message.averageError.bits.toNat ++
        Wire.encodeNat 4 message.converged.toNat ++ count
      match pushShapes (buffer ++ front) family.shapes with
      | (.error cause, buffer) => (.error cause, buffer)
      | (.ok (), buffer) => (.ok (), buffer ++ encodeEntries family)

end MergeMessage

namespace Message

/-- Adds a message, except for the text of a refusal, which is given back as a tail. -/
def push (buffer : List UInt8) : Message → Except WireError (Option (List UInt8)) × List UInt8
  | .refusal text => (.ok (some (Utf8.encode text)), buffer ++ Wire.encodeNat 4 0)
  | .connect version =>
    (.ok none,
      buffer ++ Wire.encodeNat 4 1 ++ Utf8.encode (connectLayout version).compact)
  | .disconnect =>
    (.ok none,
      buffer ++ Wire.encodeNat 4 1 ++ Utf8.encode (JsonLayout.name "disconnect").compact)
  | .mergeRequest merge =>
    let (result, buffer) := merge.push (buffer ++ Wire.encodeNat 4 2)
    ((result.mapError .malformedMerge).map fun _ => none, buffer)
  | .mergeResponse merge =>
    let (result, buffer) := merge.push (buffer ++ Wire.encodeNat 4 3)
    ((result.mapError .malformedMerge).map fun _ => none, buffer)

end Message

/-- The number of bytes in front of a frame's body. -/
def lengthBytes : Nat := 8

/-- A sender: the stream it writes to, and its buffer as the last message left it. -/
structure FrameSender where
  outlet : Outlet := {}
  buffer : List UInt8 := []
deriving DecidableEq, Repr

namespace FrameSender

/-- A buffer with nothing but room for the length of a frame. -/
def blank : List UInt8 := List.replicate lengthBytes 0

/-- The buffer with the length of its frame filled in, where a tail may follow. -/
def withLength (buffer tail : List UInt8) : List UInt8 :=
  Wire.encodeNat lengthBytes (buffer.length - lengthBytes + tail.length) ++ buffer.drop lengthBytes

/-- Writes the buffer, then the tail if there is one. -/
def writeOut (sender : FrameSender) (tail? : Option (List UInt8)) :
    Except WireError Unit × FrameSender :=
  match sender.outlet.write sender.buffer, tail? with
  | (.ok (), outlet), some tail =>
    let (result, outlet) := outlet.write tail
    (result, { sender with outlet := outlet })
  | (result, outlet), _ => (result, { sender with outlet := outlet })

/-- Sends a message. The buffer is started anew; a message that has no bytes leaves in it what was
added before that turned out. -/
def send (sender : FrameSender) (message : Message) : Except WireError Unit × FrameSender :=
  match message.push blank with
  | (.error cause, buffer) => (.error cause, { sender with buffer := buffer })
  | (.ok tail?, buffer) =>
    writeOut { sender with buffer := withLength buffer (tail?.getD []) } tail?

/-- Sends messages one after the other, whatever becomes of each. -/
def sendAll (sender : FrameSender) : List Message → List (Except WireError Unit) × FrameSender
  | [] => ([], sender)
  | message :: messages =>
    let (result, sender) := sender.send message
    let (results, sender) := sender.sendAll messages
    (result :: results, sender)

end FrameSender

end GradientMerge
