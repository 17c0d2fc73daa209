import GradientMerge.Json.Layout
import GradientMerge.Json.Reader
import GradientMerge.Wire.MergeMessage

/-!
Contract: the messages between workers and the merge service.

Owns:
- the messages, and the names of their kinds;
- their bytes: a number for the kind, then a text, a command in JSON, or a merge message;
- the causes for which a message cannot be sent or received.

Does not own: the frames in which messages follow each other on a stream.
-/

namespace GradientMerge

/-- The version of the protocol that both sides must speak. -/
def protocolVersion : Nat := 1

/-- A message between a worker and the merge service. -/
inductive Message where
  /-- The greeting of either side, with the version it speaks. -/
  | connect (version : Nat)
  /-- A worker is done. -/
  | disconnect
  /-- The service refuses something. -/
  | refusal (text : String)
  | mergeRequest (merge : MergeMessage Single)
  | mergeResponse (merge : MergeMessage Single)
deriving DecidableEq

/-- Why a message cannot be sent or received. -/
inductive WireError where
  /-- The stream ends before a frame is complete. -/
  | endOfStream
  /-- The stream takes no more bytes. -/
  | streamFull
  /-- A frame announces more bytes than are accepted. -/
  | frameTooLong (length : Nat)
  /-- A frame has no room for the kind of its message. -/
  | bodyTooShort (length : Nat)
  | unknownKind (kind : Nat)
  /-- The text of a refusal is not UTF-8. -/
  | invalidText
  /-- A command is not the JSON text of one. -/
  | invalidCommand (cause : JsonError)
  | malformedMerge (cause : MergeFormatError)
deriving DecidableEq, Repr

/-- Frames announcing more bytes are refused. -/
def frameLimit : Nat := 0x40000000

namespace WireError

/-- The message for people. -/
def message : WireError → String
  | .endOfStream => "early end of the stream"
  | .streamFull => "the stream takes no more bytes"
  | .frameTooLong length => s!"frame of {length} bytes exceeds the {frameLimit} bytes limit"
  | .bodyTooShort length =>
    s!"The given buffer is too small {length}, must at least be 4 bytes"
  | .unknownKind kind => s!"Received an invalid message kind {kind}"
  | .invalidText => "invalid UTF-8 in a text"
  | .invalidCommand .unexpectedEnd => "a command ends too early"
  | .invalidCommand .malformed => "invalid command"
  | .malformedMerge cause => cause.message

/-- The kind of failure. A command that ends too early counts as an early end of the stream. -/
def kind : WireError → IoKind
  | .endOfStream => .unexpectedEnd
  | .invalidCommand .unexpectedEnd => .unexpectedEnd
  | .streamFull => .writeRefused
  | _ => .invalidData

/-- The failure as a failure of a stream. -/
def toIoError (error : WireError) : IoError := ⟨error.kind, error.message⟩

end WireError

namespace Message

/-- The name of the kind of a message. -/
def kind : Message → String
  | .connect _ => "control/connect"
  | .disconnect => "control/disconnect"
  | .refusal _ => "err"
  | .mergeRequest _ => "data/merge_request"
  | .mergeResponse _ => "data/merge_response"

/-- The JSON text of a greeting. -/
def connectLayout (version : Nat) : JsonLayout :=
  .object [("connect", .object [("version", .word (toString version))])]

/-- Reads the version in a greeting. -/
def readVersion : Json.Reader Nat :=
  Json.record ⟨true, false⟩
    [.ofReader "version" false id (fun _ version => some version)
      (Json.wholeNumber 0 0xffffffff)]
    none id

/-- Reads a command: a greeting or a farewell. -/
def readCommand : Json.Reader Message :=
  Json.choice
    [ ⟨"connect", .inr fun bytes =>
        (readVersion bytes).map fun result => (.connect result.1, result.2)⟩,
      ⟨"disconnect", .inl .disconnect⟩ ]

/-- The bytes of a message. -/
def encode : Message → Except WireError (List UInt8)
  | .refusal text => .ok (Wire.encodeNat 4 0 ++ Utf8.encode text)
  | .connect version =>
    .ok (Wire.encodeNat 4 1 ++ Utf8.encode (connectLayout version).compact)
  | .disconnect => .ok (Wire.encodeNat 4 1 ++ Utf8.encode (JsonLayout.name "disconnect").compact)
  | .mergeRequest merge =>
    (merge.encode.mapError .malformedMerge).map (Wire.encodeNat 4 2 ++ ·)
  | .mergeResponse merge =>
    (merge.encode.mapError .malformedMerge).map (Wire.encodeNat 4 3 ++ ·)

/-- The message of a kind with these bytes behind the kind. -/
def decodeContent (kind : Nat) (content : List UInt8) : Except WireError Message :=
  match kind with
  | 0 =>
    match Utf8.decode? content with
    | some text => .ok (.refusal text)
    | none => .error .invalidText
  | 1 => (Json.document readCommand content).mapError .invalidCommand
  | 2 => ((MergeMessage.decode content).mapError .malformedMerge).map .mergeRequest
  | 3 => ((MergeMessage.decode content).mapError .malformedMerge).map .mergeResponse
  | kind => .error (.unknownKind kind)

/-- The message with these bytes. -/
def decode (bytes : List UInt8) : Except WireError Message :=
  match Wire.splitNat? 4 bytes with
  | none => .error (.bodyTooShort bytes.length)
  | some (kind, content) => decodeContent kind content

end Message

end GradientMerge
