import GradientMerge.Wire.Frame

/-!
Contract: the receiving of messages into a buffer of words that is kept from one message to the next.

The words are four or eight bytes wide. For a frame the buffer is emptied and grown again to as many
words as the frame's bytes need; then the bytes are read over the front of it. What is read is
a part of the buffer, and a part that reaches beyond its end is an access that the program does not
survive.

Owns:
- the buffer, with the emptying, the growing and the reading over its front;
- the receiving of one message, with every access to the buffer checked, and that none reaches beyond
  its end;
- the receiving of one message after the other, until there is nothing left to receive, or this many
  times, whatever became of those before.

Does not own: what the bytes of a frame mean.
-/

namespace GradientMerge

/-! ### Words -/

/-- The types of words that a receive buffer can be made of. -/
inductive WordType where
  | u32
  | u64
  | i32
  | i64
  | f32
  | f64
deriving DecidableEq, Repr

/-- The number of bytes of a word. -/
def WordType.size : WordType → Nat
  | .u32 | .i32 | .f32 => 4
  | .u64 | .i64 | .f64 => 8

theorem WordType.size_pos (type : WordType) : 0 < type.size := by
  cases type with
  | u32 | u64 | i32 | i64 | f32 | f64 => decide

/-- A buffer of whole words. Only the bytes up to the last one that was written are held; all behind
them are zero. -/
structure WordBuffer (type : WordType) where
  words : Nat
  filled : List UInt8
  fits : filled.length ≤ words * type.size
deriving DecidableEq

/-- What receiving comes to. -/
inductive Reception where
  /-- A message, or why there is none. -/
  | finished (result : Except WireError Message)
  /-- The program ends at an access to bytes that the buffer does not have. -/
  | outside (wanted available : Nat)

namespace Reception

/-- Whether the program goes on. -/
def isFinished : Reception → Bool
  | finished _ => true
  | outside _ _ => false

/-- What the program goes on with. -/
def result (reception : Reception) (goesOn : reception.isFinished = true) :
    Except WireError Message :=
  match reception, goesOn with
  | finished result, _ => result

theorem result_eq
    {reception : Reception}
    {result : Except WireError Message}
    {goesOn : reception.isFinished = true}
    (finishes : reception = .finished result) :
    reception.result goesOn = result := by
  subst finishes
  rfl

end Reception

namespace WordBuffer

variable {type : WordType}

/-- The buffer without words. -/
def empty (type : WordType) : WordBuffer type := ⟨0, [], Nat.zero_le _⟩

/-- The number of bytes of the buffer. -/
def size (buffer : WordBuffer type) : Nat := buffer.words * type.size

/-- All bytes of the buffer. -/
def bytes (buffer : WordBuffer type) : List UInt8 :=
  buffer.filled ++ List.replicate (buffer.size - buffer.filled.length) 0

@[simp] theorem length_bytes (buffer : WordBuffer type) : buffer.bytes.length = buffer.size := by
  have fits : buffer.filled.length ≤ buffer.size := buffer.fits
  rw [bytes, List.length_append, List.length_replicate, Nat.add_sub_cancel' fits]

/-- The buffer emptied. -/
def clear (_ : WordBuffer type) : WordBuffer type := empty type

/-- The buffer with another number of words: those it has too many are dropped, those it lacks are
zero. -/
def resize (buffer : WordBuffer type) (words : Nat) : WordBuffer type where
  words := words
  filled := buffer.filled.take (words * type.size)
  fits := List.length_take_le _ _

theorem bytes_resize (buffer : WordBuffer type) (words : Nat) :
    (buffer.resize words).bytes = buffer.bytes.take (words * type.size) ++
      List.replicate (words * type.size - buffer.size) 0 := by
  have fits : buffer.filled.length ≤ buffer.size := buffer.fits
  simp only [bytes, resize, size, List.take_append, List.take_replicate, List.length_take,
    List.append_assoc, List.replicate_append_replicate] at fits ⊢
  congr 2
  omega

/-- The buffer with these bytes written over its front, as far as it reaches. -/
def overwrite (buffer : WordBuffer type) (front : List UInt8) : WordBuffer type where
  words := buffer.words
  filled := front.take buffer.size ++ buffer.filled.drop front.length
  fits := by
    have fits : buffer.filled.length ≤ buffer.words * type.size := buffer.fits
    rw [List.length_append, List.length_take, List.length_drop, size]
    omega

theorem bytes_overwrite (buffer : WordBuffer type) (front : List UInt8) :
    (buffer.overwrite front).bytes = front.take buffer.size ++ buffer.bytes.drop front.length := by
  have fits : buffer.filled.length ≤ buffer.size := buffer.fits
  simp only [bytes, overwrite, List.drop_append, List.drop_replicate, List.append_assoc,
    List.length_append, List.length_take, List.length_drop]
  congr 3
  simp only [size] at fits ⊢
  omega

/-- The number of words that so many bytes need. -/
def wordsFor (type : WordType) (length : Nat) : Nat := (length + type.size - 1) / type.size

theorem le_wordsFor_mul_size (type : WordType) (length : Nat) :
    length ≤ wordsFor type length * type.size ∧
      wordsFor type length * type.size < length + type.size := by
  have positive := type.size_pos
  have divided := Nat.div_add_mod (length + type.size - 1) type.size
  have remainder := Nat.mod_lt (length + type.size - 1) positive
  rw [Nat.mul_comm] at divided
  unfold wordsFor
  omega

/-- Receives the message of the next frame: what it comes to, with the buffer and the stream after
it. A frame that announces too many bytes is not read beyond its length; what there is of a frame
that the stream cuts short is read into the buffer. -/
def receive (buffer : WordBuffer type) (stream : List UInt8) :
    Reception × WordBuffer type × List UInt8 :=
  match Wire.splitNat? 8 stream with
  | none => (.finished (.error .endOfStream), buffer, [])
  | some (length, stream) =>
    if frameLimit < length then
      (.finished (.error (.frameTooLong length)), buffer, stream)
    else
      let buffer := buffer.clear.resize (wordsFor type length)
      if buffer.size < length then
        (.outside length buffer.size, buffer, stream)
      else
        let arrived := stream.take length
        let buffer := buffer.overwrite arrived
        if arrived.length < length then
          (.finished (.error .endOfStream), buffer, [])
        else
          (.finished (Message.decode (buffer.bytes.take length)), buffer, stream.drop length)

/-- Receives this many times, whatever comes of it. -/
def receiveTimes : Nat → WordBuffer type → List UInt8 →
    List Reception × WordBuffer type × List UInt8
  | 0, buffer, stream => ([], buffer, stream)
  | count + 1, buffer, stream =>
    let (reception, buffer, stream) := buffer.receive stream
    let (receptions, buffer, stream) := receiveTimes count buffer stream
    (reception :: receptions, buffer, stream)

/-- Whatever stands on a stream, no access reaches beyond the buffer. -/
theorem isFinished_receive (buffer : WordBuffer type) (stream : List UInt8) :
    (buffer.receive stream).1.isFinished = true := by
  unfold receive
  cases Wire.splitNat? 8 stream with
  | none => rfl
  | some split =>
    obtain ⟨length, arriving⟩ := split
    have room : ¬ (buffer.clear.resize (wordsFor type length)).size < length :=
      Nat.not_lt.2 (le_wordsFor_mul_size type length).1
    simp only [if_neg room]
    split
    · rfl
    · split
      · rfl
      · rfl

end WordBuffer

/-! ### Messages -/

/-- What a stream yields next: a message or a failure, with the buffer and the bytes left. -/
structure Received (type : WordType) where
  result : Except WireError Message
  buffer : WordBuffer type
  rest : List UInt8

section Messages

variable {type : WordType}

/-- Receives the message of the next frame into a buffer. -/
def receiveInto (buffer : WordBuffer type) (stream : List UInt8) : Received type where
  result := (buffer.receive stream).1.result (buffer.isFinished_receive stream)
  buffer := (buffer.receive stream).2.1
  rest := (buffer.receive stream).2.2

theorem receiveInto_of_receive
    {buffer after : WordBuffer type}
    {stream rest : List UInt8}
    {result : Except WireError Message}
    (received : buffer.receive stream = (.finished result, after, rest)) :
    receiveInto buffer stream = ⟨result, after, rest⟩ := by
  unfold receiveInto
  rw [Reception.result_eq (congrArg Prod.fst received), received]

/-- The message of the next frame of a stream, and the bytes behind it. -/
def receive (stream : List UInt8) : Except WireError Message × List UInt8 :=
  let received := receiveInto (.empty .u32) stream
  (received.result, received.rest)

/-- The empty stream yields its end. -/
@[simp] theorem receiveInto_nil (buffer : WordBuffer type) :
    receiveInto buffer [] = ⟨.error .endOfStream, buffer, []⟩ := rfl

/-- Receiving uses up part of a stream. -/
theorem length_rest_receiveInto_lt
    (buffer : WordBuffer type)
    {stream : List UInt8}
    (nonempty : stream ≠ []) :
    (receiveInto buffer stream).rest.length < stream.length := by
  have positive : 0 < stream.length := List.length_pos_iff.2 nonempty
  show (buffer.receive stream).2.2.length < stream.length
  unfold WordBuffer.receive
  cases header : Wire.splitNat? 8 stream with
  | none => simpa using positive
  | some split =>
    obtain ⟨length, behind⟩ := split
    have shorter : behind.length + 8 = stream.length := by
      simp only [Wire.splitNat?, Option.map_eq_some_iff, Prod.mk.injEq] at header
      obtain ⟨⟨front, rest⟩, split, -, rfl⟩ := header
      obtain ⟨rfl, fits⟩ := Wire.splitExactly?_eq_some_iff.1 split
      simp [fits, Nat.add_comm]
    have behindShorter : behind.length < stream.length := by omega
    dsimp only
    split
    · exact behindShorter
    · split
      · exact behindShorter
      · split
        · exact positive
        · exact Nat.lt_of_le_of_lt (List.drop_sublist _ _).length_le behindShorter

/-- Whether nothing behind a failure can be received: the stream has ended, or the length of a
frame was refused and its end is unknown. -/
def WireError.isFinal (rest : List UInt8) : WireError → Bool
  | .frameTooLong _ => true
  | _ => rest.isEmpty

/-- The messages of all frames of a stream, up to the failure behind which there is nothing. -/
def receiveEachInto (buffer : WordBuffer type) (stream : List UInt8) :
    List (Except WireError Message) :=
  if _ended : stream = [] then
    [.error .endOfStream]
  else
    let received := receiveInto buffer stream
    match received.result with
    | .error cause =>
      if cause.isFinal received.rest then
        [.error cause]
      else
        .error cause :: receiveEachInto received.buffer received.rest
    | .ok message => .ok message :: receiveEachInto received.buffer received.rest
termination_by stream.length
decreasing_by
  all_goals exact length_rest_receiveInto_lt buffer _ended

/-- The messages of all frames of a stream. -/
def receiveEach (stream : List UInt8) : List (Except WireError Message) :=
  receiveEachInto (.empty .u32) stream

end Messages

end GradientMerge
