import GradientMerge.Proofs.MessageStreams

/-!
Contract: no frame of a stream has a part in what another one comes to.

Owns:
- every stream as complete frames with an ending behind them, in one way only;
- what receiving into a buffer of words does with a frame and with an ending, whatever the buffer
  holds;
- what comes of receiving again and again, also behind frames that hold no message.

Does not own: what the bytes of a frame mean.
-/

namespace GradientMerge

/-! ### Frames and endings -/

/-- How a stream ends behind its complete frames: what stands there, the failure that this is, and
what is left of the stream behind the failure. -/
inductive EndsFrames : List UInt8 → WireError → List UInt8 → Prop
  | tooLong {length : Nat} (counted : length < 256 ^ 8) (exceeds : frameLimit < length)
      (behind : List UInt8) :
      EndsFrames (Wire.encodeNat 8 length ++ behind) (.frameTooLong length) behind
  | cutLength {tail : List UInt8} (short : tail.length < 8) : EndsFrames tail .endOfStream []
  | cutBody {length : Nat} {part : List UInt8} (within : length ≤ frameLimit)
      (short : part.length < length) :
      EndsFrames (Wire.encodeNat 8 length ++ part) .endOfStream []

/-- A stream as the bodies of its complete frames and what stands behind them. -/
structure IsFraming
    (stream : List UInt8)
    (bodies : List (List UInt8))
    (tail : List UInt8)
    (cause : WireError)
    (left : List UInt8) : Prop where
  stream : stream = bodies.flatMap frame ++ tail
  within : ∀ body ∈ bodies, body.length ≤ frameLimit
  ending : EndsFrames tail cause left

theorem splitNat?_eq_none {tail : List UInt8} (short : tail.length < 8) :
    Wire.splitNat? 8 tail = none := by
  have front : (tail.take 8).length ≠ 8 := by
    rw [List.length_take]
    omega
  unfold Wire.splitNat? Wire.splitExactly?
  rw [if_neg front, Option.map_none]

/-- What stands in front of a stream is a complete frame, or an ending. -/
theorem exists_frame_or_ending (stream : List UInt8) :
    (∃ body rest, body.length ≤ frameLimit ∧ stream = frame body ++ rest) ∨
      ∃ cause left, EndsFrames stream cause left := by
  cases header : Wire.splitNat? 8 stream with
  | none =>
    have short : stream.length < 8 := by
      simp only [Wire.splitNat?, Wire.splitExactly?, List.length_take, Option.map_eq_none_iff,
        ite_eq_right_iff, reduceCtorEq, imp_false] at header
      omega
    exact .inr ⟨_, _, .cutLength short⟩
  | some split =>
    obtain ⟨length, behind⟩ := split
    obtain ⟨counted, rfl⟩ := Wire.splitNat?_eq_some_iff.1 header
    by_cases exceeds : frameLimit < length
    · exact .inr ⟨_, _, .tooLong counted exceeds behind⟩
    · have within : length ≤ frameLimit := Nat.le_of_not_lt exceeds
      by_cases short : behind.length < length
      · exact .inr ⟨_, _, .cutBody within short⟩
      · have bodyLength : (behind.take length).length = length := by
          rw [List.length_take]
          omega
        refine .inl ⟨behind.take length, behind.drop length, ?_, ?_⟩
        · rw [bodyLength]
          exact within
        · rw [frame_append, bodyLength, List.take_append_drop]

theorem exists_isFraming (stream : List UInt8) :
    ∃ bodies tail cause left, IsFraming stream bodies tail cause left := by
  rcases exists_frame_or_ending stream with ⟨body, rest, within, isFrame⟩ | ⟨cause, left, ending⟩
  · have shorter : rest.length < stream.length := by
      rw [isFrame, List.length_append, frame, List.length_append, Wire.length_encodeNat]
      omega
    obtain ⟨bodies, tail, cause, left, framing⟩ := exists_isFraming rest
    refine ⟨body :: bodies, tail, cause, left, ?_, ?_, framing.ending⟩
    · rw [isFrame, framing.stream, List.flatMap_cons, List.append_assoc]
    · exact List.forall_mem_cons.2 ⟨within, framing.within⟩
  · exact ⟨[], stream, cause, left, rfl, by simp, ending⟩
termination_by stream.length

/-- An ending comes to its failure: no message is made of what there is of a frame. -/
theorem WordBuffer.receive_ending
    {type : WordType}
    (buffer : WordBuffer type)
    {tail left : List UInt8}
    {cause : WireError}
    (ending : EndsFrames tail cause left) :
    ∃ after, buffer.receive tail = (.finished (.error cause), after, left) := by
  cases ending with
  | tooLong counted exceeds => exact ⟨buffer, buffer.receive_tooLong counted exceeds _⟩
  | cutLength short => exact ⟨buffer, buffer.receive_of_none (splitNat?_eq_none short)⟩
  | cutBody within short =>
    obtain ⟨after, -, received⟩ := buffer.receive_within within _
    exact ⟨after, by rw [received, if_pos short]⟩

theorem receiveInto_ending
    {type : WordType}
    (buffer : WordBuffer type)
    {tail left : List UInt8}
    {cause : WireError}
    (ending : EndsFrames tail cause left) :
    ∃ after, receiveInto buffer tail = ⟨.error cause, after, left⟩ := by
  obtain ⟨after, received⟩ := buffer.receive_ending ending
  exact ⟨after, receiveInto_of_receive received⟩

/-- No ending begins with a complete frame. -/
theorem EndsFrames.exceeds_of_frame
    {body rest left : List UInt8}
    {cause : WireError}
    (counted : body.length < 256 ^ 8)
    (ending : EndsFrames (frame body ++ rest) cause left) :
    frameLimit < body.length := by
  have header : Wire.splitNat? 8 (frame body ++ rest) = some (body.length, body ++ rest) :=
    Wire.splitNat?_eq_some_iff.2 ⟨counted, frame_append body rest⟩
  generalize frame body ++ rest = tail at ending header
  cases ending with
  | @tooLong length otherCounted exceeds =>
    have otherHeader : Wire.splitNat? 8 (Wire.encodeNat 8 length ++ left) = some (length, left) :=
      Wire.splitNat?_eq_some_iff.2 ⟨otherCounted, rfl⟩
    rw [header, Option.some.injEq, Prod.mk.injEq] at otherHeader
    rw [otherHeader.1]
    exact exceeds
  | cutLength short =>
    rw [splitNat?_eq_none short] at header
    cases header
  | @cutBody length part within short =>
    have otherHeader : Wire.splitNat? 8 (Wire.encodeNat 8 length ++ part) = some (length, part) :=
      Wire.splitNat?_eq_some_iff.2 ⟨Nat.lt_of_le_of_lt within (by decide), rfl⟩
    rw [header, Option.some.injEq, Prod.mk.injEq] at otherHeader
    obtain ⟨rfl, rfl⟩ := otherHeader
    rw [List.length_append] at short
    omega

/-- A stream has one framing only. -/
theorem IsFraming.unique
    {stream tail otherTail left otherLeft : List UInt8}
    {bodies otherBodies : List (List UInt8)}
    {cause otherCause : WireError}
    (framing : IsFraming stream bodies tail cause left)
    (other : IsFraming stream otherBodies otherTail otherCause otherLeft) :
    otherBodies = bodies ∧ otherTail = tail ∧ otherCause = cause ∧ otherLeft = left := by
  induction bodies generalizing stream otherBodies with
  | nil =>
    cases otherBodies with
    | nil =>
      obtain rfl : otherTail = tail := other.stream.symm.trans framing.stream
      obtain ⟨after, received⟩ := receiveInto_ending (.empty .u32) framing.ending
      obtain ⟨otherAfter, otherReceived⟩ := receiveInto_ending (.empty .u32) other.ending
      rw [received, Received.mk.injEq, Except.error.injEq] at otherReceived
      obtain ⟨sameCause, -, sameRest⟩ := otherReceived
      exact ⟨rfl, rfl, sameCause.symm, sameRest.symm⟩
    | cons body otherBodies =>
      have within := other.within body List.mem_cons_self
      have ending := framing.ending
      rw [← List.nil_append tail, ← List.flatMap_nil, ← framing.stream, other.stream,
        List.flatMap_cons, List.append_assoc] at ending
      exact absurd (ending.exceeds_of_frame (length_lt_of_within within)) (Nat.not_lt.2 within)
  | cons body bodies inductionHypothesis =>
    have within := framing.within body List.mem_cons_self
    cases otherBodies with
    | nil =>
      have ending := other.ending
      rw [← List.nil_append otherTail, ← List.flatMap_nil, ← other.stream, framing.stream,
        List.flatMap_cons, List.append_assoc] at ending
      exact absurd (ending.exceeds_of_frame (length_lt_of_within within)) (Nat.not_lt.2 within)
    | cons otherBody otherBodies =>
      have otherWithin := other.within otherBody List.mem_cons_self
      have same := other.stream.symm.trans framing.stream
      rw [List.flatMap_cons, List.flatMap_cons, List.append_assoc, List.append_assoc] at same
      obtain ⟨rfl, behind⟩ := frame_append_inj (length_lt_of_within otherWithin)
        (length_lt_of_within within) same
      have later : IsFraming (bodies.flatMap frame ++ tail) bodies tail cause left :=
        ⟨rfl, (List.forall_mem_cons.1 framing.within).2, framing.ending⟩
      have otherLater : IsFraming (bodies.flatMap frame ++ tail) otherBodies otherTail otherCause
          otherLeft :=
        ⟨behind.symm, (List.forall_mem_cons.1 other.within).2, other.ending⟩
      obtain ⟨rfl, sameEnding⟩ := inductionHypothesis later otherLater
      exact ⟨rfl, sameEnding⟩

namespace WordBuffer

variable {type : WordType}

/-! ### Again and again -/

/-- Whatever stands on a stream, no access reaches beyond the buffer. -/
theorem receive_finished (buffer : WordBuffer type) (stream : List UInt8) :
    ∃ result, (buffer.receive stream).1 = .finished result := by
  have goesOn := buffer.isFinished_receive stream
  cases outcome : (buffer.receive stream).1 with
  | finished result => exact ⟨result, rfl⟩
  | outside wanted available =>
    rw [outcome] at goesOn
    cases goesOn

theorem receiveTimes_frames
    (buffer : WordBuffer type)
    {bodies : List (List UInt8)}
    (within : ∀ body ∈ bodies, body.length ≤ frameLimit)
    (rest : List UInt8) :
    ∃ after, buffer.receiveTimes bodies.length (bodies.flatMap frame ++ rest) =
      (bodies.map fun body => .finished (Message.decode body), after, rest) := by
  induction bodies generalizing buffer with
  | nil => exact ⟨buffer, rfl⟩
  | cons body bodies inductionHypothesis =>
    obtain ⟨bodyWithin, laterWithin⟩ := List.forall_mem_cons.1 within
    obtain ⟨between, -, received⟩ := buffer.receive_frame bodyWithin (bodies.flatMap frame ++ rest)
    obtain ⟨after, later⟩ := inductionHypothesis between laterWithin
    refine ⟨after, ?_⟩
    rw [List.length_cons, List.flatMap_cons, List.append_assoc, receiveTimes, received]
    dsimp only
    rw [later, List.map_cons]

theorem receiveTimes_add
    (first second : Nat)
    (buffer : WordBuffer type)
    (stream : List UInt8) :
    buffer.receiveTimes (first + second) stream =
      let (before, between, behind) := buffer.receiveTimes first stream
      let (later, after, rest) := between.receiveTimes second behind
      (before ++ later, after, rest) := by
  induction first generalizing buffer stream with
  | zero => rw [Nat.zero_add]; rfl
  | succ first inductionHypothesis =>
    rw [Nat.add_right_comm]
    simp only [receiveTimes, inductionHypothesis, List.cons_append]

theorem receiveTimes_one (buffer : WordBuffer type) (stream : List UInt8) :
    buffer.receiveTimes 1 stream = ([(buffer.receive stream).1], (buffer.receive stream).2) := rfl

theorem finished_of_mem_receiveTimes
    {count : Nat}
    {buffer : WordBuffer type}
    {stream : List UInt8}
    {reception : Reception}
    (member : reception ∈ (buffer.receiveTimes count stream).1) :
    ∃ result, reception = .finished result := by
  induction count generalizing buffer stream with
  | zero => cases member
  | succ count inductionHypothesis =>
    rw [receiveTimes] at member
    rcases List.mem_cons.1 member with rfl | later
    · exact buffer.receive_finished stream
    · exact inductionHypothesis later

/-- What comes of receiving from a stream again and again. -/
structure Isolates
    (buffer : WordBuffer type)
    (stream : List UInt8)
    (bodies : List (List UInt8))
    (tail : List UInt8)
    (cause : WireError)
    (left : List UInt8) : Prop where
  /-- As long as there are complete frames, each comes to the message of its own body, or to the
  failure of that, and the stream is left in front of the next one. -/
  frames : ∀ count ≤ bodies.length, ∃ after, buffer.receiveTimes count stream =
    ((bodies.take count).map fun body => .finished (Message.decode body), after,
      (bodies.drop count).flatMap frame ++ tail)
  /-- Behind a frame the buffer holds its bytes, and zeros up to the end of a word. -/
  bytes : ∀ before body later, bodies = before ++ body :: later →
    ∃ blanks < type.size, (buffer.receiveTimes (before.length + 1) stream).2.1.bytes =
      body ++ List.replicate blanks 0
  /-- Then comes the failure of the ending, and no message. -/
  ending : ∃ after, buffer.receiveTimes (bodies.length + 1) stream =
    ((bodies.map fun body => .finished (Message.decode body)) ++ [.finished (.error cause)], after,
      left)
  /-- However often something is received, also behind the ending, no access reaches beyond the
  buffer. -/
  inside : ∀ count, ∀ reception ∈ (buffer.receiveTimes count stream).1,
    ∃ result, reception = .finished result
  /-- Nor does a cut of a merge reach beyond the end of what stands behind the kind of a body. -/
  cuts : ∀ body ∈ bodies, ∀ kind content, Wire.splitNat? 4 body = some (kind, content) →
    (MergeMessage.decodeByCuts content).run = some (MergeMessage.decode content)

theorem isolates_of_isFraming
    (buffer : WordBuffer type)
    {stream tail left : List UInt8}
    {bodies : List (List UInt8)}
    {cause : WireError}
    (framing : IsFraming stream bodies tail cause left) :
    buffer.Isolates stream bodies tail cause left := by
  constructor
  case frames =>
    intro count enough
    have within : ∀ body ∈ bodies.take count, body.length ≤ frameLimit :=
      fun body member => framing.within body (List.mem_of_mem_take member)
    obtain ⟨after, received⟩ :=
      buffer.receiveTimes_frames within ((bodies.drop count).flatMap frame ++ tail)
    rw [← List.append_assoc, ← List.flatMap_append, List.take_append_drop, ← framing.stream,
      List.length_take, Nat.min_eq_left enough] at received
    exact ⟨after, received⟩
  case bytes =>
    rintro before body later rfl
    have beforeWithin : ∀ other ∈ before, other.length ≤ frameLimit :=
      fun other member => framing.within other (List.mem_append_left _ member)
    have bodyWithin : body.length ≤ frameLimit :=
      framing.within body (List.mem_append_right _ List.mem_cons_self)
    obtain ⟨between, received⟩ := buffer.receiveTimes_frames beforeWithin
      (frame body ++ (later.flatMap frame ++ tail))
    obtain ⟨after, bytes, last⟩ :=
      between.receive_frame bodyWithin (later.flatMap frame ++ tail)
    have bounds := le_wordsFor_mul_size type body.length
    refine ⟨wordsFor type body.length * type.size - body.length, by omega, ?_⟩
    rw [receiveTimes_add, framing.stream, List.flatMap_append, List.flatMap_cons, List.append_assoc,
      List.append_assoc, received]
    dsimp only
    rw [receiveTimes_one, last]
    exact bytes
  case ending =>
    obtain ⟨between, received⟩ := buffer.receiveTimes_frames framing.within tail
    obtain ⟨after, ended⟩ := between.receive_ending framing.ending
    refine ⟨after, ?_⟩
    rw [receiveTimes_add, framing.stream, received]
    dsimp only
    rw [receiveTimes_one, ended]
  case inside => exact fun count reception => finished_of_mem_receiveTimes
  case cuts =>
    intro body _ kind content _
    rw [MergeMessage.decodeByCuts_eq]
    rfl

/-- Every stream has complete frames in front of an ending, in one way only, and a buffer of words of
any type and with any content receives the frames apart from each other, then the ending. -/
theorem receiveTimes_isolates (buffer : WordBuffer type) (stream : List UInt8) :
    ∃ bodies tail cause left, IsFraming stream bodies tail cause left ∧
      (∀ otherBodies otherTail otherCause otherLeft,
        IsFraming stream otherBodies otherTail otherCause otherLeft →
          otherBodies = bodies ∧ otherTail = tail ∧ otherCause = cause ∧ otherLeft = left) ∧
      buffer.Isolates stream bodies tail cause left := by
  obtain ⟨bodies, tail, cause, left, framing⟩ := exists_isFraming stream
  refine ⟨bodies, tail, cause, left, framing, ?_, buffer.isolates_of_isFraming framing⟩
  intro otherBodies otherTail otherCause otherLeft other
  exact framing.unique other

end WordBuffer

end GradientMerge
