import GradientMerge.Wire.Frame

/-!
Contract: what stands on a stream behind the messages that were sent.

Owns: the frames of messages in a row, and what one sending adds to a stream.

Does not own: the reading of frames.
-/

namespace GradientMerge

/-- The frames of messages, one after the other. -/
def framesOf (messages : List Message) : List UInt8 :=
  messages.flatMap fun message =>
    match message.encode with
    | .ok body => frame body
    | .error _ => []

@[simp] theorem framesOf_nil : framesOf [] = [] := rfl

theorem framesOf_append (first second : List Message) :
    framesOf (first ++ second) = framesOf first ++ framesOf second := by
  unfold framesOf
  rw [List.flatMap_append]

namespace Outlet

theorem accepts_eq_of_length_eq
    {outlet : Outlet}
    {bytes : List UInt8}
    (complete : (outlet.accepts bytes).length = bytes.length) :
    outlet.accepts bytes = bytes := by
  unfold accepts at complete ⊢
  cases limit : outlet.limit with
  | none => rfl
  | some bound =>
    rw [limit] at complete
    exact (List.take_prefix _ _).eq_of_length complete

/-- What was written stays, whether a message can be sent or not. -/
theorem written_prefix_send (outlet : Outlet) (message : Message) :
    outlet.written <+: (outlet.send message).2.written := by
  unfold send
  cases message.encode with
  | error cause => exact List.prefix_rfl
  | ok body => exact List.prefix_append _ _

/-- A message that was sent stands behind all that was written before. -/
theorem written_of_send_eq_ok
    {outlet after : Outlet}
    {message : Message}
    (sent : outlet.send message = (.ok (), after)) :
    after.written = outlet.written ++ framesOf [message] := by
  unfold send at sent
  cases encoded : message.encode with
  | error cause =>
    rw [encoded] at sent
    cases sent
  | ok body =>
    rw [encoded] at sent
    by_cases complete : (outlet.accepts (frame body)).length = (frame body).length
    · have all : outlet.accepts (frame body) = frame body := accepts_eq_of_length_eq complete
      simp only [write, all, ↓reduceIte, Prod.mk.injEq, true_and] at sent
      rw [← sent]
      simp [framesOf, encoded]
    · simp [write, complete] at sent

end Outlet

end GradientMerge
