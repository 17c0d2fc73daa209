import GradientMerge.Matrix.Family
import GradientMerge.Proofs.Outcome

/-!
Contract: what becomes of the shapes of a family.

Owns: the shapes of zero families, sums and quotients, and what a check of shapes that succeeds or
fails tells of them.

Does not own: the shapes that a network or a service expects.
-/

namespace GradientMerge

namespace Family

variable {α : Type}

@[simp] theorem length_shapes (family : Family α) : family.shapes.length = family.length := by
  rw [shapes, List.length_map]

@[simp] theorem shapes_append (first second : Family α) :
    shapes (first ++ second) = shapes first ++ shapes second := by
  rw [shapes, List.map_append]
  rfl

@[simp] theorem shapes_zeros [Zero α] (expected : List (Nat × Nat)) :
    (zeros expected : Family α).shapes = expected := by
  simp [zeros, shapes, Function.comp_def]

@[simp] theorem shapes_divide [Div α] (family : Family α) (divisor : α) :
    (family.divide divisor).shapes = family.shapes := by
  simp [divide, shapes, Function.comp_def]

theorem shapes_zipWith
    (f : α → α → α)
    {left right : Family α}
    (sameLength : left.length = right.length) :
    shapes (List.zipWith (Matrix.zipWith f) left right) = left.shapes := by
  induction left generalizing right with
  | nil => rfl
  | cons matrix left inductionHypothesis =>
    cases right with
    | nil => cases sameLength
    | cons other right =>
      have rest := inductionHypothesis (Nat.succ.inj sameLength)
      simpa [shapes] using rest

theorem firstMismatch?_eq_none_iff
    (start : Nat)
    {gots expecteds : List (Nat × Nat)}
    (sameLength : gots.length = expecteds.length) :
    firstMismatch? start gots expecteds = none ↔ gots = expecteds := by
  induction gots generalizing start expecteds with
  | nil =>
    cases expecteds with
    | nil => exact ⟨fun _ => rfl, fun _ => rfl⟩
    | cons expected expecteds => cases sameLength
  | cons got gots inductionHypothesis =>
    cases expecteds with
    | nil => cases sameLength
    | cons expected expecteds =>
      have rest := inductionHypothesis (start + 1) (Nat.succ.inj sameLength)
      by_cases same : got = expected
      · rw [firstMismatch?, if_pos same, rest, same, List.cons_inj_right]
      · rw [firstMismatch?, if_neg same]
        simp [same]

theorem firstMismatch?_eq_some
    {start index : Nat}
    {gots expecteds : List (Nat × Nat)}
    {got wanted : Nat × Nat}
    (found : firstMismatch? start gots expecteds = some (index, got, wanted)) :
    index < start + gots.length ∧ got ∈ gots ∧ wanted ∈ expecteds := by
  induction gots generalizing start expecteds with
  | nil => cases found
  | cons head gots inductionHypothesis =>
    cases expecteds with
    | nil => cases found
    | cons expected expecteds =>
      rw [firstMismatch?] at found
      by_cases same : head = expected
      · rw [if_pos same] at found
        obtain ⟨within, gotMember, wantedMember⟩ := inductionHypothesis found
        refine ⟨?_, List.mem_cons_of_mem _ gotMember, List.mem_cons_of_mem _ wantedMember⟩
        rw [List.length_cons]
        omega
      · rw [if_neg same] at found
        cases found
        refine ⟨?_, List.mem_cons_self, List.mem_cons_self⟩
        rw [List.length_cons]
        omega

theorem check_eq_ok_iff {family : Family α} {expected : List (Nat × Nat)} :
    family.check expected = .ok () ↔ family.shapes = expected := by
  unfold check
  by_cases sameLength : family.length = expected.length
  · rw [if_neg (Decidable.not_not.2 sameLength)]
    have sameLengths : family.shapes.length = expected.length := by
      rw [length_shapes, sameLength]
    rw [← firstMismatch?_eq_none_iff 0 sameLengths]
    cases firstMismatch? 0 family.shapes expected with
    | none => simp
    | some mismatch => simp
  · rw [if_pos sameLength]
    constructor
    · intro impossible
      cases impossible
    · intro same
      rw [← same, length_shapes] at sameLength
      exact absurd rfl sameLength

theorem shapes_ne_of_check
    {family : Family α}
    {expected : List (Nat × Nat)}
    {cause : ModelError}
    (refuses : family.check expected = .error cause) :
    family.shapes ≠ expected := by
  intro same
  rw [check_eq_ok_iff.2 same] at refuses
  cases refuses

/-- A check that fails tells the two numbers of matrices, or a place with the two shapes there. -/
theorem check_eq_error
    {family : Family α}
    {expected : List (Nat × Nat)}
    {cause : ModelError}
    (failed : family.check expected = .error cause) :
    cause = .sizeMismatch "matrix set" family.length expected.length ∨
      ∃ index got wanted, cause = .shapeMismatch index got wanted ∧
        index < family.length ∧ got ∈ family.shapes ∧ wanted ∈ expected := by
  unfold check at failed
  by_cases sameLength : family.length = expected.length
  · rw [if_neg (Decidable.not_not.2 sameLength)] at failed
    cases found : firstMismatch? 0 family.shapes expected with
    | none =>
      rw [found] at failed
      cases failed
    | some mismatch =>
      obtain ⟨index, got, wanted⟩ := mismatch
      rw [found] at failed
      cases failed
      obtain ⟨within, gotMember, wantedMember⟩ := firstMismatch?_eq_some found
      rw [Nat.zero_add, length_shapes] at within
      exact .inr ⟨index, got, wanted, rfl, within, gotMember, wantedMember⟩
  · rw [if_pos sameLength] at failed
    cases failed
    exact .inl rfl

theorem shapes_of_add_eq_ok
    [Add α]
    {left right sum : Family α}
    (added : left.add right = .ok sum) :
    sum.shapes = left.shapes := by
  obtain ⟨⟨⟩, checked, summed⟩ := Outcome.bind_eq_ok_iff.1 added
  cases summed
  have same : right.shapes = left.shapes := check_eq_ok_iff.1 checked
  have sameLength : left.length = right.length := by
    rw [← length_shapes, ← length_shapes, same]
  exact shapes_zipWith _ sameLength

end Family

end GradientMerge
