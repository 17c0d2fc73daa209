/-!
Contract: computations that may fail, taken apart.

Owns: when two computations in a row succeed, what becomes of a success, and the first failure of
many computations.

Does not own: any cause of failure.
-/

namespace GradientMerge

namespace Outcome

variable {ε α β : Type}

/-- Two computations in a row succeed exactly if both do. -/
theorem bind_eq_ok_iff
    {first : Except ε α}
    {next : α → Except ε β}
    {value : β} :
    (first >>= next) = .ok value ↔ ∃ between, first = .ok between ∧ next between = .ok value := by
  cases first with
  | error cause => simp [bind, Except.bind]
  | ok between => simp [bind, Except.bind]

/-- What follows a success does not depend on what may have failed. -/
theorem ok_bind (between : α) (next : α → Except ε β) :
    ((.ok between : Except ε α) >>= next) = next between := rfl

theorem error_bind (cause : ε) (next : α → Except ε β) :
    ((.error cause : Except ε α) >>= next) = .error cause := rfl

theorem mapError_ok {κ : Type} (describe : ε → κ) (value : α) :
    (.ok value : Except ε α).mapError describe = .ok value := rfl

theorem mapError_eq_ok_iff {κ : Type} {describe : ε → κ} {result : Except ε α} {value : α} :
    result.mapError describe = .ok value ↔ result = .ok value := by
  cases result with
  | error cause => exact ⟨(by cases ·), (by cases ·)⟩
  | ok between =>
    rw [mapError_ok]
    exact ⟨fun same => congrArg _ (Except.ok.inj same), fun same => congrArg _ (Except.ok.inj same)⟩

/-- A computation that succeeds on all items in a row succeeds on each of them. -/
theorem mapM_eq_ok
    {compute : α → Except ε β}
    {items : List α}
    {values : List β}
    (computed : items.mapM compute = .ok values) :
    items.map compute = values.map .ok := by
  induction items generalizing values with
  | nil =>
    rw [List.mapM_nil] at computed
    cases computed
    rfl
  | cons item items inductionHypothesis =>
    rw [List.mapM_cons] at computed
    obtain ⟨first, isFirst, rest⟩ := bind_eq_ok_iff.1 computed
    obtain ⟨others, areOthers, joined⟩ := bind_eq_ok_iff.1 rest
    cases joined
    rw [List.map_cons, List.map_cons, isFirst, inductionHypothesis areOthers]

theorem mapM_of_map_eq
    {compute : α → Except ε β}
    {items : List α}
    {values : List β}
    (computed : items.map compute = values.map .ok) :
    items.mapM compute = .ok values := by
  induction items generalizing values with
  | nil =>
    rw [List.map_eq_nil_iff.1 computed.symm]
    rfl
  | cons item items inductionHypothesis =>
    cases values with
    | nil => cases computed
    | cons value values =>
      obtain ⟨first, others⟩ := List.cons.inj computed
      rw [List.mapM_cons, first, ok_bind, inductionHypothesis others]
      rfl

/-- A computation on items in a row fails as it does on the first one on which it fails. -/
theorem mapM_of_first_error
    {compute : α → Except ε β}
    {before : List α}
    {values : List β}
    (succeed : before.map compute = values.map .ok)
    {item : α}
    {cause : ε}
    (failed : compute item = .error cause)
    (later : List α) :
    (before ++ item :: later).mapM compute = .error cause := by
  rw [List.mapM_append, mapM_of_map_eq succeed, ok_bind, List.mapM_cons, failed]
  rfl

/-- A computation that succeeds on each item succeeds on all of them in a row. -/
theorem exists_mapM_eq_ok
    {compute : α → Except ε β}
    {items : List α}
    (all : ∀ item ∈ items, ∃ value, compute item = .ok value) :
    ∃ values, items.mapM compute = .ok values := by
  induction items with
  | nil => exact ⟨[], rfl⟩
  | cons item items inductionHypothesis =>
    obtain ⟨⟨value, first⟩, others⟩ := List.forall_mem_cons.1 all
    obtain ⟨values, rest⟩ := inductionHypothesis others
    exact ⟨value :: values, by rw [List.mapM_cons, first, ok_bind, rest]; rfl⟩

/-- Either a computation succeeds on every item, or there is a first item on which it fails. -/
theorem map_cases (compute : α → Except ε β) (items : List α) :
    (∃ values : List β, items.map compute = values.map .ok) ∨
      ∃ before item later cause, ∃ values : List β, items = before ++ item :: later ∧
        before.map compute = values.map .ok ∧ compute item = .error cause := by
  induction items with
  | nil => exact .inl ⟨[], rfl⟩
  | cons first items inductionHypothesis =>
    cases computed : compute first with
    | error cause => exact .inr ⟨[], first, items, cause, [], rfl, rfl, computed⟩
    | ok value =>
      rcases inductionHypothesis with ⟨values, all⟩ |
        ⟨before, item, later, cause, values, rfl, succeed, failed⟩
      · exact .inl ⟨value :: values, by rw [List.map_cons, List.map_cons, computed, all]⟩
      · refine .inr ⟨first :: before, item, later, cause, value :: values, rfl, ?_, failed⟩
        rw [List.map_cons, List.map_cons, computed, succeed]

end Outcome

end GradientMerge
