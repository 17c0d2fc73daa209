import GradientMerge.Json.Reader
import GradientMerge.Proofs.Outcome

/-!
Contract: what can be said of every value that a reader of JSON yields, whatever the text.

Owns: properties of the results of readers, among them those of whole numbers, and how those of
arrays and records follow from those of their parts.

Does not own: which texts are read at all.
-/

namespace GradientMerge

open Outcome

namespace Json

variable {σ α β : Type}

/-- Whether all values that a reader yields have a property. -/
def Yields (reader : Reader α) (property : α → Prop) : Prop :=
  ∀ bytes value rest, reader bytes = .ok (value, rest) → property value

theorem mismatch_ne_ok
    (bytes : List UInt8)
    (result : α × List UInt8) :
    (mismatch bytes : Except JsonError (α × List UInt8)) ≠ .ok result := by
  have never {β : Type} (read : Except JsonError β) :
      (read.bind fun _ => (.error .malformed : Except JsonError (α × List UInt8))) ≠ .ok result := by
    cases read with
    | error cause => exact fun impossible => nomatch impossible
    | ok value => exact fun impossible => nomatch impossible
  unfold mismatch
  cases bytes with
  | nil => exact fun impossible => nomatch impossible
  | cons byte rest =>
    simp only
    split
    · exact never _
    split
    · exact never _
    split
    · exact never _
    split
    · exact never _
    split
    · exact never _
    · exact fun impossible => nomatch impossible

theorem yields_accept
    {reader : Reader α}
    {select : α → Option β}
    {property : β → Prop}
    (selects : ∀ value selected, select value = some selected → property selected) :
    Yields (reader.accept select) property := by
  intro bytes selected rest read
  obtain ⟨⟨value, behind⟩, -, read⟩ := bind_eq_ok_iff.1 read
  simp only at read
  split at read
  · rename_i isSelected
    cases read
    exact selects value selected isSelected
  · cases read

/-- A whole number that was read is within the bounds. -/
theorem yields_wholeNumber (least greatest : Nat) :
    Yields (wholeNumber least greatest) fun value => least ≤ value ∧ value ≤ greatest := by
  apply yields_accept
  intro value selected isSelected
  split at isSelected
  · split at isSelected
    · rename_i within
      cases isSelected
      exact within
    · cases isSelected
  · cases isSelected

/-! ### Arrays -/

theorem yields_elements
    {reader : Reader α}
    {property : α → Prop}
    (yields : Yields reader property)
    (fuel : Nat)
    (first : Bool) :
    Yields (elements reader fuel first) fun values => ∀ value ∈ values, property value := by
  induction fuel generalizing first with
  | zero =>
    intro bytes values rest read
    cases read
  | succ fuel inductionHypothesis =>
    intro bytes values rest read
    rw [elements] at read
    obtain ⟨⟨next, behind⟩, -, read⟩ := bind_eq_ok_iff.1 read
    cases next with
    | none =>
      cases read
      simp
    | some element =>
      simp only at read
      obtain ⟨⟨value, later⟩, isValue, read⟩ := bind_eq_ok_iff.1 read
      obtain ⟨⟨others, last⟩, areOthers, read⟩ := bind_eq_ok_iff.1 read
      cases read
      rw [List.forall_mem_cons]
      exact ⟨yields _ _ _ isValue, inductionHypothesis false _ _ _ areOthers⟩

theorem yields_list
    {reader : Reader α}
    {property : α → Prop}
    (yields : Yields reader property) :
    Yields (list reader) fun values => ∀ value ∈ values, property value := by
  intro bytes values rest read
  unfold list at read
  cases skipped : skipBlanks bytes with
  | nil =>
    rw [skipped] at read
    cases read
  | cons byte behind =>
    simp only [skipped] at read
    split at read
    · exact yields_elements yields _ _ _ _ _ read
    · exact absurd read (mismatch_ne_ok _ _)

/-! ### Records -/

/-- Whether every field of a record keeps a property of the draft. -/
def Keeps (fields : List (Field σ)) (property : σ → Prop) : Prop :=
  ∀ field ∈ fields, ∀ draft, property draft → Yields (field.read draft) property

theorem yields_members
    {rule : KeyRule}
    {fields : List (Field σ)}
    {property : σ → Prop}
    (keeps : Keeps fields property)
    (fuel : Nat)
    (first : Bool)
    {draft : σ}
    (holds : property draft) :
    Yields (members rule fields fuel first draft) property := by
  induction fuel generalizing first draft with
  | zero =>
    intro bytes value rest read
    cases read
  | succ fuel inductionHypothesis =>
    intro bytes value rest read
    rw [members] at read
    obtain ⟨⟨next, behind⟩, -, read⟩ := bind_eq_ok_iff.1 read
    cases next with
    | none =>
      cases read
      exact holds
    | some key =>
      simp only at read
      cases found : fields.find? fun field => field.name == key with
      | none =>
        simp only [found] at read
        split at read
        · obtain ⟨⟨⟨⟩, afterColon⟩, isColon, read⟩ := bind_eq_ok_iff.1 read
          obtain ⟨⟨⟨⟩, afterValue⟩, isValue, read⟩ := bind_eq_ok_iff.1 read
          exact inductionHypothesis false holds _ _ _ read
        · cases read
      | some field =>
        simp only [found] at read
        split at read
        · cases read
        · obtain ⟨⟨⟨⟩, afterColon⟩, isColon, read⟩ := bind_eq_ok_iff.1 read
          obtain ⟨⟨filled, afterValue⟩, isFilled, read⟩ := bind_eq_ok_iff.1 read
          have kept : property filled :=
            keeps field (List.mem_of_find?_eq_some found) draft holds _ _ _ isFilled
          exact inductionHypothesis false kept _ _ _ read

theorem yields_places
    {fields : List (Field σ)}
    {property : σ → Prop}
    (keeps : Keeps fields property)
    (first : Bool)
    {draft : σ}
    (holds : property draft) :
    Yields (places fields first draft) property := by
  induction fields generalizing first draft with
  | nil =>
    intro bytes value rest read
    rw [places] at read
    obtain ⟨⟨⟨⟩, behind⟩, isClosing, read⟩ := bind_eq_ok_iff.1 read
    cases read
    exact holds
  | cons field fields inductionHypothesis =>
    intro bytes value rest read
    rw [places] at read
    obtain ⟨⟨next, behind⟩, -, read⟩ := bind_eq_ok_iff.1 read
    cases next with
    | none =>
      simp only at read
      split at read
      · cases read
        exact holds
      · cases read
    | some element =>
      simp only at read
      obtain ⟨⟨filled, later⟩, isFilled, read⟩ := bind_eq_ok_iff.1 read
      have kept : property filled := keeps field List.mem_cons_self draft holds _ _ _ isFilled
      have others : Keeps fields property := fun other member => keeps other (List.mem_cons_of_mem _ member)
      exact inductionHypothesis others false kept _ _ _ read

/-- What a record yields is made of a draft with the property that every field keeps. -/
theorem yields_record
    {rule : KeyRule}
    {fields : List (Field σ)}
    {draft : σ}
    {finish : σ → Option α}
    {property : σ → Prop}
    (keeps : Keeps fields property)
    (holds : property draft) :
    Yields (record rule fields draft finish) fun value =>
      ∃ last, property last ∧ finish last = some value := by
  intro bytes value rest read
  unfold record at read
  obtain ⟨⟨last, behind⟩, collected, read⟩ := bind_eq_ok_iff.1 read
  have kept : property last := by
    cases skipped : skipBlanks bytes with
    | nil =>
      rw [skipped] at collected
      cases collected
    | cons byte later =>
      simp only [skipped] at collected
      split at collected
      · exact yields_members keeps _ _ holds _ _ _ collected
      split at collected
      · exact yields_places keeps _ holds _ _ _ collected
      · exact absurd collected (mismatch_ne_ok _ _)
  cases finished : finish last with
  | none =>
    simp only [finished] at read
    cases read
  | some made =>
    simp only [finished] at read
    cases read
    exact ⟨last, kept, finished⟩

/-- A field with its own reader keeps what holds of every draft with a value in the field. -/
theorem yields_ofReader
    {name : String}
    {optional : Bool}
    {get : σ → Option β}
    {store : σ → β → σ}
    {reader : Reader β}
    {property : σ → Prop}
    {stored : β → Prop}
    {draft : σ}
    (yields : Yields reader stored)
    (keeps : ∀ value, stored value → property (store draft value)) :
    Yields ((Field.ofReader name optional get store reader).read draft) property := by
  intro bytes value rest read
  simp only [Field.ofReader] at read
  cases result : reader bytes with
  | error cause =>
    rw [result] at read
    cases read
  | ok pair =>
    rw [result] at read
    cases read
    exact keeps _ (yields _ _ _ result)

theorem document_yields
    {reader : Reader α}
    {property : α → Prop}
    (yields : Yields reader property)
    {bytes : List UInt8}
    {value : α}
    (read : document reader bytes = .ok value) :
    property value := by
  unfold document at read
  obtain ⟨⟨made, rest⟩, isMade, read⟩ := bind_eq_ok_iff.1 read
  simp only at read
  split at read
  · cases read
    exact yields _ _ _ isMade
  · cases read

end Json

end GradientMerge
