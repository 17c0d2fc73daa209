import GradientMerge.Proofs.NetworkOutline
import GradientMerge.Store.Model

/-!
Contract: the shapes of a description as sums of words.

Owns:
- what the check of a description tells of its layers and rates;
- when the sums of words are those of all numbers, and what a program that checks them gives;
- the descriptions none of whose sums is beyond a word;
- the networks that a program of words builds: just those of such descriptions;
- the models with such a network, and the weights that a model takes.

Does not own: where models come from.
-/

namespace GradientMerge

open Outcome

variable {overflow : Overflow}

theorem Overflow.sum?_of_le {left right : Nat} (fits : left + right ≤ wordLimit) :
    overflow.sum? left right = some (left + right) :=
  if_pos fits

theorem Overflow.eq_of_sum?_checked
    {left right sum : Nat}
    (summed : Overflow.checked.sum? left right = some sum) :
    sum = left + right := by
  unfold sum? at summed
  split at summed
  · exact (Option.some.inj summed).symm
  · cases summed

namespace NetworkSpec

theorem transitionsIn_eq_ok
    {bias : Nat}
    {layers : List LayerSpec}
    (words : ∀ layer ∈ layers, layer.size + bias ≤ wordLimit) :
    transitionsIn overflow bias layers = .ok (transitionShapes bias layers) := by
  induction layers with
  | nil => rfl
  | cons source layers inductionHypothesis =>
    cases layers with
    | nil => rfl
    | cons target layers =>
      obtain ⟨sourceFits, othersFit⟩ := List.forall_mem_cons.1 words
      rw [transitionsIn, Overflow.sum?_of_le sourceFits, inductionHypothesis othersFit]
      rfl

theorem eq_of_transitionsIn_checked
    {bias : Nat}
    {layers : List LayerSpec}
    {shapes : List (Nat × Nat)}
    (counted : transitionsIn .checked bias layers = .ok shapes) :
    shapes = transitionShapes bias layers := by
  induction layers generalizing shapes with
  | nil =>
    cases counted
    rfl
  | cons source layers inductionHypothesis =>
    cases layers with
    | nil =>
      cases counted
      rfl
    | cons target layers =>
      rw [transitionsIn] at counted
      split at counted
      · cases counted
      · rename_i width summed
        obtain ⟨others, areOthers, joined⟩ := bind_eq_ok_iff.1 counted
        cases joined
        rw [Overflow.eq_of_sum?_checked summed, inductionHypothesis areOthers, transitionShapes]

/-- Where sums are checked, they are those of all numbers. -/
theorem eq_of_shapesIn_checked
    {α : Type}
    {spec : NetworkSpec α}
    {shapes : List (Nat × Nat)}
    (counted : spec.shapesIn .checked = .ok shapes) :
    shapes = spec.shapes :=
  eq_of_transitionsIn_checked counted

/-- Every layer of a network is at one end of a transition. -/
theorem exists_transition
    {bias : Nat}
    {layers : List LayerSpec}
    (several : 2 ≤ layers.length) :
    ∀ layer ∈ layers, ∃ shape ∈ transitionShapes bias layers,
      layer.size ≤ shape.1 ∨ layer.size ≤ shape.2 := by
  induction layers with
  | nil => simp at several
  | cons source layers inductionHypothesis =>
    cases layers with
    | nil => simp at several
    | cons target layers =>
      intro layer member
      rw [transitionShapes]
      rcases List.mem_cons.1 member with rfl | isLater
      · exact ⟨_, List.mem_cons_self, .inr (Nat.le_add_right _ _)⟩
      · cases layers with
        | nil =>
          obtain rfl := List.mem_singleton.1 isLater
          exact ⟨_, List.mem_cons_self, .inl (Nat.le_refl _)⟩
        | cons next layers =>
          obtain ⟨shape, isShape, within⟩ := inductionHypothesis (by simp) layer isLater
          exact ⟨shape, List.mem_cons_of_mem _ isShape, within⟩

/-- A description that can be trained has finite rates and at least two layers. -/
theorem finite_of_check
    {spec : NetworkSpec Single}
    (checked : spec.check = .ok ()) :
    2 ≤ spec.layers.length ∧ spec.learningRate.isFinite ∧ spec.momentum.isFinite ∧
      spec.regularization.isFinite := by
  obtain ⟨⟨⟩, layers, rates⟩ := bind_eq_ok_iff.1 checked
  unfold checkLayers at layers
  split at layers
  · cases layers
  rename_i several
  unfold checkRates at rates
  split at rates
  · cases rates
  rename_i learningRate
  split at rates
  · cases rates
  rename_i others
  simp only [not_or, Decidable.not_not] at learningRate others
  exact ⟨Nat.not_lt.1 several, learningRate.1, others.1, others.2.1⟩

theorem biasUnits_le_one {α : Type} (spec : NetworkSpec α) : spec.biasUnits ≤ 1 := by
  unfold biasUnits
  split <;> decide

/-- Whether a word holds the number of units of every layer, with a bias unit. -/
def FitsWords {α : Type} (spec : NetworkSpec α) : Prop :=
  ∀ layer ∈ spec.layers, layer.size + spec.biasUnits ≤ wordLimit

theorem FitsWords.shapesIn_eq_ok
    {α : Type}
    {spec : NetworkSpec α}
    (fits : spec.FitsWords) :
    spec.shapesIn overflow = .ok spec.shapes :=
  transitionsIn_eq_ok fits

theorem checkWidths_eq_ok_iff {α : Type} {spec : NetworkSpec α} :
    spec.checkWidths = .ok () ↔ spec.FitsWords := by
  unfold checkWidths FitsWords
  cases found : spec.layers.find? fun layer => wordLimit < layer.size + spec.biasUnits with
  | some layer =>
    have tooMany : wordLimit < layer.size + spec.biasUnits := by simpa using List.find?_some found
    refine iff_of_false nofun fun fits => ?_
    exact Nat.not_le.2 tooMany (fits layer (List.mem_of_find?_eq_some found))
  | none => simpa using found

end NetworkSpec

namespace Network

variable {spec : NetworkSpec Single} {weights : Family Single} {masks : Generator}

/-- A program of words builds the networks of the descriptions that can be trained and none of whose
sums is beyond a word, with weights of their shapes. -/
theorem build_eq_ok_iff {network : Network Single} :
    build overflow spec weights masks = .ok network ↔
      (spec.check = .ok () ∧ weights.shapes = spec.shapes ∧ spec.FitsWords) ∧
        network = assemble spec weights masks := by
  constructor
  · intro built
    obtain ⟨⟨⟩, checked, built⟩ := bind_eq_ok_iff.1 built
    obtain ⟨shapes, counted, built⟩ := bind_eq_ok_iff.1 built
    obtain ⟨⟨⟩, fits, built⟩ := bind_eq_ok_iff.1 built
    obtain ⟨⟨⟩, widths, made⟩ := bind_eq_ok_iff.1 built
    have inWords := NetworkSpec.checkWidths_eq_ok_iff.1 (mapError_eq_ok_iff.1 widths)
    rw [inWords.shapesIn_eq_ok] at counted
    cases counted
    cases made
    exact ⟨⟨checked, Family.check_eq_ok_iff.1 fits, inWords⟩, rfl⟩
  · rintro ⟨⟨checked, fits, inWords⟩, rfl⟩
    unfold build
    rw [checked, ok_bind, inWords.shapesIn_eq_ok, mapError_ok, ok_bind,
      Family.check_eq_ok_iff.2 fits, ok_bind, NetworkSpec.checkWidths_eq_ok_iff.2 inWords,
      mapError_ok, ok_bind]
    rfl

/-- Where there are no words, the same networks can be built. -/
theorem ofSpec_of_build
    {network : Network Single}
    (built : build overflow spec weights masks = .ok network) :
    ofSpec spec weights masks = .ok network := by
  obtain ⟨⟨checked, fits, -⟩, rfl⟩ := build_eq_ok_iff.1 built
  exact ofSpec_eq_ok checked fits masks

/-- It ends where it gives weights the shapes of the description, but cannot have that many units. -/
theorem build_of_not_fitsWords
    (checked : spec.check = .ok ())
    (counted : spec.shapesIn overflow = .ok weights.shapes)
    (beyond : ¬ spec.FitsWords) :
    ∃ cause, build overflow spec weights masks = .error (.misfit cause) := by
  rw [← NetworkSpec.checkWidths_eq_ok_iff] at beyond
  cases widths : spec.checkWidths with
  | ok done => exact absurd widths beyond
  | error cause =>
    refine ⟨cause, ?_⟩
    unfold build
    rw [checked, ok_bind, counted, mapError_ok, ok_bind, Family.check_eq_ok_iff.2 rfl, ok_bind,
      widths]
    rfl

end Network

namespace Model

variable {model : Model} {weights : Family Single}

/-- Whether the network of a model can be built. -/
structure IsBuildable (model : Model) : Prop where
  checked : model.spec.check = .ok ()
  shapes : model.weights.shapes = model.spec.shapes
  words : model.spec.FitsWords

theorem network_eq_ok_iff {masks : Generator} {network : Network Single} :
    model.network overflow masks = .ok network ↔
      model.IsBuildable ∧ network = .assemble model.spec model.weights masks := by
  unfold Model.network
  rw [Network.build_eq_ok_iff]
  refine and_congr_left' ⟨?_, ?_⟩
  · exact fun ⟨checked, shapes, words⟩ => ⟨checked, shapes, words⟩
  · exact fun ⟨checked, shapes, words⟩ => ⟨checked, shapes, words⟩

/-- Weights are replaced where they have the shapes that are counted, and otherwise nothing is. -/
theorem setWeights_cases (overflow : Overflow) (model : Model) (weights : Family Single) :
    (∃ cause, model.setWeights overflow weights = (.error cause, model)) ∨
      model.spec.shapesIn overflow = .ok weights.shapes ∧
        model.setWeights overflow weights = (.ok (), { model with weights := weights }) := by
  unfold setWeights
  cases counted : model.spec.shapesIn overflow with
  | error cause => exact .inl ⟨_, rfl⟩
  | ok shapes =>
    simp only
    cases fits : weights.check shapes with
    | error cause => exact .inl ⟨_, rfl⟩
    | ok done =>
      rw [Family.check_eq_ok_iff.1 fits]
      exact .inr ⟨rfl, rfl⟩

theorem setWeights_of_counted (counted : model.spec.shapesIn overflow = .ok weights.shapes) :
    model.setWeights overflow weights = (.ok (), { model with weights := weights }) := by
  rcases model.setWeights_cases overflow weights with ⟨cause, refused⟩ | ⟨-, replaced⟩
  · unfold setWeights at refused
    simp only [counted, Family.check_eq_ok_iff.2] at refused
    cases refused
  · exact replaced

/-- A model with a network takes all weights of the shapes of its own. -/
theorem IsBuildable.setWeights
    (buildable : model.IsBuildable)
    (same : weights.shapes = model.weights.shapes) :
    model.setWeights overflow weights = (.ok (), { model with weights := weights }) := by
  apply setWeights_of_counted
  rw [buildable.words.shapesIn_eq_ok, same, buildable.shapes]

end Model

end GradientMerge
