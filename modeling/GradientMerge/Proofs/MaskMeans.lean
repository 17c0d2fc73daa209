import GradientMerge.Proofs.DropoutTraining
import GradientMerge.Proofs.MaskedPasses
import Mathlib.Algebra.BigOperators.Expect
import Mathlib.Logic.Equiv.Bool
import Mathlib.Logic.Equiv.Fin.Basic

/-!
Contract: a prediction is the mean of the outputs while training, over all masks, in exact arithmetic.

The mask of predictions is the mean of a single mask. The mean passes on through the layers behind
because these are linear: every layer behind one whose units can be dropped hands its sums on as they
are. The masks of different layers are independent, so that the mean over all of them is a mean of
means.

Owns:
- means over all ways to keep some units and drop the others;
- the means of the outputs of a layer, by its masks and by the outputs in front of it;
- the mean of the outputs behind layers in a row, by induction on the layers.

Does not own: the sums of single units.
-/

namespace GradientMerge

open scoped BigOperators

variable {α : Type} [Field α] [CharZero α]

/-! ### Means over masks -/

namespace GivenMasks

/-- The masks of units that are kept or dropped. -/
def values (kept : List Bool) : List α := kept.map fun isKept => if isKept then 1 else 0

/-- The mean over all ways to keep some of so many units and drop the others. -/
def mean (count : Nat) (value : List Bool → α) : α := 𝔼 kept : Fin count → Bool, value (List.ofFn kept)

theorem exists_ofFn_eq
    {count : Nat}
    {kept : List Bool}
    (length : kept.length = count) :
    ∃ units : Fin count → Bool, List.ofFn units = kept := by
  subst length
  exact ⟨kept.get, List.ofFn_get kept⟩

theorem mean_congr
    {count : Nat}
    {value other : List Bool → α}
    (same : ∀ kept : List Bool, kept.length = count → value kept = other kept) :
    mean count value = mean count other :=
  Finset.expect_congr rfl fun kept _ => same (List.ofFn kept) List.length_ofFn

theorem mean_mul (count : Nat) (value : List Bool → α) (factor : α) :
    mean count value * factor = mean count fun kept => value kept * factor :=
  Finset.expect_mul _ _ _

theorem mul_mean (count : Nat) (factor : α) (value : List Bool → α) :
    factor * mean count value = mean count fun kept => factor * value kept :=
  Finset.mul_expect _ _ _

theorem sum_mean (count : Nat) (places : Finset Nat) (value : List Bool → Nat → α) :
    ∑ place ∈ places, mean count (fun kept => value kept place) =
      mean count fun kept => ∑ place ∈ places, value kept place :=
  (Finset.expect_sum_comm _ _ _).symm

theorem mean_const (count : Nat) (value : α) : mean count (fun _ => value) = value :=
  Fintype.expect_const value

theorem mean_zero (value : List Bool → α) : mean 0 value = value [] := by
  rw [← mean_const 0 (value [])]
  apply mean_congr
  intro kept none
  rw [List.length_eq_zero_iff.1 none]

theorem mean_eq_sum_div (count : Nat) (value : List Bool → α) :
    mean count value = (∑ kept : Fin count → Bool, value (List.ofFn kept)) / 2 ^ count := by
  rw [mean, Fintype.expect_eq_sum_div_card, Fintype.card_fun, Fintype.card_bool, Fintype.card_fin,
    Nat.cast_pow, Nat.cast_ofNat]

/-- Units in front and units behind are kept independently. -/
theorem mean_add (front behind : Nat) (value : List Bool → α) :
    mean (front + behind) value =
      mean front fun kept => mean behind fun others => value (kept ++ others) := by
  unfold mean
  rw [← Finset.expect_product', Finset.univ_product_univ]
  refine (Fintype.expect_equiv (Fin.appendEquiv front behind) _ _ fun kept => ?_).symm
  dsimp only
  rw [← List.ofFn_fin_append]
  rfl

/-- A unit is kept as often as it is dropped. -/
theorem expect_isKept {count : Nat} (unit : Fin count) :
    𝔼 kept : Fin count → Bool, (if kept unit then (1 : α) else 0) = inferenceMask := by
  -- Every way to keep units has a counterpart, which keeps just the others.
  have flipped : 𝔼 kept : Fin count → Bool, (if kept unit then (1 : α) else 0) =
      𝔼 kept : Fin count → Bool, (if kept unit then (0 : α) else 1) := by
    refine Fintype.expect_equiv (Equiv.piCongrRight fun _ => Equiv.boolNot) _ _ fun kept => ?_
    change _ = if (! kept unit) = true then (0 : α) else 1
    cases kept unit with
    | true | false => rfl
  have eitherWay (kept : Fin count → Bool) :
      (if kept unit then (1 : α) else 0) + (if kept unit then (0 : α) else 1) = 1 := by
    split
    · exact add_zero 1
    · exact zero_add 1
  have nonzero : (1 + 1 : α) ≠ 0 := by
    rw [one_add_one_eq_two]
    exact two_ne_zero
  apply eq_div_of_mul_eq nonzero
  calc (𝔼 kept : Fin count → Bool, (if kept unit then (1 : α) else 0)) * (1 + 1)
      = (𝔼 kept : Fin count → Bool, (if kept unit then (1 : α) else 0)) +
          𝔼 kept : Fin count → Bool, (if kept unit then (0 : α) else 1) := by
        rw [mul_add, mul_one, ← flipped]
    _ = 𝔼 _kept : Fin count → Bool, (1 : α) := by
        rw [← Finset.expect_add_distrib]
        exact Finset.expect_congr rfl fun kept _ => eitherWay kept
    _ = 1 := Fintype.expect_const 1

/-- The mean of the mask of a unit is the mask of predictions; behind the last unit there is none. -/
theorem mean_values (count place : Nat) :
    mean count (fun kept => (values kept).getD place (1 : α)) =
      (List.replicate count inferenceMask).getD place 1 := by
  unfold mean values
  rcases Nat.lt_or_ge place count with isUnit | outside
  · rw [List.getD_replicate _ isUnit, ← expect_isKept ⟨place, isUnit⟩]
    apply Finset.expect_congr rfl
    intro kept _
    dsimp only
    rw [List.map_ofFn, List.getD_eq_getElem _ _ (by rwa [List.length_ofFn]), List.getElem_ofFn]
    rfl
  · rw [List.getD_eq_default _ _ (by rwa [List.length_replicate])]
    refine Eq.trans (Finset.expect_congr rfl fun kept _ => ?_) (mean_const count 1)
    apply List.getD_eq_default
    rwa [List.length_map, List.length_ofFn]

omit [CharZero α] in
theorem values_append (kept others : List Bool) :
    (values (kept ++ others) : List α) = values kept ++ values others :=
  List.map_append

omit [CharZero α] in
theorem length_values (kept : List Bool) : (values kept : List α).length = kept.length :=
  List.length_map _

end GivenMasks

/-! ### Means of outputs -/

namespace LayerSpec

open GivenMasks

variable [Elementary α]

/-- The mean of the outputs of a layer over its masks. -/
theorem mean_valueAt
    (layer : LayerSpec)
    (bias : Nat)
    (weights : Matrix α)
    (source : Nat → α)
    (count place : Nat) :
    mean count (fun kept => layer.valueAt bias weights source (values kept) place) =
      layer.valueAt bias weights source (List.replicate count inferenceMask) place := by
  unfold valueAt
  by_cases isBias : place < bias
  · simp only [if_pos isBias]
    exact mean_const count 1
  by_cases isUnit : place < bias + weights.rows
  · simp only [if_neg isBias, if_pos isUnit]
    rw [← mul_mean, mean_values]
  · simp only [if_neg isBias, if_neg isUnit]
    exact mean_const count 0

variable (identity : ∀ x : α, Elementary.squash .identity x = x)
include identity

/-- The mean of the outputs of a layer that hands its sums on as they are, over anything that the
outputs in front of it depend on. -/
theorem valueAt_mean
    {layer : LayerSpec}
    (linear : layer.squashing = .identity)
    (bias : Nat)
    (weights : Matrix α)
    (count : Nat)
    (sources : List Bool → Nat → α)
    (masks : List α) :
    layer.valueAt bias weights (fun column => mean count fun kept => sources kept column) masks =
      fun place => mean count fun kept => layer.valueAt bias weights (sources kept) masks place := by
  funext place
  unfold valueAt
  rw [linear]
  by_cases isBias : place < bias
  · simp only [if_pos isBias]
    exact (mean_const count 1).symm
  by_cases isUnit : place < bias + weights.rows
  · simp only [if_neg isBias, if_pos isUnit, identity, mul_mean]
    rw [sum_mean, mean_mul]
  · simp only [if_neg isBias, if_neg isUnit]
    exact (mean_const count 0).symm

theorem valuesBehind_mean
    {layers : List LayerSpec}
    (linear : ∀ layer ∈ layers, layer.squashing = .identity)
    (bias : Nat)
    (family : Family α)
    (count : Nat)
    (sources : List Bool → Nat → α)
    (masks : List α) :
    valuesBehind bias layers family (fun column => mean count fun kept => sources kept column)
        masks =
      fun place => mean count fun kept => valuesBehind bias layers family (sources kept) masks place := by
  induction layers generalizing family sources masks with
  | nil => rfl
  | cons layer layers inductionHypothesis =>
    cases family with
    | nil => rfl
    | cons weights family =>
      rw [List.forall_mem_cons] at linear
      simp only [valuesBehind]
      rw [valueAt_mean identity linear.1]
      exact inductionHypothesis linear.2 family _ _

/-- The mean of the outputs behind layers over all masks is what they put out with the mask of
predictions, if every layer behind one that draws masks hands its sums on as they are. -/
theorem mean_valuesBehind
    {layers : List LayerSpec}
    (linearBehind : layers.Pairwise fun earlier later =>
      earlier.unit = .dropout → later.squashing = .identity)
    (bias : Nat)
    (family : Family α)
    (source : Nat → α)
    (place : Nat) :
    mean (dropoutUnits layers)
        (fun kept => valuesBehind bias layers family source (values kept) place) =
      valuesBehind bias layers family source
        (List.replicate (dropoutUnits layers) inferenceMask) place := by
  -- The induction is on the layers for all outputs in front of them, because those of the first layer
  -- depend on its masks.
  induction layers generalizing family source with
  | nil => exact mean_const _ _
  | cons layer layers inductionHypothesis =>
    cases family with
    | nil => exact mean_const _ _
    | cons weights family =>
      obtain ⟨linear, laterLinear⟩ := List.pairwise_cons.1 linearBehind
      let outputs : List α → Nat → α :=
        layer.valueAt (if layers.isEmpty then 0 else bias) weights source
      let halves (count : Nat) : List α := List.replicate count inferenceMask
      calc mean (dropoutUnits (layer :: layers)) (fun kept =>
            valuesBehind bias (layer :: layers) (weights :: family) source (values kept) place)
          = mean layer.maskCount fun kept => mean (dropoutUnits layers) fun others =>
              valuesBehind bias layers family (outputs (values kept)) (values others) place := by
            rw [dropoutUnits_cons, mean_add]
            apply mean_congr
            intro kept length
            have count : (values kept : List α).length = layer.maskCount :=
              (length_values kept).trans length
            simp only [values_append, valuesBehind_append _ _ _ _ _ count]
            rfl
        _ = mean layer.maskCount fun kept =>
              valuesBehind bias layers family (outputs (values kept)) (halves (dropoutUnits layers))
                place :=
            mean_congr fun kept _ => inductionHypothesis laterLinear family (outputs (values kept))
        _ = valuesBehind bias layers family
              (fun column => mean layer.maskCount fun kept => outputs (values kept) column)
              (halves (dropoutUnits layers)) place := by
            -- Only behind a layer that draws masks must the others be linear; without masks there is
            -- nothing to take a mean of.
            by_cases draws : layer.unit = .dropout
            · rw [valuesBehind_mean identity (fun later member => linear later member draws)]
            · have noMasks : layer.maskCount = 0 := if_neg draws
              rw [noMasks, mean_zero]
              simp only [mean_zero]
        _ = valuesBehind bias layers family (outputs (halves layer.maskCount))
              (halves (dropoutUnits layers)) place := by
            have means : (fun column => mean layer.maskCount fun kept => outputs (values kept) column) =
                outputs (halves layer.maskCount) :=
              funext (layer.mean_valueAt _ weights source layer.maskCount)
            rw [means]
        _ = valuesBehind bias (layer :: layers) (weights :: family) source
              (halves (dropoutUnits (layer :: layers))) place := by
            have split : halves (dropoutUnits (layer :: layers)) =
                halves layer.maskCount ++ halves (dropoutUnits layers) := by
              rw [dropoutUnits_cons]
              exact List.replicate_add _ _ _
            rw [split, valuesBehind_append _ _ _ _ _ List.length_replicate]

end LayerSpec

/-! ### Sources of masks -/

namespace MaskSource

omit [CharZero α] in
theorem draws_given (kept : List Bool) :
    (draws kept.length (⟨kept⟩ : GivenMasks) : List α × GivenMasks) = (GivenMasks.values kept, ⟨[]⟩) := by
  induction kept with
  | nil => rfl
  | cons first others inductionHypothesis =>
    rw [List.length_cons, draws_succ]
    change (_ :: (draws others.length (⟨others⟩ : GivenMasks) : List α × GivenMasks).1,
      (draws others.length (⟨others⟩ : GivenMasks) : List α × GivenMasks).2) = _
    rw [inductionHypothesis]
    rfl

omit [CharZero α] in
theorem draws_generator (count : Nat) (generator : Generator) :
    (draws count generator : List α × Generator) =
      (GivenMasks.values (generator.tosses count).1, (generator.tosses count).2) := by
  induction count generalizing generator with
  | zero => rfl
  | succ count inductionHypothesis =>
    have behind : (next generator : α × Generator).2 = generator.nextToss.2 := rfl
    rw [draws_succ, behind, inductionHypothesis]
    rfl

omit [Field α] [CharZero α] in
theorem draws_constant (count : Nat) (mask : α) :
    (draws count (⟨mask⟩ : ConstantMask α) : List α × ConstantMask α) =
      (List.replicate count mask, ⟨mask⟩) := by
  induction count with
  | zero => rfl
  | succ count inductionHypothesis =>
    have behind : (next (⟨mask⟩ : ConstantMask α) : α × ConstantMask α).2 = ⟨mask⟩ := rfl
    rw [draws_succ, behind, inductionHypothesis]
    rfl

end MaskSource

namespace Network

variable [Elementary α]

/-- What a network puts out with the mask of predictions is the mean of what it puts out with all
masks. -/
theorem outputsUnder_inferenceMask
    (identity : ∀ x : α, Elementary.squash .identity x = x)
    {network : Network α}
    (linearBehind : network.spec.layers.tail.Pairwise fun earlier later =>
      earlier.unit = .dropout → later.squashing = .identity)
    (features : List α) :
    let count := network.spec.dropoutUnits
    network.outputsUnder features (List.replicate count inferenceMask) =
      (List.range network.spec.outputSize).map fun place =>
        (∑ kept : Fin count → Bool, (network.outputsUnder features
          (GivenMasks.values (List.ofFn kept))).getD place 0) / 2 ^ count := by
  intro count
  apply List.map_congr_left
  intro place member
  have isOutput : place < network.spec.outputSize := List.mem_range.1 member
  have isMean := LayerSpec.mean_valuesBehind identity linearBehind network.spec.biasUnits
    network.weights (network.fedOutputs features) place
  rw [GivenMasks.mean_eq_sum_div] at isMean
  simp only [getD_outputsUnder isOutput]
  exact isMean.symm

/-- A prediction is the mean, over all ways to keep some of the units that can be dropped, of what
a training pass puts out for the same features with these units kept. This is so if every layer behind
one that has such units hands its sums on as they are; the layers up to there may squash them in any
way. The training passes are those with the masks given in advance, and a pass whose masks are the tosses
of a generator is one of them. Predicting in place does the same. -/
theorem predict_isMeanOverMasks
    (knowsZero : ∀ x : α, Elementary.isZero x ↔ x = 0)
    (identity : ∀ x : α, Elementary.squash .identity x = x)
    {network : Network α}
    (arises : network.Arises)
    (linearBehind : network.spec.layers.tail.Pairwise fun earlier later =>
      earlier.unit = .dropout → later.squashing = .identity)
    {features : List α}
    (fits : features.length = network.spec.inputSize) :
    let count := network.spec.dropoutUnits
    ∃ (trained : (Fin count → Bool) → List α) (after : Network α),
      (∀ kept, (trained kept).length = network.spec.outputSize ∧
        ∃ layers, network.forward features (⟨List.ofFn kept⟩ : GivenMasks) = .ok (layers, ⟨[]⟩) ∧
          lastOutputs layers = trained kept) ∧
      (∀ generator : Generator, ∃ kept layers, List.ofFn kept = (generator.tosses count).1 ∧
        network.forward features generator = .ok (layers, (generator.tosses count).2) ∧
        lastOutputs layers = trained kept) ∧
      network.predict features = .ok
        ((List.range network.spec.outputSize).map fun place =>
          (∑ kept, (trained kept).getD place 0) / 2 ^ count, after) ∧
      network.predictInPlace features =
        (.ok ((List.range network.spec.outputSize).map fun place =>
          (∑ kept, (trained kept).getD place 0) / 2 ^ count), after) := by
  intro count
  have hasFrames := arises.hasFrames
  obtain ⟨predicted, rest, forwarded, isPrediction, -⟩ := hasFrames.exists_predict fits
  have isMean : network.predict features = .ok
      ((List.range network.spec.outputSize).map fun place =>
        (∑ kept : Fin count → Bool, (network.outputsUnder features
          (GivenMasks.values (List.ofFn kept))).getD place 0) / 2 ^ count,
        { network with layers := predicted }) := by
    obtain ⟨layers, passed, isOutput⟩ :=
      hasFrames.exists_forward knowsZero features (⟨inferenceMask⟩ : ConstantMask α)
    obtain rfl : predicted = layers := by
      rw [forwarded] at passed
      exact congrArg Prod.fst (Except.ok.inj passed)
    rw [isPrediction, isOutput, MaskSource.draws_constant,
      outputsUnder_inferenceMask identity linearBehind]
  refine ⟨fun kept => network.outputsUnder features (GivenMasks.values (List.ofFn kept)),
    { network with layers := predicted }, ?given, ?tossed, isMean, ?inPlace⟩
  case given =>
    intro kept
    have drawn := MaskSource.draws_given (α := α) (List.ofFn kept)
    rw [List.length_ofFn] at drawn
    obtain ⟨layers, passed, isOutput⟩ :=
      hasFrames.exists_forward knowsZero features (⟨List.ofFn kept⟩ : GivenMasks)
    rw [drawn] at passed isOutput
    exact ⟨network.length_outputsUnder _ _, layers, passed, isOutput⟩
  case tossed =>
    intro generator
    obtain ⟨kept, isKept⟩ := GivenMasks.exists_ofFn_eq (Generator.length_tosses count generator)
    obtain ⟨layers, passed, isOutput⟩ := hasFrames.exists_forward knowsZero features generator
    rw [MaskSource.draws_generator] at passed isOutput
    refine ⟨kept, layers, isKept, passed, ?_⟩
    dsimp only
    rw [isKept]
    exact isOutput
  case inPlace =>
    rw [hasFrames.outline.predictInPlace_eq, isMean]
    rfl

/-- A feature, two units that are dropped or rectified, and an output that is dropped or a sum, with
bias units. -/
def droppedSumSpec : NetworkSpec ℚ where
  layers := [⟨1, .standard, .identity⟩, ⟨2, .dropout, .relu⟩, ⟨1, .dropout, .identity⟩]
  learningRate := 1 / 2
  momentum := 1 / 4
  regularization := 1 / 8

/-- With weights of one the mean over the eight ways to drop units is three halves. -/
theorem predict_isMeanOverMasks_of_droppedSumSpec :
    let network : Network ℚ :=
      assemble droppedSumSpec [.constant 2 2 1, .constant 1 3 1] (Generator.ofSeed 0)
    network.Arises ∧
      (network.spec.layers.tail.Pairwise fun earlier later =>
        earlier.unit = .dropout → later.squashing = .identity) ∧
      ∃ trained : (Fin 3 → Bool) → List ℚ,
        (∀ kept, ∃ layers,
          network.forward [1] (⟨List.ofFn kept⟩ : GivenMasks) = .ok (layers, ⟨[]⟩) ∧
            lastOutputs layers = trained kept) ∧
        (∑ kept, (trained kept).getD 0 0) / 2 ^ 3 = 3 / 2 := by
  intro network
  have arises : network.Arises := .built (by rfl) (by rfl)
  have knowsZero : ∀ number : ℚ, Elementary.isZero number ↔ number = 0 :=
    fun number => decide_eq_true_iff
  have identity : ∀ number : ℚ, Elementary.squash .identity number = number := fun number => rfl
  have linearBehind : network.spec.layers.tail.Pairwise fun earlier later =>
      earlier.unit = .dropout → later.squashing = .identity := by
    decide
  obtain ⟨trained, after, given, -, isMean, -⟩ :=
    predict_isMeanOverMasks knowsZero identity arises linearBehind (show [1].length = 1 from rfl)
  have predicted : (network.predict [1]).map Prod.fst = .ok [3 / 2] := by decide +kernel
  rw [isMean] at predicted
  have sameMean := List.head_eq_of_cons_eq (Except.ok.inj predicted)
  exact ⟨arises, linearBehind, trained, fun kept => (given kept).2, sameMean⟩

end Network

end GradientMerge
