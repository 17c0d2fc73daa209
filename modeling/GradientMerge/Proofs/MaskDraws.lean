import GradientMerge.Proofs.NetworkCalls

/-!
Contract: a pass through a network draws one mask for each of its dropout units, in the order of the
layers and of the units in them.

Owns:
- masks in a row, tosses in a row, and the dropped flags of units that were decided by them;
- the masks of units, layers and networks in a forward pass;
- the number of dropout units of a description.

Does not own: what a dropped unit computes.
-/

namespace GradientMerge

open Outcome

variable {α σ : Type}

/-- Tosses of a fair coin in a row. -/
def Generator.tosses : Nat → Generator → List Bool × Generator
  | 0, generator => ([], generator)
  | count + 1, generator =>
    let (toss, generator) := generator.nextToss
    let (others, generator) := tosses count generator
    (toss :: others, generator)

theorem Generator.tosses_succ (count : Nat) (generator : Generator) :
    tosses (count + 1) generator =
      (generator.nextToss.1 :: (tosses count generator.nextToss.2).1,
        (tosses count generator.nextToss.2).2) := rfl

theorem Generator.length_tosses (count : Nat) (generator : Generator) :
    (generator.tosses count).1.length = count := by
  induction count generalizing generator with
  | zero => rfl
  | succ count inductionHypothesis =>
    rw [tosses_succ, List.length_cons, inductionHypothesis]

/-- So many masks of a source in a row. -/
def MaskSource.draws [MaskSource σ α] : Nat → σ → List α × σ
  | 0, source => ([], source)
  | count + 1, source =>
    let (mask, source) : α × σ := MaskSource.next source
    let (others, source) : List α × σ := draws count source
    (mask :: others, source)

theorem MaskSource.draws_succ [MaskSource σ α] (count : Nat) (source : σ) :
    (draws (count + 1) source : List α × σ) =
      ((MaskSource.next source : α × σ).1 ::
          (draws count (MaskSource.next source : α × σ).2 : List α × σ).1,
        (draws count (MaskSource.next source : α × σ).2 : List α × σ).2) := rfl

theorem MaskSource.draws_add [MaskSource σ α] (first second : Nat) (source : σ) :
    (draws (first + second) source : List α × σ) =
      ((draws first source : List α × σ).1 ++
          (draws second (draws first source : List α × σ).2 : List α × σ).1,
        (draws second (draws first source : List α × σ).2 : List α × σ).2) := by
  induction first generalizing source with
  | zero => rw [Nat.zero_add]; rfl
  | succ first inductionHypothesis =>
    rw [Nat.succ_add, draws_succ, inductionHypothesis, draws_succ]
    rfl

theorem MaskSource.length_draws [MaskSource σ α] (count : Nat) (source : σ) :
    (draws count source : List α × σ).1.length = count := by
  induction count generalizing source with
  | zero => rfl
  | succ count inductionHypothesis => rw [draws_succ, List.length_cons, inductionHypothesis]

/-- Whether a unit was dropped, if it is one that can be. -/
def Neuron.dropFlag? : Neuron α → Option Bool
  | .standard _ => none
  | .dropout _ dropped => some dropped

/-- Which units were dropped, among those that can be, in their order. -/
def Layer.dropFlags (layer : Layer α) : List Bool := layer.neurons.filterMap Neuron.dropFlag?

/-- Which units were dropped, among those outside the input layer that can be, in the order of the
layers and of the units in them. -/
def Network.dropFlags (network : Network α) : List Bool := network.layers.tail.flatMap Layer.dropFlags

/-- The number of units of layers that can be dropped. -/
def LayerSpec.dropoutUnits (layers : List LayerSpec) : Nat :=
  (layers.map fun layer => if layer.unit = .dropout then layer.size else 0).sum

/-- The number of masks that a layer draws. -/
def LayerSpec.maskCount (layer : LayerSpec) : Nat := if layer.unit = .dropout then layer.size else 0

theorem LayerSpec.dropoutUnits_cons (layer : LayerSpec) (layers : List LayerSpec) :
    dropoutUnits (layer :: layers) = layer.maskCount + dropoutUnits layers := by
  unfold dropoutUnits
  rw [List.map_cons, List.sum_cons]
  rfl

/-- The number of units outside the input layer that can be dropped. -/
def NetworkSpec.dropoutUnits (spec : NetworkSpec α) : Nat := LayerSpec.dropoutUnits spec.layers.tail

/-- Whether so many tosses of a generator have decided which units are dropped, a unit for each toss in
order, and this generator is left. A unit stays if its toss succeeds. -/
structure DecidedBy (flags : List Bool) (rest : Generator) (count : Nat) (masks : Generator) :
    Prop where
  flags : flags = (masks.tosses count).1.map (! ·)
  rest : rest = (masks.tosses count).2

/-- Whether so many masks of a source have decided which units are dropped, a unit for each mask in
order, and this source is left. A unit is dropped if its mask is zero. -/
structure DrawnBy (α : Type) [Elementary α] [MaskSource σ α]
    (flags : List Bool)
    (rest : σ)
    (count : Nat)
    (masks : σ) : Prop where
  flags : flags = (MaskSource.draws count masks : List α × σ).1.map Elementary.isZero
  rest : rest = (MaskSource.draws count masks : List α × σ).2

section Draws

variable [Elementary α] [MaskSource σ α]

theorem DrawnBy.none (masks : σ) : DrawnBy α [] masks 0 masks := ⟨rfl, rfl⟩

theorem DrawnBy.append
    {flags others : List Bool}
    {masks between rest : σ}
    {count otherCount : Nat}
    (first : DrawnBy α flags between count masks)
    (later : DrawnBy α others rest otherCount between) :
    DrawnBy α (flags ++ others) rest (count + otherCount) masks := by
  obtain ⟨rfl, rfl⟩ := first
  obtain ⟨rfl, rfl⟩ := later
  constructor
  case flags => rw [MaskSource.draws_add, List.map_append]
  case rest => rw [MaskSource.draws_add]

end Draws

/-- The masks of a generator are its tosses. -/
theorem DrawnBy.decidedBy
    [Zero α] [One α] [Elementary α]
    (zeroIsZero : Elementary.isZero (0 : α) = true)
    (oneIsNotZero : Elementary.isZero (1 : α) = false)
    {flags : List Bool}
    {rest masks : Generator}
    {count : Nat}
    (drawn : DrawnBy α flags rest count masks) :
    DecidedBy flags rest count masks := by
  obtain ⟨rfl, rfl⟩ := drawn
  induction count generalizing masks with
  | zero => exact ⟨rfl, rfl⟩
  | succ count inductionHypothesis =>
    have behind : (MaskSource.next masks : α × Generator).2 = masks.nextToss.2 := rfl
    have isZero : Elementary.isZero (MaskSource.next masks : α × Generator).1 =
        ! masks.nextToss.1 := by
      change Elementary.isZero (if masks.nextToss.1 then (1 : α) else 0) = _
      cases masks.nextToss.1 with
      | true => exact oneIsNotZero
      | false => exact zeroIsZero
    obtain ⟨flags, rest⟩ := @inductionHypothesis masks.nextToss.2
    rw [MaskSource.draws_succ, List.map_cons, isZero, behind]
    constructor
    case flags => rw [Generator.tosses_succ, List.map_cons, flags]
    case rest => rw [Generator.tosses_succ, rest]

/-! ### Layers of a description -/

section Descriptions

variable [Zero α] [One α]

omit [One α] in
theorem Neuron.kind_ofKind (kind : UnitKind) : (ofKind kind : Neuron α).kind = kind := by
  cases kind with
  | standard | dropout => rfl

theorem Network.neurons_freshLayer (spec : NetworkSpec α) (isOutput : Bool) (layer : LayerSpec) :
    (freshLayer spec false isOutput layer).neurons =
      List.replicate (if isOutput then 0 else spec.biasUnits) (.standard 1) ++
        List.replicate layer.size (Neuron.ofKind layer.unit) := by
  cases isOutput with
  | true | false => rfl

/-- Whether the bias units of a layer are constants, and all others are what its description says. -/
structure Layer.IsDescribedBy (layer : Layer α) (bias : Nat) (described : LayerSpec) : Prop where
  biasUnits : layer.neurons.take bias = List.replicate bias (.standard 1)
  kinds : (layer.neurons.drop bias).map Neuron.kind = List.replicate described.size described.unit
  squashing : layer.rule.squashing = described.squashing

omit [Zero α] in
theorem Layer.IsDescribedBy.dropoutCount
    {layer : Layer α}
    {bias : Nat}
    {described : LayerSpec}
    (isDescribed : layer.IsDescribedBy bias described) :
    ((layer.neurons.drop bias).map Neuron.kind).count .dropout = described.maskCount := by
  rw [isDescribed.kinds, List.count_replicate, LayerSpec.maskCount]
  simp only [beq_iff_eq]

theorem Layer.isDescribedBy_of_frame
    {spec : NetworkSpec α}
    {isOutput : Bool}
    {described : LayerSpec}
    {layer : Layer α}
    {bias : Nat}
    (isBias : bias = if isOutput then 0 else spec.biasUnits)
    (sameFrame : layer.frame bias = (Network.freshLayer spec false isOutput described).frame bias) :
    layer.IsDescribedBy bias described := by
  obtain ⟨sameBias, sameKinds, sameRule⟩ := frame_eq_iff.1 sameFrame
  rw [Network.neurons_freshLayer, ← isBias] at sameBias sameKinds
  rw [List.take_left' List.length_replicate] at sameBias
  constructor
  case biasUnits => exact sameBias
  case kinds =>
    rw [List.map_drop, sameKinds, ← List.map_drop, List.drop_left' List.length_replicate,
      List.map_replicate, Neuron.kind_ofKind]
  case squashing =>
    rw [sameRule]
    rfl

/-- The first one of layers with the frames that a description calls for, and the others. -/
theorem Network.isDescribedBy_of_frames
    {spec : NetworkSpec α}
    {ofLayer : LayerSpec}
    {described : List LayerSpec}
    {layer : Layer α}
    {layers : List (Layer α)}
    (sameFrames : frames spec.biasUnits (layer :: layers) =
      frames spec.biasUnits (laterLayers spec (ofLayer :: described))) :
    layer.IsDescribedBy (if layers.isEmpty then 0 else spec.biasUnits) ofLayer ∧
      layers.isEmpty = described.isEmpty ∧
      frames spec.biasUnits layers = frames spec.biasUnits (laterLayers spec described) := by
  obtain ⟨sameFrame, laterFrames⟩ := List.cons.inj sameFrames
  have ends : (laterLayers spec described).isEmpty = described.isEmpty := by
    cases described with
    | nil | cons next described => rfl
  have sameEmpty : layers.isEmpty = described.isEmpty := (isEmpty_of_frames laterFrames).trans ends
  rw [ends, ← sameEmpty] at sameFrame
  refine ⟨Layer.isDescribedBy_of_frame ?_ sameFrame, sameEmpty, laterFrames⟩
  rw [sameEmpty]

end Descriptions

theorem Layer.dropoutCount_cons (neuron : Neuron α) (neurons : List (Neuron α)) :
    ((neuron :: neurons).map Neuron.kind).count .dropout =
      (if neuron.kind = .dropout then 1 else 0) + (neurons.map Neuron.kind).count .dropout := by
  rw [List.map_cons, List.count_cons, Nat.add_comm]
  simp only [beq_iff_eq]

/-! ### Forward passes -/

section Forward

variable [Zero α] [Add α] [Mul α] [Elementary α] [MaskSource σ α]

theorem Neuron.drawnBy_of_forward
    {rule : LayerRule α}
    {weights input : List α}
    {neuron after : Neuron α}
    {masks rest : σ}
    (forwarded : neuron.forward rule weights input masks = .ok (after, rest)) :
    DrawnBy α after.dropFlag?.toList rest (if neuron.kind = .dropout then 1 else 0) masks := by
  cases neuron with
  | standard before =>
    obtain ⟨output, -, finished⟩ := bind_eq_ok_iff.1 forwarded
    cases finished
    exact .none masks
  | dropout before dropped =>
    have one : (MaskSource.draws 1 masks : List α × σ) =
        ([(MaskSource.next masks : α × σ).1], (MaskSource.next masks : α × σ).2) := rfl
    unfold forward at forwarded
    dsimp only at forwarded
    rw [if_pos (show (dropout before dropped).kind = .dropout from rfl)]
    cases isZero : Elementary.isZero (MaskSource.next masks : α × σ).1 with
    | true =>
      rw [isZero, if_pos rfl] at forwarded
      cases forwarded
      constructor
      case flags =>
        rw [one, List.map_singleton, isZero]
        rfl
      case rest => rw [one]
    | false =>
      rw [isZero, if_neg Bool.false_ne_true] at forwarded
      obtain ⟨output, -, finished⟩ := bind_eq_ok_iff.1 forwarded
      cases finished
      constructor
      case flags =>
        rw [one, List.map_singleton, isZero]
        rfl
      case rest => rw [one]

theorem Layer.drawnBy_of_forwardUnits
    {rule : LayerRule α}
    {weights : Matrix α}
    {input : List α}
    {index : Nat}
    {neurons after : List (Neuron α)}
    {masks rest : σ}
    (forwarded : forwardUnits rule weights input index neurons masks = .ok (after, rest)) :
    DrawnBy α (after.filterMap Neuron.dropFlag?) rest ((neurons.map Neuron.kind).count .dropout)
      masks := by
  induction neurons generalizing index masks after with
  | nil =>
    cases forwarded
    exact .none _
  | cons neuron neurons inductionHypothesis =>
    obtain ⟨row, -, forwarded⟩ := bind_eq_ok_iff.1 forwarded
    obtain ⟨⟨first, drawn⟩, ofFirst, forwarded⟩ := bind_eq_ok_iff.1 forwarded
    obtain ⟨⟨others, last⟩, ofOthers, finished⟩ := bind_eq_ok_iff.1 forwarded
    cases finished
    have decided := (Neuron.drawnBy_of_forward ofFirst).append (inductionHypothesis ofOthers)
    have flags : (first :: others).filterMap Neuron.dropFlag? =
        first.dropFlag?.toList ++ others.filterMap Neuron.dropFlag? := by
      cases first with
      | standard output | dropout output dropped => rfl
    rw [Layer.dropoutCount_cons, flags]
    exact decided

/-- A layer whose bias units are constants. -/
theorem Layer.drawnBy_of_forward [One α]
    {bias : Nat}
    {weights : Matrix α}
    {input : List α}
    {layer after : Layer α}
    {masks rest : σ}
    (biasUnits : layer.neurons.take bias = List.replicate bias (.standard 1))
    (forwarded : layer.forward bias weights input masks = .ok (after, rest)) :
    DrawnBy α after.dropFlags rest (((layer.neurons.drop bias).map Neuron.kind).count .dropout)
      masks := by
  obtain ⟨⟨others, last⟩, ofOthers, finished⟩ := bind_eq_ok_iff.1 forwarded
  cases finished
  have decided := drawnBy_of_forwardUnits ofOthers
  rw [dropFlags, List.filterMap_append, biasUnits, List.filterMap_replicate_of_none rfl,
    List.nil_append]
  exact decided

variable [One α]

/-- Layers with the frames of the unused ones that a description calls for. -/
theorem Network.drawnBy_of_forwardLayers
    {spec : NetworkSpec α}
    {described : List LayerSpec}
    {input : List α}
    {layers after : List (Layer α)}
    (sameFrames : frames spec.biasUnits layers = frames spec.biasUnits (laterLayers spec described))
    {family : Family α}
    (longEnough : layers.length ≤ family.length)
    {masks rest : σ}
    (forwarded : forwardLayers spec.biasUnits input layers family masks = .ok (after, rest)) :
    DrawnBy α (after.flatMap Layer.dropFlags) rest (LayerSpec.dropoutUnits described) masks := by
  induction described generalizing input layers after family masks with
  | nil =>
    cases layers with
    | cons layer layers => cases sameFrames
    | nil =>
      cases forwarded
      exact .none _
  | cons ofLayer described inductionHypothesis =>
    cases layers with
    | nil => cases sameFrames
    | cons layer layers =>
      cases family with
      | nil => cases longEnough
      | cons weights family =>
        obtain ⟨⟨first, drawn⟩, ofFirst, forwarded⟩ := bind_eq_ok_iff.1 forwarded
        obtain ⟨⟨others, last⟩, ofOthers, finished⟩ := bind_eq_ok_iff.1 forwarded
        cases finished
        obtain ⟨isDescribed, -, laterFrames⟩ := isDescribedBy_of_frames sameFrames
        have later := inductionHypothesis laterFrames (Nat.le_of_succ_le_succ longEnough) ofOthers
        have decided := Layer.drawnBy_of_forward isDescribed.biasUnits ofFirst
        rw [isDescribed.dropoutCount] at decided
        rw [LayerSpec.dropoutUnits_cons]
        exact decided.append later

/-- The forward pass of a network as its description makes it. -/
theorem Network.HasFrames.drawnBy_of_forward
    {network : Network α}
    (hasFrames : network.HasFrames)
    {features : List α}
    {layers : List (Layer α)}
    {masks rest : σ}
    (forwarded : network.forward features masks = .ok (layers, rest)) :
    DrawnBy α (layers.tail.flatMap Layer.dropFlags) rest network.spec.dropoutUnits masks := by
  obtain ⟨input, others, layered⟩ := hasFrames.outline.layered
  obtain ⟨first, second, behind, described⟩ := NetworkSpec.exists_layers hasFrames.outline.checked
  have sameFrames := hasFrames.frames
  rw [layered.layers, freshLayers_eq described] at sameFrames
  have longEnough : others.length ≤ network.weights.length := by
    have sameLength := layered.chained.length_eq
    rw [List.length_map, Family.length_shapes] at sameLength
    exact Nat.le_of_eq sameLength
  unfold forward at forwarded
  rw [layered.layers] at forwarded
  obtain ⟨⟨moved, last⟩, ofOthers, finished⟩ := bind_eq_ok_iff.1 forwarded
  cases finished
  rw [NetworkSpec.dropoutUnits, described, List.tail_cons, List.tail_cons]
  exact drawnBy_of_forwardLayers (List.cons.inj sameFrames).2 longEnough ofOthers

/-- With a generator as its source a pass tosses a coin for each mask. -/
theorem Network.HasFrames.decidedBy_of_forward
    {network : Network α}
    (hasFrames : network.HasFrames)
    (zeroIsZero : Elementary.isZero (0 : α) = true)
    (oneIsNotZero : Elementary.isZero (1 : α) = false)
    {features : List α}
    {layers : List (Layer α)}
    {masks rest : Generator}
    (forwarded : network.forward features masks = .ok (layers, rest)) :
    DecidedBy (layers.tail.flatMap Layer.dropFlags) rest network.spec.dropoutUnits masks :=
  (hasFrames.drawnBy_of_forward forwarded).decidedBy zeroIsZero oneIsNotZero

end Forward

end GradientMerge
