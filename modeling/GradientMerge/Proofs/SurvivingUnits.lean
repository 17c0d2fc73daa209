import GradientMerge.Proofs.MaskDraws

/-!
Contract: the units of a layer that were not dropped, and what is left of layers and matrices without
the others.

Owns:
- the places of the units that stay;
- sums over places, where dropped units add nothing;
- the part of a matrix in some rows and columns, and a layer without its dropped units.

Does not own: what the units compute.
-/

namespace GradientMerge

variable {α : Type}

/-! ### Places that stay -/

section Sums

variable [AddCommMonoid α]

theorem sum_getD (places : List Nat) (term : Nat → α) :
    ∑ index ∈ Finset.range places.length, term (places.getD index 0) = (places.map term).sum := by
  conv_rhs => rw [← map_getD_range places, List.map_map]
  rfl

theorem sum_map_filter
    {places : List Nat}
    {stays : Nat → Bool}
    {term : Nat → α}
    (nothing : ∀ place ∈ places, stays place = false → term place = 0) :
    ((places.filter stays).map term).sum = (places.map term).sum := by
  induction places with
  | nil => rfl
  | cons place places inductionHypothesis =>
    obtain ⟨first, others⟩ := List.forall_mem_cons.1 nothing
    cases kept : stays place with
    | true =>
      rw [List.filter_cons_of_pos kept, List.map_cons, List.map_cons, List.sum_cons, List.sum_cons,
        inductionHypothesis others]
    | false =>
      rw [List.filter_cons_of_neg (by rw [kept]; exact Bool.false_ne_true), List.map_cons,
        List.sum_cons, first kept, zero_add, inductionHypothesis others]

/-- A sum loses nothing with the terms that are zero. -/
theorem sum_range_filter
    {count : Nat}
    {stays : Nat → Bool}
    {term : Nat → α}
    (nothing : ∀ place < count, stays place = false → term place = 0) :
    ∑ index ∈ Finset.range ((List.range count).filter stays).length,
        term (((List.range count).filter stays).getD index 0) =
      ∑ place ∈ Finset.range count, term place := by
  rw [sum_getD, sum_map_filter fun place member => nothing place (List.mem_range.1 member)]
  rfl

end Sums

namespace Layer

variable {bias : Nat}

/-- Whether there is no dropped unit at a place. -/
def keepsAt (layer : Layer α) (place : Nat) : Bool :=
  ! layer.neurons[place]?.any Neuron.isDropped

/-- The places of the units that stay, from the first one on. -/
def survivors (layer : Layer α) : List Nat := (List.range layer.width).filter layer.keepsAt

/-- The places of the units that stay, counted behind the bias units. -/
def survivorsBehind (bias : Nat) (layer : Layer α) : List Nat :=
  (List.range (layer.width - bias)).filter fun place => layer.keepsAt (bias + place)

theorem keepsAt_of_neuron
    {layer : Layer α}
    {place : Nat}
    {neuron : Neuron α}
    (isNeuron : layer.neurons[place]? = some neuron) :
    layer.keepsAt place = ! neuron.isDropped := by
  rw [keepsAt, isNeuron]
  rfl

/-- Bias units that stay come first among the units that do. -/
theorem survivors_eq
    {layer : Layer α}
    (biasFits : bias ≤ layer.width)
    (biasStays : ∀ place < bias, layer.keepsAt place = true) :
    layer.survivors = List.range bias ++ (layer.survivorsBehind bias).map (bias + ·) := by
  have counted : layer.width = bias + (layer.width - bias) := (Nat.add_sub_cancel' biasFits).symm
  have biasKept : (List.range bias).filter layer.keepsAt = List.range bias :=
    List.filter_eq_self.2 fun place member => biasStays place (List.mem_range.1 member)
  rw [survivors, counted, List.range_add, List.filter_append, biasKept, List.filter_map]
  rfl

theorem getD_survivors
    {layer : Layer α}
    {index : Nat}
    (inSurvivors : index < layer.survivors.length) :
    layer.survivors.getD index 0 < layer.width ∧
      layer.keepsAt (layer.survivors.getD index 0) = true := by
  rw [List.getD_eq_getElem _ _ inSurvivors]
  have member := List.mem_filter.1 (List.getElem_mem inSurvivors)
  exact ⟨List.mem_range.1 member.1, member.2⟩

theorem getD_survivorsBehind
    {layer : Layer α}
    {index : Nat}
    (inSurvivors : index < (layer.survivorsBehind bias).length) :
    (layer.survivorsBehind bias).getD index 0 < layer.width - bias ∧
      layer.keepsAt (bias + (layer.survivorsBehind bias).getD index 0) = true := by
  rw [List.getD_eq_getElem _ _ inSurvivors]
  have member := List.mem_filter.1 (List.getElem_mem inSurvivors)
  exact ⟨List.mem_range.1 member.1, member.2⟩

theorem survivorsBehind_ne_nil
    {layer : Layer α}
    (keeps : ∃ unit ∈ layer.neurons.drop bias, unit.isDropped = false) :
    layer.survivorsBehind bias ≠ [] := by
  obtain ⟨unit, member, stays⟩ := keeps
  obtain ⟨row, isUnit⟩ := List.mem_iff_getElem?.1 member
  obtain ⟨inDropped, -⟩ := List.getElem?_eq_some_iff.1 isUnit
  rw [List.getElem?_drop] at isUnit
  rw [List.length_drop] at inDropped
  apply List.ne_nil_of_mem (a := row)
  refine List.mem_filter.2 ⟨List.mem_range.2 inDropped, ?_⟩
  rw [keepsAt_of_neuron isUnit, stays]
  rfl

/-- Whether the bias units of a layer stay, and the outputs of dropped units are zero. -/
structure IsSettled [Zero α] (bias : Nat) (layer : Layer α) : Prop where
  biasFits : bias ≤ layer.width
  biasStays : ∀ place < bias, layer.keepsAt place = true
  dropped : ∀ place, layer.keepsAt place = false → layer.outputs.getD place 0 = 0

section Settled

variable [Zero α] {layer : Layer α}

theorem IsSettled.length_survivors (settled : layer.IsSettled bias) :
    layer.survivors.length = bias + (layer.survivorsBehind bias).length := by
  rw [survivors_eq settled.biasFits settled.biasStays, List.length_append, List.length_range,
    List.length_map]

theorem IsSettled.getD_survivors_of_lt
    (settled : layer.IsSettled bias)
    {place : Nat}
    (isBias : place < bias) :
    layer.survivors.getD place 0 = place := by
  have inFront : place < (List.range bias).length := by rwa [List.length_range]
  rw [survivors_eq settled.biasFits settled.biasStays, List.getD_append _ _ _ _ inFront,
    List.getD_eq_getElem _ _ inFront, List.getElem_range]

theorem IsSettled.getD_survivors_add
    (settled : layer.IsSettled bias)
    {index : Nat}
    (inSurvivors : index < (layer.survivorsBehind bias).length) :
    layer.survivors.getD (bias + index) 0 = bias + (layer.survivorsBehind bias).getD index 0 := by
  have inMap : index < ((layer.survivorsBehind bias).map (bias + ·)).length := by
    rwa [List.length_map]
  rw [survivors_eq settled.biasFits settled.biasStays,
    List.getD_append_right _ _ _ _ (by rw [List.length_range]; exact Nat.le_add_right _ _),
    List.length_range, Nat.add_sub_cancel_left, List.getD_eq_getElem _ _ inMap, List.getElem_map,
    List.getD_eq_getElem _ _ inSurvivors]

/-- The bias units stay the bias units. -/
theorem IsSettled.bias_le_getD_survivors
    (settled : layer.IsSettled bias)
    {place : Nat}
    (inSurvivors : place < layer.survivors.length) :
    bias ≤ layer.survivors.getD place 0 ↔ bias ≤ place := by
  rcases Nat.lt_or_ge place bias with isBias | behind
  · rw [settled.getD_survivors_of_lt isBias]
  · obtain ⟨index, rfl⟩ := Nat.exists_eq_add_of_le behind
    rw [settled.length_survivors] at inSurvivors
    rw [settled.getD_survivors_add (Nat.lt_of_add_lt_add_left inSurvivors)]
    exact ⟨fun _ => behind, fun _ => Nat.le_add_right _ _⟩

end Settled

/-! ### Layers without dropped units -/

/-- The layer without its dropped units, where all others are standard units. -/
def thinned [Zero α] (layer : Layer α) : Layer α where
  neurons := layer.survivors.map fun place => .standard (layer.outputs.getD place 0)
  rule := layer.rule

/-- Whether no unit of a layer can be dropped. -/
def IsStandard (layer : Layer α) : Prop := ∀ neuron ∈ layer.neurons, neuron.kind = .standard

theorem IsStandard.keepsAt {layer : Layer α} (standard : layer.IsStandard) (place : Nat) :
    layer.keepsAt place = true := by
  cases isNeuron : layer.neurons[place]? with
  | none =>
    rw [Layer.keepsAt, isNeuron]
    rfl
  | some neuron =>
    have kind := standard neuron (List.mem_of_getElem? isNeuron)
    rw [keepsAt_of_neuron isNeuron]
    cases neuron with
    | standard output => rfl
    | dropout output dropped => cases kind

theorem IsStandard.survivors_eq {layer : Layer α} (standard : layer.IsStandard) :
    layer.survivors = List.range layer.width :=
  List.filter_eq_self.2 fun place _ => standard.keepsAt place

theorem IsStandard.survivorsBehind_eq
    {layer : Layer α}
    (standard : layer.IsStandard)
    (bias : Nat) :
    layer.survivorsBehind bias = List.range (layer.width - bias) :=
  List.filter_eq_self.2 fun place _ => standard.keepsAt (bias + place)

theorem IsStandard.neurons_eq {layer : Layer α} (standard : layer.IsStandard) :
    layer.neurons = layer.outputs.map .standard := by
  rw [outputs, List.map_map]
  refine (List.map_id' layer.neurons).symm.trans (List.map_congr_left ?_)
  intro neuron member
  have kind := standard neuron member
  cases neuron with
  | standard output => rfl
  | dropout output dropped => cases kind

section Thinned

variable [Zero α] (layer : Layer α)

theorem isStandard_thinned : layer.thinned.IsStandard := by
  intro neuron member
  obtain ⟨place, -, rfl⟩ := List.mem_map.1 member
  rfl

theorem width_thinned : layer.thinned.width = layer.survivors.length := List.length_map _

theorem getElem?_thinned {index : Nat} (inSurvivors : index < layer.survivors.length) :
    layer.thinned.neurons[index]? =
      some (.standard (layer.outputs.getD (layer.survivors.getD index 0) 0)) := by
  rw [thinned, List.getElem?_map, List.getElem?_eq_getElem inSurvivors,
    List.getD_eq_getElem _ _ inSurvivors]
  rfl

theorem getD_outputs_thinned {index : Nat} (inSurvivors : index < layer.survivors.length) :
    layer.thinned.outputs.getD index 0 = layer.outputs.getD (layer.survivors.getD index 0) 0 := by
  rw [outputs, List.getD_eq_getElem?_getD, List.getElem?_map, layer.getElem?_thinned inSurvivors]
  rfl

variable {layer}

theorem IsStandard.thinned_eq (standard : layer.IsStandard) : layer.thinned = layer := by
  have neurons : layer.thinned.neurons = layer.neurons := by
    calc layer.thinned.neurons
        = (List.range layer.width).map fun place => .standard (layer.outputs.getD place 0) := by
          rw [thinned, standard.survivors_eq]
      _ = ((List.range layer.outputs.length).map (layer.outputs.getD · 0)).map .standard := by
          rw [List.map_map, outputs, List.length_map]
          rfl
      _ = layer.neurons := by rw [map_getD_range, ← standard.neurons_eq]
  calc layer.thinned
      = { layer with neurons := layer.thinned.neurons } := rfl
    _ = layer := by rw [neurons]

end Thinned

/-- A unit that stays has the factor of a standard unit with its output. -/
theorem factorAt_thinned [CommRing α] [Elementary α]
    (layer : Layer α)
    {index : Nat}
    (inSurvivors : index < layer.survivors.length) :
    layer.thinned.factorAt index = layer.factorAt (layer.survivors.getD index 0) := by
  obtain ⟨inLayer, stays⟩ := getD_survivors inSurvivors
  have isNeuron := List.getElem?_eq_getElem inLayer
  rw [keepsAt_of_neuron isNeuron, Bool.not_eq_true'] at stays
  rw [factorAt, layer.getElem?_thinned inSurvivors, layer.factorAt_eq inLayer,
    layer.getD_outputs inLayer, Neuron.factor, stays]
  rfl

theorem factorAt_of_dropped [CommRing α] [Elementary α]
    {layer : Layer α}
    {place : Nat}
    (dropped : layer.keepsAt place = false) :
    layer.factorAt place = 0 := by
  rw [factorAt]
  cases isNeuron : layer.neurons[place]? with
  | none => rfl
  | some neuron =>
    rw [keepsAt_of_neuron isNeuron, Bool.not_eq_false'] at dropped
    rw [Option.elim_some, Neuron.factor, if_pos dropped]

end Layer

namespace Network

/-! ### Outlines of layers -/

section Outlines

variable [Zero α] [One α] {network : Network α}

theorem HasOutline.outline_eq
    (hasOutline : network.HasOutline)
    {index : Nat}
    {layer : Layer α}
    (isLayer : network.layers[index]? = some layer) :
    ∃ described, network.spec.layers[index]? = some described ∧
      layer.outline = (freshLayer network.spec (index == 0)
        (index + 1 == network.spec.layers.length) described).outline := by
  have sameOutline := congrArg (·[index]?) hasOutline.layers
  simp only [List.getElem?_map, isLayer, freshLayers, List.getElem?_mapIdx, Option.map_map,
    Option.map_some] at sameOutline
  obtain ⟨described, isDescribed, same⟩ := Option.map_eq_some_iff.1 sameOutline.symm
  exact ⟨described, isDescribed, same.symm⟩

theorem isStandard_of_outline
    {spec : NetworkSpec α}
    {isInput isOutput : Bool}
    {described : LayerSpec}
    {layer : Layer α}
    (standard : isInput = true ∨ described.unit = .standard)
    (outline : layer.outline = (freshLayer spec isInput isOutput described).outline) :
    layer.IsStandard := by
  intro neuron member
  have kinds : layer.neurons.map Neuron.kind =
      (freshLayer spec isInput isOutput described).neurons.map Neuron.kind :=
    congrArg Prod.fst outline
  have kind : neuron.kind ∈ layer.neurons.map Neuron.kind := List.mem_map_of_mem member
  rw [kinds, freshLayer, List.map_append, List.map_replicate, Neuron.kind_ofKind,
    List.mem_append] at kind
  rcases kind with ofBias | ofUnits
  · cases isOutput with
    | true => cases ofBias
    | false => exact (List.mem_replicate.1 ((List.map_replicate ..) ▸ ofBias)).2
  · rw [(List.mem_replicate.1 ofUnits).2]
    rcases standard with rfl | standard
    · rfl
    · rw [standard, ite_self]

/-- What the units of each layer have in common follows from the description. -/
theorem HasOutline.rules (hasOutline : network.HasOutline) :
    network.layers.map Layer.rule =
      (network.spec.layers.map LayerSpec.squashing).mapIdx fun index squashing =>
        { squashing := if index == 0 then .identity else squashing
          learningRate := network.spec.learningRate
          momentum := network.spec.momentum } := by
  have rules := congrArg (List.map Prod.snd) hasOutline.layers
  rw [List.map_map, List.map_map] at rules
  refine rules.trans (List.ext_getElem? fun index => ?_)
  rw [List.getElem?_map, freshLayers, List.getElem?_mapIdx, List.getElem?_mapIdx, List.getElem?_map,
    Option.map_map, Option.map_map]
  rfl

/-- The layers of a network of standard units. -/
theorem HasOutline.isStandard
    (hasOutline : network.HasOutline)
    (standard : ∀ layer ∈ network.spec.layers, layer.unit = .standard) :
    ∀ layer ∈ network.layers, layer.IsStandard := by
  intro layer member
  obtain ⟨index, isLayer⟩ := List.mem_iff_getElem?.1 member
  obtain ⟨described, isDescribed, outline⟩ := hasOutline.outline_eq isLayer
  exact isStandard_of_outline (.inr (standard described (List.mem_of_getElem? isDescribed))) outline

end Outlines

end Network

/-! ### Matrices without the rows and columns of dropped units -/

/-- The entries of a matrix in these rows and columns. -/
def Matrix.restrict [Zero α] (rows columns : List Nat) (matrix : Matrix α) : Matrix α :=
  ofFn rows.length columns.length fun row column =>
    matrix.entryAt (rows.getD row 0) (columns.getD column 0)

theorem Matrix.entryAt_restrict [Zero α]
    (matrix : Matrix α)
    {rows columns : List Nat}
    {row column : Nat}
    (rowFits : row < rows.length)
    (columnFits : column < columns.length) :
    (matrix.restrict rows columns).entryAt row column =
      matrix.entryAt (rows.getD row 0) (columns.getD column 0) :=
  entryAt_ofFn _ rowFits columnFits

/-- The weights, updates or derivatives that connect units that stay. The matrices lie between these
layers, of which only the last one has no bias unit. -/
def Family.thinned [Zero α] (bias : Nat) : List (Layer α) → Family α → Family α
  | source :: target :: layers, matrix :: family =>
    matrix.restrict (target.survivorsBehind (if layers.isEmpty then 0 else bias)) source.survivors ::
      thinned bias (target :: layers) family
  | _, _ => []

end GradientMerge
