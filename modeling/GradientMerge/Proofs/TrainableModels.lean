import GradientMerge.Proofs.ModelCalls
import GradientMerge.Proofs.NetworkCalls
import GradientMerge.Proofs.PeerSteps
import GradientMerge.Proofs.RunShapes

/-!
Contract: every model that can come to be at hand can be trained.

Owns:
- the workers with a network of a description, whatever they have done;
- the services that start from the weights of a model, whatever they were asked for;
- what every model can be used for: its network can be built, a service takes the requests of every
  worker with such a network, and the model takes the weights of the service.

Does not own: what a training makes of the weights.
-/

namespace GradientMerge

open Outcome

/-! ### Workers -/

/-- However a network that was built is used, it keeps the outline of its description. -/
theorem Network.outline_answerAll
    {overflow : Overflow}
    {spec : NetworkSpec Single}
    {weights : Family Single}
    {masks : Generator}
    {network : Network Single}
    (built : build overflow spec weights masks = .ok network)
    (uses : List (NetworkCall Single)) :
    (network.answerAll uses).2.HasOutline ∧ (network.answerAll uses).2.spec = spec := by
  obtain ⟨frames, rfl⟩ := hasFrames_of_ofSpec (ofSpec_of_build built)
  obtain ⟨laterFrames, laterSpec⟩ := frames.answerAll uses
  exact ⟨laterFrames.outline, laterSpec⟩

namespace Accumulator

/-- Workers whose network was built from a description and used in any way before they got it. Since
then they have asked for merges and taken any answers. -/
inductive ArisesFrom (overflow : Overflow) (spec : NetworkSpec Single)
    (partition : Partition Single) : Accumulator Single → Prop
  | started {weights : Family Single} {masks : Generator} {network : Network Single}
      (built : Network.build overflow spec weights masks = .ok network)
      (uses : List (NetworkCall Single))
      (batchSize : Nat) :
      ArisesFrom overflow spec partition
        { network := (network.answerAll uses).2
          reader := .ofPartition partition
          batchSize := batchSize }
  | asked {worker : Accumulator Single}
      (arises : ArisesFrom overflow spec partition worker) :
      ArisesFrom overflow spec partition worker.request.2
  | answered {worker : Accumulator Single}
      (arises : ArisesFrom overflow spec partition worker)
      (answer : MergeMessage Single) :
      ArisesFrom overflow spec partition (worker.install answer).2

variable {overflow : Overflow} {spec : NetworkSpec Single} {partition : Partition Single}
variable {worker : Accumulator Single}

theorem ArisesFrom.shapes (arises : worker.ArisesFrom overflow spec partition) :
    worker.network.weights.shapes = spec.shapes ∧
      worker.network.previous.shapes = spec.shapes := by
  induction arises with
  | started built uses batchSize =>
    obtain ⟨outline, isSpec⟩ := Network.outline_answerAll built uses
    rw [← isSpec]
    exact ⟨outline.weights, outline.previous⟩
  | @asked before arises inductionHypothesis =>
    obtain ⟨agrees, -⟩ := before.request_cases
    rwa [agrees.weights, agrees.previous]
  | @answered before arises answer inductionHypothesis =>
    obtain ⟨weights, previous⟩ := before.shapes_install answer
    rwa [weights, previous]

theorem ArisesFrom.isFit
    (arises : worker.ArisesFrom overflow spec partition)
    (nonempty : 0 < partition.rowCount)
    (width : partition.dataset.width = spec.inputSize + spec.outputSize) :
    worker.IsFit spec := by
  induction arises with
  | started built uses batchSize =>
    obtain ⟨outline, isSpec⟩ := Network.outline_answerAll built uses
    have hasRead := InstanceReader.hasRead_ofPartition partition
    exact ⟨outline, isSpec, nonempty, width, ⟨0, hasRead⟩⟩
  | asked arises inductionHypothesis =>
    obtain ⟨request, after, requested, -, -, afterFit⟩ := inductionHypothesis.exists_request
    rw [requested]
    exact afterFit
  | answered arises answer inductionHypothesis => exact inductionHypothesis.of_install answer

end Accumulator

/-! ### What a model can be used for -/

theorem MergeService.isFit_mergeAll
    (weights : Family Single)
    (workerCount : Nat)
    (policy : StoppingPolicy Float)
    (past : List (MergeMessage Single)) :
    ((ofWeights weights workerCount policy).mergeAll past).IsFit weights.shapes := by
  obtain ⟨wellShaped, sameShapes⟩ :=
    wellShaped_mergeAll (wellShaped_ofWeights weights workerCount policy) past
  exact ⟨wellShaped, sameShapes⟩

/-- The service that a master offers keeps the shapes of its model, whatever it is asked for. -/
theorem Coordinator.shapes_merged
    (coordinator : Coordinator)
    (past : List (MergeMessage Single)) :
    (coordinator.service.mergeAll past).weights.shapes = coordinator.model.weights.shapes := by
  have fit := MergeService.isFit_mergeAll coordinator.model.weights (coordinator.peer.count - 1)
    coordinator.policy past
  exact fit.wellShaped.weights.trans fit.isShapes

namespace Model

/-- What a model can be used for if it is to be trained, and what becomes of it when it is given
other weights. -/
structure IsTrainable (overflow : Overflow) (model : Model) : Prop where
  checked : model.spec.check = .ok ()
  shapes : model.weights.shapes = model.spec.shapes
  /-- There is room for the updates applied last, with which a service begins. -/
  room : Family.checkRoom model.spec.shapes = .ok ()
  /-- The network can be built, wherever its masks come from. -/
  network : ∀ masks,
    model.network overflow masks = .ok (.assemble model.spec model.weights masks)
  /-- A worker with a network of this description and with fitting instances can ask for merges. -/
  asks : ∀ partition worker, Accumulator.ArisesFrom overflow model.spec partition worker →
    0 < partition.rowCount →
    partition.dataset.width = model.spec.inputSize + model.spec.outputSize →
    ∃ request after, worker.request = (.ok request, after)
  /-- A service that started from the weights takes all that such a worker asks for, whatever it was
  asked for before. -/
  merges : ∀ partition worker, Accumulator.ArisesFrom overflow model.spec partition worker →
    ∀ request, worker.request.1 = .ok request →
    ∀ workerCount policy past, ∃ after : MergeService Single Float,
      ((MergeService.ofWeights model.weights workerCount policy).mergeAll past).merge request =
        (.ok after.response, after)
  /-- A master's model takes the weights of its service, so that only the files can keep it from
  being stored. -/
  stores : ∀ coordinator : Coordinator, coordinator.model = model → ∀ past files,
    let merged : Model := { model with weights := (coordinator.service.mergeAll past).weights }
    model.setWeights overflow merged.weights = (.ok (), merged) ∧
      coordinator.persist overflow merged.weights files =
        (.written merged (merged.persist files).1, { coordinator with model := merged },
          (merged.persist files).2)
  takes : ∀ weights, weights.shapes = model.spec.shapes →
    model.setWeights overflow weights = (.ok (), { model with weights := weights })
  /-- The model is as it was after weights of other shapes. -/
  refuses : ∀ weights, weights.shapes ≠ model.spec.shapes →
    ∃ cause, model.setWeights overflow weights = (.error cause, model)

variable {overflow : Overflow} {model : Model}

theorem setWeights_of_misfit
    {weights : Family Single}
    (misfit : model.spec.shapesIn overflow ≠ .ok weights.shapes) :
    ∃ cause, model.setWeights overflow weights = (.error cause, model) := by
  rcases model.setWeights_cases overflow weights with refused | ⟨fits, -⟩
  · exact refused
  · exact absurd fits misfit

namespace IsSound

/-- The shapes of the weights are those of the description where no sum is beyond a word. -/
theorem shapes_of_fitsWords
    (sound : model.IsSound overflow)
    (words : model.spec.FitsWords) :
    model.weights.shapes = model.spec.shapes :=
  Except.ok.inj (sound.counted.symm.trans words.shapesIn_eq_ok)

theorem isTrainable
    (sound : model.IsSound overflow)
    (words : model.spec.FitsWords) :
    model.IsTrainable overflow where
  checked := sound.checked
  shapes := sound.shapes_of_fitsWords words
  room := by
    rw [← sound.shapes_of_fitsWords words]
    exact Family.checkRoom_eq_ok_iff.2 sound.addressable
  network masks :=
    network_eq_ok_iff.2 ⟨⟨sound.checked, sound.shapes_of_fitsWords words, words⟩, rfl⟩
  asks := by
    intro partition worker arises nonempty width
    obtain ⟨request, after, requested, -⟩ := (arises.isFit nonempty width).exists_request
    exact ⟨request, after, requested⟩
  merges := by
    intro partition worker arises request requested workerCount policy past
    obtain ⟨weights, previous⟩ := arises.shapes
    obtain ⟨-, requestShapes⟩ := worker.request_cases
    obtain ⟨matricesFit, previousFits⟩ := requestShapes request requested
    have serviceFit := MergeService.isFit_mergeAll model.weights workerCount policy past
    rw [sound.shapes_of_fitsWords words] at serviceFit
    obtain ⟨after, merged, -⟩ :=
      serviceFit.exists_merge (matricesFit.trans weights) (previousFits.trans previous)
    exact ⟨after, merged⟩
  stores := by
    rintro coordinator rfl past files
    have counted := sound.counted
    rw [← coordinator.shapes_merged past] at counted
    have accepted := setWeights_of_counted counted
    exact ⟨accepted, Coordinator.persist_of_setWeights accepted files⟩
  takes weights fits := by
    apply setWeights_of_counted
    rw [words.shapesIn_eq_ok, fits]
  refuses weights misfit := by
    apply setWeights_of_misfit
    rw [words.shapesIn_eq_ok]
    exact fun same => misfit (Except.ok.inj same).symm

end IsSound

/-- A model whose network can be built has as many units as words count. -/
theorem IsTrainable.fitsWords
    (trainable : model.IsTrainable overflow) :
    model.spec.FitsWords :=
  (network_eq_ok_iff.1 (trainable.network (.ofSeed 0))).1.words

end Model

/-! ### Any calls -/

namespace ModelCall

variable {overflow : Overflow}

/-- Whatever calls load, make and change models, from files of any content and any descriptions and
seeds: the model at hand has weights of the shapes that are counted, and a call that fails leaves it
in place. It can be trained if a word holds the number of units of every layer with a bias unit.
Where sums are checked that is always so; where they wrap, the program ends when it builds the
network of any other model. -/
theorem answerAll_isTrainable
    {calls : List ModelCall}
    {model : Model}
    (isCurrent : (answerAll overflow none calls).2 = some model) :
    (model.spec.check = .ok () ∧ model.spec.shapesIn overflow = .ok model.weights.shapes) ∧
      (overflow = .checked → model.spec.FitsWords) ∧
      (model.spec.FitsWords ↔ model.IsTrainable overflow) ∧
      (¬ model.spec.FitsWords → ∀ masks, ∃ cause,
        model.network overflow masks = .error (.misfit cause)) ∧
      ∀ call failure, (answer overflow (some model) call).1 = .error failure →
        (answer overflow (some model) call).2 = some model := by
  have atFirst : ∀ model ∈ (none : Option Model), model.IsSound overflow :=
    fun _ isModel => absurd isModel (Option.not_mem_none _)
  have sound := isSound_of_answerAll atFirst calls model isCurrent
  refine ⟨⟨sound.checked, sound.counted⟩, ?_, ⟨sound.isTrainable, Model.IsTrainable.fitsWords⟩, ?_,
    fun _ _ failed => answer_of_error failed⟩
  · rintro rfl
    exact sound.fitsWords
  · exact fun beyond masks => Network.build_of_not_fitsWords sound.checked sound.counted beyond

/-- Calls that make a model, load another one and give it other weights, and one of each kind that
fails: there is no model yet, the weights do not fit, there is no file. -/
def chainCalls (files : Files) : List ModelCall :=
  [ .setWeights [],
    .loadOrInit {} "m.json" (some Model.chainSpec) (some 1) (.ofSeed 2),
    .load files "m.json",
    .setWeights [],
    .load {} "m.json",
    .setWeights [.constant 1 1 ⟨0x7f800000⟩] ]

theorem answerAll_chainCalls
    {files : Files}
    (persisted : (Model.chain 1).persist {} = (.ok (), files)) :
    (answerAll .checked none (chainCalls files)).2 = some (Model.chain ⟨0x7f800000⟩) := by
  obtain ⟨model, made, changed⟩ := Model.arises_chain 1
  have arises : Model.Arises .checked (Model.chain 1) :=
    .changed (.initial (fun impossible => nomatch impossible) made) changed
  have loaded : Model.load .checked files "m.json" = .ok (Model.chain 1) :=
    arises.isSound.load_of_finite arises.countsWords persisted (by decide)
  have missing : Model.load .checked {} "m.json" = .error (.io (Files.unusable "m.json")) := by
    unfold Model.load Files.read
    rw [Model.locate?_chain]
    rfl
  have opened : Model.loadOrInit .checked {} "m.json" (some Model.chainSpec)
      (.ofSeed? (.ofSeed 2) (some 1)) = .ok model := made
  simp only [chainCalls, answerAll_cons, answer, opened, loaded, missing, take]
  rfl

theorem answerAll_isTrainable_of_chainCalls :
    ∃ files, (Model.chain 1).persist {} = (.ok (), files) ∧
      let model := Model.chain ⟨0x7f800000⟩
      (answerAll .checked none (chainCalls files)).2 = some model ∧ model.IsTrainable .checked ∧
        ∀ call failure, (answer .checked (some model) call).1 = .error failure →
          (answer .checked (some model) call).2 = some model := by
  obtain ⟨files, persisted⟩ := Model.exists_persist Model.chainSpec [.constant 1 1 1]
  have isCurrent := answerAll_chainCalls persisted
  obtain ⟨-, words, trainable, -, kept⟩ := answerAll_isTrainable isCurrent
  exact ⟨files, persisted, isCurrent, trainable.1 (words rfl), kept⟩

/-! ### A layer of as many units as words count -/

/-- A network whose first layer has, with its bias unit, one unit more than words count. -/
def fullSpec : NetworkSpec Single :=
  { layers := [⟨wordLimit, .standard, .identity⟩, ⟨1, .standard, .identity⟩]
    learningRate := ⟨0x3dcccccd⟩
    momentum := 0
    regularization := 0 }

/-- The model of this network with the weights that it has where sums wrap: none. -/
def full : Model := ⟨"m.json", fullSpec, [.constant 1 0 0]⟩

theorem isSound_full : full.IsSound .wrapping where
  checked := rfl
  counted := rfl
  addressable := by
    intro shape isShape
    obtain rfl := List.mem_singleton.1 isShape
    rfl

theorem not_fitsWords_full : ¬ full.spec.FitsWords := by
  intro fits
  have first : wordLimit + 1 ≤ wordLimit := fits _ List.mem_cons_self
  exact absurd first (Nat.not_succ_le_self _)

theorem ofContent_full :
    ModelRecord.ofContent (ModelRecord.content ⟨full.spec, full.weights⟩) =
      .ok ⟨full.spec, full.weights⟩ := by
  have words : full.spec.CountsWords := by
    intro layer member
    rcases List.mem_cons.1 member with rfl | isOther
    · exact Nat.le_refl _
    · obtain rfl := List.mem_singleton.1 isOther
      decide
  exact ofContent_eq_ok (isSound_full.isStorable words) (by decide)

/-- There is a file with a network and no weights that is a model where sums wrap; the program ends
when it builds the network of it. Where sums are checked, it ends when it loads the file. -/
theorem not_always_isTrainable :
    ∃ files, (answerAll .wrapping none [.load files "m.json"]).2 = some full ∧
      (∀ masks, ∃ cause, full.network .wrapping masks = .error (.misfit cause)) ∧
      ¬ full.IsTrainable .wrapping ∧
      answer .checked none (.load files "m.json") =
        (.error (.fault (.beyondWord wordLimit 1)), none) := by
  obtain ⟨files, persisted⟩ := Model.exists_persist full.spec full.weights
  have isContent := Model.read_of_persist persisted
  have loads (overflow : Overflow) : Model.load overflow files "m.json" =
      Model.ofRecord overflow "m.json" ⟨full.spec, full.weights⟩ := by
    unfold Model.load
    rw [show files.read "m.json" = _ from isContent, mapError_ok, ok_bind, ofContent_full,
      mapError_ok, ok_bind]
  refine ⟨files, ?_, ?_, ?_, ?_⟩
  · simp only [answerAll, answer, loads]
    rfl
  · exact fun masks => Network.build_of_not_fitsWords isSound_full.checked isSound_full.counted
      not_fitsWords_full
  · exact fun trainable => not_fitsWords_full trainable.fitsWords
  · simp only [answer, loads]
    rfl

end ModelCall

end GradientMerge
