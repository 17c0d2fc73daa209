import GradientMerge.Proofs.FamilyShapes
import GradientMerge.Proofs.JsonResults
import GradientMerge.Proofs.StoredFiles
import GradientMerge.Proofs.StoredNumbers
import GradientMerge.Proofs.WordShapes
import GradientMerge.Store.Model

/-!
Contract: models that are stored and loaded again.

Owns:
- the models that come from files, from descriptions and from accepted weights, and what holds of
  all of them;
- what a model is loaded as after it was stored: itself if all weights are finite, and nothing
  otherwise.

Does not own: the text of numbers.
-/

namespace GradientMerge

open Json Outcome

/-! ### Shapes -/

/-- Whether matrices of these shapes can be addressed. -/
def AreAddressable (shapes : List (Nat × Nat)) : Prop :=
  ∀ shape ∈ shapes, Matrix.isAddressable shape

theorem le_of_isAddressable
    {shape : Nat × Nat}
    (addressable : Matrix.isAddressable shape) :
    shape.1 ≤ addressLimit ∧ shape.2 ≤ addressLimit := by
  simp only [Matrix.isAddressable, hasRoom, Bool.and_eq_true, decide_eq_true_eq, Nat.one_mul]
    at addressable
  have rows : 0 < max 1 shape.1 := by omega
  have columns : 0 < max 1 shape.2 := by omega
  have left := Nat.le_mul_of_pos_right (max 1 shape.1) columns
  have right := Nat.le_mul_of_pos_left (max 1 shape.2) rows
  omega

theorem Family.shapes_random (shapes : List (Nat × Nat)) (generator : Generator) :
    (Family.random shapes generator).1.shapes = shapes := by
  induction shapes generalizing generator with
  | nil => rfl
  | cons shape shapes inductionHypothesis =>
    simp only [Family.random, Family.shapes, List.map_cons]
    exact congrArg _ (inductionHypothesis _)

/-- There is room for just the shapes that can be addressed. -/
theorem Family.checkRoom_eq_ok_iff {shapes : List (Nat × Nat)} :
    Family.checkRoom shapes = .ok () ↔ AreAddressable shapes := by
  unfold Family.checkRoom AreAddressable
  cases found : shapes.find? fun shape => ! Matrix.isAddressable shape with
  | some shape =>
    have tooLarge : Matrix.isAddressable shape = false := by simpa using List.find?_some found
    refine iff_of_false (by simp) fun addressable => ?_
    simp [addressable shape (List.mem_of_find?_eq_some found)] at tooLarge
  | none => simpa using found

/-- Weights that could be drawn have the shapes that were asked for, which can be addressed. -/
theorem Family.shapes_of_draw
    {shapes : List (Nat × Nat)}
    {generator after : Generator}
    {weights : Family Single}
    (drawn : Family.draw shapes generator = .ok (weights, after)) :
    weights.shapes = shapes ∧ AreAddressable shapes := by
  unfold Family.draw at drawn
  cases room : Family.checkRoom shapes with
  | error cause =>
    rw [room] at drawn
    cases drawn
  | ok fits =>
    rw [room] at drawn
    have isRandom : Family.random shapes generator = (weights, after) := Except.ok.inj drawn
    have randomShapes := Family.shapes_random shapes generator
    rw [isRandom] at randomShapes
    exact ⟨randomShapes, Family.checkRoom_eq_ok_iff.1 room⟩

/-! ### Models -/

/-- A matrix that was read can be addressed. -/
theorem yields_matrix : Yields Matrix.read fun matrix => Matrix.isAddressable matrix.shape := by
  have keeps : Keeps Matrix.fields fun _ => True := fun field _ draft _ bytes value rest _ => trivial
  intro bytes matrix rest read
  obtain ⟨last, -, finished⟩ := yields_record keeps trivial bytes matrix rest read
  simp only [Matrix.ofDraft?, Option.bind_eq_bind, Option.bind_eq_some_iff] at finished
  obtain ⟨version, -, ⟨rows, columns⟩, -, entries, -, made⟩ := finished
  split at made
  · rename_i addressable
    unfold Matrix.ofEntries? at made
    split at made
    · cases made
      exact addressable
    · cases made
  · cases made

/-- Whether the number of units of every layer is a word. -/
def NetworkSpec.CountsWords {α : Type} (spec : NetworkSpec α) : Prop :=
  ∀ layer ∈ spec.layers, layer.size ≤ wordLimit

theorem NetworkSpec.FitsWords.countsWords
    {α : Type}
    {spec : NetworkSpec α}
    (fits : spec.FitsWords) :
    spec.CountsWords :=
  fun layer member => Nat.le_trans (Nat.le_add_right _ _) (fits layer member)

theorem yields_layer : Yields LayerSpec.read fun layer => layer.size ≤ wordLimit := by
  have keeps : Keeps LayerSpec.fields fun draft => ∀ size, draft.size = some size →
      size ≤ wordLimit := by
    intro field member draft holds
    simp only [LayerSpec.fields, List.mem_cons, List.not_mem_nil, or_false] at member
    rcases member with rfl | rfl | rfl
    · refine yields_ofReader (yields_wholeNumber 0 wordLimit) ?_
      rintro size ⟨-, within⟩ _ ⟨⟩
      exact within
    · have anything : Yields UnitKind.read fun _ => True := fun _ _ _ _ => trivial
      exact yields_ofReader anything fun _ _ => holds
    · have anything : Yields Squashing.read fun _ => True := fun _ _ _ _ => trivial
      exact yields_ofReader anything fun _ _ => holds
  have atFirst (size : Nat) (impossible : ({} : LayerSpec.Draft).size = some size) :
      size ≤ wordLimit := by cases impossible
  intro bytes layer rest read
  obtain ⟨last, holds, finished⟩ := yields_record keeps atFirst bytes layer rest read
  obtain ⟨size, isSize, rfl⟩ := Option.map_eq_some_iff.1 finished
  exact holds size isSize

theorem yields_spec : Yields NetworkSpec.read NetworkSpec.CountsWords := by
  have keeps : Keeps NetworkSpec.fields fun draft => ∀ layers, draft.layers = some layers →
      ∀ layer ∈ layers, layer.size ≤ wordLimit := by
    intro field member draft holds
    have others {β : Type} (reader : Json.Reader β) : Yields reader fun _ => True :=
      fun _ _ _ _ => trivial
    simp only [NetworkSpec.fields, List.mem_cons, List.not_mem_nil, or_false] at member
    rcases member with rfl | rfl | rfl | rfl | rfl | rfl
    · refine yields_ofReader (yields_list yields_layer) ?_
      rintro layers within _ ⟨⟩
      exact within
    all_goals exact yields_ofReader (others _) fun _ _ => holds
  have atFirst (layers : List LayerSpec)
      (impossible : ({} : NetworkSpec.Draft).layers = some layers) :
      ∀ layer ∈ layers, layer.size ≤ wordLimit := by cases impossible
  intro bytes spec rest read
  obtain ⟨last, holds, finished⟩ := yields_record keeps atFirst bytes spec rest read
  simp only [NetworkSpec.ofDraft?, Option.bind_eq_bind, Option.bind_eq_some_iff] at finished
  obtain ⟨layers, areLayers, rate, -, made⟩ := finished
  cases made
  exact holds layers areLayers

/-- The matrices in a file can be addressed, and its numbers of units are words. -/
theorem bounds_of_ofContent
    {content : List UInt8}
    {record : ModelRecord}
    (read : ModelRecord.ofContent content = .ok record) :
    AreAddressable record.weights.shapes ∧ record.spec.CountsWords := by
  have keeps : Keeps ModelRecord.fields fun draft =>
      (∀ weights, draft.weights = some weights → AreAddressable weights.shapes) ∧
        ∀ spec, draft.spec = some spec → spec.CountsWords := by
    rintro field member draft ⟨ofWeights, ofSpec⟩
    simp only [ModelRecord.fields, List.mem_cons, List.not_mem_nil, or_false] at member
    rcases member with rfl | rfl
    · refine yields_ofReader yields_spec fun spec words => ⟨ofWeights, ?_⟩
      rintro _ ⟨⟩
      exact words
    · refine yields_ofReader (yields_list yields_matrix) fun weights addressable => ⟨?_, ofSpec⟩
      rintro _ ⟨⟩ shape isShape
      obtain ⟨matrix, isMatrix, rfl⟩ := List.mem_map.1 isShape
      exact addressable matrix isMatrix
  have atFirst : (∀ weights, ({} : ModelRecord.Draft).weights = some weights →
      AreAddressable weights.shapes) ∧
        ∀ spec, ({} : ModelRecord.Draft).spec = some spec → spec.CountsWords :=
    ⟨(fun _ impossible => nomatch impossible), (fun _ impossible => nomatch impossible)⟩
  obtain ⟨last, ⟨ofWeights, ofSpec⟩, finished⟩ :=
    document_yields (yields_record keeps atFirst) read
  simp only [ModelRecord.ofDraft?, Option.bind_eq_bind, Option.bind_eq_some_iff] at finished
  obtain ⟨spec, isSpec, weights, isWeights, made⟩ := finished
  cases made
  exact ⟨ofWeights weights isWeights, ofSpec spec isSpec⟩

namespace Model

variable {overflow : Overflow}

/-- Models that come from a file or a description, and that were changed by weights that were
accepted. The numbers of units that a description comes with are words. -/
inductive Arises (overflow : Overflow) : Model → Prop
  | loaded {files : Files} {path : String} {model : Model}
      (isLoaded : load overflow files path = .ok model) : Arises overflow model
  | initial {files : Files} {path : String} {spec? : Option (NetworkSpec Single)}
      {generator : Generator} {model : Model}
      (words : overflow = .wrapping → ∀ spec ∈ spec?, spec.CountsWords)
      (made : loadOrInit overflow files path spec? generator = .ok model) : Arises overflow model
  | changed {model after : Model} {weights : Family Single}
      (arises : Arises overflow model)
      (accepted : model.setWeights overflow weights = (.ok (), after)) : Arises overflow after

/-- What holds of all models: the description can be trained, the weights have the shapes that are
counted for it, and there is room for them. -/
structure IsSound (overflow : Overflow) (model : Model) : Prop where
  checked : model.spec.check = .ok ()
  counted : model.spec.shapesIn overflow = .ok model.weights.shapes
  addressable : AreAddressable model.weights.shapes

/-- What a file holds as a model was read from it. -/
theorem exists_record_of_load
    {files : Files}
    {path : String}
    {model : Model}
    (loaded : load overflow files path = .ok model) :
    ∃ content, ModelRecord.ofContent content = .ok ⟨model.spec, model.weights⟩ ∧
      model.spec.check = .ok () ∧ model.spec.shapesIn overflow = .ok model.weights.shapes := by
  obtain ⟨content, -, loaded⟩ := bind_eq_ok_iff.1 loaded
  obtain ⟨record, isRead, loaded⟩ := bind_eq_ok_iff.1 loaded
  obtain ⟨⟨⟩, checked, loaded⟩ := bind_eq_ok_iff.1 loaded
  obtain ⟨shapes, counted, loaded⟩ := bind_eq_ok_iff.1 loaded
  obtain ⟨⟨⟩, fits, made⟩ := bind_eq_ok_iff.1 loaded
  cases made
  refine ⟨content, mapError_eq_ok_iff.1 isRead, checked, ?_⟩
  rw [Family.check_eq_ok_iff.1 fits]
  exact mapError_eq_ok_iff.1 counted

theorem isSound_of_load
    {files : Files}
    {path : String}
    {model : Model}
    (loaded : load overflow files path = .ok model) :
    model.IsSound overflow := by
  obtain ⟨content, isRead, checked, counted⟩ := exists_record_of_load loaded
  exact ⟨checked, counted, (bounds_of_ofContent isRead).1⟩

theorem isSound_of_fresh
    {path : String}
    {spec : NetworkSpec Single}
    {generator : Generator}
    {model : Model}
    (made : fresh overflow path spec generator = .ok model) :
    model.spec = spec ∧ model.IsSound overflow := by
  obtain ⟨⟨⟩, checked, made⟩ := bind_eq_ok_iff.1 made
  obtain ⟨shapes, counted, made⟩ := bind_eq_ok_iff.1 made
  obtain ⟨⟨weights, after⟩, drawn, made⟩ := bind_eq_ok_iff.1 made
  cases made
  obtain ⟨rfl, addressable⟩ := Family.shapes_of_draw (mapError_eq_ok_iff.1 drawn)
  exact ⟨rfl, checked, mapError_eq_ok_iff.1 counted, addressable⟩

/-- A model is loaded where a file is, and made where none is and a description was given. -/
theorem loadOrInit_eq_ok
    {files : Files}
    {path : String}
    {spec? : Option (NetworkSpec Single)}
    {generator : Generator}
    {model : Model}
    (opened : loadOrInit overflow files path spec? generator = .ok model) :
    load overflow files path = .ok model ∨
      ∃ spec ∈ spec?, fresh overflow path spec generator = .ok model := by
  unfold loadOrInit at opened
  split at opened
  · exact .inl opened
  · cases spec? with
    | none => cases opened
    | some spec => exact .inr ⟨spec, rfl, opened⟩

theorem isSound_of_loadOrInit
    {files : Files}
    {path : String}
    {spec? : Option (NetworkSpec Single)}
    {generator : Generator}
    {model : Model}
    (opened : loadOrInit overflow files path spec? generator = .ok model) :
    model.IsSound overflow := by
  rcases loadOrInit_eq_ok opened with loaded | ⟨spec, -, made⟩
  · exact isSound_of_load loaded
  · exact (isSound_of_fresh made).2

theorem eq_of_setWeights
    {model after : Model}
    {weights : Family Single}
    (accepted : model.setWeights overflow weights = (.ok (), after)) :
    model.spec.shapesIn overflow = .ok weights.shapes ∧
      after = { model with weights := weights } := by
  rcases model.setWeights_cases overflow weights with ⟨cause, refused⟩ | ⟨fits, replaced⟩
  · rw [refused] at accepted
    cases accepted
  · rw [replaced] at accepted
    cases accepted
    exact ⟨fits, rfl⟩

theorem IsSound.setWeights
    {model : Model}
    {weights : Family Single}
    (sound : model.IsSound overflow)
    (fits : model.spec.shapesIn overflow = .ok weights.shapes) :
    ({ model with weights := weights } : Model).IsSound overflow := by
  have same : model.weights.shapes = weights.shapes := Except.ok.inj (sound.counted.symm.trans fits)
  exact ⟨sound.checked, fits, same ▸ sound.addressable⟩

theorem Arises.isSound
    {model : Model}
    (arises : model.Arises overflow) :
    model.IsSound overflow := by
  induction arises with
  | loaded isLoaded => exact isSound_of_load isLoaded
  | initial words made => exact isSound_of_loadOrInit made
  | changed arises accepted inductionHypothesis =>
    obtain ⟨fits, rfl⟩ := eq_of_setWeights accepted
    exact inductionHypothesis.setWeights fits

/-- Where sums are checked, a word holds the number of units of every layer with a bias unit: there
is a weight for every unit that a unit of another layer is connected with, and addresses are only
half of all words. -/
theorem IsSound.fitsWords
    {model : Model}
    (sound : model.IsSound .checked) :
    model.spec.FitsWords := by
  obtain ⟨several, -, -, -⟩ := NetworkSpec.finite_of_check sound.checked
  have shapes := NetworkSpec.eq_of_shapesIn_checked sound.counted
  intro layer member
  obtain ⟨shape, isShape, within⟩ := NetworkSpec.exists_transition several layer member
  have isMatrix : shape ∈ model.weights.shapes := by
    rw [shapes]
    exact isShape
  have bounds := le_of_isAddressable (sound.addressable shape isMatrix)
  have oneMore : addressLimit + 1 ≤ wordLimit := by decide
  have atMostOne := model.spec.biasUnits_le_one
  omega

/-- The numbers of units of every model are words. -/
theorem Arises.countsWords
    {model : Model}
    (arises : model.Arises overflow) :
    model.spec.CountsWords := by
  have ofLoad {files : Files} {path : String} {model : Model}
      (loaded : load overflow files path = .ok model) : model.spec.CountsWords := by
    obtain ⟨content, isRead, -⟩ := exists_record_of_load loaded
    exact (bounds_of_ofContent isRead).2
  induction arises with
  | loaded isLoaded => exact ofLoad isLoaded
  | initial words made =>
    rcases loadOrInit_eq_ok made with loaded | ⟨spec, isSpec, made⟩
    · exact ofLoad loaded
    · obtain ⟨rfl, sound⟩ := isSound_of_fresh made
      cases overflow with
      | checked => exact sound.fitsWords.countsWords
      | wrapping => exact words rfl _ isSpec
  | changed arises accepted inductionHypothesis =>
    obtain ⟨-, rfl⟩ := eq_of_setWeights accepted
    exact inductionHypothesis

/-! ### Storing and loading -/

/-- Whether all weights are finite. -/
def HasFiniteWeights (model : Model) : Bool := model.weights.all Matrix.HasFiniteEntries

/-- What is stored of a sound model can be written. -/
theorem IsSound.isStorable
    {model : Model}
    (sound : model.IsSound overflow)
    (words : model.spec.CountsWords) :
    ModelRecord.IsStorable ⟨model.spec, model.weights⟩ := by
  obtain ⟨-, learningRate, momentum, regularization⟩ := NetworkSpec.finite_of_check sound.checked
  have withinWords : addressLimit ≤ wordLimit := by decide
  refine ⟨⟨words, ?_, ?_, ?_⟩, ?_, ?_⟩
  · exact Single.isStorable_of_isFinite learningRate
  · exact Single.isStorable_of_isFinite momentum
  · exact Single.isStorable_of_isFinite regularization
  · intro matrix member
    have addressable := sound.addressable _ (List.mem_map_of_mem member)
    obtain ⟨rows, columns⟩ := le_of_isAddressable addressable
    exact ⟨Nat.le_trans rows withinWords, Nat.le_trans columns withinWords, addressable⟩
  · exact fun matrix _ entry _ finite => Single.isStorable_of_isFinite finite

theorem read_of_persist
    {model : Model}
    {files after : Files}
    (persisted : model.persist files = (.ok (), after)) :
    after.read model.path = .ok (ModelRecord.content ⟨model.spec, model.weights⟩) := by
  unfold persist at persisted
  cases stored : files.store model.path (ModelRecord.content ⟨model.spec, model.weights⟩) with
  | mk result later =>
    rw [stored] at persisted
    cases result with
    | error cause => cases persisted
    | ok done =>
      cases persisted
      exact Files.read_of_store stored

/-- A sound model with finite weights is loaded as it was stored. -/
theorem IsSound.load_of_finite
    {model : Model}
    {files after : Files}
    (sound : model.IsSound overflow)
    (words : model.spec.CountsWords)
    (persisted : model.persist files = (.ok (), after))
    (finite : model.HasFiniteWeights) :
    load overflow after model.path = .ok model := by
  have isRecord := ofContent_eq_ok (sound.isStorable words) (List.all_eq_true.1 finite)
  unfold load ofRecord
  rw [read_of_persist persisted, mapError_ok, ok_bind, isRecord, mapError_ok, ok_bind,
    sound.checked, ok_bind, sound.counted, mapError_ok, ok_bind, Family.check_eq_ok_iff.2 rfl,
    ok_bind]

/-- A sound model with a weight that is not finite leaves a file that is no model. -/
theorem IsSound.load_of_infinite
    {model : Model}
    {files after : Files}
    (sound : model.IsSound overflow)
    (words : model.spec.CountsWords)
    (persisted : model.persist files = (.ok (), after))
    (infinite : ¬ model.HasFiniteWeights) :
    ∃ text, load overflow after model.path = .error (.invalidModel text) := by
  have notFinite : ¬ ∀ matrix ∈ model.weights, matrix.HasFiniteEntries := by
    rwa [← List.all_eq_true]
  obtain ⟨fault, isFault⟩ := ofContent_eq_error (sound.isStorable words) notFinite
  refine ⟨model.path ++ ": " ++ jsonFaultText fault, ?_⟩
  unfold load
  rw [read_of_persist persisted, mapError_ok, ok_bind, isFault]
  rfl

/-- Every model, wherever it comes from and whatever weights it was given, is loaded after it was
stored as it was, if all of its weights are finite. With any other weight storing it succeeds all
the same, but leaves a file that is no model. -/
theorem load_of_persist
    {model : Model}
    {files after : Files}
    (arises : model.Arises overflow)
    (persisted : model.persist files = (.ok (), after)) :
    (model.HasFiniteWeights → load overflow after model.path = .ok model) ∧
      (¬ model.HasFiniteWeights →
        ∃ text, load overflow after model.path = .error (.invalidModel text)) := by
  have sound := arises.isSound
  have words := arises.countsWords
  exact ⟨sound.load_of_finite words persisted, sound.load_of_infinite words persisted⟩

/-! ### A small network -/

/-- A network of two layers with one unit each. -/
def chainSpec : NetworkSpec Single :=
  { layers := [⟨1, .standard, .identity⟩, ⟨1, .standard, .identity⟩]
    learningRate := ⟨0x3dcccccd⟩
    momentum := 0
    regularization := 0
    bias := false }

/-- The model of this network with a number as its only weight. -/
def chain (weight : Single) : Model := ⟨"m.json", chainSpec, [.constant 1 1 weight]⟩

theorem locate?_chain : ({} : Files).locate? "m.json" = some ["m.json"] := by
  have origin : Files.origin "m.json" = [] := by simp [Files.origin]
  have parts : Files.parts "m.json" = ["m.json"] := by decide
  unfold Files.locate?
  rw [origin, parts]
  decide

/-- The network can be made where no file is, and takes every weight. -/
theorem arises_chain (weight : Single) :
    ∃ model, loadOrInit .checked {} "m.json" (some chainSpec) (.ofSeed 1) = .ok model ∧
      model.setWeights .checked [.constant 1 1 weight] = (.ok (), chain weight) := by
  have nothing : ({} : Files).isPresent "m.json" = false := by
    unfold Files.isPresent
    rw [locate?_chain]
    rfl
  have made : loadOrInit .checked {} "m.json" (some chainSpec) (.ofSeed 1) =
      .ok ⟨"m.json", chainSpec, (Family.random chainSpec.shapes (.ofSeed 1)).1⟩ := by
    unfold loadOrInit
    rw [nothing]
    rfl
  exact ⟨_, made, rfl⟩

/-- Models can be stored where no file is. -/
theorem exists_persist (spec : NetworkSpec Single) (weights : Family Single) :
    ∃ files, (⟨"m.json", spec, weights⟩ : Model).persist {} = (.ok (), files) := by
  have origin : Files.origin "m.json" = [] := by simp [Files.origin]
  have parent : Files.parentPath "m.json" = "" := by decide
  have made : ({} : Files).makeParents "m.json" = (.ok (), {}) := by
    unfold Files.makeParents
    rw [parent, origin]
    rfl
  have written (content : List UInt8) : ({} : Files).write "m.json" content =
      .ok (Files.put {} ["m.json"] (.file content)) := by
    unfold Files.write
    rw [locate?_chain]
    rfl
  refine ⟨.put {} ["m.json"] (.file (ModelRecord.content ⟨spec, weights⟩)), ?_⟩
  unfold persist Files.store
  simp only [made, written]
  rfl

theorem load_of_persist_of_chain :
    ∃ model after : Model, ∃ files : Files,
      loadOrInit .checked {} "m.json" (some chainSpec) (.ofSeed 1) = .ok model ∧
        model.setWeights .checked [.constant 1 1 1] = (.ok (), after) ∧
        after.persist {} = (.ok (), files) ∧ load .checked files "m.json" = .ok after := by
  obtain ⟨model, made, changed⟩ := arises_chain 1
  obtain ⟨files, persisted⟩ := exists_persist chainSpec [.constant 1 1 1]
  have words : Overflow.checked = .wrapping → ∀ spec ∈ some chainSpec, spec.CountsWords :=
    fun impossible => nomatch impossible
  have loaded := load_of_persist (.changed (.initial words made) changed) persisted
  exact ⟨model, chain 1, files, made, changed, persisted, loaded.1 (by decide)⟩

/-- A model with an infinite weight is stored, but cannot be loaded any more. -/
theorem not_always_loaded_after_persist :
    ∃ model after : Model, ∃ files : Files,
      loadOrInit .checked {} "m.json" (some chainSpec) (.ofSeed 1) = .ok model ∧
        model.setWeights .checked [.constant 1 1 ⟨0x7f800000⟩] = (.ok (), after) ∧
        after.persist {} = (.ok (), files) ∧ load .checked files "m.json" ≠ .ok after := by
  obtain ⟨model, made, changed⟩ := arises_chain ⟨0x7f800000⟩
  obtain ⟨files, persisted⟩ := exists_persist chainSpec [.constant 1 1 ⟨0x7f800000⟩]
  have arises : Arises .checked (chain ⟨0x7f800000⟩) :=
    .changed (.initial (fun impossible => nomatch impossible) made) changed
  obtain ⟨text, failed⟩ :=
    arises.isSound.load_of_infinite arises.countsWords persisted (by decide)
  have isFailure : load .checked files "m.json" = .error (.invalidModel text) := failed
  refine ⟨model, _, files, made, changed, persisted, ?_⟩
  rw [isFailure]
  exact fun impossible => nomatch impossible

end Model

end GradientMerge
