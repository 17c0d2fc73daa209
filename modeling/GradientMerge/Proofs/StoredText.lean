import GradientMerge.Proofs.JsonWriting
import GradientMerge.Store.ModelText

/-!
Contract: the text of a model, written and read again.

Nothing here depends on the digits that a number is written with. A number is storable if its text is
read as the number; where all numbers of a model are storable, the model is read as it was written,
and behind a weight that is written as a missing value nothing is read.

Owns:
- the reading of the written names, sizes, layers, networks, matrices and models;
- the failure of the text of a model at a weight that is not a number of the text.

Does not own: which numbers are storable.
-/

namespace GradientMerge

open Json JsonLayout Outcome

/-- Whether a number is read from its text in a file as it was written. -/
def Single.IsStorable (x : Single) : Prop :=
  Reads Json.single (Utf8.encode (NumberForm.stored.write x)) x

/-! ### Networks -/

theorem reads_unitName (unit : UnitKind) (depth : Nat) :
    Reads UnitKind.read (Utf8.encode ((JsonLayout.name unit.name).write depth)) unit := by
  rw [encode_write_name]
  cases unit with
  | standard | dropout => exact choice_name (by decide) rfl

theorem reads_squashingName (squashing : Squashing) (depth : Nat) :
    Reads Squashing.read (Utf8.encode ((JsonLayout.name squashing.name).write depth)) squashing := by
  rw [encode_write_name]
  cases squashing with
  | sigmoid | tanh | identity | relu => exact choice_name (by decide) rfl

theorem reads_costName (cost : Cost) (depth : Nat) :
    Reads Cost.read (Utf8.encode ((JsonLayout.name cost.name).write depth)) cost := by
  rw [encode_write_name]
  cases cost with
  | squaredError | crossEntropy => exact choice_name (by decide) rfl

theorem reads_count
    {least greatest count : Nat}
    (inside : least ≤ count ∧ count ≤ greatest)
    (fits : count ≤ wordLimit)
    (depth : Nat) :
    Reads (wholeNumber least greatest)
      (Utf8.encode ((JsonLayout.word (toString count)).write depth)) count := by
  have bytes : Utf8.encode ((JsonLayout.word (toString count)).write depth) = decimalBytes count := by
    rw [write]
    exact encode_repr count
  rw [bytes]
  exact reads_wholeNumber inside fits

theorem reads_layer
    {layer : LayerSpec}
    (fits : layer.size ≤ wordLimit)
    (depth : Nat) :
    Reads LayerSpec.read (Utf8.encode (layer.layout.write depth)) layer := by
  unfold LayerSpec.layout
  rw [encode_write_object]
  simp only [List.map_cons, List.map_nil]
  apply reads_record (areBlanks_lineBreakBytes _) areBlanks_space (areBlanks_lineBreakBytes _)
  case fills =>
    apply Fills.ofReader (by decide) rfl rfl (reads_count ⟨Nat.zero_le _, fits⟩ fits _)
    apply Fills.ofReader (by decide) rfl rfl (reads_unitName _ _)
    apply Fills.ofReader (by decide) rfl rfl (reads_squashingName _ _)
    exact .nil _
  case finished => rfl

/-- An array of written elements is read element by element. -/
theorem reads_elements
    {α : Type}
    {reader : Reader α}
    {layout : α → JsonLayout}
    {values : List α}
    {depth : Nat}
    (each : ∀ value ∈ values,
      Reads reader (Utf8.encode ((layout value).write (depth + 1))) value) :
    Reads (Json.list reader) (Utf8.encode ((JsonLayout.array (values.map layout)).write depth))
      values := by
  rw [encode_write_array]
  apply reads_list (areBlanks_lineBreakBytes _) (areBlanks_lineBreakBytes _)
  rw [List.map_map, List.forall₂_map_left_iff, List.forall₂_same]
  exact each

/-- Whether the sizes of a network can be written, and its rates. -/
structure NetworkSpec.IsStorable (spec : NetworkSpec Single) : Prop where
  sizes : ∀ layer ∈ spec.layers, layer.size ≤ wordLimit
  learningRate : spec.learningRate.IsStorable
  momentum : spec.momentum.IsStorable
  regularization : spec.regularization.IsStorable

theorem reads_spec
    {spec : NetworkSpec Single}
    (storable : spec.IsStorable)
    (depth : Nat) :
    Reads NetworkSpec.read (Utf8.encode (spec.layout.write depth)) spec := by
  have layers : Reads (Json.list LayerSpec.read)
      (Utf8.encode ((JsonLayout.array (spec.layers.map LayerSpec.layout)).write (depth + 1)))
      spec.layers :=
    reads_elements fun layer member => reads_layer (storable.sizes layer member) _
  have bias : Reads boolean
      (Utf8.encode ((JsonLayout.word (if spec.bias then "true" else "false")).write (depth + 1)))
      spec.bias := reads_boolean spec.bias
  unfold NetworkSpec.layout
  rw [encode_write_object]
  simp only [List.map_cons, List.map_nil]
  apply reads_record (areBlanks_lineBreakBytes _) areBlanks_space (areBlanks_lineBreakBytes _)
  case fills =>
    apply Fills.ofReader (by decide) rfl rfl layers
    apply Fills.ofReader (by decide) rfl rfl (reads_costName _ _)
    apply Fills.ofReader (by decide) rfl rfl storable.learningRate
    apply Fills.ofReader (by decide) rfl rfl storable.momentum
    apply Fills.ofReader (by decide) rfl rfl storable.regularization
    apply Fills.ofReader (by decide) rfl rfl bias
    exact .nil _
  case finished => rfl

/-! ### Matrices -/

/-- The layout of an entry. -/
def entryLayout (entry : Single) : JsonLayout := .word (NumberForm.stored.write entry)

/-- Whether the shape of a matrix can be written, and that a matrix of it can be read. -/
structure Matrix.HasStorableShape (matrix : Matrix Single) : Prop where
  rows : matrix.rows ≤ wordLimit
  columns : matrix.columns ≤ wordLimit
  addressable : isAddressable matrix.shape

/-- The draft of a matrix before its entries. -/
def Matrix.shapeDraft (matrix : Matrix Single) : Matrix.Draft :=
  { version := some layoutVersion, shape := some (matrix.rows, matrix.columns) }

theorem fills_shape
    {matrix : Matrix Single}
    (storable : matrix.HasStorableShape)
    {depth : Nat}
    {members : List (String × List UInt8)}
    {last : Matrix.Draft}
    (others : Fills Matrix.fields matrix.shapeDraft members last) :
    Fills Matrix.fields {}
      (("v", Utf8.encode ((JsonLayout.word (toString Matrix.layoutVersion)).write depth)) ::
        ("dim", Utf8.encode ((JsonLayout.array [.word (toString matrix.rows),
          .word (toString matrix.columns)]).write depth)) :: members) last := by
  have shape : Reads (pair (wholeNumber 0 wordLimit))
      (Utf8.encode ((JsonLayout.array [.word (toString matrix.rows),
        .word (toString matrix.columns)]).write depth)) (matrix.rows, matrix.columns) := by
    rw [encode_write_array]
    apply reads_pair (areBlanks_lineBreakBytes _) (areBlanks_lineBreakBytes _)
    · exact reads_count ⟨Nat.zero_le _, storable.rows⟩ storable.rows _
    · exact reads_count ⟨Nat.zero_le _, storable.columns⟩ storable.columns _
  apply Fills.ofReader (by decide) rfl rfl (reads_count (by decide) (by decide) depth)
  apply Fills.ofReader (by decide) rfl rfl shape
  exact others

theorem reads_matrix
    {matrix : Matrix Single}
    (storable : matrix.HasStorableShape)
    (entries : ∀ entry ∈ matrix.entries.toList, entry.IsStorable)
    (depth : Nat) :
    Reads Matrix.read (Utf8.encode (matrix.layout.write depth)) matrix := by
  have data : Reads (Json.list Json.single)
      (Utf8.encode ((JsonLayout.array (matrix.entries.toList.map entryLayout)).write (depth + 1)))
      matrix.entries.toList := reads_elements entries
  unfold Matrix.layout
  rw [encode_write_object]
  simp only [List.map_cons, List.map_nil]
  apply reads_record (areBlanks_lineBreakBytes _) areBlanks_space (areBlanks_lineBreakBytes _)
  case fills =>
    apply fills_shape storable
    apply Fills.ofReader (by decide) rfl rfl data
    exact .nil _
  case finished =>
    have addressable : Matrix.isAddressable (matrix.rows, matrix.columns) := storable.addressable
    simp [Matrix.ofDraft?, Matrix.shapeDraft, addressable, Matrix.ofEntries?, matrix.size_entries]

/-- A matrix is not read behind an entry that is written as a missing value. -/
theorem fails_matrix
    {matrix : Matrix Single}
    (storable : matrix.HasStorableShape)
    {before later : List Single}
    {entry : Single}
    (entries : matrix.entries.toList = before ++ entry :: later)
    (earlier : ∀ other ∈ before, other.IsStorable)
    (missing : NumberForm.stored.write entry = "null")
    (depth : Nat) :
    Fails Matrix.read (Utf8.encode (matrix.layout.write depth)) := by
  have null : Fails Json.single (Utf8.encode ((entryLayout entry).write (depth + 2))) := by
    rw [entryLayout, missing]
    refine ⟨⟨byteOf 'n', [byteOf 'u', byteOf 'l', byteOf 'l'], rfl, rfl, by decide⟩, ?_⟩
    intro blanks rest areBlanks ends
    have text : Utf8.encode ((JsonLayout.word "null").write (depth + 2)) ++ rest =
        byteOf 'n' :: (byteOf 'u' :: byteOf 'l' :: byteOf 'l' :: rest) := rfl
    unfold Json.single Reader.accept anyNumber
    rw [text, skipBlanks_of_cons areBlanks rfl]
    exact ⟨_, rfl⟩
  have data : Fails (Json.list Json.single)
      (Utf8.encode ((JsonLayout.array (matrix.entries.toList.map entryLayout)).write
        (depth + 1))) := by
    have each : List.Forall₂ (Reads Json.single)
        (before.map fun entry => Utf8.encode ((entryLayout entry).write (depth + 2))) before := by
      rw [List.forall₂_map_left_iff, List.forall₂_same]
      exact earlier
    rw [encode_write_array, entries, List.map_append, List.map_append, List.map_cons,
      List.map_cons, List.map_map]
    exact fails_list (areBlanks_lineBreakBytes _) (areBlanks_lineBreakBytes _) each null
  unfold Matrix.layout
  rw [encode_write_object]
  simp only [List.map_cons, List.map_nil]
  refine fails_record [] (areBlanks_lineBreakBytes _) areBlanks_space
    (areBlanks_lineBreakBytes _) (fills_shape storable (.nil _)) ?_
  exact .ofReader (by decide) rfl rfl data

/-! ### Models -/

/-- Whether all entries of a matrix are finite. -/
def Matrix.HasFiniteEntries (matrix : Matrix Single) : Bool :=
  matrix.entries.toList.all Single.isFinite

/-- Whether a description and the shapes of weights can be written, and those weights that are
finite. -/
structure ModelRecord.IsStorable (record : ModelRecord) : Prop where
  spec : record.spec.IsStorable
  shapes : ∀ matrix ∈ record.weights, matrix.HasStorableShape
  finite : ∀ matrix ∈ record.weights, ∀ entry ∈ matrix.entries.toList, entry.isFinite →
    entry.IsStorable

/-- What is not finite is written as a missing value. -/
theorem write_of_not_isFinite
    {x : Single}
    (infinite : x.isFinite = false) :
    NumberForm.stored.write x = "null" := by
  unfold NumberForm.write
  simp only [infinite, Bool.false_eq_true, not_false_eq_true, ↓reduceIte]
  split
  · rfl
  · split
    · rfl
    · rfl

/-- A matrix with an entry that is not finite is not read. -/
theorem fails_matrix_of_infinite
    {matrix : Matrix Single}
    (shape : matrix.HasStorableShape)
    (finite : ∀ entry ∈ matrix.entries.toList, entry.isFinite → entry.IsStorable)
    (infinite : matrix.HasFiniteEntries = false)
    (depth : Nat) :
    Fails Matrix.read (Utf8.encode (matrix.layout.write depth)) := by
  obtain ⟨other, isOther, notFinite⟩ := List.all_eq_false.1 infinite
  have someInfinite : ∃ entry, matrix.entries.toList.find? (fun entry => ! entry.isFinite) =
      some entry := by
    rw [← Option.isSome_iff_exists, List.find?_isSome]
    exact ⟨other, isOther, by simpa using notFinite⟩
  obtain ⟨entry, isFirst⟩ := someInfinite
  obtain ⟨isInfinite, before, later, entries, areFinite⟩ :=
    List.find?_eq_some_iff_append.1 isFirst
  refine fails_matrix shape entries ?_ (write_of_not_isFinite (by simpa using isInfinite)) depth
  intro earlier member
  apply finite earlier
  · rw [entries]
    exact List.mem_append_left _ member
  · simpa using areFinite earlier member

theorem reads_model
    {record : ModelRecord}
    (storable : record.IsStorable)
    (allFinite : ∀ matrix ∈ record.weights, matrix.HasFiniteEntries)
    (depth : Nat) :
    Reads ModelRecord.read (Utf8.encode (record.layout.write depth)) record := by
  have weights : Reads (Json.list Matrix.read)
      (Utf8.encode ((JsonLayout.array (record.weights.map Matrix.layout)).write (depth + 1)))
      record.weights := by
    apply reads_elements
    intro matrix member
    apply reads_matrix (storable.shapes matrix member)
    intro entry isEntry
    exact storable.finite matrix member entry isEntry
      (List.all_eq_true.1 (allFinite matrix member) entry isEntry)
  unfold ModelRecord.layout
  rw [encode_write_object]
  simp only [List.map_cons, List.map_nil]
  apply reads_record (areBlanks_lineBreakBytes _) areBlanks_space (areBlanks_lineBreakBytes _)
  case fills =>
    apply Fills.ofReader (by decide) rfl rfl (reads_spec storable.spec _)
    apply Fills.ofReader (by decide) rfl rfl weights
    exact .nil _
  case finished => rfl

/-- A model with a weight that is not finite is not read. -/
theorem fails_model
    {record : ModelRecord}
    (storable : record.IsStorable)
    (infinite : ¬ ∀ matrix ∈ record.weights, matrix.HasFiniteEntries)
    (depth : Nat) :
    Fails ModelRecord.read (Utf8.encode (record.layout.write depth)) := by
  have someInfinite : ∃ matrix,
      record.weights.find? (fun matrix => ! matrix.HasFiniteEntries) = some matrix := by
    rw [← Option.isSome_iff_exists, List.find?_isSome]
    push Not at infinite
    obtain ⟨matrix, member, notFinite⟩ := infinite
    exact ⟨matrix, member, by simpa using notFinite⟩
  obtain ⟨matrix, isFirst⟩ := someInfinite
  obtain ⟨isInfinite, before, later, split, areFinite⟩ := List.find?_eq_some_iff_append.1 isFirst
  have isMember : matrix ∈ record.weights := by
    rw [split]
    exact List.mem_append_right _ List.mem_cons_self
  have failing (depth : Nat) : Fails Matrix.read (Utf8.encode (matrix.layout.write depth)) :=
    fails_matrix_of_infinite (storable.shapes matrix isMember) (storable.finite matrix isMember)
      (by simpa using isInfinite) depth
  have weights : Fails (Json.list Matrix.read)
      (Utf8.encode ((JsonLayout.array (record.weights.map Matrix.layout)).write (depth + 1))) := by
    have each : List.Forall₂ (Reads Matrix.read)
        (before.map fun matrix => Utf8.encode (matrix.layout.write (depth + 2))) before := by
      rw [List.forall₂_map_left_iff, List.forall₂_same]
      intro earlier member
      have isEarlier : earlier ∈ record.weights := by
        rw [split]
        exact List.mem_append_left _ member
      have finite : earlier.HasFiniteEntries := by simpa using areFinite earlier member
      apply reads_matrix (storable.shapes earlier isEarlier)
      intro entry isEntry
      exact storable.finite earlier isEarlier entry isEntry
        (List.all_eq_true.1 finite entry isEntry)
    rw [encode_write_array, split, List.map_append, List.map_append, List.map_cons,
      List.map_cons, List.map_map]
    exact fails_list (areBlanks_lineBreakBytes _) (areBlanks_lineBreakBytes _) each (failing _)
  have isSpec : Fills ModelRecord.fields {}
      [("spec", Utf8.encode (record.spec.layout.write (depth + 1)))]
      { spec := some record.spec } :=
    .ofReader (by decide) rfl rfl (reads_spec storable.spec _) (.nil _)
  unfold ModelRecord.layout
  rw [encode_write_object]
  simp only [List.map_cons, List.map_nil]
  refine fails_record [] (areBlanks_lineBreakBytes _) areBlanks_space (areBlanks_lineBreakBytes _)
    isSpec ?_
  exact .ofReader (by decide) rfl rfl weights

theorem ofContent_eq_ok
    {record : ModelRecord}
    (storable : record.IsStorable)
    (allFinite : ∀ matrix ∈ record.weights, matrix.HasFiniteEntries) :
    ModelRecord.ofContent record.content = .ok record :=
  document_of_reads (reads_model storable allFinite 0)

theorem ofContent_eq_error
    {record : ModelRecord}
    (storable : record.IsStorable)
    (infinite : ¬ ∀ matrix ∈ record.weights, matrix.HasFiniteEntries) :
    ∃ fault, ModelRecord.ofContent record.content = .error fault :=
  document_of_fails (fails_model storable infinite 0)

end GradientMerge
