import GradientMerge.Network.SpecText

/-!
Contract: the JSON text of models, a network's description with its weights.

Owns:
- the record of a matrix: the version of its layout, its shape, and its entries row by row;
- the record of a model, and the layout in which models are stored.

Does not own: whether the weights fit the description.
-/

namespace GradientMerge

namespace Matrix

/-- The fields of a matrix read so far. -/
structure Draft where
  version : Option Nat := none
  shape : Option (Nat × Nat) := none
  entries : Option (List Single) := none

/-- The version of the layout. -/
def layoutVersion : Nat := 1

/-- The fields in their order, all of which are required. -/
def fields : List (Json.Field Draft) :=
  [ .ofReader "v" false Draft.version
      (fun draft version => { draft with version := some version })
      (Json.wholeNumber layoutVersion layoutVersion),
    .ofReader "dim" false Draft.shape
      (fun draft shape => { draft with shape := some shape })
      (Json.pair (Json.wholeNumber 0 wordLimit)),
    .ofReader "data" false Draft.entries
      (fun draft entries => { draft with entries := some entries }) (Json.list Json.single) ]

/-- Records of matrices: every key must be known, and the last value of a key counts. -/
def recordRule : Json.KeyRule := ⟨false, true⟩

/-- The matrix of a draft that has all fields, if its entries fill its shape. -/
def ofDraft? (draft : Draft) : Option (Matrix Single) := do
  let _ ← draft.version
  let (rows, columns) ← draft.shape
  let entries ← draft.entries
  if isAddressable (rows, columns) then ofEntries? rows columns entries.toArray else none

/-- Reads a matrix. -/
def read : Json.Reader (Matrix Single) := Json.record recordRule fields {} ofDraft?

/-- The stored layout. -/
def layout (matrix : Matrix Single) : JsonLayout :=
  .object
    [ ("v", .word (toString layoutVersion)),
      ("dim", .array [.word (toString matrix.rows), .word (toString matrix.columns)]),
      ("data", .array
        (matrix.entries.toList.map fun entry => .word (NumberForm.stored.write entry))) ]

end Matrix

/-- A description with weights, as a model file holds them. -/
structure ModelRecord where
  spec : NetworkSpec Single
  weights : Family Single
deriving DecidableEq

namespace ModelRecord

/-- The fields of a model read so far. -/
structure Draft where
  spec : Option (NetworkSpec Single) := none
  weights : Option (Family Single) := none

/-- The fields in their order, both of which are required. -/
def fields : List (Json.Field Draft) :=
  [ .ofReader "spec" false Draft.spec
      (fun draft spec => { draft with spec := some spec }) NetworkSpec.read,
    .ofReader "weights" false Draft.weights
      (fun draft weights => { draft with weights := some weights }) (Json.list Matrix.read) ]

/-- The model of a draft that has both fields. -/
def ofDraft? (draft : Draft) : Option ModelRecord := do
  let spec ← draft.spec
  let weights ← draft.weights
  some ⟨spec, weights⟩

/-- Reads a model. -/
def read : Json.Reader ModelRecord := Json.record settingsRule fields {} ofDraft?

/-- The stored layout. -/
def layout (record : ModelRecord) : JsonLayout :=
  .object
    [ ("spec", record.spec.layout),
      ("weights", .array (record.weights.map Matrix.layout)) ]

/-- The content of a model file. -/
def content (record : ModelRecord) : List UInt8 := Utf8.encode (record.layout.write 0)

/-- The model in the content of a file. -/
def ofContent (content : List UInt8) : Except JsonError ModelRecord := Json.document read content

end ModelRecord

end GradientMerge
