import GradientMerge.Proofs.Outcome
import GradientMerge.Proofs.Word
import GradientMerge.Wire.Message
import Mathlib.Algebra.Order.BigOperators.Group.List

/-!
Contract: merge messages and their bytes determine each other.

Owns:
- the bytes of a message in closed form, and the exact condition under which it has any;
- for every reader, the exact byte sequences that it accepts;
- the message that its own bytes followed by any others are read as;
- a reader whose cuts fail beyond the end of what they cut, and its agreement with the one above.

Does not own: how the message of a merge is told apart from other messages.
-/

namespace GradientMerge

namespace MergeMessage

open Outcome

/-! ### The bytes of a message in closed form -/

/-- Whether both numbers of a shape fit into words. -/
def FitsWords (shape : Nat × Nat) : Prop := shape.1 ≤ 0xffffffff ∧ shape.2 ≤ 0xffffffff

instance : DecidablePred FitsWords := fun shape =>
  inferInstanceAs (Decidable (shape.1 ≤ 0xffffffff ∧ shape.2 ≤ 0xffffffff))

/-- The matrices of a message: those of the family, then the previous updates. -/
def allMatrices (message : MergeMessage Single) : Family Single :=
  message.matrices ++ message.previous

/-- Whether the numbers in front of the entries of a message fit into words. -/
structure IsWordSized (message : MergeMessage Single) : Prop where
  count : message.matrices.length ≤ 0xffffffff
  shapes : ∀ shape ∈ message.allMatrices.shapes, FitsWords shape

/-- The bytes of shapes whose numbers fit into words. -/
def shapeBytes (shapes : List (Nat × Nat)) : List UInt8 :=
  shapes.flatMap fun shape => Wire.encodeNat 4 shape.1 ++ Wire.encodeNat 4 shape.2

/-- The bytes of a message whose numbers fit into words. -/
def bytes (message : MergeMessage Single) : List UInt8 :=
  Wire.encodeNat 4 message.averageError.bits.toNat ++
    (Wire.encodeNat 4 message.converged.toNat ++
      (Wire.encodeNat 4 message.matrices.length ++
        (shapeBytes message.allMatrices.shapes ++ encodeEntries message.allMatrices)))

/-- The number of bytes of the entries of a matrix. -/
def entryByteCount (matrix : Matrix Single) : Nat := 4 * (matrix.rows * matrix.columns)

/-- Whether the number of bytes of every matrix fits into eight bytes. -/
def HasCountableEntries (family : Family Single) : Prop :=
  ∀ matrix ∈ family, entryByteCount matrix ≤ 0xffffffffffffffff

@[simp] theorem shapeBytes_nil : shapeBytes [] = [] := rfl

theorem shapeBytes_cons (shape : Nat × Nat) (shapes : List (Nat × Nat)) :
    shapeBytes (shape :: shapes) =
      Wire.encodeNat 4 shape.1 ++ (Wire.encodeNat 4 shape.2 ++ shapeBytes shapes) := by
  simp [shapeBytes]

@[simp] theorem encodeEntries_nil : encodeEntries [] = [] := rfl

theorem encodeEntries_cons (matrix : Matrix Single) (family : Family Single) :
    encodeEntries (matrix :: family) =
      Wire.encodeSingles matrix.entries.toList ++ encodeEntries family := rfl

@[simp] theorem length_shapeBytes (shapes : List (Nat × Nat)) :
    (shapeBytes shapes).length = 8 * shapes.length := by
  induction shapes with
  | nil => rfl
  | cons shape shapes inductionHypothesis =>
    simp only [shapeBytes_cons, List.length_append, Wire.length_encodeNat, inductionHypothesis,
      List.length_cons]
    omega

theorem length_encodeSingles_entries (matrix : Matrix Single) :
    (Wire.encodeSingles matrix.entries.toList).length = entryByteCount matrix := by
  rw [Wire.length_encodeSingles, Array.length_toList, matrix.size_entries, entryByteCount]

theorem length_encodeEntries (family : Family Single) :
    (encodeEntries family).length = (family.map entryByteCount).sum := by
  induction family with
  | nil => rfl
  | cons matrix family inductionHypothesis =>
    rw [encodeEntries_cons, List.length_append, length_encodeSingles_entries, inductionHypothesis,
      List.map_cons, List.sum_cons]

/-- The number of bytes of a message. -/
theorem length_bytes (message : MergeMessage Single) :
    message.bytes.length =
      12 + 8 * message.allMatrices.length + (message.allMatrices.map entryByteCount).sum := by
  simp only [bytes, List.length_append, Wire.length_encodeNat, length_shapeBytes,
    length_encodeEntries, Family.shapes, List.length_map]
  omega

/-- The entries of a matrix are among the bytes of its message. -/
theorem entryByteCount_le_length_bytes
    {message : MergeMessage Single}
    {matrix : Matrix Single}
    (member : matrix ∈ message.allMatrices) :
    entryByteCount matrix ≤ message.bytes.length := by
  have counted : entryByteCount matrix ≤ (message.allMatrices.map entryByteCount).sum :=
    List.le_sum_of_mem (List.mem_map_of_mem member)
  rw [length_bytes]
  omega

/-! ### Writing -/

theorem encodeWord_eq_ok_iff {value : Nat} {front : List UInt8} :
    encodeWord value = .ok front ↔ value ≤ 0xffffffff ∧ front = Wire.encodeNat 4 value := by
  unfold encodeWord
  split
  · rename_i fits
    simp [fits, eq_comm]
  · rename_i overflow
    simp [overflow]

theorem encodeShapes_eq_ok_iff {shapes : List (Nat × Nat)} {front : List UInt8} :
    encodeShapes shapes = .ok front ↔
      (∀ shape ∈ shapes, FitsWords shape) ∧ front = shapeBytes shapes := by
  induction shapes generalizing front with
  | nil => simp [encodeShapes, eq_comm]
  | cons shape shapes inductionHypothesis =>
    simp only [encodeShapes, bind_eq_ok_iff, encodeWord_eq_ok_iff, inductionHypothesis,
      shapeBytes_cons, List.forall_mem_cons]
    constructor
    · rintro ⟨_, ⟨rowsFit, rfl⟩, _, ⟨columnsFit, rfl⟩, _, ⟨shapesFit, rfl⟩, joined⟩
      cases joined
      exact ⟨⟨⟨rowsFit, columnsFit⟩, shapesFit⟩, by simp⟩
    · rintro ⟨⟨⟨rowsFit, columnsFit⟩, shapesFit⟩, rfl⟩
      exact ⟨_, ⟨rowsFit, rfl⟩, _, ⟨columnsFit, rfl⟩, _, ⟨shapesFit, rfl⟩, by simp⟩

/-- A message has bytes exactly if its families are of one length and its numbers fit into
words. -/
theorem encode_eq_ok_iff {message : MergeMessage Single} {written : List UInt8} :
    message.encode = .ok written ↔
      message.matrices.length = message.previous.length ∧ message.IsWordSized ∧
        written = message.bytes := by
  unfold encode
  split
  · rename_i unequal
    simp [unequal]
  · rename_i equal
    simp only [bind_eq_ok_iff, encodeWord_eq_ok_iff, encodeShapes_eq_ok_iff]
    constructor
    · rintro ⟨_, ⟨countFits, rfl⟩, _, ⟨shapesFit, rfl⟩, joined⟩
      cases joined
      exact ⟨not_not.1 equal, ⟨countFits, shapesFit⟩, by simp [bytes, allMatrices]⟩
    · rintro ⟨-, sized, rfl⟩
      exact ⟨_, ⟨sized.count, rfl⟩, _, ⟨sized.shapes, rfl⟩, by simp [bytes, allMatrices]⟩

/-! ### Reading -/

theorem readWord_eq_ok_iff {source rest : List UInt8} {value : Nat} :
    readWord source = .ok (value, rest) ↔
      value ≤ 0xffffffff ∧ source = Wire.encodeNat 4 value ++ rest := by
  have split := @Wire.splitNat?_eq_some_iff 4 value source rest
  have limit : value < 256 ^ 4 ↔ value ≤ 0xffffffff := by omega
  rw [limit] at split
  rw [← split]
  unfold readWord
  cases Wire.splitNat? 4 source with
  | none => simp
  | some found => simp

theorem readFlag_eq_ok_iff {source rest : List UInt8} {flag : Bool} :
    readFlag source = .ok (flag, rest) ↔
      source = Wire.encodeNat 4 flag.toNat ++ rest := by
  simp only [readFlag, bind_eq_ok_iff, Prod.exists]
  constructor
  · rintro ⟨value, behind, read, decided⟩
    obtain ⟨-, rfl⟩ := readWord_eq_ok_iff.1 read
    split at decided
    · rename_i isZero
      cases decided
      rw [isZero, Bool.toNat_false]
    · split at decided
      · rename_i isOne
        cases decided
        rw [isOne, Bool.toNat_true]
      · cases decided
  · rintro rfl
    refine ⟨flag.toNat, rest, readWord_eq_ok_iff.2 ⟨?_, rfl⟩, ?_⟩
    · cases flag <;> decide
    · cases flag <;> rfl

theorem readShapes_eq_ok_iff
    {count : Nat}
    {source rest : List UInt8}
    {shapes : List (Nat × Nat)} :
    readShapes count source = .ok (shapes, rest) ↔
      shapes.length = count ∧ (∀ shape ∈ shapes, FitsWords shape) ∧
        source = shapeBytes shapes ++ rest := by
  induction count generalizing source rest shapes with
  | zero =>
    cases shapes with
    | nil => simp [readShapes]
    | cons shape shapes => simp [readShapes]
  | succ count inductionHypothesis =>
    simp only [readShapes, bind_eq_ok_iff, Prod.exists, readWord_eq_ok_iff, inductionHypothesis]
    constructor
    · rintro ⟨rows, _, ⟨rowsFit, rfl⟩, columns, _, ⟨columnsFit, rfl⟩, behind, _,
        ⟨rfl, shapesFit, rfl⟩, joined⟩
      cases joined
      refine ⟨rfl, ?_, by simp [shapeBytes_cons]⟩
      exact List.forall_mem_cons.2 ⟨⟨rowsFit, columnsFit⟩, shapesFit⟩
    · rintro ⟨counted, shapesFit, rfl⟩
      match shapes, counted with
      | (rows, columns) :: shapes, counted =>
        obtain ⟨⟨rowsFit, columnsFit⟩, restFit⟩ := List.forall_mem_cons.1 shapesFit
        exact ⟨rows, _, ⟨rowsFit, by simp [shapeBytes_cons]⟩, columns, _, ⟨columnsFit, rfl⟩,
          shapes, rest, ⟨by simpa using counted, restFit, rfl⟩, rfl⟩

/-- The entries of a matrix are read back exactly from their bytes. -/
theorem readMatrix_eq_ok_iff
    {rows columns : Nat}
    {source rest : List UInt8}
    {matrix : Matrix Single} :
    readMatrix rows columns source = .ok (matrix, rest) ↔
      matrix.shape = (rows, columns) ∧ entryByteCount matrix ≤ 0xffffffffffffffff ∧
        source = Wire.encodeSingles matrix.entries.toList ++ rest := by
  unfold readMatrix
  dsimp only
  constructor
  · intro read
    split at read
    · cases read
    · rename_i countable
      split at read
      · cases read
      · rename_i front behind split
        cases read
        obtain ⟨rfl, whole⟩ := Wire.splitExactly?_eq_some_iff.1 split
        refine ⟨rfl, Nat.not_lt.1 countable, ?_⟩
        dsimp only
        rw [Wire.encodeSingles_decodeSingles whole]
  · rintro ⟨shaped, countable, rfl⟩
    cases shaped
    have whole : Wire.splitExactly? (4 * (matrix.rows * matrix.columns))
        (Wire.encodeSingles matrix.entries.toList ++ rest) =
          some (Wire.encodeSingles matrix.entries.toList, rest) :=
      Wire.splitExactly?_eq_some_iff.2 ⟨rfl, length_encodeSingles_entries matrix⟩
    unfold entryByteCount at countable
    rw [if_neg (Nat.not_lt.2 countable)]
    split
    · rename_i failed
      rw [whole] at failed
      cases failed
    · rename_i front behind found
      rw [whole] at found
      cases found
      simp [Wire.decodeSingles_encodeSingles]

/-- The matrices of known shapes are read back exactly from the bytes of their entries. -/
theorem readMatrices_eq_ok_iff
    {shapes : List (Nat × Nat)}
    {source rest : List UInt8}
    {family : Family Single} :
    readMatrices shapes source = .ok (family, rest) ↔
      family.shapes = shapes ∧ HasCountableEntries family ∧
        source = encodeEntries family ++ rest := by
  induction shapes generalizing source rest family with
  | nil =>
    cases family with
    | nil => simp [readMatrices, Family.shapes, HasCountableEntries]
    | cons matrix family => simp [readMatrices, Family.shapes]
  | cons shape shapes inductionHypothesis =>
    simp only [readMatrices, bind_eq_ok_iff, Prod.exists, readMatrix_eq_ok_iff]
    constructor
    · rintro ⟨matrix, _, ⟨shaped, countable, rfl⟩, behind, _, read, joined⟩
      obtain ⟨rfl, restCountable, rfl⟩ := inductionHypothesis.1 read
      cases joined
      refine ⟨congrArg (· :: behind.shapes) shaped, ?_, ?_⟩
      · exact List.forall_mem_cons.2 ⟨countable, restCountable⟩
      · rw [encodeEntries_cons, List.append_assoc]
    · rintro ⟨shaped, countable, rfl⟩
      match family, shaped with
      | matrix :: family, shaped =>
        obtain ⟨headCountable, restCountable⟩ := List.forall_mem_cons.1 countable
        obtain ⟨headShaped, restShaped⟩ := List.cons.inj shaped
        refine ⟨matrix, encodeEntries family ++ rest, ⟨headShaped, headCountable, ?_⟩,
          family, rest, inductionHypothesis.2 ⟨restShaped, restCountable, rfl⟩, rfl⟩
        rw [encodeEntries_cons, List.append_assoc]

/-- The bytes of a message followed by others are read as the message, and it is an error that
anything follows. -/
theorem decode_bytes_append
    {message : MergeMessage Single}
    (paired : message.matrices.length = message.previous.length)
    (sized : message.IsWordSized)
    (countable : HasCountableEntries message.allMatrices)
    (extra : List UInt8) :
    decode (message.bytes ++ extra) =
      if extra.isEmpty then .ok message else .error (.trailingBytes extra.length) := by
  let entries := encodeEntries message.allMatrices ++ extra
  let shapes := shapeBytes message.allMatrices.shapes ++ entries
  let count := Wire.encodeNat 4 message.matrices.length ++ shapes
  let flag := Wire.encodeNat 4 message.converged.toNat ++ count
  have joined :
      message.bytes ++ extra = Wire.encodeNat 4 message.averageError.bits.toNat ++ flag := by
    simp [bytes, flag, count, shapes, entries]
  have bitsFit : message.averageError.bits.toNat ≤ 0xffffffff :=
    Nat.le_of_lt_succ message.averageError.bits.toNat_lt
  have counted : message.allMatrices.shapes.length = 2 * message.matrices.length := by
    simp only [Family.shapes, allMatrices, List.length_map, List.length_append, paired]
    omega
  have errorRead := readWord_eq_ok_iff.2 ⟨bitsFit, joined⟩
  have flagRead := readFlag_eq_ok_iff.2 (show flag = _ from rfl)
  have countRead := readWord_eq_ok_iff.2 ⟨sized.count, show count = _ from rfl⟩
  have shapesRead := readShapes_eq_ok_iff.2 ⟨counted, sized.shapes, show shapes = _ from rfl⟩
  have entriesRead := readMatrices_eq_ok_iff.2 ⟨rfl, countable, show entries = _ from rfl⟩
  simp only [decode, errorRead, flagRead, countRead, shapesRead, entriesRead, ok_bind]
  simp [allMatrices, UInt32.ofNat_toNat]

/-- What is accepted as a message is exactly its bytes. -/
theorem bytes_of_decode
    {source : List UInt8}
    {message : MergeMessage Single}
    (decoded : decode source = .ok message) :
    message.matrices.length = message.previous.length ∧ message.IsWordSized ∧
      HasCountableEntries message.allMatrices ∧ source = message.bytes := by
  simp only [decode, bind_eq_ok_iff, Prod.exists] at decoded
  obtain ⟨averageError, _, errorRead, converged, _, flagRead, count, _, countRead, shapes, _,
    shapesRead, family, _, entriesRead, finished⟩ := decoded
  obtain ⟨errorFits, rfl⟩ := readWord_eq_ok_iff.1 errorRead
  obtain rfl := readFlag_eq_ok_iff.1 flagRead
  obtain ⟨countFits, rfl⟩ := readWord_eq_ok_iff.1 countRead
  obtain ⟨counted, shapesFit, rfl⟩ := readShapes_eq_ok_iff.1 shapesRead
  obtain ⟨rfl, countable, rfl⟩ := readMatrices_eq_ok_iff.1 entriesRead
  split at finished
  · rename_i nothingLeft
    cases finished
    have familyLength : family.length = 2 * count := by
      simpa [Family.shapes] using counted
    have takeLength : (family.take count).length = count := by
      rw [List.length_take]
      omega
    have dropLength : (family.drop count).length = count := by
      rw [List.length_drop]
      omega
    have rejoined : family.take count ++ family.drop count = family :=
      List.take_append_drop count family
    have bitsEqual : (UInt32.ofNat averageError).toNat = averageError :=
      UInt32.toNat_ofNat_of_lt' (Nat.lt_succ_of_le errorFits)
    refine ⟨takeLength.trans dropLength.symm, ⟨?_, ?_⟩, ?_, ?_⟩
    · rw [takeLength]
      exact countFits
    · rw [allMatrices, rejoined]
      exact shapesFit
    · rw [allMatrices, rejoined]
      exact countable
    · rw [bytes, allMatrices, takeLength, rejoined, bitsEqual, List.isEmpty_iff.1 nothingLeft,
        List.append_nil]
  · cases finished

theorem decode_eq_ok_iff {source : List UInt8} {message : MergeMessage Single} :
    decode source = .ok message ↔
      message.encode = .ok source ∧ HasCountableEntries message.allMatrices := by
  constructor
  · intro decoded
    obtain ⟨paired, sized, countable, written⟩ := bytes_of_decode decoded
    exact ⟨encode_eq_ok_iff.2 ⟨paired, sized, written⟩, countable⟩
  · rintro ⟨encoded, countable⟩
    obtain ⟨paired, sized, rfl⟩ := encode_eq_ok_iff.1 encoded
    have decoded := decode_bytes_append paired sized countable []
    rw [List.append_nil] at decoded
    exact decoded

/-- The sizes of the matrices of a message that can be held in memory are countable. -/
theorem hasCountableEntries_of_length_lt
    {message : MergeMessage Single}
    (held : message.bytes.length < 2 ^ 63) :
    HasCountableEntries message.allMatrices := by
  intro matrix member
  have within := entryByteCount_le_length_bytes member
  omega

/-! ### Reading by cuts

The reader below splits matrices and families off at places that it has computed. A cut beyond the
end of a list has no result at all, which is told apart from a refusal. -/

/-- Cuts a list at a place, if the place does not lie beyond its end. -/
def cut? {α : Type} (place : Nat) (items : List α) : Option (List α × List α) :=
  if place ≤ items.length then some (items.take place, items.drop place) else none

/-- A reading that may be refused, or may come to a cut that cannot be made. -/
abbrev Cutting := ExceptT MergeFormatError Option

/-- A reading without cuts. -/
def Cutting.ofExcept {α : Type} (result : Except MergeFormatError α) : Cutting α :=
  ExceptT.mk (some result)

/-- A cut that must be possible. -/
def Cutting.cut {α : Type} (place : Nat) (items : List α) : Cutting (List α × List α) :=
  ExceptT.mk ((cut? place items).map .ok)

/-- Cuts the entries of a matrix off. -/
def cutMatrix (rows columns : Nat) (source : List UInt8) :
    Cutting (Matrix Single × List UInt8) :=
  let needed := 4 * (rows * columns)
  if 0xffffffffffffffff < needed then
    .ofExcept (.error (.sizeOverflow rows columns))
  else if source.length < needed then
    .ofExcept (.error (.truncatedMatrix rows columns needed source.length))
  else do
    let (front, rest) ← Cutting.cut needed source
    match Matrix.ofEntries? rows columns (Wire.decodeSingles front).toArray with
    | some matrix => .ofExcept (.ok (matrix, rest))
    | none => ExceptT.mk none

/-- Cuts the entries of matrices of these shapes off. -/
def cutMatrices : List (Nat × Nat) → List UInt8 → Cutting (Family Single × List UInt8)
  | [], source => .ofExcept (.ok ([], source))
  | (rows, columns) :: shapes, source => do
    let (matrix, source) ← cutMatrix rows columns source
    let (family, source) ← cutMatrices shapes source
    .ofExcept (.ok (matrix :: family, source))

/-- The message with these bytes, read by cuts. -/
def decodeByCuts (source : List UInt8) : Cutting (MergeMessage Single) := do
  let (averageError, source) ← Cutting.ofExcept (readWord source)
  let (converged, source) ← Cutting.ofExcept (readFlag source)
  let (count, source) ← Cutting.ofExcept (readWord source)
  let (shapes, source) ← Cutting.ofExcept (readShapes (2 * count) source)
  let (family, source) ← cutMatrices shapes source
  if source.isEmpty then do
    let (matrices, previous) ← Cutting.cut count family
    .ofExcept (.ok ⟨⟨UInt32.ofNat averageError⟩, converged, matrices, previous⟩)
  else
    .ofExcept (.error (.trailingBytes source.length))

private theorem ofExcept_ok_bind
    {α β : Type}
    (value : α)
    (cutting : α → Cutting β) :
    (Cutting.ofExcept (.ok value) >>= cutting) = cutting value := rfl

private theorem ofExcept_bind
    {α β : Type}
    (first : Except MergeFormatError α)
    (next : α → Except MergeFormatError β)
    {cutting : α → Cutting β}
    (agrees : ∀ value, first = .ok value → cutting value = .ofExcept (next value)) :
    (Cutting.ofExcept first >>= cutting) = .ofExcept (first >>= next) := by
  cases first with
  | error cause => rfl
  | ok value => exact agrees value rfl

theorem cut_eq
    {α : Type}
    {place : Nat}
    {items : List α}
    (within : place ≤ items.length) :
    Cutting.cut place items = .ofExcept (.ok (items.take place, items.drop place)) := by
  rw [Cutting.cut, cut?, if_pos within]
  rfl

theorem cutMatrix_eq (rows columns : Nat) (source : List UInt8) :
    cutMatrix rows columns source = .ofExcept (readMatrix rows columns source) := by
  unfold cutMatrix readMatrix
  dsimp only
  by_cases overflow : 0xffffffffffffffff < 4 * (rows * columns)
  · rw [if_pos overflow, if_pos overflow]
  · rw [if_neg overflow, if_neg overflow]
    by_cases short : source.length < 4 * (rows * columns)
    · rw [if_pos short]
      split
      · rfl
      · rename_i front rest found
        obtain ⟨rfl, whole⟩ := Wire.splitExactly?_eq_some_iff.1 found
        rw [List.length_append] at short
        omega
    · rw [if_neg short, cut_eq (Nat.not_lt.1 short)]
      have whole : (source.take (4 * (rows * columns))).length = 4 * (rows * columns) := by
        rw [List.length_take]
        omega
      have found :
          Wire.splitExactly? (4 * (rows * columns)) source =
            some (source.take (4 * (rows * columns)), source.drop (4 * (rows * columns))) :=
        Wire.splitExactly?_eq_some_iff.2 ⟨(List.take_append_drop _ _).symm, whole⟩
      have size :
          (Wire.decodeSingles (source.take (4 * (rows * columns)))).toArray.size =
            rows * columns := by
        rw [List.size_toArray, Wire.length_decodeSingles whole]
      split
      · rename_i failed
        rw [found] at failed
        cases failed
      · rename_i front rest split
        rw [found] at split
        cases split
        rw [ofExcept_ok_bind]
        dsimp only
        rw [Matrix.ofEntries?, dif_pos size]

theorem cutMatrices_eq (shapes : List (Nat × Nat)) (source : List UInt8) :
    cutMatrices shapes source = .ofExcept (readMatrices shapes source) := by
  induction shapes generalizing source with
  | nil => rfl
  | cons shape shapes inductionHypothesis =>
    rw [cutMatrices, readMatrices, cutMatrix_eq]
    apply ofExcept_bind
    rintro ⟨matrix, rest⟩ -
    dsimp only
    rw [inductionHypothesis]
    apply ofExcept_bind
    rintro ⟨family, rest⟩ -
    rfl

/-- No cut lies beyond the end, whatever is read. -/
theorem decodeByCuts_eq (source : List UInt8) :
    decodeByCuts source = .ofExcept (decode source) := by
  unfold decodeByCuts decode
  apply ofExcept_bind
  rintro ⟨averageError, afterError⟩ -
  apply ofExcept_bind
  rintro ⟨converged, afterFlag⟩ -
  apply ofExcept_bind
  rintro ⟨count, afterCount⟩ -
  apply ofExcept_bind
  rintro ⟨shapes, afterShapes⟩ shapesRead
  dsimp only
  rw [cutMatrices_eq]
  apply ofExcept_bind
  rintro ⟨family, afterEntries⟩ entriesRead
  dsimp only
  split
  · obtain ⟨counted, -, -⟩ := readShapes_eq_ok_iff.1 shapesRead
    obtain ⟨shaped, -, -⟩ := readMatrices_eq_ok_iff.1 entriesRead
    have within : count ≤ family.length := by
      have lengths : family.shapes.length = 2 * count := by rw [shaped, counted]
      simp only [Family.shapes, List.length_map] at lengths
      omega
    rw [cut_eq within]
    rfl
  · rfl

/-! ### Messages and the byte sequences that are accepted -/

/-- A message is refused exactly if its families differ in length or a number does not fit. -/
theorem encode_eq_error_iff {message : MergeMessage Single} :
    (∃ cause, message.encode = .error cause) ↔
      message.matrices.length ≠ message.previous.length ∨ ¬ message.IsWordSized := by
  have written := @encode_eq_ok_iff message message.bytes
  constructor
  · rintro ⟨cause, refused⟩
    by_contra writable
    rw [not_or, not_not, not_not] at writable
    have encoded := written.2 ⟨writable.1, writable.2, rfl⟩
    rw [refused] at encoded
    cases encoded
  · intro unwritable
    cases outcome : message.encode with
    | error cause => exact ⟨cause, rfl⟩
    | ok front =>
      obtain ⟨paired, sized, -⟩ := encode_eq_ok_iff.1 outcome
      rcases unwritable with unpaired | oversized
      · exact absurd paired unpaired
      · exact absurd sized oversized

theorem decode_append_of_decode
    {source extra : List UInt8}
    {message : MergeMessage Single}
    (decoded : decode source = .ok message)
    (more : extra ≠ []) :
    decode (source ++ extra) = .error (.trailingBytes extra.length) := by
  obtain ⟨paired, sized, countable, rfl⟩ := bytes_of_decode decoded
  rw [decode_bytes_append paired sized countable, if_neg (by simpa using more)]

theorem decode_take_of_decode
    {source : List UInt8}
    {message : MergeMessage Single}
    (decoded : decode source = .ok message)
    {count : Nat}
    (short : count < source.length) :
    ∃ cause, decode (source.take count) = .error cause := by
  cases outcome : decode (source.take count) with
  | error cause => exact ⟨cause, rfl⟩
  | ok other =>
    have missing : source.drop count ≠ [] := by
      intro nothing
      have := congrArg List.length nothing
      rw [List.length_drop, List.length_nil] at this
      omega
    have continued := decode_append_of_decode outcome missing
    rw [List.take_append_drop, decoded] at continued
    cases continued

theorem decode_of_invalid_flag
    {error flag rest : List UInt8}
    (errorWord : error.length = 4)
    (flagWord : flag.length = 4)
    (invalid : 1 < Wire.decodeNat flag) :
    decode (error ++ (flag ++ rest)) = .error (.invalidFlag (Wire.decodeNat flag)) := by
  have read (front behind : List UInt8) (word : front.length = 4) :
      readWord (front ++ behind) = .ok (Wire.decodeNat front, behind) := by
    have fits := Wire.decodeNat_lt front
    have again := Wire.encodeNat_decodeNat front
    rw [word] at fits again
    exact readWord_eq_ok_iff.2 ⟨by omega, by rw [again]⟩
  have flagRead :
      readFlag (flag ++ rest) = .error (.invalidFlag (Wire.decodeNat flag)) := by
    simp only [readFlag, read flag rest flagWord, ok_bind]
    rw [if_neg (by omega), if_neg (by omega)]
  simp only [decode, read error (flag ++ rest) errorWord, flagRead, ok_bind, error_bind]

/-- Messages of paired families whose numbers fit into words correspond one to one to the byte
sequences that are accepted, and no other message has bytes. An accepted sequence holds the entries
of every matrix that it announces; it is not accepted any more when bytes are appended to it or cut
off its end, and none is accepted with another flag than zero or one. Whatever is read, no cut lies
beyond the end of what it cuts. -/
theorem encode_decode_correspondence :
    (∀ message : MergeMessage Single,
      message.matrices.length = message.previous.length → message.IsWordSized →
        ∃ written, message.encode = .ok written ∧
          (written.length < 2 ^ 63 → decode written = .ok message)) ∧
    (∀ message : MergeMessage Single,
      (∃ cause, message.encode = .error cause) ↔
        message.matrices.length ≠ message.previous.length ∨ ¬ message.IsWordSized) ∧
    (∀ source,
      (∃ cause, decode source = .error cause ∧
        (WireError.malformedMerge cause).kind = .invalidData) ∨
      ∃ message, decode source = .ok message ∧ message.encode = .ok source) ∧
    (∀ left right message,
      decode left = .ok message → decode right = .ok message → left = right) ∧
    (∀ source message, decode source = .ok message →
      (∀ extra, extra ≠ [] →
        decode (source ++ extra) = .error (.trailingBytes extra.length)) ∧
      (∀ count, count < source.length →
        ∃ cause, decode (source.take count) = .error cause) ∧
      ∀ matrix ∈ message.matrices ++ message.previous,
        4 * (matrix.rows * matrix.columns) ≤ source.length) ∧
    (∀ error flag rest : List UInt8,
      error.length = 4 → flag.length = 4 → 1 < Wire.decodeNat flag →
        decode (error ++ (flag ++ rest)) = .error (.invalidFlag (Wire.decodeNat flag))) ∧
    (∀ source, (decodeByCuts source).run = some (decode source)) := by
  refine ⟨?_, fun message => encode_eq_error_iff, ?_, ?_, ?_, ?_, ?_⟩
  · intro message paired sized
    refine ⟨message.bytes, encode_eq_ok_iff.2 ⟨paired, sized, rfl⟩, fun held => ?_⟩
    exact decode_eq_ok_iff.2
      ⟨encode_eq_ok_iff.2 ⟨paired, sized, rfl⟩, hasCountableEntries_of_length_lt held⟩
  · intro source
    cases outcome : decode source with
    | error cause => exact .inl ⟨cause, rfl, rfl⟩
    | ok message => exact .inr ⟨message, rfl, (decode_eq_ok_iff.1 outcome).1⟩
  · intro left right message leftDecoded rightDecoded
    obtain ⟨-, -, -, rfl⟩ := bytes_of_decode leftDecoded
    obtain ⟨-, -, -, rfl⟩ := bytes_of_decode rightDecoded
    rfl
  · intro source message decoded
    refine ⟨fun extra more => decode_append_of_decode decoded more,
      fun count short => decode_take_of_decode decoded short, fun matrix member => ?_⟩
    obtain ⟨-, -, -, rfl⟩ := bytes_of_decode decoded
    exact entryByteCount_le_length_bytes member
  · intro error flag rest errorWord flagWord invalid
    exact decode_of_invalid_flag errorWord flagWord invalid
  · intro source
    rw [decodeByCuts_eq]
    rfl

/-- A message with a matrix that has columns but no rows, and with one that has an entry. -/
def sparseMessage : MergeMessage Single where
  averageError := 1
  converged := true
  matrices := [.constant 0 3 0, .constant 1 1 1]
  previous := [.constant 2 0 0, .constant 1 1 0]

theorem sparseMessage_correspondence :
    (∃ written, sparseMessage.encode = .ok written ∧ decode written = .ok sparseMessage) ∧
      decode (sparseMessage.bytes ++ [0]) = .error (.trailingBytes 1) := by
  obtain ⟨written, encoded, decoded⟩ :=
    encode_decode_correspondence.1 sparseMessage (by decide) ⟨by decide, by
      simp [sparseMessage, allMatrices, Family.shapes, FitsWords]⟩
  obtain ⟨-, -, rfl⟩ := encode_eq_ok_iff.1 encoded
  have short : sparseMessage.bytes.length < 2 ^ 63 := by decide
  obtain ⟨-, -, -, -, accepted, -⟩ := encode_decode_correspondence
  exact ⟨⟨_, encoded, decoded short⟩,
    (accepted _ _ (decoded short)).1 [0] (List.cons_ne_nil _ _)⟩

end MergeMessage

end GradientMerge
