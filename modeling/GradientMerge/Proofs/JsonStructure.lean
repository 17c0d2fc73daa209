import Mathlib.Data.List.Forall2
import GradientMerge.Proofs.JsonTokens

/-!
Contract: what the readers of JSON make of arrays, records and choices that are written.

Records are read into a draft that is filled member by member. What a draft becomes is said once, as
a chain of members, and then holds for a record on one line and for one with a member on each line.

Owns: the reading of written arrays, pairs, objects and names, and of whole documents.

Does not own: the records of any format.
-/

namespace GradientMerge

open Outcome

namespace Json

section Structure

variable {σ α : Type}

theorem quote_visible : isBlankByte 0x22 = false := rfl

/-! ### Names -/

theorem choice_name
    {alternatives : List (Alternative α)}
    {name : String}
    {value : α}
    (plain : IsPlainName name)
    (found : alternatives.find? (fun alternative => alternative.name == name) =
      some ⟨name, .inl value⟩) :
    Reads (choice alternatives) (0x22 :: (Utf8.encode name ++ [0x22])) value := by
  refine ⟨⟨_, _, rfl, rfl, by decide⟩, fun blanks rest areBlanks ends => ?_⟩
  have text : blanks ++ (0x22 :: (Utf8.encode name ++ [0x22]) ++ rest) =
      blanks ++ 0x22 :: (Utf8.encode name ++ 0x22 :: rest) := by simp
  rw [text]
  unfold choice
  rw [skipBlanks_of_cons areBlanks quote_visible]
  simp only [↓reduceIte, quoted_plain plain, ok_bind, found]

/-- An object with the name of an alternative as its only key. -/
theorem choice_object
    {alternatives : List (Alternative α)}
    {reader : Reader α}
    {name : String}
    {bytes : List UInt8}
    {value : α}
    (plain : IsPlainName name)
    (found : alternatives.find? (fun alternative => alternative.name == name) =
      some ⟨name, .inr reader⟩)
    (content : Reads reader bytes value) :
    Reads (choice alternatives)
      (0x7b :: 0x22 :: (Utf8.encode name ++ 0x22 :: byteOf ':' :: (bytes ++ [0x7d]))) value := by
  refine ⟨⟨_, _, rfl, rfl, by decide⟩, fun blanks rest areBlanks ends => ?_⟩
  have text : blanks ++ (0x7b :: 0x22 :: (Utf8.encode name ++ 0x22 :: byteOf ':' ::
      (bytes ++ [0x7d])) ++ rest) =
      blanks ++ 0x7b :: 0x22 :: (Utf8.encode name ++ 0x22 :: byteOf ':' ::
        (bytes ++ 0x7d :: rest)) := by simp
  have brace : isBlankByte 0x7b = false := rfl
  have closes : EndsNumber (0x7d :: rest) := by
    rintro byte ⟨⟩
    decide
  have colon (behind : List UInt8) :
      punctuation (byteOf ':') (byteOf ':' :: behind) = .ok ((), behind) :=
    punctuation_cons .nil rfl behind
  have close : punctuation 0x7d (0x7d :: rest) = .ok ((), rest) := punctuation_cons .nil rfl rest
  have inner : reader (bytes ++ 0x7d :: rest) = .ok (value, 0x7d :: rest) :=
    content.reads [] _ .nil closes
  have key (behind : List UInt8) : quotedOnly (0x22 :: (Utf8.encode name ++ 0x22 :: behind)) =
      .ok (name, behind) := quoted_plain plain behind
  rw [text]
  unfold choice
  rw [skipBlanks_of_cons areBlanks brace]
  simp only [show (0x7b : UInt8) ≠ 0x22 by decide, ↓reduceIte, key, ok_bind, found, colon, inner,
    close]

/-! ### Arrays -/

/-- The texts of the elements behind the first one, each behind a comma and blanks. -/
def furtherElements (gap : List UInt8) (pieces : List (List UInt8)) : List UInt8 :=
  pieces.flatMap fun piece => byteOf ',' :: (gap ++ piece)

theorem length_le_furtherElements (gap : List UInt8) (pieces : List (List UInt8)) :
    pieces.length ≤ (furtherElements gap pieces).length := by
  induction pieces with
  | nil => exact Nat.le_refl _
  | cons piece pieces inductionHypothesis =>
    simp only [furtherElements, List.flatMap_cons, List.length_append, List.length_cons]
      at inductionHypothesis ⊢
    omega

theorem endsNumber_furtherElements
    {behind : List UInt8}
    (gap : List UInt8)
    (pieces : List (List UInt8))
    (ends : EndsNumber behind) :
    EndsNumber (furtherElements gap pieces ++ behind) := by
  cases pieces with
  | nil => exact ends
  | cons piece pieces =>
    rintro byte ⟨⟩
    decide

theorem endsNumber_closing
    {close : List UInt8}
    (areBlanks : AreBlanks close)
    {bracket : UInt8}
    (isBracket : bracket = byteOf ']' ∨ bracket = 0x7d)
    (rest : List UInt8) :
    EndsNumber (close ++ bracket :: rest) := by
  cases close with
  | nil =>
    rintro byte ⟨⟩
    rcases isBracket with rfl | rfl
    · decide
    · decide
  | cons blank close =>
    rintro byte ⟨⟩
    have isBlank : isBlankByte blank := areBlanks blank List.mem_cons_self
    simp only [isBlankByte, Bool.or_eq_true, beq_iff_eq] at isBlank
    rcases isBlank with ((rfl | rfl) | rfl) | rfl <;> decide

theorem nextElement_first
    {blanks bytes : List UInt8}
    (areBlanks : AreBlanks blanks)
    (begins : Begins bytes)
    (rest : List UInt8) :
    nextElement true (blanks ++ (bytes ++ rest)) = .ok (some (bytes ++ rest), bytes ++ rest) := by
  obtain ⟨byte, others, rfl, visible, notClosing⟩ := begins
  unfold nextElement
  rw [List.cons_append, skipBlanks_of_cons areBlanks visible]
  simp only [if_neg notClosing, ↓reduceIte]

theorem nextElement_further
    {gap bytes : List UInt8}
    (areBlanks : AreBlanks gap)
    (begins : Begins bytes)
    (rest : List UInt8) :
    nextElement false (byteOf ',' :: (gap ++ (bytes ++ rest))) =
      .ok (some (bytes ++ rest), bytes ++ rest) := by
  obtain ⟨byte, others, rfl, visible, notClosing⟩ := begins
  have comma : skipBlanks (byteOf ',' :: (gap ++ (byte :: others ++ rest))) =
      byteOf ',' :: (gap ++ (byte :: others ++ rest)) := skipBlanks_of_cons .nil rfl _
  have notClosed : byteOf ',' ≠ byteOf ']' := by decide
  unfold nextElement
  rw [comma]
  simp only [if_neg notClosed, Bool.false_eq_true, ↓reduceIte]
  rw [List.cons_append, skipBlanks_of_cons areBlanks visible]
  simp only [if_neg notClosing]

theorem nextElement_closing
    {close : List UInt8}
    (areBlanks : AreBlanks close)
    (first : Bool)
    (rest : List UInt8) :
    nextElement first (close ++ byteOf ']' :: rest) = .ok (none, rest) := by
  unfold nextElement
  rw [skipBlanks_of_cons areBlanks rfl]
  simp only [↓reduceIte]

theorem elements_further
    {reader : Reader α}
    {gap close : List UInt8}
    {pieces : List (List UInt8)}
    {values : List α}
    (gapBlank : AreBlanks gap)
    (closeBlank : AreBlanks close)
    (each : List.Forall₂ (Reads reader) pieces values)
    {fuel : Nat}
    (enough : pieces.length < fuel)
    (rest : List UInt8) :
    elements reader fuel false (furtherElements gap pieces ++ (close ++ byteOf ']' :: rest)) =
      .ok (values, rest) := by
  induction each generalizing fuel with
  | nil =>
    cases fuel with
    | zero => cases enough
    | succ fuel =>
      simp only [elements, furtherElements, List.flatMap_nil, List.nil_append,
        nextElement_closing closeBlank, ok_bind]
  | @cons piece value pieces values reads others inductionHypothesis =>
    cases fuel with
    | zero => cases enough
    | succ fuel =>
      have text : furtherElements gap (piece :: pieces) ++ (close ++ byteOf ']' :: rest) =
          byteOf ',' :: (gap ++ (piece ++
            (furtherElements gap pieces ++ (close ++ byteOf ']' :: rest)))) := by
        simp [furtherElements]
      have ends := endsNumber_furtherElements gap pieces
        (endsNumber_closing closeBlank (.inl rfl) rest)
      have here : reader (piece ++ (furtherElements gap pieces ++ (close ++ byteOf ']' :: rest))) =
          .ok (value, _) := reads.reads [] _ .nil ends
      rw [text, elements, nextElement_further gapBlank reads.begins]
      simp only [ok_bind, here, inductionHypothesis (Nat.lt_of_succ_lt_succ enough)]

/-- The text of an array: nothing between the brackets, or blanks in front of every element and
behind the last one. -/
def arrayBytes (gap close : List UInt8) : List (List UInt8) → List UInt8
  | [] => [byteOf '[', byteOf ']']
  | piece :: pieces =>
    byteOf '[' :: (gap ++ (piece ++ (furtherElements gap pieces ++ (close ++ [byteOf ']']))))

theorem reads_list
    {reader : Reader α}
    {gap close : List UInt8}
    {pieces : List (List UInt8)}
    {values : List α}
    (gapBlank : AreBlanks gap)
    (closeBlank : AreBlanks close)
    (each : List.Forall₂ (Reads reader) pieces values) :
    Reads (list reader) (arrayBytes gap close pieces) values := by
  have opens : isBlankByte (byteOf '[') = false := rfl
  have notClosing : byteOf '[' ≠ byteOf ']' := by decide
  cases each with
  | nil =>
    refine ⟨⟨_, _, rfl, opens, notClosing⟩, fun blanks rest areBlanks _ => ?_⟩
    have closes : nextElement true (byteOf ']' :: rest) = .ok (none, rest) :=
      nextElement_closing .nil true rest
    unfold list
    rw [arrayBytes, List.cons_append, skipBlanks_of_cons areBlanks opens]
    simp only [↓reduceIte, List.cons_append, List.nil_append, elements, closes, ok_bind]
  | @cons piece value pieces values reads others =>
    refine ⟨⟨_, _, rfl, opens, notClosing⟩, fun blanks rest areBlanks _ => ?_⟩
    have text : arrayBytes gap close (piece :: pieces) ++ rest =
        byteOf '[' :: (gap ++ (piece ++
          (furtherElements gap pieces ++ (close ++ byteOf ']' :: rest)))) := by
      simp [arrayBytes]
    have ends := endsNumber_furtherElements gap pieces
      (endsNumber_closing closeBlank (.inl rfl) rest)
    have here : reader (piece ++ (furtherElements gap pieces ++ (close ++ byteOf ']' :: rest))) =
        .ok (value, _) := reads.reads [] _ .nil ends
    have enough : pieces.length < (gap ++ (piece ++
        (furtherElements gap pieces ++ (close ++ byteOf ']' :: rest)))).length := by
      have each := length_le_furtherElements gap pieces
      simp only [List.length_append, List.length_cons]
      omega
    unfold list
    rw [text, skipBlanks_of_cons areBlanks opens]
    simp only [↓reduceIte, elements, nextElement_first gapBlank reads.begins, ok_bind, here,
      elements_further gapBlank closeBlank others enough]

/-! ### Records -/

/-- The text of a member: its key in quotes, a colon, blanks and its value. -/
def memberBytes (space : List UInt8) (member : String × List UInt8) : List UInt8 :=
  0x22 :: (Utf8.encode member.1 ++ 0x22 :: byteOf ':' :: (space ++ member.2))

/-- The text of an object with members. -/
def objectBytes (gap space close : List UInt8) (member : String × List UInt8)
    (members : List (String × List UInt8)) : List UInt8 :=
  0x7b :: (gap ++ (memberBytes space member ++
    (furtherElements gap (members.map (memberBytes space)) ++ (close ++ [0x7d]))))

/-- Whether members, one after the other, take a draft to another one. -/
inductive Fills (fields : List (Field σ)) : σ → List (String × List UInt8) → σ → Prop
  | nil (draft : σ) : Fills fields draft [] draft
  | cons {draft next last : σ} {key : String} {bytes : List UInt8} {field : Field σ}
      {members : List (String × List UInt8)}
      (plain : IsPlainName key)
      (found : fields.find? (fun field => field.name == key) = some field)
      (missing : field.present draft = false)
      (reads : ∀ blanks rest, AreBlanks blanks → EndsNumber rest →
        field.read draft (blanks ++ (bytes ++ rest)) = .ok (next, rest))
      (others : Fills fields next members last) :
      Fills fields draft ((key, bytes) :: members) last

/-- A member whose value a field reads. -/
theorem Fills.ofReader
    {β : Type}
    {fields : List (Field σ)}
    {name : String}
    {optional : Bool}
    {get : σ → Option β}
    {store : σ → β → σ}
    {reader : Reader β}
    {draft last : σ}
    {bytes : List UInt8}
    {value : β}
    {members : List (String × List UInt8)}
    (plain : IsPlainName name)
    (found : fields.find? (fun field => field.name == name) =
      some (.ofReader name optional get store reader))
    (missing : get draft = none)
    (reads : Reads reader bytes value)
    (others : Fills fields (store draft value) members last) :
    Fills fields draft ((name, bytes) :: members) last := by
  refine .cons plain found ?_ (fun blanks rest areBlanks ends => ?_) others
  · simp [Field.ofReader, missing]
  · simp only [Field.ofReader, reads.reads blanks rest areBlanks ends]
    rfl

theorem nextKey_first
    {gap : List UInt8}
    (areBlanks : AreBlanks gap)
    {key : String}
    (plain : IsPlainName key)
    (rest : List UInt8) :
    nextKey true (gap ++ 0x22 :: (Utf8.encode key ++ 0x22 :: rest)) = .ok (some key, rest) := by
  unfold nextKey
  rw [skipBlanks_of_cons areBlanks quote_visible]
  simp only [show (0x22 : UInt8) ≠ 0x7d by decide, ↓reduceIte, quoted_plain plain]
  rfl

theorem nextKey_further
    {gap : List UInt8}
    (areBlanks : AreBlanks gap)
    {key : String}
    (plain : IsPlainName key)
    (rest : List UInt8) :
    nextKey false (byteOf ',' :: (gap ++ 0x22 :: (Utf8.encode key ++ 0x22 :: rest))) =
      .ok (some key, rest) := by
  have comma (behind : List UInt8) : skipBlanks (byteOf ',' :: behind) = byteOf ',' :: behind :=
    skipBlanks_of_cons .nil rfl behind
  unfold nextKey
  rw [comma]
  simp only [show byteOf ',' ≠ 0x7d by decide, ↓reduceIte, Bool.false_eq_true,
    skipBlanks_of_cons areBlanks quote_visible, quoted_plain plain]
  rfl

theorem nextKey_closing
    {close : List UInt8}
    (areBlanks : AreBlanks close)
    (first : Bool)
    (rest : List UInt8) :
    nextKey first (close ++ 0x7d :: rest) = .ok (none, rest) := by
  unfold nextKey
  rw [skipBlanks_of_cons areBlanks rfl]
  simp only [↓reduceIte]

/-- What follows a key is read into the draft. -/
theorem members_of_key
    {rule : KeyRule}
    {fields : List (Field σ)}
    {field : Field σ}
    {draft next : σ}
    {key : String}
    {space piece bytes behind : List UInt8}
    (fuel : Nat)
    {first : Bool}
    (spaceBlank : AreBlanks space)
    (isNext : nextKey first bytes = .ok (some key, byteOf ':' :: (space ++ (piece ++ behind))))
    (found : fields.find? (fun field => field.name == key) = some field)
    (missing : field.present draft = false)
    (reads : ∀ blanks rest, AreBlanks blanks → EndsNumber rest →
      field.read draft (blanks ++ (piece ++ rest)) = .ok (next, rest))
    (ends : EndsNumber behind) :
    members rule fields (fuel + 1) first draft bytes =
      members rule fields fuel false next behind := by
  have colon (behind : List UInt8) :
      punctuation (byteOf ':') (byteOf ':' :: behind) = .ok ((), behind) :=
    punctuation_cons .nil rfl behind
  rw [members, isNext]
  simp only [ok_bind, found, missing, Bool.false_and, Bool.false_eq_true, ↓reduceIte, colon,
    reads space behind spaceBlank ends]

theorem members_further
    {rule : KeyRule}
    {fields : List (Field σ)}
    {draft last : σ}
    {gap space close : List UInt8}
    {pieces : List (String × List UInt8)}
    (gapBlank : AreBlanks gap)
    (spaceBlank : AreBlanks space)
    (closeBlank : AreBlanks close)
    (fills : Fills fields draft pieces last)
    {fuel : Nat}
    (enough : pieces.length < fuel)
    (rest : List UInt8) :
    members rule fields fuel false draft
        (furtherElements gap (pieces.map (memberBytes space)) ++ (close ++ 0x7d :: rest)) =
      .ok (last, rest) := by
  induction fills generalizing fuel with
  | nil draft =>
    cases fuel with
    | zero => cases enough
    | succ fuel =>
      simp only [members, furtherElements, List.map_nil, List.flatMap_nil, List.nil_append,
        nextKey_closing closeBlank, ok_bind]
  | @cons draft next last key bytes field pieces plain found missing reads others
      inductionHypothesis =>
    cases fuel with
    | zero => cases enough
    | succ fuel =>
      have text : furtherElements gap (((key, bytes) :: pieces).map (memberBytes space)) ++
          (close ++ 0x7d :: rest) =
          byteOf ',' :: (gap ++ 0x22 :: (Utf8.encode key ++ 0x22 :: byteOf ':' ::
            (space ++ (bytes ++ (furtherElements gap (pieces.map (memberBytes space)) ++
              (close ++ 0x7d :: rest)))))) := by
        simp [furtherElements, memberBytes]
      rw [text, members_of_key fuel spaceBlank (nextKey_further gapBlank plain _) found missing reads
        (endsNumber_furtherElements _ _ (endsNumber_closing closeBlank (.inr rfl) rest))]
      exact inductionHypothesis (Nat.lt_of_succ_lt_succ enough)

/-- An object is read into a record if its members fill the draft of one. -/
theorem reads_record
    {rule : KeyRule}
    {fields : List (Field σ)}
    {draft last : σ}
    {finish : σ → Option α}
    {value : α}
    {gap space close : List UInt8}
    {member : String × List UInt8}
    {pieces : List (String × List UInt8)}
    (gapBlank : AreBlanks gap)
    (spaceBlank : AreBlanks space)
    (closeBlank : AreBlanks close)
    (fills : Fills fields draft (member :: pieces) last)
    (finished : finish last = some value) :
    Reads (record rule fields draft finish) (objectBytes gap space close member pieces) value := by
  refine ⟨⟨_, _, rfl, rfl, by decide⟩, fun blanks rest areBlanks _ => ?_⟩
  cases fills with
  | @cons _ next _ key bytes field _ plain found missing reads others =>
    have text : objectBytes gap space close (key, bytes) pieces ++ rest =
        0x7b :: (gap ++ 0x22 :: (Utf8.encode key ++ 0x22 :: byteOf ':' ::
          (space ++ (bytes ++ (furtherElements gap (pieces.map (memberBytes space)) ++
            (close ++ 0x7d :: rest)))))) := by
      simp [objectBytes, memberBytes]
    have ends := endsNumber_furtherElements gap (pieces.map (memberBytes space))
      (endsNumber_closing closeBlank (.inr rfl) rest)
    have enough : pieces.length < (gap ++ 0x22 :: (Utf8.encode key ++ 0x22 :: byteOf ':' ::
          (space ++ (bytes ++ (furtherElements gap (pieces.map (memberBytes space)) ++
            (close ++ 0x7d :: rest)))))).length := by
      have each := length_le_furtherElements gap (pieces.map (memberBytes space))
      rw [List.length_map] at each
      simp only [List.length_append, List.length_cons]
      omega
    unfold record
    rw [text, skipBlanks_of_cons areBlanks rfl]
    simp only [↓reduceIte]
    rw [members_of_key _ spaceBlank (nextKey_first gapBlank plain _) found missing reads ends,
      members_further gapBlank spaceBlank closeBlank others enough rest]
    simp only [Except.bind, finished]

/-! ### Documents -/

theorem document_of_reads
    {reader : Reader α}
    {bytes : List UInt8}
    {value : α}
    (reads : Reads reader bytes value) :
    document reader bytes = .ok value := by
  have whole := reads.reads [] [] .nil (fun byte member => nomatch member)
  rw [List.nil_append, List.append_nil] at whole
  unfold document
  rw [whole, ok_bind]
  rfl

end Structure

end Json

end GradientMerge
