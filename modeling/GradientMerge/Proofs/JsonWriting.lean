import GradientMerge.Proofs.JsonStructure

/-!
Contract: JSON text with one member or element on a line, as it is written and as readers take it.

Owns:
- the bytes of a written layout in terms of the bytes of its parts;
- the reading of keywords and of pairs;
- the failure of a whole array or record where one of its parts fails.

Does not own: the layouts of any format.
-/

namespace GradientMerge

open Outcome

/-! ### Written layouts -/

namespace JsonLayout

open Json

theorem encode_writeElements (depth : Nat) (elements : List JsonLayout) :
    Utf8.encode (writeElements depth elements) =
      furtherElements (lineBreakBytes depth)
        (elements.map fun element => Utf8.encode (write depth element)) := by
  induction elements with
  | nil => rfl
  | cons element elements inductionHypothesis =>
    simp [writeElements, furtherElements, Utf8.encode_append, encode_lineBreak, inductionHypothesis]

theorem encode_write_array (depth : Nat) (elements : List JsonLayout) :
    Utf8.encode (write depth (.array elements)) =
      arrayBytes (lineBreakBytes (depth + 1)) (lineBreakBytes depth)
        (elements.map fun element => Utf8.encode (write (depth + 1) element)) := by
  cases elements with
  | nil => rfl
  | cons element elements =>
    simp [write, arrayBytes, Utf8.encode_append, encode_lineBreak, encode_writeElements]

theorem encode_writeMember (depth : Nat) (member : String × JsonLayout) :
    Utf8.encode (writeMember depth member) =
      memberBytes [0x20] (member.1, Utf8.encode (write depth member.2)) := by
  obtain ⟨key, value⟩ := member
  simp [writeMember, memberBytes, Utf8.encode_append]

theorem encode_writeMembers (depth : Nat) (members : List (String × JsonLayout)) :
    Utf8.encode (writeMembers depth members) =
      furtherElements (lineBreakBytes depth)
        (members.map fun member =>
          memberBytes [0x20] (member.1, Utf8.encode (write depth member.2))) := by
  induction members with
  | nil => rfl
  | cons member members inductionHypothesis =>
    simp [writeMembers, furtherElements, Utf8.encode_append, encode_lineBreak, encode_writeMember,
      inductionHypothesis]

theorem encode_write_object
    (depth : Nat)
    (member : String × JsonLayout)
    (members : List (String × JsonLayout)) :
    Utf8.encode (write depth (.object (member :: members))) =
      objectBytes (lineBreakBytes (depth + 1)) [0x20] (lineBreakBytes depth)
        (member.1, Utf8.encode (write (depth + 1) member.2))
        (members.map fun member => (member.1, Utf8.encode (write (depth + 1) member.2))) := by
  simp [write, objectBytes, Utf8.encode_append, encode_lineBreak, encode_writeMember,
    encode_writeMembers, Function.comp_def]

theorem encode_write_name (depth : Nat) (text : String) :
    Utf8.encode (write depth (.name text)) = 0x22 :: (Utf8.encode text ++ [0x22]) := by
  simp [write, Utf8.encode_append]

end JsonLayout

namespace Json

section Parts

variable {σ α : Type}

theorem areBlanks_space : AreBlanks [0x20] := by
  intro byte member
  rw [List.mem_singleton.1 member]
  rfl

/-! ### Keywords and pairs -/

theorem reads_boolean (value : Bool) :
    Reads boolean (Utf8.encode (if value then "true" else "false")) value := by
  cases value with
  | true =>
    refine ⟨⟨byteOf 't', [byteOf 'r', byteOf 'u', byteOf 'e'], rfl, rfl, by decide⟩, ?_⟩
    intro blanks rest areBlanks _
    have text : Utf8.encode (if true then "true" else "false") ++ rest =
        byteOf 't' :: (byteOf 'r' :: byteOf 'u' :: byteOf 'e' :: rest) := rfl
    unfold boolean
    rw [text, skipBlanks_of_cons areBlanks rfl]
    rfl
  | false =>
    refine ⟨⟨byteOf 'f', [byteOf 'a', byteOf 'l', byteOf 's', byteOf 'e'], rfl, rfl, by decide⟩, ?_⟩
    intro blanks rest areBlanks _
    have text : Utf8.encode (if false then "true" else "false") ++ rest =
        byteOf 'f' :: (byteOf 'a' :: byteOf 'l' :: byteOf 's' :: byteOf 'e' :: rest) := rfl
    unfold boolean
    rw [text, skipBlanks_of_cons areBlanks rfl]
    rfl

theorem reads_pair
    {reader : Reader α}
    {gap close first second : List UInt8}
    {left right : α}
    (gapBlank : AreBlanks gap)
    (closeBlank : AreBlanks close)
    (readsLeft : Reads reader first left)
    (readsRight : Reads reader second right) :
    Reads (pair reader) (arrayBytes gap close [first, second]) (left, right) := by
  refine ⟨⟨_, _, rfl, rfl, by decide⟩, fun blanks rest areBlanks _ => ?_⟩
  have opens : isBlankByte (byteOf '[') = false := rfl
  have text : arrayBytes gap close [first, second] ++ rest =
      byteOf '[' :: (gap ++ (first ++ (byteOf ',' :: (gap ++ (second ++
        (close ++ byteOf ']' :: rest)))))) := by
    simp [arrayBytes, furtherElements]
  have endsFirst : EndsNumber (byteOf ',' :: (gap ++ (second ++ (close ++ byteOf ']' :: rest)))) := by
    rintro byte ⟨⟩
    decide
  have isLeft := readsLeft.reads [] _ .nil endsFirst
  have isRight := readsRight.reads [] _ .nil (endsNumber_closing closeBlank (.inl rfl) rest)
  rw [List.nil_append] at isLeft isRight
  have closes : punctuation (byteOf ']') (close ++ byteOf ']' :: rest) = .ok ((), rest) :=
    punctuation_cons closeBlank rfl rest
  unfold pair
  rw [text, skipBlanks_of_cons areBlanks opens]
  simp only [↓reduceIte, nextElement_first gapBlank readsLeft.begins, ok_bind, isLeft,
    nextElement_further gapBlank readsRight.begins, isRight, closes]

/-! ### Failures -/

/-- Whether a reader fails at a piece of text, with any blanks in front of it and any text behind it
that does not go on with a number. -/
structure Fails (reader : Reader α) (bytes : List UInt8) : Prop where
  begins : Begins bytes
  fails : ∀ blanks rest, AreBlanks blanks → EndsNumber rest →
    ∃ cause, reader (blanks ++ (bytes ++ rest)) = .error cause

theorem fails_elements
    {reader : Reader α}
    {gap piece tail : List UInt8}
    {before : List (List UInt8)}
    {values : List α}
    (gapBlank : AreBlanks gap)
    (each : List.Forall₂ (Reads reader) before values)
    (failing : Fails reader piece)
    (ends : EndsNumber tail)
    (fuel : Nat) :
    ∃ cause, elements reader fuel false (furtherElements gap (before ++ [piece]) ++ tail) =
      .error cause := by
  induction each generalizing fuel with
  | nil =>
    cases fuel with
    | zero => exact ⟨_, rfl⟩
    | succ fuel =>
      have text : furtherElements gap ([] ++ [piece]) ++ tail =
          byteOf ',' :: (gap ++ (piece ++ tail)) := by simp [furtherElements]
      obtain ⟨cause, failed⟩ := failing.fails [] tail .nil ends
      rw [List.nil_append] at failed
      refine ⟨cause, ?_⟩
      rw [text, elements, nextElement_further gapBlank failing.begins]
      simp only [ok_bind, failed, error_bind]
  | @cons first value before values reads others inductionHypothesis =>
    cases fuel with
    | zero => exact ⟨_, rfl⟩
    | succ fuel =>
      have text : furtherElements gap (first :: before ++ [piece]) ++ tail =
          byteOf ',' :: (gap ++ (first ++ (furtherElements gap (before ++ [piece]) ++ tail))) := by
        simp [furtherElements]
      have here : reader (first ++ (furtherElements gap (before ++ [piece]) ++ tail)) =
          .ok (value, _) := reads.reads [] _ .nil (endsNumber_furtherElements _ _ ends)
      obtain ⟨cause, failed⟩ := inductionHypothesis fuel
      refine ⟨cause, ?_⟩
      rw [text, elements, nextElement_further gapBlank reads.begins]
      simp only [ok_bind, here, failed, error_bind]

/-- An array fails if one of its elements fails behind elements that are read. -/
theorem fails_list
    {reader : Reader α}
    {gap close piece : List UInt8}
    {before later : List (List UInt8)}
    {values : List α}
    (gapBlank : AreBlanks gap)
    (closeBlank : AreBlanks close)
    (each : List.Forall₂ (Reads reader) before values)
    (failing : Fails reader piece) :
    Fails (list reader) (arrayBytes gap close (before ++ piece :: later)) := by
  have opens : isBlankByte (byteOf '[') = false := rfl
  have endsLater (rest : List UInt8) :
      EndsNumber (furtherElements gap later ++ (close ++ byteOf ']' :: rest)) :=
    endsNumber_furtherElements _ _ (endsNumber_closing closeBlank (.inl rfl) rest)
  cases each with
  | nil =>
    refine ⟨⟨_, _, rfl, opens, by decide⟩, fun blanks rest areBlanks _ => ?_⟩
    have text : arrayBytes gap close ([] ++ piece :: later) ++ rest =
        byteOf '[' :: (gap ++ (piece ++
          (furtherElements gap later ++ (close ++ byteOf ']' :: rest)))) := by
      simp [arrayBytes]
    obtain ⟨cause, failed⟩ := failing.fails [] _ .nil (endsLater rest)
    rw [List.nil_append] at failed
    refine ⟨cause, ?_⟩
    unfold list
    rw [text, skipBlanks_of_cons areBlanks opens]
    simp only [↓reduceIte, elements, nextElement_first gapBlank failing.begins, ok_bind, failed,
      error_bind]
  | @cons first value before values reads others =>
    refine ⟨⟨_, _, rfl, opens, by decide⟩, fun blanks rest areBlanks _ => ?_⟩
    have text : arrayBytes gap close (first :: before ++ piece :: later) ++ rest =
        byteOf '[' :: (gap ++ (first ++ (furtherElements gap (before ++ [piece]) ++
          (furtherElements gap later ++ (close ++ byteOf ']' :: rest))))) := by
      simp [arrayBytes, furtherElements]
    have here := reads.reads [] _ .nil
      (endsNumber_furtherElements gap (before ++ [piece]) (endsLater rest))
    rw [List.nil_append] at here
    obtain ⟨cause, failed⟩ := fails_elements gapBlank others failing (endsLater rest)
      (gap ++ (first ++ (furtherElements gap (before ++ [piece]) ++
        (furtherElements gap later ++ (close ++ byteOf ']' :: rest))))).length
    refine ⟨cause, ?_⟩
    unfold list
    rw [text, skipBlanks_of_cons areBlanks opens]
    simp only [↓reduceIte, elements, nextElement_first gapBlank reads.begins, ok_bind, here, failed,
      error_bind]

/-- Whether the next member fails in a record with this draft. -/
structure FailsMember (fields : List (Field σ)) (draft : σ) (key : String) (bytes : List UInt8) :
    Prop where
  plain : IsPlainName key
  fails : ∃ field, fields.find? (fun field => field.name == key) = some field ∧
    field.present draft = false ∧ Fails (field.read draft) bytes

theorem FailsMember.ofReader
    {β : Type}
    {fields : List (Field σ)}
    {name : String}
    {optional : Bool}
    {get : σ → Option β}
    {store : σ → β → σ}
    {reader : Reader β}
    {draft : σ}
    {bytes : List UInt8}
    (plain : IsPlainName name)
    (found : fields.find? (fun field => field.name == name) =
      some (.ofReader name optional get store reader))
    (missing : get draft = none)
    (failing : Fails reader bytes) :
    FailsMember fields draft name bytes := by
  refine ⟨plain, _, found, by simp [Field.ofReader, missing], failing.begins, ?_⟩
  intro blanks rest areBlanks ends
  obtain ⟨cause, failed⟩ := failing.fails blanks rest areBlanks ends
  exact ⟨cause, by simp only [Field.ofReader, failed]; rfl⟩

theorem members_of_failing
    {fields : List (Field σ)}
    {draft : σ}
    {key : String}
    {space piece bytes behind : List UInt8}
    (rule : KeyRule)
    (fuel : Nat)
    {first : Bool}
    (spaceBlank : AreBlanks space)
    (isNext : nextKey first bytes = .ok (some key, byteOf ':' :: (space ++ (piece ++ behind))))
    (failing : FailsMember fields draft key piece)
    (ends : EndsNumber behind) :
    ∃ cause, members rule fields fuel first draft bytes = .error cause := by
  obtain ⟨-, field, found, missing, -, fails⟩ := failing
  obtain ⟨cause, failed⟩ := fails space behind spaceBlank ends
  have colon (behind : List UInt8) :
      punctuation (byteOf ':') (byteOf ':' :: behind) = .ok ((), behind) :=
    punctuation_cons .nil rfl behind
  cases fuel with
  | zero => exact ⟨_, rfl⟩
  | succ fuel =>
    refine ⟨cause, ?_⟩
    rw [members, isNext]
    simp only [ok_bind, found, missing, Bool.false_and, Bool.false_eq_true, ↓reduceIte, colon,
      failed, error_bind]

theorem fails_members
    {fields : List (Field σ)}
    {draft last : σ}
    {gap space bytes tail : List UInt8}
    {key : String}
    {before : List (String × List UInt8)}
    (rule : KeyRule)
    (gapBlank : AreBlanks gap)
    (spaceBlank : AreBlanks space)
    (fills : Fills fields draft before last)
    (failing : FailsMember fields last key bytes)
    (ends : EndsNumber tail)
    (fuel : Nat) :
    ∃ cause, members rule fields fuel false draft
      (furtherElements gap ((before ++ [(key, bytes)]).map (memberBytes space)) ++ tail) =
        .error cause := by
  induction fills generalizing fuel with
  | nil draft =>
    have text : furtherElements gap (([] ++ [(key, bytes)]).map (memberBytes space)) ++ tail =
        byteOf ',' :: (gap ++ 0x22 :: (Utf8.encode key ++ 0x22 :: byteOf ':' ::
          (space ++ (bytes ++ tail)))) := by
      simp [furtherElements, memberBytes]
    rw [text]
    exact members_of_failing rule fuel spaceBlank (nextKey_further gapBlank failing.plain _)
      failing ends
  | @cons draft next last name piece field before plain found missing reads others
      inductionHypothesis =>
    cases fuel with
    | zero => exact ⟨_, rfl⟩
    | succ fuel =>
      have text : furtherElements gap
            (((name, piece) :: before ++ [(key, bytes)]).map (memberBytes space)) ++ tail =
          byteOf ',' :: (gap ++ 0x22 :: (Utf8.encode name ++ 0x22 :: byteOf ':' ::
            (space ++ (piece ++ (furtherElements gap
              ((before ++ [(key, bytes)]).map (memberBytes space)) ++ tail))))) := by
        simp [furtherElements, memberBytes]
      rw [text, members_of_key fuel spaceBlank (nextKey_further gapBlank plain _) found missing
        reads (endsNumber_furtherElements _ _ ends)]
      exact inductionHypothesis failing fuel

/-- A record fails if one of its members fails behind members that fill its draft. -/
theorem fails_record
    {rule : KeyRule}
    {fields : List (Field σ)}
    {draft last : σ}
    {finish : σ → Option α}
    {gap space close bytes : List UInt8}
    {key : String}
    {member : String × List UInt8}
    {before : List (String × List UInt8)}
    (later : List (String × List UInt8))
    (gapBlank : AreBlanks gap)
    (spaceBlank : AreBlanks space)
    (closeBlank : AreBlanks close)
    (fills : Fills fields draft (member :: before) last)
    (failing : FailsMember fields last key bytes) :
    Fails (record rule fields draft finish)
      (objectBytes gap space close member (before ++ (key, bytes) :: later)) := by
  refine ⟨⟨_, _, rfl, rfl, by decide⟩, fun blanks rest areBlanks _ => ?_⟩
  cases fills with
  | @cons _ next _ name piece field _ plain found missing reads others =>
    have text : objectBytes gap space close (name, piece) (before ++ (key, bytes) :: later) ++ rest =
        0x7b :: (gap ++ 0x22 :: (Utf8.encode name ++ 0x22 :: byteOf ':' ::
          (space ++ (piece ++ (furtherElements gap
            ((before ++ [(key, bytes)]).map (memberBytes space)) ++
              (furtherElements gap (later.map (memberBytes space)) ++
                (close ++ 0x7d :: rest))))))) := by
      simp [objectBytes, memberBytes, furtherElements]
    have ends := endsNumber_furtherElements gap (later.map (memberBytes space))
      (endsNumber_closing closeBlank (.inr rfl) rest)
    obtain ⟨cause, failed⟩ := fails_members rule gapBlank spaceBlank others failing ends
      (gap ++ 0x22 :: (Utf8.encode name ++ 0x22 :: byteOf ':' :: (space ++ (piece ++
        (furtherElements gap ((before ++ [(key, bytes)]).map (memberBytes space)) ++
          (furtherElements gap (later.map (memberBytes space)) ++
            (close ++ 0x7d :: rest))))))).length
    refine ⟨cause, ?_⟩
    unfold record
    rw [text, skipBlanks_of_cons areBlanks rfl]
    simp only [↓reduceIte]
    rw [members_of_key _ spaceBlank (nextKey_first gapBlank plain _) found missing reads
      (endsNumber_furtherElements _ _ ends), failed]
    rfl

theorem document_of_fails
    {reader : Reader α}
    {bytes : List UInt8}
    (failing : Fails reader bytes) :
    ∃ cause, document reader bytes = .error cause := by
  obtain ⟨cause, failed⟩ := failing.fails [] [] .nil (fun byte member => nomatch member)
  rw [List.nil_append, List.append_nil] at failed
  exact ⟨cause, by rw [document, failed, error_bind]⟩

end Parts

end Json

end GradientMerge
