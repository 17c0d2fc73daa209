import GradientMerge.Wire.Word
import Mathlib.Tactic.Ring

/-!
Contract: numbers of fixed width and their bytes determine each other.

Owns:
- the round trips between natural numbers below a power of 256 and their bytes;
- the exact condition under which a number can be split off a byte sequence;
- the round trips between single-precision numbers and their bytes.

Does not own: the records that are made of such numbers.
-/

namespace GradientMerge

namespace Wire

/-! ### Natural numbers -/

private theorem foldl_bytes_eq (bytes : List UInt8) (start : Nat) :
    bytes.foldl (fun value byte => 256 * value + byte.toNat) start =
      start * 256 ^ bytes.length + decodeNat bytes := by
  unfold decodeNat
  induction bytes generalizing start with
  | nil => simp
  | cons byte bytes inductionHypothesis =>
    rw [List.foldl_cons, List.foldl_cons, inductionHypothesis,
      inductionHypothesis (256 * 0 + byte.toNat), List.length_cons, Nat.pow_succ]
    ring

/-- The first byte is the most significant one. -/
theorem decodeNat_cons (byte : UInt8) (bytes : List UInt8) :
    decodeNat (byte :: bytes) = byte.toNat * 256 ^ bytes.length + decodeNat bytes := by
  have folded := foldl_bytes_eq bytes (256 * 0 + byte.toNat)
  simpa [decodeNat] using folded

theorem decodeNat_lt (bytes : List UInt8) : decodeNat bytes < 256 ^ bytes.length := by
  induction bytes with
  | nil => decide
  | cons byte bytes inductionHypothesis =>
    have byteLt : byte.toNat < 256 := byte.toNat_lt
    rw [decodeNat_cons, List.length_cons, Nat.pow_succ]
    calc byte.toNat * 256 ^ bytes.length + decodeNat bytes
        < byte.toNat * 256 ^ bytes.length + 256 ^ bytes.length := by omega
      _ = (byte.toNat + 1) * 256 ^ bytes.length := by ring
      _ ≤ 256 * 256 ^ bytes.length := Nat.mul_le_mul_right _ byteLt
      _ = 256 ^ bytes.length * 256 := Nat.mul_comm _ _

theorem encodeNat_succ (width value : Nat) :
    encodeNat (width + 1) value =
      UInt8.ofNat (value / 256 ^ width) :: encodeNat width value := rfl

/-- Reading the bytes of a number gives it back up to the bytes that were left out. -/
theorem decodeNat_encodeNat (width value : Nat) :
    decodeNat (encodeNat width value) = value % 256 ^ width := by
  induction width with
  | zero => simp [encodeNat, decodeNat, Nat.mod_one]
  | succ width inductionHypothesis =>
    rw [encodeNat_succ, decodeNat_cons, length_encodeNat, inductionHypothesis, Nat.mod_pow_succ]
    simp only [UInt8.toNat_ofNat']
    ring

theorem decodeNat_encodeNat_of_lt
    {width value : Nat}
    (fits : value < 256 ^ width) :
    decodeNat (encodeNat width value) = value := by
  rw [decodeNat_encodeNat, Nat.mod_eq_of_lt fits]

/-- The bytes of a number do not depend on what lies above its width. -/
private theorem encodeNat_add_mul (width value above : Nat) :
    encodeNat width (above * 256 ^ width + value) = encodeNat width value := by
  induction width generalizing above with
  | zero => rfl
  | succ width inductionHypothesis =>
    have shifted : above * 256 ^ (width + 1) + value = above * 256 * 256 ^ width + value := by
      rw [Nat.pow_succ]
      ring
    have quotient :
        (above * 256 * 256 ^ width + value) / 256 ^ width =
          above * 256 + value / 256 ^ width := by
      rw [Nat.add_comm, Nat.add_mul_div_right _ _ (Nat.pow_pos (by decide)), Nat.add_comm]
    rw [encodeNat_succ, encodeNat_succ, shifted, quotient, inductionHypothesis]
    congr 1
    apply UInt8.toNat_inj.1
    simp

/-- Writing the number of bytes with their count gives them back. -/
theorem encodeNat_decodeNat (bytes : List UInt8) :
    encodeNat bytes.length (decodeNat bytes) = bytes := by
  induction bytes with
  | nil => rfl
  | cons byte bytes inductionHypothesis =>
    have quotient :
        (byte.toNat * 256 ^ bytes.length + decodeNat bytes) / 256 ^ bytes.length =
          byte.toNat := by
      rw [Nat.add_comm, Nat.add_mul_div_right _ _ (Nat.pow_pos (by decide)),
        Nat.div_eq_of_lt (decodeNat_lt bytes), Nat.zero_add]
    rw [List.length_cons, encodeNat_succ, decodeNat_cons, quotient, encodeNat_add_mul,
      inductionHypothesis, UInt8.ofNat_toNat]

/-- A number is split off exactly where its bytes stand in front. -/
theorem splitNat?_eq_some_iff
    {width value : Nat}
    {bytes rest : List UInt8} :
    splitNat? width bytes = some (value, rest) ↔
      value < 256 ^ width ∧ bytes = encodeNat width value ++ rest := by
  simp only [splitNat?, Option.map_eq_some_iff, Prod.mk.injEq, Prod.exists]
  constructor
  · rintro ⟨front, behind, split, rfl, rfl⟩
    obtain ⟨rfl, rfl⟩ := splitExactly?_eq_some_iff.1 split
    exact ⟨decodeNat_lt front, by rw [encodeNat_decodeNat]⟩
  · rintro ⟨fits, rfl⟩
    exact ⟨encodeNat width value, rest,
      splitExactly?_eq_some_iff.2 ⟨rfl, length_encodeNat width value⟩,
      decodeNat_encodeNat_of_lt fits, rfl⟩

/-! ### Single-precision numbers -/

theorem decodeSingles_append
    (first second third fourth : UInt8)
    (rest : List UInt8) :
    decodeSingles (first :: second :: third :: fourth :: rest) =
      ⟨UInt32.ofNat (decodeNat [fourth, third, second, first])⟩ :: decodeSingles rest := rfl

private theorem decodeSingles_encodeSingle (value : Single) (rest : List UInt8) :
    decodeSingles (encodeSingle value ++ rest) = value :: decodeSingles rest := by
  have word : UInt32.ofNat (decodeNat (encodeNat 4 value.bits.toNat)) = value.bits := by
    rw [decodeNat_encodeNat_of_lt value.bits.toNat_lt, UInt32.ofNat_toNat]
  have bytes :
      ∀ word : Nat, encodeNat 4 word =
        [UInt8.ofNat (word / 256 ^ 3), UInt8.ofNat (word / 256 ^ 2),
          UInt8.ofNat (word / 256 ^ 1), UInt8.ofNat (word / 256 ^ 0)] := fun _ => rfl
  rw [bytes] at word
  rw [encodeSingle, bytes]
  simp only [List.reverse_cons, List.reverse_nil, List.nil_append, List.cons_append,
    decodeSingles_append, word]

/-- Reading the bytes of numbers gives them back bit for bit. -/
theorem decodeSingles_encodeSingles (values : List Single) :
    decodeSingles (encodeSingles values) = values := by
  induction values with
  | nil => rfl
  | cons value values inductionHypothesis =>
    rw [encodeSingles, List.flatMap_cons, decodeSingles_encodeSingle]
    exact congrArg (value :: ·) inductionHypothesis

private theorem encodeSingle_ofNat_decodeNat (first second third fourth : UInt8) :
    encodeSingle ⟨UInt32.ofNat (decodeNat [fourth, third, second, first])⟩ =
      [first, second, third, fourth] := by
  have fits : decodeNat [fourth, third, second, first] < 2 ^ 32 := by
    have bound := decodeNat_lt [fourth, third, second, first]
    simpa using bound
  have bytes := encodeNat_decodeNat [fourth, third, second, first]
  rw [encodeSingle, UInt32.toNat_ofNat_of_lt' fits]
  change (encodeNat [fourth, third, second, first].length _).reverse = _
  rw [bytes]
  rfl

/-- Writing the numbers of bytes gives the bytes back, if they are the bytes of whole numbers. -/
theorem encodeSingles_decodeSingles
    {count : Nat}
    {bytes : List UInt8}
    (whole : bytes.length = 4 * count) :
    encodeSingles (decodeSingles bytes) = bytes := by
  induction count generalizing bytes with
  | zero =>
    rw [List.length_eq_zero_iff.1 whole]
    rfl
  | succ count inductionHypothesis =>
    match bytes, whole with
    | first :: second :: third :: fourth :: rest, whole =>
      have restWhole : rest.length = 4 * count := by
        simp only [List.length_cons] at whole
        omega
      rw [decodeSingles_append, encodeSingles, List.flatMap_cons, encodeSingle_ofNat_decodeNat]
      exact congrArg ([first, second, third, fourth] ++ ·) (inductionHypothesis restWhole)

end Wire

end GradientMerge
