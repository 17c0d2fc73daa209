/-!
Contract: texts as byte sequences.

Owns: the UTF-8 bytes of a text, the text of a byte sequence that is valid UTF-8, and the fact that
either of them undoes the other.

Does not own: line structure, or any other reading of the bytes.
-/

namespace GradientMerge

namespace Utf8

/-- The UTF-8 bytes of a text. -/
def encode (text : String) : List UInt8 := text.toUTF8.data.toList

/-- The text with these UTF-8 bytes, if they are valid. -/
def decode? (bytes : List UInt8) : Option String := String.fromUTF8? ⟨bytes.toArray⟩

theorem decode?_encode (text : String) : decode? (encode text) = some text := by
  have bytes_eq : (⟨(encode text).toArray⟩ : ByteArray) = text.toByteArray := by
    simp [encode, String.toUTF8]
  simp [decode?, String.fromUTF8?, bytes_eq, text.isValidUTF8, String.fromUTF8]

theorem encode_of_decode?
    {bytes : List UInt8}
    {text : String}
    (decoded : decode? bytes = some text) :
    encode text = bytes := by
  unfold decode? String.fromUTF8? at decoded
  split at decoded
  · cases decoded
    simp [encode, String.toUTF8, String.fromUTF8]
  · cases decoded

end Utf8

end GradientMerge
