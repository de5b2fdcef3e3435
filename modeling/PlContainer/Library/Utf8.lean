import Mathlib.Data.List.Basic

set_option autoImplicit false

/-! # UTF-8 on lists of bytes

The encoding of a text is put together from those of its characters. Decoding is the inverse: it gives
the one text with these bytes, or nothing if there is none. -/

namespace Utf8

def encode (text : List Char) : List UInt8 := text.flatMap String.utf8EncodeChar

/-- A strict decoder: overlong forms, surrogates and stray bytes are refused. -/
def decode (bytes : List UInt8) : Option (List Char) := bytes.toByteArray.utf8Decode?.map Array.toList

theorem decode_encode (text : List Char) : decode (encode text) = some text := by
  have h : (encode text).toByteArray = text.utf8Encode := rfl
  rw [decode, h, List.utf8Decode?_utf8Encode, Option.map_some]

theorem decode_eq_some {bytes : List UInt8} {text : List Char} :
    decode bytes = some text ↔ encode text = bytes := by
  constructor
  · intro h
    -- only the encoding of some text is decoded
    have hvalid : bytes.toByteArray.IsValidUTF8 := by
      rw [← ByteArray.isSome_utf8Decode?_iff]
      obtain ⟨chars, hchars, -⟩ := Option.map_eq_some_iff.1 h
      rw [hchars, Option.isSome_some]
    obtain ⟨other, hother⟩ := hvalid
    obtain rfl : bytes = encode other := List.toByteArray_inj.1 hother
    rw [decode_encode, Option.some.injEq] at h
    rw [h]
  · rintro rfl
    exact decode_encode text

end Utf8
