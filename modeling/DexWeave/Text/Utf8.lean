/-
  DexWeave/Text/Utf8.lean --- text as bytes.

  WHAT THIS FILE IS FOR.  Strings are stored, and digested, as their UTF-8 bytes.
  Decoding refuses every byte string that is not the encoding of some text, so the
  two directions are inverse to each other.
-/
import DexWeave.Bytes

set_option autoImplicit false

namespace DexWeave.Utf8

/-- The UTF-8 bytes of a text. -/
def encode (s : String) : Bytes := s.toByteArray.data.toList

/-- The text whose UTF-8 bytes are given. -/
def decode? (bs : Bytes) : Option String := String.fromUTF8? ⟨bs.toArray⟩

theorem decode?_eq_some_iff {bs : Bytes} {s : String} :
    decode? bs = some s ↔ encode s = bs := by
  unfold decode? encode String.fromUTF8?
  constructor
  · intro h
    split at h
    · obtain rfl := Option.some.inj h
      rfl
    · simp at h
  · rintro rfl
    have hs : (⟨s.toByteArray.data.toList.toArray⟩ : ByteArray) = s.toByteArray := rfl
    rw [hs, dif_pos s.isValidUTF8]
    rfl

end DexWeave.Utf8
