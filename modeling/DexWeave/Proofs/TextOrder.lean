/-
  DexWeave/Proofs/TextOrder.lean --- the order of texts and of their bytes.

  WHAT THIS FILE IS FOR.  Texts are ordered by their code points, and pools are said to
  ascend in the order of their bytes.  In UTF-8 the two orders are one: the leading octet
  tells how many octets a code point takes, more of them for larger ones, and octets of the
  same number carry the code point most significant bits first.
-/
import DexWeave.Text.Utf8
import Mathlib.Data.String.Basic

set_option autoImplicit false

namespace DexWeave.Utf8

theorem encode_eq_flatMap (s : String) : encode s = s.toList.flatMap String.utf8EncodeChar := by
  rw [encode, ← String.utf8Encode_toList, List.utf8Encode, List.data_toByteArray]

/-- Of two numbers, the smaller one has the smaller quotient, or the same quotient and the smaller
rest. -/
theorem div_lt_or_mod_lt {m n : Nat} (h : m < n) :
    m / 64 < n / 64 ∨ m / 64 = n / 64 ∧ m % 64 < n % 64 := by
  omega

/-- The octets of a smaller code point come before those of a larger one, whatever follows. -/
theorem utf8EncodeChar_append_lt {c d : Char} (h : c < d) (bs bs' : Bytes) :
    String.utf8EncodeChar c ++ bs < String.utf8EncodeChar d ++ bs' := by
  have hlt : c.val.toNat < d.val.toNat := h
  have hd : d.val.toNat < 1114112 := by
    have := d.valid
    rcases this with h | h
    · exact Nat.lt_trans h (by decide)
    · exact h.2
  -- no octet overflows
  have hoctet : ∀ n k : Nat, k ≤ 192 → (n % 64 + k) % 256 = n % 64 + k := by omega
  have hlead₂ : ∀ n : Nat, (n % 32 + 192) % 256 = n % 32 + 192 := by omega
  have hlead₃ : ∀ n : Nat, (n % 16 + 224) % 256 = n % 16 + 224 := by omega
  have hlead₄ : ∀ n : Nat, (n % 8 + 240) % 256 = n % 8 + 240 := by omega
  -- the octets behind the leading one are the digits of the code point
  have hdigits : ∀ n : Nat, n / 64 / 64 = n / 4096 ∧ n / 4096 / 64 = n / 262144 := by omega
  obtain ⟨hc₂, hc₃⟩ := hdigits c.val.toNat
  obtain ⟨hd₂, hd₃⟩ := hdigits d.val.toNat
  have hfirst := div_lt_or_mod_lt hlt
  have hsecond : c.val.toNat / 64 < d.val.toNat / 64 → _ := div_lt_or_mod_lt
  have hthird : c.val.toNat / 4096 < d.val.toNat / 4096 → _ := div_lt_or_mod_lt
  rw [hc₂, hd₂] at hsecond
  rw [hc₃, hd₃] at hthird
  have hc₄ : c.val.toNat / 262144 % 8 = c.val.toNat / 262144 := Nat.mod_eq_of_lt (by omega)
  have hd₄ : d.val.toNat / 262144 % 8 = d.val.toNat / 262144 := Nat.mod_eq_of_lt (by omega)
  simp only [String.utf8EncodeChar]
  split_ifs <;>
    simp only [List.cons_append, List.nil_append, List.cons_lt_cons_iff, UInt8.lt_iff_toNat_lt,
      ← UInt8.toNat_inj, UInt8.toNat_ofNat', Nat.reducePow, hoctet _ 128 (by decide), hlead₂,
      hlead₃, hlead₄] <;> omega

theorem flatMap_utf8EncodeChar_lt {cs ds : List Char} (h : cs < ds) :
    cs.flatMap String.utf8EncodeChar < ds.flatMap String.utf8EncodeChar := by
  induction cs generalizing ds with
  | nil =>
    cases ds with
    | nil => exact absurd h (List.not_lt_nil _)
    | cons d ds =>
      obtain ⟨b, bs, hbs⟩ := List.exists_cons_of_ne_nil (String.utf8EncodeChar_ne_nil (c := d))
      rw [List.flatMap_nil, List.flatMap_cons, hbs]
      exact List.nil_lt_cons _ _
  | cons c cs ih =>
    cases ds with
    | nil => exact absurd h (List.not_lt_nil _)
    | cons d ds =>
      rw [List.flatMap_cons, List.flatMap_cons]
      rcases List.cons_lt_cons_iff.mp h with hcd | ⟨rfl, hrest⟩
      · exact utf8EncodeChar_append_lt hcd _ _
      · exact List.append_left_lt (ih hrest)

/-- Texts are in the order of their bytes. -/
theorem encode_lt_encode_iff {s t : String} : encode s < encode t ↔ s < t := by
  have hmono : ∀ {s t : String}, s < t → encode s < encode t := by
    intro s t h
    rw [encode_eq_flatMap, encode_eq_flatMap]
    exact flatMap_utf8EncodeChar_lt (String.lt_iff_toList_lt.mp h)
  refine ⟨fun h => ?_, hmono⟩
  rcases lt_trichotomy s t with hst | rfl | hst
  · exact hst
  · exact absurd h (List.lt_irrefl _)
  · exact absurd h (List.lt_asymm (hmono hst))

theorem compare_eq_lt_iff {s t : String} : compare s t = .lt ↔ encode s < encode t := by
  rw [encode_lt_encode_iff]
  exact compareOfLessAndEq_eq_lt

end DexWeave.Utf8
