/-
  DexWeave/Format/Text.lean --- strings.

  WHAT THIS FILE IS FOR.  A string is stored as its UTF-8 bytes behind their number,
  in a field of four bytes.  Bytes that are the encoding of no text are refused, but
  only once all of them are there.
-/
import DexWeave.Format.Basic
import DexWeave.Text.Utf8

set_option autoImplicit false

namespace DexWeave.Format

/-- A string behind the number of its bytes. -/
def text : Format String where
  read bs :=
    match (number 4).read bs with
    | .error e => .error e
    | .ok (n, rest) =>
      match takeExactly n rest with
      | none => .error .endOfInput
      | some (taken, rest) =>
        match Utf8.decode? taken with
        | none => .error .brokenUtf8
        | some s => .ok (s, rest)
  write s := ((number 4).write (Utf8.encode s).length).map (· ++ Utf8.encode s)

theorem text_exact : text.Exact where
  read_write := by
    intro s w rest h
    simp only [text, Option.map_eq_some_iff] at h ⊢
    obtain ⟨w', hw, rfl⟩ := h
    rw [List.append_assoc, (number_exact 4).read_write _ hw]
    simp only
    rw [takeExactly_append]
    simp only
    rw [Utf8.decode?_eq_some_iff.mpr rfl]
  write_read := by
    intro bs s rest h
    simp only [text] at h ⊢
    split at h
    · simp at h
    · rename_i n mid hn
      obtain ⟨w, hw, rfl⟩ := (number_exact 4).write_read hn
      split at h
      · simp at h
      · rename_i taken rest' ht
        obtain ⟨rfl, rfl⟩ := eq_append_of_takeExactly ht
        split at h
        · simp at h
        · rename_i s' hs
          simp only [Except.ok.injEq, Prod.mk.injEq] at h
          obtain ⟨rfl, rfl⟩ := h
          obtain rfl := Utf8.decode?_eq_some_iff.mp hs
          exact ⟨w ++ Utf8.encode s', by simp [hw], by simp⟩

end DexWeave.Format
