/-
  DexWeave/Format/Basic.lean --- stored formats and how they combine.

  WHAT THIS FILE IS FOR.  A format says how the values of a type are stored: `write`
  gives the bytes of a value, unless a count in it does not fit its field, and `read`
  takes one value off the front of a byte string.  The format of a structure is put
  together from the formats of its parts, so each part of a container is described
  once, for both directions.

  THE TWO LAWS.  `Format.Exact f` says that reading what was written returns the
  value and leaves what follows untouched, and that whatever can be read is what
  writing its value produces.  Every combinator keeps both laws.
-/
import DexWeave.Bytes
import DexWeave.Container.DecodeError

set_option autoImplicit false

namespace DexWeave

/-- How the values of a type are stored. -/
structure Format (α : Type) where
  /-- Takes one value off the front of the bytes. -/
  read : Bytes → Except DecodeError (α × Bytes)
  /-- The bytes of a value; none if a count does not fit its field. -/
  write : α → Option Bytes

namespace Format

variable {α β τ : Type}

/-- Reading and writing are inverse to each other. -/
structure Exact (f : Format α) : Prop where
  /-- What was written is read back, and what follows is left. -/
  read_write : ∀ {a : α} {w : Bytes} (rest : Bytes), f.write a = some w →
    f.read (w ++ rest) = .ok (a, rest)
  /-- What is read is what writing the value produces. -/
  write_read : ∀ {bs : Bytes} {a : α} {rest : Bytes}, f.read bs = .ok (a, rest) →
    ∃ w, f.write a = some w ∧ bs = w ++ rest

/-! ## Numbers -/

/-- Takes a fixed number of bytes off the front. -/
def takeExactly : Nat → Bytes → Option (Bytes × Bytes)
  | 0, bs => some ([], bs)
  | _ + 1, [] => none
  | n + 1, b :: bs => (takeExactly n bs).map fun (taken, rest) => (b :: taken, rest)

theorem takeExactly_append (taken rest : Bytes) :
    takeExactly taken.length (taken ++ rest) = some (taken, rest) := by
  induction taken with
  | nil => rfl
  | cons b bs ih => simp [takeExactly, ih]

theorem eq_append_of_takeExactly {n : Nat} {bs taken rest : Bytes}
    (h : takeExactly n bs = some (taken, rest)) : bs = taken ++ rest ∧ taken.length = n := by
  induction n generalizing bs taken with
  | zero =>
    simp only [takeExactly, Option.some.injEq, Prod.mk.injEq] at h
    simp [← h.1, ← h.2]
  | succ n ih =>
    cases bs with
    | nil => simp [takeExactly] at h
    | cons b bs =>
      simp only [takeExactly, Option.map_eq_some_iff, Prod.mk.injEq] at h
      obtain ⟨⟨t, r⟩, ht, rfl, rfl⟩ := h
      obtain ⟨rfl, rfl⟩ := ih ht
      simp

/-- A number in `width` bytes, least significant first. -/
def number (width : Nat) : Format Nat where
  read bs :=
    match takeExactly width bs with
    | some (taken, rest) => .ok (LittleEndian.value taken, rest)
    | none => .error .endOfInput
  write n := if n < LittleEndian.capacity width then some (LittleEndian.digits width n) else none

theorem number_lt {width n : Nat} {bs rest : Bytes}
    (h : (number width).read bs = .ok (n, rest)) : n < LittleEndian.capacity width := by
  simp only [number] at h
  split at h
  · rename_i ht
    obtain ⟨_, hlen⟩ := eq_append_of_takeExactly ht
    simp only [Except.ok.injEq, Prod.mk.injEq] at h
    rw [← h.1, ← hlen]
    exact LittleEndian.value_lt _
  · simp at h

theorem number_exact (width : Nat) : (number width).Exact where
  read_write := by
    intro n w rest h
    simp only [number] at h ⊢
    split at h
    · rename_i hn
      obtain rfl := Option.some.inj h
      have := takeExactly_append (LittleEndian.digits width n) rest
      rw [LittleEndian.length_digits] at this
      rw [this]
      simp only [LittleEndian.value_digits hn]
    · simp at h
  write_read := by
    intro bs n rest h
    have hlt := number_lt h
    simp only [number] at h ⊢
    split at h
    · rename_i taken rest' ht
      obtain ⟨rfl, hlen⟩ := eq_append_of_takeExactly ht
      simp only [Except.ok.injEq, Prod.mk.injEq] at h
      obtain ⟨rfl, rfl⟩ := h
      refine ⟨taken, ?_, rfl⟩
      rw [if_pos hlt, ← hlen, LittleEndian.digits_value]
    · simp at h

/-! ## Structures -/

/-- Stores a value as a value of another type. -/
def map (f : Format α) (pack : α → β) (unpack : β → α) : Format β where
  read bs :=
    match f.read bs with
    | .ok (a, rest) => .ok (pack a, rest)
    | .error e => .error e
  write b := f.write (unpack b)

theorem map_exact {f : Format α} (hf : f.Exact) {pack : α → β} {unpack : β → α}
    (pack_unpack : ∀ b, pack (unpack b) = b)
    (unpack_pack : ∀ {bs a rest}, f.read bs = .ok (a, rest) → unpack (pack a) = a) :
    (f.map pack unpack).Exact where
  read_write := by
    intro b w rest h
    simp only [map] at h ⊢
    rw [hf.read_write rest h]
    simp [pack_unpack]
  write_read := by
    intro bs b rest h
    simp only [map] at h ⊢
    split at h
    · rename_i a rest' ha
      simp only [Except.ok.injEq, Prod.mk.injEq] at h
      obtain ⟨rfl, rfl⟩ := h
      rw [unpack_pack ha]
      exact hf.write_read ha
    · simp at h

/-- A format with its values passed through a two-sided inverse. -/
theorem map_exact_of_inverse {f : Format α} (hf : f.Exact) {pack : α → β} {unpack : β → α}
    (pack_unpack : ∀ b, pack (unpack b) = b) (unpack_pack : ∀ a, unpack (pack a) = a) :
    (f.map pack unpack).Exact :=
  map_exact hf pack_unpack fun _ => unpack_pack _

/-- Stores a value as a value of another type, some of whose values are refused when read. -/
def refine (f : Format α) (pack : α → Except DecodeError β) (unpack : β → α) : Format β where
  read bs :=
    match f.read bs with
    | .error e => .error e
    | .ok (a, rest) =>
      match pack a with
      | .error e => .error e
      | .ok b => .ok (b, rest)
  write b := f.write (unpack b)

theorem refine_exact {f : Format α} (hf : f.Exact) {pack : α → Except DecodeError β}
    {unpack : β → α} (pack_eq_ok_iff : ∀ a b, pack a = .ok b ↔ unpack b = a) :
    (f.refine pack unpack).Exact where
  read_write := by
    intro b w rest h
    simp only [refine] at h ⊢
    rw [hf.read_write rest h]
    simp only
    rw [(pack_eq_ok_iff _ b).mpr rfl]
  write_read := by
    intro bs b rest h
    simp only [refine] at h ⊢
    split at h
    · simp at h
    · rename_i a mid ha
      split at h
      · simp at h
      · rename_i b' hb
        simp only [Except.ok.injEq, Prod.mk.injEq] at h
        obtain ⟨rfl, rfl⟩ := h
        obtain rfl := (pack_eq_ok_iff _ _).mp hb
        exact hf.write_read ha

/-- No bytes at all. -/
def unit : Format Unit where
  read bs := .ok ((), bs)
  write _ := some []

theorem unit_exact : unit.Exact where
  read_write := by
    intro a w rest h
    simp only [unit, Option.some.injEq] at h
    simp [unit, ← h]
  write_read := by
    intro bs a rest h
    simp only [unit, Except.ok.injEq, Prod.mk.injEq] at h
    exact ⟨[], rfl, h.2⟩

/-- A value followed by one whose format depends on it. -/
def tagged {γ : τ → Type} (tag : Format τ) (body : (t : τ) → Format (γ t)) :
    Format ((t : τ) × γ t) where
  read bs :=
    match tag.read bs with
    | .error e => .error e
    | .ok (t, rest) =>
      match (body t).read rest with
      | .error e => .error e
      | .ok (a, rest) => .ok (⟨t, a⟩, rest)
  write v :=
    match tag.write v.1, (body v.1).write v.2 with
    | some w, some w' => some (w ++ w')
    | _, _ => none

theorem tagged_exact {γ : τ → Type} {tag : Format τ} {body : (t : τ) → Format (γ t)}
    (htag : tag.Exact) (hbody : ∀ t, (body t).Exact) : (tag.tagged body).Exact where
  read_write := by
    intro v w rest h
    simp only [tagged] at h ⊢
    split at h
    · rename_i w₁ w₂ h₁ h₂
      obtain rfl := Option.some.inj h
      rw [List.append_assoc, htag.read_write _ h₁]
      simp only
      rw [(hbody v.1).read_write rest h₂]
    · simp at h
  write_read := by
    intro bs v rest h
    simp only [tagged] at h ⊢
    split at h
    · simp at h
    · rename_i t mid ht
      split at h
      · simp at h
      · rename_i a rest' ha
        simp only [Except.ok.injEq, Prod.mk.injEq] at h
        obtain ⟨rfl, rfl⟩ := h
        obtain ⟨w₁, h₁, rfl⟩ := htag.write_read ht
        obtain ⟨w₂, h₂, rfl⟩ := (hbody t).write_read ha
        refine ⟨w₁ ++ w₂, ?_, by simp⟩
        simp only [h₁, h₂]

/-- Two values in order. -/
def pair (f : Format α) (g : Format β) : Format (α × β) :=
  (f.tagged fun _ => g).map (fun v => (v.1, v.2)) (fun v => ⟨v.1, v.2⟩)

theorem pair_exact {f : Format α} {g : Format β} (hf : f.Exact) (hg : g.Exact) :
    (f.pair g).Exact :=
  map_exact_of_inverse (tagged_exact hf fun _ => hg) (fun _ => rfl) (fun _ => rfl)

/-- A value or nothing, told apart by a byte that is one or zero. -/
def optional (f : Format α) : Format (Option α) where
  read bs :=
    match (number 1).read bs with
    | .error e => .error e
    | .ok (0, rest) => .ok (none, rest)
    | .ok (1, rest) =>
      match f.read rest with
      | .error e => .error e
      | .ok (a, rest) => .ok (some a, rest)
    | .ok (_, _) => .error .unexpectedData
  write
    | none => some [0]
    | some a => (f.write a).map (1 :: ·)

theorem optional_exact {f : Format α} (hf : f.Exact) : f.optional.Exact where
  read_write := by
    intro a w rest h
    cases a with
    | none =>
      obtain rfl := Option.some.inj h
      rfl
    | some a =>
      simp only [optional, Option.map_eq_some_iff] at h ⊢
      obtain ⟨w', hw, rfl⟩ := h
      have h₁ : (number 1).read (1 :: w' ++ rest) = .ok (1, w' ++ rest) := rfl
      rw [h₁]
      simp only
      rw [hf.read_write rest hw]
  write_read := by
    intro bs a rest h
    simp only [optional] at h ⊢
    split at h
    · simp at h
    · rename_i rest' h₀
      obtain ⟨w, hw, rfl⟩ := (number_exact 1).write_read h₀
      simp only [Except.ok.injEq, Prod.mk.injEq] at h
      obtain ⟨rfl, rfl⟩ := h
      have : w = [0] := by simpa [number, LittleEndian.digits, LittleEndian.capacity] using hw.symm
      exact ⟨[0], rfl, by rw [this]⟩
    · rename_i rest' h₁
      obtain ⟨w, hw, rfl⟩ := (number_exact 1).write_read h₁
      have : w = [1] := by simpa [number, LittleEndian.digits, LittleEndian.capacity] using hw.symm
      subst this
      split at h
      · simp at h
      · rename_i a rest'' ha
        simp only [Except.ok.injEq, Prod.mk.injEq] at h
        obtain ⟨rfl, rfl⟩ := h
        obtain ⟨w, hw, rfl⟩ := hf.write_read ha
        exact ⟨1 :: w, by simp [hw], by simp⟩
    · simp at h

/-! ## Lists -/

/-- Reads a number of values. -/
def readMany (f : Format α) : Nat → Bytes → Except DecodeError (List α × Bytes)
  | 0, bs => .ok ([], bs)
  | n + 1, bs =>
    match f.read bs with
    | .error e => .error e
    | .ok (a, rest) =>
      match readMany f n rest with
      | .error e => .error e
      | .ok (as, rest) => .ok (a :: as, rest)

/-- Writes values one after the other. -/
def writeMany (f : Format α) : List α → Option Bytes
  | [] => some []
  | a :: as =>
    match f.write a, writeMany f as with
    | some w, some w' => some (w ++ w')
    | _, _ => none

theorem readMany_writeMany {f : Format α} (hf : f.Exact) {as : List α} {w : Bytes}
    (rest : Bytes) (h : f.writeMany as = some w) :
    f.readMany as.length (w ++ rest) = .ok (as, rest) := by
  induction as generalizing w with
  | nil =>
    obtain rfl := Option.some.inj h
    rfl
  | cons a as ih =>
    simp only [writeMany] at h
    split at h
    · rename_i w₁ w₂ h₁ h₂
      obtain rfl := Option.some.inj h
      rw [List.length_cons, readMany, List.append_assoc, hf.read_write _ h₁]
      simp only
      rw [ih h₂]
    · simp at h

theorem writeMany_readMany {f : Format α} (hf : f.Exact) {n : Nat} {bs rest : Bytes}
    {as : List α} (h : f.readMany n bs = .ok (as, rest)) :
    as.length = n ∧ ∃ w, f.writeMany as = some w ∧ bs = w ++ rest := by
  induction n generalizing bs as with
  | zero =>
    simp only [readMany, Except.ok.injEq, Prod.mk.injEq] at h
    obtain ⟨rfl, rfl⟩ := h
    exact ⟨rfl, [], rfl, rfl⟩
  | succ n ih =>
    simp only [readMany] at h
    split at h
    · simp at h
    · rename_i a mid ha
      split at h
      · simp at h
      · rename_i as' rest' hs
        simp only [Except.ok.injEq, Prod.mk.injEq] at h
        obtain ⟨rfl, rfl⟩ := h
        obtain ⟨w₁, h₁, rfl⟩ := hf.write_read ha
        obtain ⟨hlen, w₂, h₂, rfl⟩ := ih hs
        refine ⟨by simp [hlen], w₁ ++ w₂, ?_, by simp⟩
        simp only [writeMany, h₁, h₂]

/-- A list, behind the number of its elements in a field of `width` bytes. -/
def counted (width : Nat) (f : Format α) : Format (List α) where
  read bs :=
    match (number width).read bs with
    | .error e => .error e
    | .ok (n, rest) => f.readMany n rest
  write as :=
    match (number width).write as.length, f.writeMany as with
    | some w, some w' => some (w ++ w')
    | _, _ => none

theorem counted_exact {f : Format α} (hf : f.Exact) (width : Nat) :
    (f.counted width).Exact where
  read_write := by
    intro as w rest h
    simp only [counted] at h ⊢
    split at h
    · rename_i w₁ w₂ h₁ h₂
      obtain rfl := Option.some.inj h
      rw [List.append_assoc, (number_exact width).read_write _ h₁]
      exact readMany_writeMany hf rest h₂
    · simp at h
  write_read := by
    intro bs as rest h
    simp only [counted] at h ⊢
    split at h
    · simp at h
    · rename_i n mid hn
      obtain ⟨w₁, h₁, rfl⟩ := (number_exact width).write_read hn
      obtain ⟨rfl, w₂, h₂, rfl⟩ := writeMany_readMany hf h
      refine ⟨w₁ ++ w₂, ?_, by simp⟩
      simp only [h₁, h₂]

end Format

end DexWeave
