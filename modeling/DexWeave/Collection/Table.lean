/-
  DexWeave/Collection/Table.lean --- tables from keys to values.

  WHAT THIS FILE IS FOR.  A table is a list of pairs.  What it holds for a key is the
  value of the first pair with that key, `List.lookup`; putting a value replaces every
  pair of its key, so that tables built by putting hold each key once.

  WHAT IS PROVED.  Putting and erasing change what is held for one key, and nothing
  else.
-/
set_option autoImplicit false

namespace DexWeave

/-- A table. -/
abbrev Table (κ α : Type) : Type := List (κ × α)

namespace Table

variable {κ α : Type} [BEq κ]

/-- The table without a key. -/
def erase (t : Table κ α) (k : κ) : Table κ α := t.filter fun e => e.1 != k

/-- The table with a value for a key, in place of the one it held. -/
def put (t : Table κ α) (k : κ) (a : α) : Table κ α := (k, a) :: erase t k

variable [LawfulBEq κ]

theorem lookup_filter (t : Table κ α) (p : κ → Bool) (k : κ) :
    List.lookup k (t.filter fun e => p e.1) = if p k then List.lookup k t else none := by
  induction t with
  | nil => simp
  | cons e t ih =>
    obtain ⟨key, a⟩ := e
    by_cases hk : k = key
    · subst hk
      by_cases hp : p k <;> simp [hp, ih]
    · have hbeq : (k == key) = false := by simpa using hk
      by_cases hp : p key <;> simp [List.lookup_cons, hp, hbeq, ih]

theorem lookup_erase (t : Table κ α) (k key : κ) :
    List.lookup key (erase t k) = if key == k then none else List.lookup key t := by
  rw [erase, lookup_filter t (fun x => x != k)]
  by_cases hk : key = k <;> simp [hk]

theorem lookup_put (t : Table κ α) (k key : κ) (a : α) :
    List.lookup key (put t k a) = if key == k then some a else List.lookup key t := by
  by_cases hk : key = k
  · subst hk
    simp [put]
  · have hbeq : (key == k) = false := by simpa using hk
    simp [put, List.lookup_cons, hbeq, lookup_erase]

end Table

end DexWeave
