/-
  DexWeave/Collection/OrderedSet.lean --- the distinct elements of a list in order.

  WHAT THIS FILE IS FOR.  A pool holds every item once, in ascending order.  Ordered
  sets are lists kept that way by inserting one element at a time.

  WHAT IS PROVED.  `ofList xs` has the elements of `xs` and strictly ascends.  A
  strictly ascending list is determined by its elements, so lists with the same
  elements have the same ordered set.
-/
set_option autoImplicit false

namespace DexWeave.OrderedSet

variable {α : Type} [Ord α]

/-- Adds an element to an ascending list, unless it is there already. -/
def insert (x : α) : List α → List α
  | [] => [x]
  | y :: ys =>
    match compare x y with
    | .lt => x :: y :: ys
    | .eq => y :: ys
    | .gt => y :: insert x ys

/-- The distinct elements of a list, ascending. -/
def ofList (xs : List α) : List α := xs.foldr insert []

/-- Every element comes before all that follow it. -/
def Ascending (xs : List α) : Prop := xs.Pairwise fun a b => compare a b = .lt

@[simp] theorem ofList_nil : ofList ([] : List α) = [] := rfl

@[simp] theorem ofList_cons (x : α) (xs : List α) :
    ofList (x :: xs) = insert x (ofList xs) := rfl

/-! ## Elements -/

theorem mem_insert [Std.LawfulEqOrd α] {a x : α} {ys : List α} :
    a ∈ insert x ys ↔ a = x ∨ a ∈ ys := by
  induction ys with
  | nil => simp [insert]
  | cons y ys ih =>
    rw [insert]
    split
    · simp
    · rename_i h
      obtain rfl := Std.compare_eq_iff_eq.mp h
      simp
    · simp only [List.mem_cons, ih]
      exact or_left_comm

@[simp] theorem mem_ofList [Std.LawfulEqOrd α] {a : α} {xs : List α} :
    a ∈ ofList xs ↔ a ∈ xs := by
  induction xs with
  | nil => simp
  | cons x xs ih => rw [ofList_cons, mem_insert, ih, List.mem_cons]

/-! ## Order -/

theorem ascending_insert [Std.LawfulEqOrd α] [Std.TransOrd α] {x : α} {ys : List α}
    (h : Ascending ys) : Ascending (insert x ys) := by
  induction ys with
  | nil => simp [insert, Ascending]
  | cons y ys ih =>
    obtain ⟨hy, hys⟩ := List.pairwise_cons.mp h
    rw [insert]
    split
    · rename_i hxy
      refine List.pairwise_cons.mpr ⟨?_, h⟩
      intro b hb
      rcases List.mem_cons.mp hb with rfl | hb
      · exact hxy
      · exact Std.TransCmp.lt_trans hxy (hy b hb)
    · exact h
    · rename_i hxy
      refine List.pairwise_cons.mpr ⟨?_, ih hys⟩
      intro b hb
      rcases mem_insert.mp hb with rfl | hb
      · exact Std.OrientedCmp.gt_iff_lt.mp hxy
      · exact hy b hb

theorem ascending_ofList [Std.LawfulEqOrd α] [Std.TransOrd α] (xs : List α) :
    Ascending (ofList xs) := by
  induction xs with
  | nil => exact List.Pairwise.nil
  | cons x xs ih => exact ascending_insert ih

/-- No element of an ascending list comes before the first one. -/
theorem Ascending.le_head [Std.TransOrd α] {x a : α} {xs : List α} (h : Ascending (x :: xs))
    (ha : a ∈ x :: xs) : compare a x ≠ .lt := by
  rcases List.mem_cons.mp ha with rfl | ha
  · simp
  · intro hlt
    have := (List.pairwise_cons.mp h).1 a ha
    rw [Std.OrientedCmp.gt_iff_lt.mpr hlt] at this
    simp at this

/-- Ascending lists with the same elements are equal. -/
theorem Ascending.ext [Std.LawfulEqOrd α] [Std.TransOrd α] {xs ys : List α}
    (hx : Ascending xs) (hy : Ascending ys) (h : ∀ a, a ∈ xs ↔ a ∈ ys) : xs = ys := by
  induction xs generalizing ys with
  | nil =>
    cases ys with
    | nil => rfl
    | cons y ys => simpa using (h y).mpr List.mem_cons_self
  | cons x xs ih =>
    cases ys with
    | nil => simpa using (h x).mp List.mem_cons_self
    | cons y ys =>
      have hxy : x = y := by
        have h₁ := hy.le_head ((h x).mp List.mem_cons_self)
        have h₂ := hx.le_head ((h y).mpr List.mem_cons_self)
        cases hc : compare x y with
        | lt => exact absurd hc h₁
        | eq => exact Std.compare_eq_iff_eq.mp hc
        | gt => exact absurd (Std.OrientedCmp.gt_iff_lt.mp hc) h₂
      subst hxy
      obtain ⟨hx₁, hx₂⟩ := List.pairwise_cons.mp hx
      obtain ⟨hy₁, hy₂⟩ := List.pairwise_cons.mp hy
      have hirr : ∀ {zs : List α}, (∀ b ∈ zs, compare x b = .lt) → x ∉ zs := by
        intro zs hz hmem
        have := hz x hmem
        simp at this
      congr 1
      refine ih hx₂ hy₂ fun a => ?_
      by_cases hax : a = x
      · subst hax
        exact iff_of_false (hirr hx₁) (hirr hy₁)
      · simpa [hax] using h a

end DexWeave.OrderedSet
