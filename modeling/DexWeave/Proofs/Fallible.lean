/-
  DexWeave/Proofs/Fallible.lean --- computations that may fail.

  WHAT THIS FILE IS FOR.  Reading and storing are written as steps that may fail, one
  after the other and over the elements of lists.  The lemmas here take such a
  computation apart: what its success says about each of its steps, and when it
  succeeds.

  THREE PREDICATES.  `ReturnsWhen x good b` says of a computation both what it returns and
  when: it returns `b` if the condition holds, and fails otherwise.  `FailsOnly x e fits`
  leaves the result open: the computation can fail with one error, and not if the
  condition holds.  `FailsWith x fault` says with which errors it fails, exactly.  All are
  kept by sequencing and by traversing a list, so what is known of a structure follows from
  what is known of its parts; the error of a list is that of its first faulty element.
-/
import Mathlib.Data.List.Forall2

set_option autoImplicit false

namespace DexWeave.Fallible

variable {ε α β γ : Type}

/-! ## Success of the steps -/

theorem bind_eq_ok {x : Except ε α} {f : α → Except ε β} {b : β} :
    (x >>= f) = .ok b ↔ ∃ a, x = .ok a ∧ f a = .ok b := by
  cases x <;> simp [bind, Except.bind]

theorem map_eq_ok {x : Except ε α} {f : α → β} {b : β} :
    x.map f = .ok b ↔ ∃ a, x = .ok a ∧ f a = b := by
  cases x <;> simp [Except.map]

@[simp] theorem ok_map {a : α} {f : α → β} :
    (Except.ok a : Except ε α).map f = .ok (f a) := rfl

@[simp] theorem ok_bind {a : α} {f : α → Except ε β} : (Except.ok a >>= f) = f a := rfl

@[simp] theorem error_bind {e : ε} {f : α → Except ε β} :
    ((Except.error e : Except ε α) >>= f) = .error e := rfl

@[simp] theorem error_map {e : ε} {f : α → β} :
    (Except.error e : Except ε α).map f = .error e := rfl

theorem exists_ok_of_isOk {x : Except ε α} (h : x.isOk = true) : ∃ a, x = .ok a := by
  cases x with
  | error e => cases h
  | ok a => exact ⟨a, rfl⟩

/-- A traversal succeeds with the results of its elements, in order. -/
theorem mapM_eq_ok_iff {f : α → Except ε β} {xs : List α} {ys : List β} :
    xs.mapM f = .ok ys ↔ List.Forall₂ (fun x y => f x = .ok y) xs ys := by
  induction xs generalizing ys with
  | nil => cases ys <;> simp [pure, Except.pure]
  | cons x xs ih =>
    rw [List.mapM_cons, bind_eq_ok]
    simp only [bind_eq_ok, ih, pure, Except.pure, Except.ok.injEq, List.forall₂_cons_left_iff]
    constructor
    · rintro ⟨y, hy, ys', hys, rfl⟩
      exact ⟨y, ys', hy, hys, rfl⟩
    · rintro ⟨y, ys', hy, hys, rfl⟩
      exact ⟨y, hy, ys', hys, rfl⟩

theorem length_of_mapM {f : α → Except ε β} {xs : List α} {ys : List β}
    (h : xs.mapM f = .ok ys) : ys.length = xs.length :=
  (mapM_eq_ok_iff.mp h).length_eq.symm

theorem getElem_of_mapM {f : α → Except ε β} {xs : List α} {ys : List β}
    (h : xs.mapM f = .ok ys) {n : Nat} (hx : n < xs.length) (hy : n < ys.length) :
    f xs[n] = .ok ys[n] := by
  have := (mapM_eq_ok_iff.mp h).get hx hy
  simpa using this

/-- Every element of a successful traversal succeeded, with one of the results. -/
theorem exists_of_mem_of_mapM {f : α → Except ε β} {xs : List α} {ys : List β}
    (h : xs.mapM f = .ok ys) {x : α} (hx : x ∈ xs) : ∃ y ∈ ys, f x = .ok y := by
  obtain ⟨n, hn, rfl⟩ := List.mem_iff_getElem.mp hx
  have hy : n < ys.length := by rw [length_of_mapM h]; exact hn
  exact ⟨ys[n], List.getElem_mem hy, getElem_of_mapM h hn hy⟩

/-- Every result of a successful traversal is the result of an element. -/
theorem exists_of_mem_result {f : α → Except ε β} {xs : List α} {ys : List β}
    (h : xs.mapM f = .ok ys) {y : β} (hy : y ∈ ys) : ∃ x ∈ xs, f x = .ok y := by
  obtain ⟨n, hn, rfl⟩ := List.mem_iff_getElem.mp hy
  have hx : n < xs.length := by rw [← length_of_mapM h]; exact hn
  exact ⟨xs[n], List.getElem_mem hx, getElem_of_mapM h hx hn⟩

/-- A traversal succeeds if every element does. -/
theorem exists_mapM_eq_ok {f : α → Except ε β} {xs : List α}
    (h : ∀ x ∈ xs, ∃ y, f x = .ok y) : ∃ ys, xs.mapM f = .ok ys := by
  induction xs with
  | nil => exact ⟨[], rfl⟩
  | cons x xs ih =>
    obtain ⟨y, hy⟩ := h x List.mem_cons_self
    obtain ⟨ys, hys⟩ := ih fun z hz => h z (List.mem_cons_of_mem x hz)
    refine ⟨y :: ys, ?_⟩
    rw [List.mapM_cons, hy, hys]
    rfl

theorem mapM_congr {f g : α → Except ε β} {xs : List α} (h : ∀ x ∈ xs, f x = g x) :
    xs.mapM f = xs.mapM g := by
  induction xs with
  | nil => rfl
  | cons x xs ih =>
    rw [List.mapM_cons, List.mapM_cons, h x List.mem_cons_self,
      ih fun z hz => h z (List.mem_cons_of_mem x hz)]

/-! ## What is returned, and when -/

/-- The computation returns `b` if the condition holds, and fails otherwise. -/
def ReturnsWhen (x : Except ε β) (good : Prop) (b : β) : Prop :=
  ∀ y, x = .ok y ↔ good ∧ y = b

namespace ReturnsWhen

theorem eq_ok {x : Except ε β} {good : Prop} {b : β} (h : ReturnsWhen x good b)
    (hgood : good) : x = .ok b :=
  (h b).mpr ⟨hgood, rfl⟩

theorem exists_error {x : Except ε β} {good : Prop} {b : β} (h : ReturnsWhen x good b)
    (hbad : ¬ good) : ∃ e, x = .error e := by
  cases x with
  | error e => exact ⟨e, rfl⟩
  | ok y => exact absurd ((h y).mp rfl).1 hbad

theorem of_ok {x : Except ε β} {b : β} (h : x = .ok b) : ReturnsWhen x True b := by
  intro y
  rw [h, Except.ok.injEq]
  exact ⟨fun hy => ⟨trivial, hy.symm⟩, fun hy => hy.2.symm⟩

/-- A computation decided by a test returns when the test is passed. -/
theorem of_ite {x : Except ε β} {good : Prop} [Decidable good] {b : β} {e : ε}
    (h : x = if good then .ok b else .error e) : ReturnsWhen x good b := by
  intro y
  rw [h]
  split
  · rename_i hgood
    rw [Except.ok.injEq]
    exact ⟨fun hy => ⟨hgood, hy.symm⟩, fun hy => hy.2.symm⟩
  · rename_i hbad
    exact ⟨fun h => (by cases h), fun hy => absurd hy.1 hbad⟩

theorem congr {x : Except ε β} {good good' : Prop} {b : β} (h : ReturnsWhen x good b)
    (hiff : good ↔ good') : ReturnsWhen x good' b := by
  intro y
  rw [h y, hiff]

theorem bind {x : Except ε α} {f : α → Except ε β} {good good' : Prop} {a : α} {b : β}
    (hx : ReturnsWhen x good a) (hf : ReturnsWhen (f a) good' b) :
    ReturnsWhen (x >>= f) (good ∧ good') b := by
  intro y
  rw [bind_eq_ok]
  constructor
  · rintro ⟨a', ha', hy⟩
    obtain ⟨hgood, rfl⟩ := (hx a').mp ha'
    obtain ⟨hgood', rfl⟩ := (hf y).mp hy
    exact ⟨⟨hgood, hgood'⟩, rfl⟩
  · rintro ⟨⟨hgood, hgood'⟩, rfl⟩
    exact ⟨a, hx.eq_ok hgood, hf.eq_ok hgood'⟩

theorem bind_ok {x : Except ε α} {good : Prop} {a : α} (hx : ReturnsWhen x good a)
    (f : α → β) : ReturnsWhen (x >>= fun a => .ok (f a)) good (f a) :=
  (hx.bind (f := fun a => .ok (f a)) (of_ok rfl)).congr (and_iff_left trivial)

theorem map {x : Except ε α} {good : Prop} {a : α} (hx : ReturnsWhen x good a) (f : α → β) :
    ReturnsWhen (x.map f) good (f a) := by
  intro y
  rw [map_eq_ok]
  constructor
  · rintro ⟨a', ha', rfl⟩
    obtain ⟨hgood, rfl⟩ := (hx a').mp ha'
    exact ⟨hgood, rfl⟩
  · rintro ⟨hgood, rfl⟩
    exact ⟨a, hx.eq_ok hgood, rfl⟩

/-- Traversing a list returns the results of the elements if all of them return. -/
theorem mapM {f : α → Except ε β} {xs : List α} {ys : List γ} {good : γ → Prop} {g : γ → β}
    (h : List.Forall₂ (fun x y => ReturnsWhen (f x) (good y) (g y)) xs ys) :
    ReturnsWhen (xs.mapM f) (∀ y ∈ ys, good y) (ys.map g) := by
  induction h with
  | nil => exact (of_ok rfl).congr ⟨fun _ _ h => (by cases h), fun _ => trivial⟩
  | @cons x y xs ys hxy _ ih =>
    rw [List.mapM_cons]
    refine (hxy.bind (ih.bind_ok (g y :: ·))).congr ?_
    simp

end ReturnsWhen

/-! ## How a computation can fail -/

/-- The computation can fail with the error `e` only, and not if the condition holds. -/
def FailsOnly (x : Except ε α) (e : ε) (fits : Prop) : Prop :=
  ∀ e', x = .error e' → e' = e ∧ ¬ fits

namespace FailsOnly

variable {e : ε} {fits : Prop}

theorem exists_ok {x : Except ε α} (h : FailsOnly x e fits) (hfits : fits) :
    ∃ a, x = .ok a := by
  cases x with
  | ok a => exact ⟨a, rfl⟩
  | error e' => exact absurd hfits (h e' rfl).2

theorem mono {x : Except ε α} {fits' : Prop} (h : FailsOnly x e fits) (hfits : fits' → fits) :
    FailsOnly x e fits' :=
  fun e' he => ⟨(h e' he).1, fun hf => (h e' he).2 (hfits hf)⟩

theorem of_ok {x : Except ε α} {a : α} (h : x = .ok a) : FailsOnly x e fits := by
  intro e' he
  rw [h] at he
  cases he

theorem of_ite {x : Except ε α} {test : Prop} [Decidable test] {a : α}
    (h : x = if test then .ok a else .error e) (hfits : fits → test) : FailsOnly x e fits := by
  intro e' he
  rw [h] at he
  split at he
  · cases he
  · rename_i htest
    exact ⟨(Except.error.inj he).symm, fun hf => htest (hfits hf)⟩

theorem bind {x : Except ε α} {f : α → Except ε β} (hx : FailsOnly x e fits)
    (hf : ∀ a, x = .ok a → FailsOnly (f a) e fits) : FailsOnly (x >>= f) e fits := by
  intro e' he
  cases x with
  | error e'' =>
    obtain rfl := Except.error.inj he
    exact hx _ rfl
  | ok a => exact hf a rfl e' he

theorem map {x : Except ε α} (hx : FailsOnly x e fits) (f : α → β) :
    FailsOnly (x.map f) e fits := by
  intro e' he
  cases x with
  | error e'' =>
    obtain rfl := Except.error.inj he
    exact hx _ rfl
  | ok a => cases he

theorem mapM {f : α → Except ε β} {xs : List α} (h : ∀ x ∈ xs, FailsOnly (f x) e fits) :
    FailsOnly (xs.mapM f) e fits := by
  induction xs with
  | nil => exact of_ok rfl
  | cons x xs ih =>
    rw [List.mapM_cons]
    refine (h x List.mem_cons_self).bind fun b _ => ?_
    exact (ih fun z hz => h z (List.mem_cons_of_mem x hz)).bind fun bs _ => of_ok rfl

end FailsOnly

/-! ## Which fault is reported -/

/-- A fault of the first element that has one. -/
inductive FirstFault (fault : α → ε → Prop) : List α → ε → Prop where
  | here (x : α) (xs : List α) (e : ε) (h : fault x e) : FirstFault fault (x :: xs) e
  | later (x : α) (xs : List α) (e : ε) (hx : ∀ e', ¬ fault x e') (h : FirstFault fault xs e) :
    FirstFault fault (x :: xs) e

namespace FirstFault

variable {fault fault' : α → ε → Prop} {x : α} {xs ys : List α} {e : ε}

theorem not_nil : ¬ FirstFault fault [] e := nofun

theorem cons_iff :
    FirstFault fault (x :: xs) e ↔
      fault x e ∨ (∀ e', ¬ fault x e') ∧ FirstFault fault xs e := by
  constructor
  · rintro (⟨x, xs, e, h⟩ | ⟨x, xs, e, hx, h⟩)
    · exact .inl h
    · exact .inr ⟨hx, h⟩
  · rintro (h | ⟨hx, h⟩)
    · exact .here x xs e h
    · exact .later x xs e hx h

/-- It is a fault of one of the elements. -/
theorem exists_mem (h : FirstFault fault xs e) : ∃ x ∈ xs, fault x e := by
  induction h with
  | here x xs e h => exact ⟨x, List.mem_cons_self, h⟩
  | later x xs e _ _ ih =>
    obtain ⟨y, hy, h⟩ := ih
    exact ⟨y, List.mem_cons_of_mem x hy, h⟩

theorem append_iff :
    FirstFault fault (xs ++ ys) e ↔
      FirstFault fault xs e ∨ (∀ e', ¬ FirstFault fault xs e') ∧ FirstFault fault ys e := by
  induction xs with
  | nil => simp [not_nil]
  | cons x xs ih =>
    rw [List.cons_append, cons_iff, cons_iff, ih]
    simp only [cons_iff, not_or, not_and]
    constructor
    · rintro (h | ⟨hx, h | ⟨hxs, h⟩⟩)
      · exact .inl (.inl h)
      · exact .inl (.inr ⟨hx, h⟩)
      · exact .inr ⟨fun e' => ⟨hx e', fun _ => hxs e'⟩, h⟩
    · rintro ((h | ⟨hx, h⟩) | ⟨hnone, h⟩)
      · exact .inl h
      · exact .inr ⟨hx, .inl h⟩
      · have hx : ∀ e', ¬ fault x e' := fun e' => (hnone e').1
        exact .inr ⟨hx, .inr ⟨fun e' => (hnone e').2 hx, h⟩⟩

/-- The first fault of a concatenation is that of the first list with a fault. -/
theorem flatMap_iff {g : β → List α} {zs : List β} :
    FirstFault fault (zs.flatMap g) e ↔ FirstFault (fun z => FirstFault fault (g z)) zs e := by
  induction zs with
  | nil => exact iff_of_false not_nil not_nil
  | cons z zs ih => rw [List.flatMap_cons, append_iff, cons_iff, ih]

theorem map_iff {g : β → α} {zs : List β} :
    FirstFault fault (zs.map g) e ↔ FirstFault (fun z => fault (g z)) zs e := by
  induction zs with
  | nil => exact iff_of_false not_nil not_nil
  | cons z zs ih => rw [List.map_cons, cons_iff, cons_iff, ih]

theorem filterMap_iff {g : β → Option α} {zs : List β} :
    FirstFault fault (zs.filterMap g) e ↔
      FirstFault (fun z e => ∃ x, g z = some x ∧ fault x e) zs e := by
  induction zs with
  | nil => exact iff_of_false not_nil not_nil
  | cons z zs ih =>
    rw [cons_iff, ← ih]
    cases hz : g z with
    | none => simp [hz]
    | some x => simp [hz, cons_iff]

theorem congr (h : ∀ x ∈ xs, ∀ e, fault x e ↔ fault' x e) :
    FirstFault fault xs e ↔ FirstFault fault' xs e := by
  induction xs with
  | nil => exact iff_of_false not_nil not_nil
  | cons x xs ih =>
    obtain ⟨hx, hxs⟩ := List.forall_mem_cons.mp h
    rw [cons_iff, cons_iff, ih hxs, hx e]
    exact or_congr_right (and_congr_left fun _ => forall_congr' fun e' => not_congr (hx e'))

end FirstFault

/-- The computation fails with the faults that are described, and with no other error. -/
def FailsWith (x : Except ε α) (fault : ε → Prop) : Prop := ∀ e, x = .error e ↔ fault e

namespace FailsWith

variable {fault : ε → Prop}

theorem exists_ok {x : Except ε α} (h : FailsWith x fault) (hnone : ∀ e, ¬ fault e) :
    ∃ a, x = .ok a := by
  cases x with
  | ok a => exact ⟨a, rfl⟩
  | error e => exact absurd ((h e).mp rfl) (hnone e)

theorem not_of_ok {x : Except ε α} (h : FailsWith x fault) {a : α} (ha : x = .ok a) (e : ε) :
    ¬ fault e := by
  rw [← h e, ha]
  nofun

theorem of_ok {x : Except ε α} {a : α} (ha : x = .ok a) (hnone : ∀ e, ¬ fault e) :
    FailsWith x fault := by
  intro e
  rw [ha]
  exact iff_of_false nofun (hnone e)

theorem congr {x : Except ε α} {fault' : ε → Prop} (h : FailsWith x fault)
    (hfault : ∀ e, fault e ↔ fault' e) : FailsWith x fault' :=
  fun e => (h e).trans (hfault e)

/-- What cannot fail adds no fault. -/
theorem bind_ok {x : Except ε α} (h : FailsWith x fault) {f : α → Except ε β}
    (hf : ∀ a, x = .ok a → ∃ b, f a = .ok b) : FailsWith (x >>= f) fault := by
  intro e
  rw [← h e]
  cases x with
  | error e' => rw [error_bind, Except.error.injEq, Except.error.injEq]
  | ok a =>
    obtain ⟨b, hb⟩ := hf a rfl
    rw [ok_bind, hb]
    exact iff_of_false nofun nofun

theorem map {x : Except ε α} (h : FailsWith x fault) (f : α → β) : FailsWith (x.map f) fault := by
  intro e
  rw [← h e]
  cases x with
  | error e' => rw [error_map, Except.error.injEq, Except.error.injEq]
  | ok a => exact iff_of_false nofun nofun

/-- The error of a list is the fault of its first faulty element. -/
theorem mapM {f : α → Except ε β} {fault : α → ε → Prop} {xs : List α}
    (h : ∀ x ∈ xs, FailsWith (f x) (fault x)) : FailsWith (xs.mapM f) (FirstFault fault xs) := by
  induction xs with
  | nil => exact .of_ok rfl fun _ => FirstFault.not_nil
  | cons x xs ih =>
    obtain ⟨hx, hxs⟩ := List.forall_mem_cons.mp h
    intro e
    rw [List.mapM_cons, FirstFault.cons_iff]
    cases hfx : f x with
    | error e' =>
      have hfault := (hx e').mp hfx
      rw [← hx e, hfx, error_bind, Except.error.injEq, Except.error.injEq]
      exact ⟨.inl, fun h => h.elim id fun h => absurd hfault (h.1 e')⟩
    | ok b =>
      have hnone := hx.not_of_ok hfx
      rw [ok_bind, or_iff_right (hnone e), and_iff_right hnone]
      exact (ih hxs).bind_ok (fun bs _ => ⟨b :: bs, rfl⟩) e

end FailsWith

end DexWeave.Fallible
