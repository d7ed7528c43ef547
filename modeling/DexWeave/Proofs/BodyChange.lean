/-
  DexWeave/Proofs/BodyChange.lean --- changes of one method of a dex file.

  WHAT THIS FILE IS FOR.  Applying a transform changes at most the body of the method that
  it names.  So what it leaves of a dex file is `DexFile.changeBody` at that method, and
  the laws of that function say when two changes can be made in either order: changes of
  different methods always, and changes of one method if they can be on its body.

  DUPLICATES.  Classes and methods need not be distinct; a change is one of the first class
  of a name and of the first method in it.  No change moves one of these firsts, since names
  and prototypes are kept.
-/
import DexWeave.Proofs.Weave

set_option autoImplicit false

namespace DexWeave

/-! ## Changes of the first element that passes a test -/

section ModifyFirst

variable {α : Type} (test test' : α → Bool) (change change' : α → α)

/-- What is found after a change is what was found before, changed. -/
theorem find?_modifyFirst (hkeep : ∀ x, test (change x) = test x) (xs : List α) :
    (modifyFirst test change xs).find? test = (xs.find? test).map change := by
  induction xs with
  | nil => rfl
  | cons x xs ih =>
    by_cases hx : test x = true
    · rw [modifyFirst, if_pos hx, List.find?_cons_of_pos ((hkeep x).trans hx),
        List.find?_cons_of_pos hx, Option.map_some]
    · rw [modifyFirst, if_neg hx, List.find?_cons_of_neg hx, List.find?_cons_of_neg hx, ih]

/-- A change of another element is not seen. -/
theorem find?_modifyFirst_of_disjoint (hkeep : ∀ x, test' (change x) = test' x)
    (hdisjoint : ∀ x, test x = true → test' x = false) (xs : List α) :
    (modifyFirst test change xs).find? test' = xs.find? test' := by
  induction xs with
  | nil => rfl
  | cons x xs ih =>
    by_cases hx : test x = true
    · have hx' : ¬ test' x = true := by rw [hdisjoint x hx]; exact Bool.false_ne_true
      rw [modifyFirst, if_pos hx, List.find?_cons_of_neg hx',
        List.find?_cons_of_neg ((hkeep x).symm ▸ hx')]
    · rw [modifyFirst, if_neg hx, List.find?_cons, List.find?_cons, ih]

variable {test test' change change'}

/-- Only what is found is changed, so only there the change matters. -/
theorem modifyFirst_congr {xs : List α}
    (h : ∀ x, xs.find? test = some x → change x = change' x) :
    modifyFirst test change xs = modifyFirst test change' xs := by
  induction xs with
  | nil => rfl
  | cons x xs ih =>
    by_cases hx : test x = true
    · rw [modifyFirst, modifyFirst, if_pos hx, if_pos hx,
        h x (List.find?_cons_of_pos hx)]
    · rw [modifyFirst, modifyFirst, if_neg hx, if_neg hx,
        ih fun y hy => h y ((List.find?_cons_of_neg hx).trans hy)]

/-- A change that keeps what is found changes nothing. -/
theorem modifyFirst_eq_self {xs : List α} (h : ∀ x, xs.find? test = some x → change x = x) :
    modifyFirst test change xs = xs := by
  induction xs with
  | nil => rfl
  | cons x xs ih =>
    by_cases hx : test x = true
    · rw [modifyFirst, if_pos hx, h x (List.find?_cons_of_pos hx)]
    · rw [modifyFirst, if_neg hx, ih fun y hy => h y ((List.find?_cons_of_neg hx).trans hy)]

variable (test test' change change')

/-- Changes that do not matter to the tests can be made in either order if they can be on the
elements that pass both. -/
theorem modifyFirst_comm (hkeep : ∀ x, test (change' x) = test x)
    (hkeep' : ∀ x, test' (change x) = test' x)
    (hcomm : ∀ x, test x = true → test' x = true → change (change' x) = change' (change x))
    (xs : List α) :
    modifyFirst test change (modifyFirst test' change' xs) =
      modifyFirst test' change' (modifyFirst test change xs) := by
  induction xs with
  | nil => rfl
  | cons x xs ih =>
    by_cases hx : test x = true <;> by_cases hx' : test' x = true <;>
      simp only [modifyFirst, hx, hx', hkeep, hkeep', if_true, if_false, Bool.false_eq_true, ih]
    rw [hcomm x hx hx']

end ModifyFirst

/-! ## Changes of a body -/

/-- The method with its body changed, if it has one; the change is told whether the method has no
receiver. -/
def Method.changeBody (change : Bool → Body → Body) (m : Method) : Method :=
  { m with body := m.body.map (change m.isStatic) }

/-- References with the same owner that name one method are the same. -/
theorem Method.eq_of_isNamedBy (m : Method) {target target' : MethodRef}
    (howner : target.owner = target'.owner) (h : m.isNamedBy target = true)
    (h' : m.isNamedBy target' = true) : target = target' := by
  obtain ⟨owner, name, prototype⟩ := target
  obtain ⟨owner', name', prototype'⟩ := target'
  simp only [isNamedBy, MethodRef.answersTo, decide_eq_true_eq] at howner h h'
  rw [howner, ← h.1, ← h.2, ← h'.1, ← h'.2]

/-- The class with a change of the method that a reference names. -/
def ClassDef.changeBody (target : MethodRef) (change : Bool → Body → Body) (c : ClassDef) :
    ClassDef :=
  { c with methods := modifyFirst (·.isNamedBy target) (Method.changeBody change) c.methods }

namespace DexFile

variable {d : DexFile} {target target' : MethodRef} {change change' : Bool → Body → Body}

/-- The dex file with a change of the body of the method that a reference names. -/
def changeBody (d : DexFile) (target : MethodRef) (change : Bool → Body → Body) : DexFile where
  classes := modifyFirst (·.name = target.owner) (ClassDef.changeBody target change) d.classes

/-- Setting a body changes it, whatever it was. -/
theorem setBody_eq_changeBody {m : Method} {b b' : Body} (hm : d.method? target = some m)
    (hb : m.body = some b) (hchange : change m.isStatic b = b') :
    d.setBody target b' = d.changeBody target change := by
  rw [setBody, changeBody]
  congr 1
  refine modifyFirst_congr fun c hc => ?_
  have hmethod : c.method? target = some m := by
    rw [method?, class?, hc] at hm
    exact hm
  rw [ClassDef.changeBody]
  congr 1
  refine modifyFirst_congr fun m' hm' => ?_
  obtain rfl := Option.some.inj (hmethod.symm.trans hm')
  rw [Method.changeBody, hb, Option.map_some, hchange]

/-- A change that keeps the body it is for changes nothing. -/
theorem changeBody_eq_self
    (h : ∀ m b, d.method? target = some m → m.body = some b → change m.isStatic b = b) :
    d.changeBody target change = d := by
  rw [changeBody, modifyFirst_eq_self]
  intro c hc
  rw [ClassDef.changeBody, modifyFirst_eq_self]
  intro m hm
  have hmethod : d.method? target = some m := by
    rw [method?, class?, hc]
    exact hm
  cases hb : m.body with
  | none => rw [Method.changeBody, hb, Option.map_none, ← hb]
  | some b => rw [Method.changeBody, hb, Option.map_some, h m b hmethod hb, ← hb]

theorem class?_changeBody {name : ClassName} (h : name = target.owner) :
    (d.changeBody target change).class? name =
      (d.class? name).map (ClassDef.changeBody target change) := by
  subst h
  exact find?_modifyFirst (·.name = target.owner) (ClassDef.changeBody target change)
    (fun _ => rfl) d.classes

theorem class?_changeBody_of_ne {name : ClassName} (h : name ≠ target.owner) :
    (d.changeBody target change).class? name = d.class? name := by
  refine find?_modifyFirst_of_disjoint (·.name = target.owner) (·.name = name)
    (ClassDef.changeBody target change) (fun _ => rfl) (fun c hc => ?_) d.classes
  exact decide_eq_false fun hname => h (hname.symm.trans (of_decide_eq_true hc))

/-- The method that is changed is found with its body changed. -/
theorem method?_changeBody (d : DexFile) (target : MethodRef) (change : Bool → Body → Body) :
    (d.changeBody target change).method? target =
      (d.method? target).map (Method.changeBody change) := by
  rw [method?, method?, class?_changeBody rfl]
  cases d.class? target.owner with
  | none => rfl
  | some c =>
    exact find?_modifyFirst (·.isNamedBy target) (Method.changeBody change) (fun _ => rfl) c.methods

/-- Every other method is found as it was. -/
theorem method?_changeBody_of_ne (h : target' ≠ target) :
    (d.changeBody target change).method? target' = d.method? target' := by
  by_cases howner : target'.owner = target.owner
  · rw [method?, method?, class?_changeBody howner]
    cases d.class? target'.owner with
    | none => rfl
    | some c =>
      refine find?_modifyFirst_of_disjoint (·.isNamedBy target) (·.isNamedBy target')
        (Method.changeBody change) (fun _ => rfl) (fun m hm => ?_) c.methods
      exact eq_false_of_ne_true fun hm' => h (m.eq_of_isNamedBy howner hm' hm)
  · rw [method?, method?, class?_changeBody_of_ne howner]

/-- Changes of two methods can be made in either order, and so can changes of one method if they
can be on every body. -/
theorem changeBody_comm
    (hcomm : target = target' →
      ∀ isStatic b, change isStatic (change' isStatic b) = change' isStatic (change isStatic b)) :
    (d.changeBody target' change').changeBody target change =
      (d.changeBody target change).changeBody target' change' := by
  refine congrArg DexFile.mk (modifyFirst_comm (·.name = target.owner) (·.name = target'.owner)
    (ClassDef.changeBody target change) (ClassDef.changeBody target' change') (fun _ => rfl)
    (fun _ => rfl) (fun c hc hc' => ?_) d.classes)
  refine congrArg (ClassDef.mk c.name c.flags c.super) (modifyFirst_comm (·.isNamedBy target)
    (·.isNamedBy target') (Method.changeBody change) (Method.changeBody change') (fun _ => rfl)
    (fun _ => rfl) (fun m hm hm' => ?_) c.methods)
  have howner : target.owner = target'.owner :=
    (of_decide_eq_true hc).symm.trans (of_decide_eq_true hc')
  refine congrArg (Method.mk m.ref m.flags) ?_
  rw [Method.changeBody, Method.changeBody, Option.map_map, Option.map_map]
  exact congrArg (m.body.map ·) (funext (hcomm (m.eq_of_isNamedBy howner hm hm') m.isStatic))

end DexFile

/-! ## Transforms as changes of a body -/

namespace Transform

/-- The body after the transform, changed or not. -/
def keepBody (t : Transform) (isStatic : Bool) (b : Body) : Body :=
  match t.transformBody isStatic b with
  | .ok b' => b'
  | .error _ => b

theorem keepBody_of_ok {t : Transform} {isStatic : Bool} {b b' : Body}
    (h : t.transformBody isStatic b = .ok b') : t.keepBody isStatic b = b' := by
  rw [keepBody, h]

theorem keepBody_of_error {t : Transform} {isStatic : Bool} {b : Body} {r : Refusal}
    (h : t.transformBody isStatic b = .error r) : t.keepBody isStatic b = b := by
  rw [keepBody, h]

/-- Why a body, if there is one, is not transformed. -/
def bodyRefusal? (t : Transform) (m : Method) : Option Refusal :=
  match m.body with
  | none => some .noCode
  | some b =>
    match t.transformBody m.isStatic b with
    | .ok _ => none
    | .error r => some r

/-- Why the transform leaves a dex file as it is, if it does. -/
def refusal? (t : Transform) (d : DexFile) : Option Refusal :=
  match t.apply d with
  | .ok _ => none
  | .error r => some r

/-- The refusal depends only on the method that is the target. -/
theorem refusal?_eq (t : Transform) (d : DexFile) :
    t.refusal? d = ((d.method? t.target).map t.bodyRefusal?).getD (some .methodNotFound) := by
  rw [refusal?, apply]
  cases hm : d.method? t.target with
  | none => rfl
  | some m =>
    rw [Option.map_some, Option.getD_some, bodyRefusal?]
    cases hb : m.body with
    | none => simp only [hb]
    | some b => cases hbody : t.transformBody m.isStatic b <;> simp only [hb, hbody, Except.map]

/-- Applied or refused, a transform changes at most the body of its target. -/
theorem applyOrKeep_eq_changeBody (t : Transform) (d : DexFile) :
    t.applyOrKeep d = d.changeBody t.target t.keepBody := by
  rw [applyOrKeep]
  cases happly : t.apply d with
  | ok d' =>
    obtain ⟨m, b, b', hm, hb, hbody, rfl⟩ := exists_of_apply happly
    exact DexFile.setBody_eq_changeBody hm hb (keepBody_of_ok hbody)
  | error r =>
    refine (DexFile.changeBody_eq_self fun m b hm hb => ?_).symm
    rw [apply, hm] at happly
    simp only [hb] at happly
    cases hbody : t.transformBody m.isStatic b with
    | ok b' =>
      rw [hbody] at happly
      cases happly
    | error r => exact keepBody_of_error hbody

end Transform

end DexWeave
