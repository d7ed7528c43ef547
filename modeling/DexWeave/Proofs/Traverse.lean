/-
  DexWeave/Proofs/Traverse.lean --- instructions with their references replaced.

  WHAT THIS FILE IS FOR.  Storing and reading an instruction are the same traversal with
  different functions.  The lemmas say what a traversal keeps, when it succeeds, and when
  a second traversal undoes the first, once for all instructions: this is the only file
  that takes the cases of an instruction apart.
-/
import DexWeave.Code.Instruction
import DexWeave.Proofs.Fallible

set_option autoImplicit false

namespace DexWeave.Instruction

open Fallible

variable {Text Typ Method Target : Type} {Text' Typ' Method' Target' Target'' : Type}
variable {ε ε' : Type} {i : Instruction Text Typ Method Target}

/-! ## What an instruction refers to -/

theorem text?_eq_some_iff {t : Text} : i.text? = some t ↔ ∃ d, i = constString d t := by
  cases i <;> simp [text?, eq_comm]

theorem type?_eq_some_iff {t : Typ} : i.type? = some t ↔ ∃ d, i = newInstance d t := by
  cases i <;> simp [type?, eq_comm]

theorem method?_eq_some_iff {m : Method} :
    i.method? = some m ↔ ∃ k args, i = invoke k m args := by
  cases i <;> simp [method?, eq_comm]

/-! ## Branch targets -/

/-- The instruction with another branch target. -/
def mapTarget (f : Target → Target') :
    Instruction Text Typ Method Target → Instruction Text Typ Method Target'
  | nop => nop
  | move k d s => move k d s
  | moveResult k d => moveResult k d
  | returnVoid => returnVoid
  | returnValue k s => returnValue k s
  | const d v => const d v
  | constWide d v => constWide d v
  | constString d t => constString d t
  | newInstance d t => newInstance d t
  | throw s => throw s
  | goto t => goto (f t)
  | branch c a b t => branch c a b (f t)
  | branchZero c a t => branchZero c a (f t)
  | binary op d a b => binary op d a b
  | invoke k m args => invoke k m args

/-- The argument registers of a call. -/
def arguments : Instruction Text Typ Method Target → List Register
  | invoke _ _ args => args
  | _ => []

/-- Only calls have arguments. -/
theorem arguments_cases (i : Instruction Text Typ Method Target) :
    i.arguments = [] ∨ ∃ k m, i = invoke k m i.arguments := by
  cases i
  case invoke k m args => exact .inr ⟨k, m, rfl⟩
  all_goals exact .inl rfl

@[simp] theorem target?_mapTarget (f : Target → Target')
    (i : Instruction Text Typ Method Target) : (i.mapTarget f).target? = i.target?.map f := by
  cases i <;> rfl

@[simp] theorem text?_mapTarget (f : Target → Target') (i : Instruction Text Typ Method Target) :
    (i.mapTarget f).text? = i.text? := by
  cases i <;> rfl

@[simp] theorem type?_mapTarget (f : Target → Target') (i : Instruction Text Typ Method Target) :
    (i.mapTarget f).type? = i.type? := by
  cases i <;> rfl

@[simp] theorem method?_mapTarget (f : Target → Target')
    (i : Instruction Text Typ Method Target) : (i.mapTarget f).method? = i.method? := by
  cases i <;> rfl

@[simp] theorem arguments_mapTarget (f : Target → Target')
    (i : Instruction Text Typ Method Target) : (i.mapTarget f).arguments = i.arguments := by
  cases i <;> rfl

@[simp] theorem mapTarget_mapTarget (f : Target → Target') (g : Target' → Target'')
    (i : Instruction Text Typ Method Target) :
    (i.mapTarget f).mapTarget g = i.mapTarget (g ∘ f) := by
  cases i <;> rfl

/-- Only the value at the target of the instruction matters. -/
theorem mapTarget_congr {f g : Target → Target'} (h : ∀ t, i.target? = some t → f t = g t) :
    i.mapTarget f = i.mapTarget g := by
  cases i
  case goto t => exact congrArg goto (h t rfl)
  case branch c a b t => exact congrArg (branch c a b) (h t rfl)
  case branchZero c a t => exact congrArg (branchZero c a) (h t rfl)
  all_goals rfl

theorem mapTarget_id (i : Instruction Text Typ Method Target) : i.mapTarget id = i := by
  cases i <;> rfl

theorem mapTarget_eq_self {f : Target → Target} (h : ∀ t, i.target? = some t → f t = t) :
    i.mapTarget f = i := by
  rw [mapTarget_congr (g := id) h, mapTarget_id]

/-! ## What a traversal keeps -/

section Traversal

variable {onText : Text → Except ε Text'} {onType : Typ → Except ε Typ'}
variable {onMethod : Method → Except ε Method'} {onTarget : Target → Except ε Target'}
variable {j : Instruction Text' Typ' Method' Target'}

theorem traverse_mapTarget (f : Target'' → Target)
    (i : Instruction Text Typ Method Target'') :
    (i.mapTarget f).traverse onText onType onMethod onTarget =
      i.traverse onText onType onMethod (onTarget ∘ f) := by
  cases i <;> rfl

/-- Renaming the targets afterwards is renaming them on the way. -/
theorem traverse_map (f : Target' → Target'') (i : Instruction Text Typ Method Target) :
    i.traverse onText onType onMethod (fun t => (onTarget t).map f) =
      (i.traverse onText onType onMethod onTarget).map (mapTarget f) := by
  cases i
  case constString d t =>
    simp only [traverse]
    cases onText t <;> rfl
  case newInstance d t =>
    simp only [traverse]
    cases onType t <;> rfl
  case invoke k m args =>
    simp only [traverse]
    cases onMethod m <;> rfl
  case goto t =>
    simp only [traverse]
    cases onTarget t <;> rfl
  case branch c a b t =>
    simp only [traverse]
    cases onTarget t <;> rfl
  case branchZero c a t =>
    simp only [traverse]
    cases onTarget t <;> rfl
  all_goals rfl

/-- A traversal reads its last function at the target of the instruction only. -/
theorem traverse_congr_target {onTarget' : Target → Except ε Target'}
    (h : ∀ t, i.target? = some t → onTarget t = onTarget' t) :
    i.traverse onText onType onMethod onTarget = i.traverse onText onType onMethod onTarget' := by
  cases i
  case goto t => exact congrArg (Except.map goto) (h t rfl)
  case branch c a b t => exact congrArg (Except.map (branch c a b)) (h t rfl)
  case branchZero c a t => exact congrArg (Except.map (branchZero c a)) (h t rfl)
  all_goals rfl

/-- A traversed instruction branches if the instruction does. -/
theorem target?_of_traverse (h : i.traverse onText onType onMethod onTarget = .ok j) :
    (i.target? = none ∧ j.target? = none) ∨
      ∃ t t', i.target? = some t ∧ onTarget t = .ok t' ∧ j.target? = some t' := by
  cases i
  case goto t =>
    obtain ⟨t', ht, rfl⟩ := map_eq_ok.mp h
    exact .inr ⟨t, t', rfl, ht, rfl⟩
  case branch c a b t =>
    obtain ⟨t', ht, rfl⟩ := map_eq_ok.mp h
    exact .inr ⟨t, t', rfl, ht, rfl⟩
  case branchZero c a t =>
    obtain ⟨t', ht, rfl⟩ := map_eq_ok.mp h
    exact .inr ⟨t, t', rfl, ht, rfl⟩
  case constString | newInstance | invoke =>
    obtain ⟨_, _, rfl⟩ := map_eq_ok.mp h
    exact .inl ⟨rfl, rfl⟩
  all_goals
    obtain rfl := Except.ok.inj h
    exact .inl ⟨rfl, rfl⟩

theorem text?_of_traverse (h : i.traverse onText onType onMethod onTarget = .ok j) {s : Text'}
    (hs : j.text? = some s) : ∃ t, i.text? = some t ∧ onText t = .ok s := by
  cases i
  case constString d t =>
    obtain ⟨s', ht, rfl⟩ := map_eq_ok.mp h
    obtain rfl := Option.some.inj hs
    exact ⟨t, rfl, ht⟩
  case newInstance | invoke | goto | branch | branchZero =>
    obtain ⟨_, _, rfl⟩ := map_eq_ok.mp h
    cases hs
  all_goals
    obtain rfl := Except.ok.inj h
    cases hs

theorem type?_of_traverse (h : i.traverse onText onType onMethod onTarget = .ok j) {s : Typ'}
    (hs : j.type? = some s) : ∃ t, i.type? = some t ∧ onType t = .ok s := by
  cases i
  case newInstance d t =>
    obtain ⟨s', ht, rfl⟩ := map_eq_ok.mp h
    obtain rfl := Option.some.inj hs
    exact ⟨t, rfl, ht⟩
  case constString | invoke | goto | branch | branchZero =>
    obtain ⟨_, _, rfl⟩ := map_eq_ok.mp h
    cases hs
  all_goals
    obtain rfl := Except.ok.inj h
    cases hs

theorem method?_of_traverse (h : i.traverse onText onType onMethod onTarget = .ok j)
    {s : Method'} (hs : j.method? = some s) : ∃ m, i.method? = some m ∧ onMethod m = .ok s := by
  cases i
  case invoke k m args =>
    obtain ⟨s', hm, rfl⟩ := map_eq_ok.mp h
    obtain rfl := Option.some.inj hs
    exact ⟨m, rfl, hm⟩
  case constString | newInstance | goto | branch | branchZero =>
    obtain ⟨_, _, rfl⟩ := map_eq_ok.mp h
    cases hs
  all_goals
    obtain rfl := Except.ok.inj h
    cases hs

theorem arguments_of_traverse (h : i.traverse onText onType onMethod onTarget = .ok j) :
    j.arguments = i.arguments := by
  cases i
  case constString | newInstance | goto | branch | branchZero | invoke =>
    obtain ⟨_, _, rfl⟩ := map_eq_ok.mp h
    rfl
  all_goals
    obtain rfl := Except.ok.inj h
    rfl

/-! ## When a traversal succeeds -/

theorem failsOnly_traverse {e : ε} {fits : Prop}
    (htext : ∀ t, i.text? = some t → FailsOnly (onText t) e fits)
    (htype : ∀ t, i.type? = some t → FailsOnly (onType t) e fits)
    (hmethod : ∀ m, i.method? = some m → FailsOnly (onMethod m) e fits)
    (htarget : ∀ t, i.target? = some t → FailsOnly (onTarget t) e fits) :
    FailsOnly (i.traverse onText onType onMethod onTarget) e fits := by
  cases i
  case constString d t => exact (htext t rfl).map _
  case newInstance d t => exact (htype t rfl).map _
  case invoke k m args => exact (hmethod m rfl).map _
  case goto t => exact (htarget t rfl).map _
  case branch c a b t => exact (htarget t rfl).map _
  case branchZero c a t => exact (htarget t rfl).map _
  all_goals exact .of_ok rfl

/-- A traversal that finds every string, type and method fails exactly if it does so for its
target. -/
theorem failsWith_traverse (htext : ∀ t, i.text? = some t → ∃ t', onText t = .ok t')
    (htype : ∀ t, i.type? = some t → ∃ t', onType t = .ok t')
    (hmethod : ∀ m, i.method? = some m → ∃ m', onMethod m = .ok m') :
    FailsWith (i.traverse onText onType onMethod onTarget)
      fun e => ∃ t, i.target? = some t ∧ onTarget t = .error e := by
  have htarget : ∀ t, FailsWith (onTarget t) fun e => ∃ t', some t = some t' ∧
      onTarget t' = .error e :=
    fun t e => ⟨fun h => ⟨t, rfl, h⟩, fun ⟨t', ht, h⟩ => Option.some.inj ht ▸ h⟩
  cases i
  case constString d t =>
    obtain ⟨t', ht⟩ := htext t rfl
    exact .of_ok (congrArg (Except.map _) ht) nofun
  case newInstance d t =>
    obtain ⟨t', ht⟩ := htype t rfl
    exact .of_ok (congrArg (Except.map _) ht) nofun
  case invoke k m args =>
    obtain ⟨m', hm⟩ := hmethod m rfl
    exact .of_ok (congrArg (Except.map _) hm) nofun
  case goto t => exact (htarget t).map _
  case branch c a b t => exact (htarget t).map _
  case branchZero c a t => exact (htarget t).map _
  all_goals exact .of_ok rfl nofun

/-- A second traversal undoes the first if its functions undo those of the first; types and
methods may be refused on the way back. -/
theorem returnsWhen_traverse (h : i.traverse onText onType onMethod onTarget = .ok j)
    {goodType : Typ → Prop} {goodMethod : Method → Prop}
    {backText : Text' → Except ε' Text} {backType : Typ' → Except ε' Typ}
    {backMethod : Method' → Except ε' Method} {backTarget : Target' → Except ε' Target}
    (htext : ∀ {t t'}, onText t = .ok t' → backText t' = .ok t)
    (htype : ∀ {t t'}, onType t = .ok t' → ReturnsWhen (backType t') (goodType t) t)
    (hmethod : ∀ {m m'}, onMethod m = .ok m' → ReturnsWhen (backMethod m') (goodMethod m) m)
    (htarget : ∀ {t t'}, onTarget t = .ok t' → backTarget t' = .ok t) :
    ReturnsWhen (j.traverse backText backType backMethod backTarget)
      ((∀ t, i.type? = some t → goodType t) ∧ ∀ m, i.method? = some m → goodMethod m) i := by
  have hnone : ∀ {α : Type} {good : α → Prop}, ∀ a, (none : Option α) = some a → good a :=
    fun _ h => by cases h
  have hfree : True ↔ (∀ t, (none : Option Typ) = some t → goodType t) ∧
      ∀ m, (none : Option Method) = some m → goodMethod m :=
    (iff_true_intro ⟨hnone, hnone⟩).symm
  cases i
  case constString d t =>
    obtain ⟨t', ht, rfl⟩ := map_eq_ok.mp h
    exact ((ReturnsWhen.of_ok (htext ht)).map (constString d)).congr hfree
  case newInstance d t =>
    obtain ⟨t', ht, rfl⟩ := map_eq_ok.mp h
    refine ((htype ht).map (newInstance d)).congr ⟨fun hgood => ⟨?_, hnone⟩, fun hgood => ?_⟩
    · rintro _ ⟨⟩
      exact hgood
    · exact hgood.1 t rfl
  case invoke k m args =>
    obtain ⟨m', hm, rfl⟩ := map_eq_ok.mp h
    refine ((hmethod hm).map (invoke k · args)).congr ⟨fun hgood => ⟨hnone, ?_⟩, fun hgood => ?_⟩
    · rintro _ ⟨⟩
      exact hgood
    · exact hgood.2 m rfl
  case goto t =>
    obtain ⟨t', ht, rfl⟩ := map_eq_ok.mp h
    exact ((ReturnsWhen.of_ok (htarget ht)).map goto).congr hfree
  case branch c a b t =>
    obtain ⟨t', ht, rfl⟩ := map_eq_ok.mp h
    exact ((ReturnsWhen.of_ok (htarget ht)).map (branch c a b)).congr hfree
  case branchZero c a t =>
    obtain ⟨t', ht, rfl⟩ := map_eq_ok.mp h
    exact ((ReturnsWhen.of_ok (htarget ht)).map (branchZero c a)).congr hfree
  all_goals
    obtain rfl := Except.ok.inj h
    exact (ReturnsWhen.of_ok rfl).congr hfree

end Traversal

end DexWeave.Instruction
