/-
  DexWeave/Proofs/Splice.lean --- bodies with instructions woven in.

  WHAT THIS FILE IS FOR.  Every transform weaves a splice into a body.  What it inserts is
  of one kind, calls of the one hook and moves of their results, and none of it branches.
  `Splice.Inserts` says so for a splice, and the instructions and labels of the woven body
  follow from it.

  LABELS.  A block takes the place of its instruction behind the label of that instruction,
  and what is put in front of everything has no label.  So canonical bodies stay
  canonical.
-/
import DexWeave.Proofs.CanonicalBody
import DexWeave.Transform.Splice

set_option autoImplicit false

namespace DexWeave

/-! ## Splices and labels -/

namespace Splice

/-- No instruction is dropped, and branches are neither added nor lost. -/
structure KeepsBranches (s : Splice) : Prop where
  opening : ∀ i ∈ s.opening, i.target? = none
  nonempty : ∀ i, s.blockOf i ≠ []
  targets : ∀ i l, (∃ j ∈ s.blockOf i, j.target? = some l) ↔ i.target? = some l

/-- The steps of instructions of which only the first has a label. -/
def labelFirst (label : Option Label) : List SymbolicInstruction → List Step
  | [] => []
  | i :: is => ⟨label, i⟩ :: is.map (Step.mk none)

theorem linesOf_map_unlabelled (is : List SymbolicInstruction) :
    linesOf (is.map (Step.mk none)) = is.map .instruction := by
  induction is with
  | nil => rfl
  | cons i is ih => exact congrArg (Line.instruction i :: ·) ih

theorem flatMap_weaveLine_step {s : Splice} (step : Step)
    (h : s.blockOf step.instruction ≠ []) :
    step.lines.flatMap s.weaveLine =
      linesOf (labelFirst step.label (s.blockOf step.instruction)) := by
  obtain ⟨label, i⟩ := step
  cases hblock : s.blockOf i with
  | nil => exact absurd hblock h
  | cons j js =>
    have htail := linesOf_map_unlabelled js
    rw [linesOf] at htail
    cases label <;>
      simp [Step.lines, weaveLine, hblock, labelFirst, linesOf, htail]

theorem exists_steps_weave {s : Splice} (h : s.KeepsBranches) (steps : List Step) :
    ∃ steps', s.weave (linesOf steps) = linesOf steps' := by
  have hflat : (linesOf steps).flatMap s.weaveLine =
      linesOf (steps.flatMap fun step => labelFirst step.label (s.blockOf step.instruction)) := by
    induction steps with
    | nil => rfl
    | cons step steps ih =>
      have hcons : linesOf (step :: steps) = step.lines ++ linesOf steps := rfl
      rw [hcons, List.flatMap_append, ih, flatMap_weaveLine_step step (h.nonempty _),
        List.flatMap_cons, linesOf_append]
  refine ⟨s.opening.map (Step.mk none) ++
    steps.flatMap fun step => labelFirst step.label (s.blockOf step.instruction), ?_⟩
  rw [weave, hflat, linesOf_append, linesOf_map_unlabelled]

/-- Weaving keeps lines canonical. -/
theorem isCanonical_weave {s : Splice} (hs : s.KeepsBranches) {lines : List Line}
    (h : IsCanonical lines) : IsCanonical (s.weave lines) where
  steps := by
    obtain ⟨steps, rfl⟩ := h.steps
    exact exists_steps_weave hs steps
  labels := by
    rw [labelsOf_weave]
    exact h.labels
  labels_le := by
    rw [labelsOf_weave]
    exact h.labels_le
  targets := by
    intro l
    rw [labelsOf_weave, h.targets, instructionsOf_weave]
    constructor
    · rintro ⟨i, hi, hl⟩
      obtain ⟨j, hj, hjl⟩ := (hs.targets i l).mpr hl
      exact ⟨j, List.mem_append_right _ (List.mem_flatMap.mpr ⟨i, hi, hj⟩), hjl⟩
    · rintro ⟨j, hj, hjl⟩
      rcases List.mem_append.mp hj with hj | hj
      · rw [hs.opening j hj] at hjl
        cases hjl
      · obtain ⟨i, hi, hj⟩ := List.mem_flatMap.mp hj
        exact ⟨i, hi, (hs.targets i l).mp ⟨j, hj, hjl⟩⟩

end Splice

/-! ## Inserted instructions -/

/-- What is inserted: calls of the hook, with up to `room` arguments or with those of an
instruction that was there, and moves of its result. -/
inductive Inserted (hook : MethodRef) (room : Nat) (old : List SymbolicInstruction) :
    SymbolicInstruction → Prop where
  | call (args : List Register) (h : args.length ≤ room) :
    Inserted hook room old (.invokeStatic hook args)
  | redirected (i : SymbolicInstruction) (h : i ∈ old) :
    Inserted hook room old (.invokeStatic hook i.arguments)
  | result (kind : ValueKind) (r : Register) : Inserted hook room old (.moveResult kind r)

namespace Inserted

variable {hook : MethodRef} {room : Nat} {old : List SymbolicInstruction} {i : SymbolicInstruction}

theorem target?_eq (h : Inserted hook room old i) : i.target? = none := by
  cases h <;> rfl

theorem text?_eq (h : Inserted hook room old i) : i.text? = none := by
  cases h <;> rfl

theorem type?_eq (h : Inserted hook room old i) : i.type? = none := by
  cases h <;> rfl

theorem eq_hook (h : Inserted hook room old i) {m : MethodRef} (hm : i.method? = some m) :
    m = hook := by
  cases h
  case result => cases hm
  all_goals exact (Option.some.inj hm).symm

theorem arguments_le (h : Inserted hook room old i) :
    i.arguments.length ≤ room ∨ ∃ j ∈ old, i.arguments = j.arguments := by
  cases h with
  | call args h => exact .inl h
  | redirected j hj => exact .inr ⟨j, hj, rfl⟩
  | result => exact .inl (Nat.zero_le _)

end Inserted

/-- A splice that inserts instructions only, in front and around or in place of instructions that
do not branch. -/
structure Splice.Inserts (s : Splice) (hook : MethodRef) (room : Nat)
    (old : List SymbolicInstruction) : Prop where
  opening : ∀ i ∈ s.opening, Inserted hook room old i
  block : ∀ i block, s.block i = some block → i.target? = none ∧ block ≠ [] ∧
    (i ∈ old → ∀ j ∈ block, j = i ∨ Inserted hook room old j)
  branchless : ∀ i block, s.block i = some block → ∀ j ∈ block, j.target? = none

namespace Splice.Inserts

variable {s : Splice} {hook : MethodRef} {room : Nat} {old : List SymbolicInstruction}

theorem keepsBranches (h : s.Inserts hook room old) : s.KeepsBranches where
  opening := fun i hi => (h.opening i hi).target?_eq
  nonempty := by
    intro i
    rw [blockOf]
    cases hblock : s.block i with
    | none => exact List.cons_ne_nil i []
    | some block => exact (h.block i block hblock).2.1
  targets := by
    intro i l
    rw [blockOf]
    cases hblock : s.block i with
    | none => simp
    | some block =>
      have hnone := (h.block i block hblock).1
      rw [hnone]
      refine ⟨?_, fun h => (by cases h)⟩
      rintro ⟨j, hj, hl⟩
      rw [Option.getD_some] at hj
      rw [h.branchless i block hblock j hj] at hl
      cases hl

/-- The instructions of a woven body are old or inserted. -/
theorem mem_instructionsOf_weave {lines : List Line}
    (h : s.Inserts hook room (instructionsOf lines)) {i : SymbolicInstruction}
    (hi : i ∈ instructionsOf (s.weave lines)) :
    i ∈ instructionsOf lines ∨ Inserted hook room (instructionsOf lines) i := by
  rw [instructionsOf_weave] at hi
  rcases List.mem_append.mp hi with hi | hi
  · exact .inr (h.opening i hi)
  · obtain ⟨j, hj, hi⟩ := List.mem_flatMap.mp hi
    rw [blockOf] at hi
    cases hblock : s.block j with
    | none =>
      rw [hblock, Option.getD_none, List.mem_singleton] at hi
      exact .inl (hi ▸ hj)
    | some block =>
      rw [hblock, Option.getD_some] at hi
      rcases (h.block j block hblock).2.2 hj i hi with rfl | hi
      · exact .inl hj
      · exact .inr hi

end Splice.Inserts

theorem Inserted.mono {hook : MethodRef} {room : Nat} {old old' : List SymbolicInstruction}
    (hsub : ∀ i ∈ old, i ∈ old') {i : SymbolicInstruction} (h : Inserted hook room old i) :
    Inserted hook room old' i := by
  cases h with
  | call args h => exact .call args h
  | redirected j hj => exact .redirected j (hsub j hj)
  | result kind r => exact .result kind r

end DexWeave
