/-
  DexWeave/Proofs/CanonicalBody.lean --- bodies with canonical labels.

  WHAT THIS FILE IS FOR.  A stored body has no labels, so a body that is stored and read
  again comes back with other ones: those places keep a label that a branch leads to, each
  place gets one label, and the labels are numbered from zero in the order of their
  places.  `canonicalLines` is that body, defined from the lines alone.

  THE FORM BETWEEN.  In a resolved instruction the target of a branch is the number of
  the instruction it leads to.  Resolving forgets the labels; `canonicalSteps` chooses them
  anew.

  WHAT IS PROVED.  Canonical lines are their own canonical form, and labels chosen anew are
  canonical and resolve to the instructions they were chosen for.
-/
import DexWeave.Code.Body
import DexWeave.Proofs.Traverse
import Mathlib.Data.List.Induction
import Mathlib.Data.List.Nodup

set_option autoImplicit false

namespace DexWeave

/-! ## Steps -/

/-- An instruction with the label right before it, if there is one. -/
structure Step where
  /-- The label. -/
  label : Option Label
  /-- The instruction. -/
  instruction : SymbolicInstruction
  deriving DecidableEq, Repr, Inhabited

/-- The lines of a step. -/
def Step.lines (s : Step) : List Line :=
  (s.label.map Line.label).toList ++ [.instruction s.instruction]

/-- The lines of steps. -/
def linesOf (steps : List Step) : List Line := steps.flatMap Step.lines

theorem linesOf_append (front back : List Step) :
    linesOf (front ++ back) = linesOf front ++ linesOf back :=
  List.flatMap_append

@[simp] theorem instructionsOf_linesOf (steps : List Step) :
    instructionsOf (linesOf steps) = steps.map Step.instruction := by
  induction steps with
  | nil => rfl
  | cons s steps ih =>
    obtain ⟨_ | l, i⟩ := s
    · exact congrArg (i :: ·) ih
    · exact congrArg (i :: ·) ih

@[simp] theorem labelsOf_linesOf (steps : List Step) :
    labelsOf (linesOf steps) = steps.filterMap Step.label := by
  induction steps with
  | nil => rfl
  | cons s steps ih =>
    obtain ⟨_ | l, i⟩ := s
    · exact ih
    · exact congrArg (l :: ·) ih

/-- The labels before a step, its own and those behind it. -/
theorem labels_split {steps : List Step} {n : Nat} (hn : n < steps.length) {l : Label}
    (hl : steps[n].label = some l) :
    steps.filterMap Step.label = (steps.take n).filterMap Step.label ++
      l :: (steps.drop (n + 1)).filterMap Step.label := by
  conv_lhs => rw [← List.take_append_drop n steps, List.drop_eq_getElem_cons hn]
  rw [List.filterMap_append, List.filterMap_cons_some hl]

/-! ## Places -/

/-- How many instructions stand before the first place of a label. -/
def placeOf (lines : List Line) (l : Label) : Nat :=
  (instructionsOf (lines.takeWhile (· ≠ .label l))).length

theorem placeOf_append_label {front : List Line} {l : Label} (h : l ∉ labelsOf front)
    (back : List Line) :
    placeOf (front ++ .label l :: back) l = (instructionsOf front).length := by
  have hfront : ∀ line ∈ front, decide (line ≠ .label l) = true := by
    rintro line hline
    refine decide_eq_true ?_
    rintro rfl
    exact h (List.mem_filterMap.mpr ⟨_, hline, rfl⟩)
  rw [placeOf, List.takeWhile_append_of_pos hfront, List.takeWhile_cons_of_neg (by simp),
    List.append_nil]

/-- In steps whose labels differ, the place of a label is the position of its step. -/
theorem placeOf_linesOf {steps : List Step} (hnodup : (steps.filterMap Step.label).Nodup)
    {n : Nat} (hn : n < steps.length) {l : Label} (hl : steps[n].label = some l) :
    placeOf (linesOf steps) l = n := by
  have hlines : linesOf steps = linesOf (steps.take n) ++
      .label l :: .instruction steps[n].instruction :: linesOf (steps.drop (n + 1)) := by
    conv_lhs => rw [← List.take_append_drop n steps, List.drop_eq_getElem_cons hn]
    rw [linesOf_append, linesOf, linesOf, List.flatMap_cons, Step.lines, hl]
    rfl
  have hfront : l ∉ labelsOf (linesOf (steps.take n)) := by
    rw [labelsOf_linesOf]
    rw [labels_split hn hl] at hnodup
    intro hmem
    exact (List.nodup_append.mp hnodup).2.2 l hmem l List.mem_cons_self rfl
  rw [hlines, placeOf_append_label hfront, instructionsOf_linesOf, List.length_map,
    List.length_take, Nat.min_eq_left (Nat.le_of_lt hn)]

/-! ## Resolved instructions -/

/-- An instruction that names the instruction it branches to by its position. -/
abbrev ResolvedInstruction : Type := Instruction String ValueType MethodRef Nat

/-- The instructions of a body with the places of their targets. -/
def resolved (lines : List Line) : List ResolvedInstruction :=
  (instructionsOf lines).map (·.mapTarget (placeOf lines))

theorem getElem?_resolved_linesOf (steps : List Step) (n : Nat) :
    (resolved (linesOf steps))[n]? =
      steps[n]?.map fun s => s.instruction.mapTarget (placeOf (linesOf steps)) := by
  rw [resolved, instructionsOf_linesOf, List.getElem?_map, List.getElem?_map, Option.map_map]
  rfl

/-- The places that branches lead to. -/
def targetsOf (code : List ResolvedInstruction) : List Nat := code.filterMap Instruction.target?

theorem mem_targetsOf {code : List ResolvedInstruction} {place : Nat} :
    place ∈ targetsOf code ↔ ∃ i ∈ code, i.target? = some place :=
  List.mem_filterMap

theorem mem_targetsOf_resolved {lines : List Line} {place : Nat} :
    place ∈ targetsOf (resolved lines) ↔
      ∃ i ∈ instructionsOf lines, ∃ l, i.target? = some l ∧ placeOf lines l = place := by
  simp [mem_targetsOf, resolved]

/-! ## Labels chosen anew -/

/-- The label of a place: it is numbered by how many places before it branches lead to. -/
def placeLabel (targets : List Nat) (place : Nat) : Label :=
  ⟨UInt32.ofNat ((List.range place).countP (· ∈ targets))⟩

/-- The step of an instruction at its position. -/
def canonicalStep (targets : List Nat) (i : ResolvedInstruction) (position : Nat) : Step where
  label := if position ∈ targets then some (placeLabel targets position) else none
  instruction := i.mapTarget (placeLabel targets)

@[simp] theorem instruction_canonicalStep (targets : List Nat) (i : ResolvedInstruction)
    (position : Nat) :
    (canonicalStep targets i position).instruction = i.mapTarget (placeLabel targets) := rfl

/-- The steps of resolved instructions. -/
def canonicalSteps (code : List ResolvedInstruction) : List Step :=
  code.zipIdx.map fun i => canonicalStep (targetsOf code) i.1 i.2

/-- The lines with their labels chosen anew: unused ones are dropped, those of one place become
one, and the rest is numbered in order. -/
def canonicalLines (lines : List Line) : List Line := linesOf (canonicalSteps (resolved lines))

@[simp] theorem length_canonicalSteps (code : List ResolvedInstruction) :
    (canonicalSteps code).length = code.length := by
  rw [canonicalSteps, List.length_map, List.length_zipIdx]

theorem getElem?_canonicalSteps (code : List ResolvedInstruction) (n : Nat) :
    (canonicalSteps code)[n]? = code[n]?.map (canonicalStep (targetsOf code) · n) := by
  rw [canonicalSteps, List.getElem?_map, List.getElem?_zipIdx, Option.map_map, Nat.zero_add]
  rfl

/-- Choosing labels anew changes the targets of the instructions and nothing else. -/
theorem instructionsOf_canonicalLines (lines : List Line) :
    instructionsOf (canonicalLines lines) =
      (instructionsOf lines).map
        (·.mapTarget (placeLabel (targetsOf (resolved lines)) ∘ placeOf lines)) := by
  have hfst : (canonicalSteps (resolved lines)).map Step.instruction =
      ((resolved lines).zipIdx.map Prod.fst).map
        (·.mapTarget (placeLabel (targetsOf (resolved lines)))) := by
    rw [canonicalSteps, List.map_map, List.map_map]
    rfl
  rw [canonicalLines, instructionsOf_linesOf, hfst, List.zipIdx_map_fst]
  conv_lhs => rw [resolved, List.map_map]
  refine List.map_congr_left fun i _ => ?_
  exact Instruction.mapTarget_mapTarget _ _ i

/-! ## Canonical lines -/

/-- Every label stands right before an instruction, the labels are numbered from zero in order,
and they are the labels that branches lead to. -/
structure IsCanonical (lines : List Line) : Prop where
  steps : ∃ steps, lines = linesOf steps
  labels : labelsOf lines =
    (List.range (labelsOf lines).length).map fun n => ⟨UInt32.ofNat n⟩
  labels_le : (labelsOf lines).length ≤ 4294967296
  targets : ∀ l, l ∈ labelsOf lines ↔ ∃ i ∈ instructionsOf lines, i.target? = some l

theorem IsCanonical.nodup {lines : List Line} (h : IsCanonical lines) :
    (labelsOf lines).Nodup := by
  rw [h.labels]
  refine List.Nodup.map_on ?_ List.nodup_range
  intro m hm n hn hmn
  have hle := h.labels_le
  rw [List.mem_range] at hm hn
  have hnat := congrArg UInt32.toNat (Label.mk.inj hmn)
  rwa [UInt32.toNat_ofNat_of_lt' (Nat.lt_of_lt_of_le hm hle),
    UInt32.toNat_ofNat_of_lt' (Nat.lt_of_lt_of_le hn hle)] at hnat

/-- Counting positions of marked elements is counting the marks. -/
theorem countP_range_eq_length_filterMap {α β : Type} {f : α → Option β} {p : Nat → Bool}
    {xs : List α} (h : ∀ k, k < xs.length → p k = (xs[k]?.bind f).isSome) :
    (List.range xs.length).countP p = (xs.filterMap f).length := by
  induction xs using List.reverseRecOn with
  | nil => rfl
  | append_singleton xs x ih =>
    have hfront : ∀ k, k < xs.length → p k = (xs[k]?.bind f).isSome := by
      intro k hk
      rw [h k (by simp; omega), List.getElem?_append_left hk]
    have hlast : p xs.length = (f x).isSome := by
      rw [h xs.length (by simp), List.getElem?_concat_length]
      rfl
    rw [List.length_append, List.length_singleton, List.range_succ, List.countP_append,
      ih hfront, List.filterMap_append, List.length_append, List.countP_singleton, hlast]
    cases hx : f x <;> simp [hx]

/-- Among the elements that pass a test, each is as far from the start as the number of those
before it. -/
theorem map_countP_filter_range (p : Nat → Bool) (n : Nat) :
    ((List.range n).filter p).map (fun k => (List.range k).countP p) =
      List.range ((List.range n).countP p) := by
  induction n with
  | zero => rfl
  | succ n ih =>
    rw [List.range_succ, List.filter_append, List.map_append, ih, List.countP_append,
      List.countP_singleton]
    cases hn : p n <;> simp [hn, List.range_succ]

/-! ## Canonical lines are their own -/

namespace IsCanonical

variable {lines : List Line}

/-- In canonical lines the places that branches lead to are those of the labels. -/
theorem mem_targetsOf_iff {steps : List Step} (h : IsCanonical (linesOf steps)) {n : Nat} :
    n ∈ targetsOf (resolved (linesOf steps)) ↔ (steps[n]?.bind Step.label).isSome := by
  have hnodup := h.nodup
  rw [labelsOf_linesOf] at hnodup
  rw [mem_targetsOf_resolved]
  constructor
  · rintro ⟨i, hi, l, hl, rfl⟩
    have hmem := (h.targets l).mpr ⟨i, hi, hl⟩
    rw [labelsOf_linesOf] at hmem
    obtain ⟨s, hs, hsl⟩ := List.mem_filterMap.mp hmem
    obtain ⟨n, hn, rfl⟩ := List.mem_iff_getElem.mp hs
    rw [placeOf_linesOf hnodup hn hsl, List.getElem?_eq_getElem hn, Option.bind_some, hsl]
    rfl
  · intro hsome
    obtain ⟨l, hl⟩ := Option.isSome_iff_exists.mp hsome
    obtain ⟨s, hs, hsl⟩ := Option.bind_eq_some_iff.mp hl
    obtain ⟨hn, rfl⟩ := List.getElem?_eq_some_iff.mp hs
    have hmem : l ∈ labelsOf (linesOf steps) := by
      rw [labelsOf_linesOf]
      exact List.mem_filterMap.mpr ⟨_, List.getElem_mem hn, hsl⟩
    obtain ⟨i, hi, hil⟩ := (h.targets l).mp hmem
    exact ⟨i, hi, l, hil, placeOf_linesOf hnodup hn hsl⟩

/-- In canonical lines the label of a step is the one its place would get anew. -/
theorem placeLabel_eq {steps : List Step} (h : IsCanonical (linesOf steps)) {n : Nat}
    (hn : n < steps.length) {l : Label} (hl : steps[n].label = some l) :
    placeLabel (targetsOf (resolved (linesOf steps))) n = l := by
  have hlen : (steps.take n).length = n := by
    rw [List.length_take, Nat.min_eq_left (Nat.le_of_lt hn)]
  have hmarks : ∀ k, k < (steps.take n).length →
      decide (k ∈ targetsOf (resolved (linesOf steps))) =
        ((steps.take n)[k]?.bind Step.label).isSome := by
    intro k hk
    rw [hlen] at hk
    rw [List.getElem?_take_of_lt hk, Bool.eq_iff_iff, decide_eq_true_iff]
    exact h.mem_targetsOf_iff
  have hcount : (List.range n).countP (· ∈ targetsOf (resolved (linesOf steps))) =
      ((steps.take n).filterMap Step.label).length := by
    rw [← countP_range_eq_length_filterMap hmarks, hlen]
  have hlabels := h.labels
  rw [labelsOf_linesOf] at hlabels
  have hget : (steps.filterMap Step.label)[((steps.take n).filterMap Step.label).length]? =
      some l := by
    rw [labels_split hn hl, List.getElem?_append_right (Nat.le_refl _), Nat.sub_self]
    rfl
  rw [hlabels, List.getElem?_map] at hget
  obtain ⟨m, hm, rfl⟩ := Option.map_eq_some_iff.mp hget
  obtain ⟨hlt, rfl⟩ := List.getElem?_eq_some_iff.mp hm
  rw [placeLabel, hcount, List.getElem_range]

/-- In canonical lines a step is the one its place and its instruction would get anew. -/
theorem canonicalStep_eq {steps : List Step} (h : IsCanonical (linesOf steps)) {n : Nat}
    (hn : n < steps.length) :
    canonicalStep (targetsOf (resolved (linesOf steps)))
      (steps[n].instruction.mapTarget (placeOf (linesOf steps))) n = steps[n] := by
  have hnodup := h.nodup
  rw [labelsOf_linesOf] at hnodup
  have hmem := h.mem_targetsOf_iff (n := n)
  rw [List.getElem?_eq_getElem hn, Option.bind_some] at hmem
  have hlabel : (if n ∈ targetsOf (resolved (linesOf steps)) then
      some (placeLabel (targetsOf (resolved (linesOf steps))) n) else none) =
        steps[n].label := by
    cases hl : steps[n].label with
    | none =>
      rw [hl] at hmem
      exact if_neg fun hn => by cases hmem.mp hn
    | some l =>
      rw [hl] at hmem
      rw [if_pos (hmem.mpr rfl), h.placeLabel_eq hn hl]
  have hinstruction : (steps[n].instruction.mapTarget (placeOf (linesOf steps))).mapTarget
      (placeLabel (targetsOf (resolved (linesOf steps)))) = steps[n].instruction := by
    rw [Instruction.mapTarget_mapTarget]
    refine Instruction.mapTarget_eq_self fun l hl => ?_
    have hlmem := (h.targets l).mpr ⟨steps[n].instruction, ?_, hl⟩
    · rw [labelsOf_linesOf] at hlmem
      obtain ⟨t, ht, htl⟩ := List.mem_filterMap.mp hlmem
      obtain ⟨m, hm, rfl⟩ := List.mem_iff_getElem.mp ht
      rw [Function.comp_apply, placeOf_linesOf hnodup hm htl, h.placeLabel_eq hm htl]
    · rw [instructionsOf_linesOf]
      exact List.mem_map_of_mem (List.getElem_mem hn)
  exact congrArg₂ Step.mk hlabel hinstruction

/-- Choosing the labels of canonical lines anew gives them the labels they have. -/
theorem canonicalLines_eq (h : IsCanonical lines) : canonicalLines lines = lines := by
  obtain ⟨steps, rfl⟩ := h.steps
  refine congrArg linesOf (List.ext_getElem? fun n => ?_)
  rw [getElem?_canonicalSteps, getElem?_resolved_linesOf, Option.map_map]
  cases hs : steps[n]? with
  | none => rfl
  | some s =>
    obtain ⟨hn, rfl⟩ := List.getElem?_eq_some_iff.mp hs
    exact congrArg some (h.canonicalStep_eq hn)

end IsCanonical

/-! ## Labels chosen anew are canonical -/

/-- Every branch leads to an instruction, and there are labels enough for the places. -/
def Resolves (code : List ResolvedInstruction) : Prop :=
  ∀ place ∈ targetsOf code, place < code.length ∧ place < 4294967296

theorem filterMap_ite {α β : Type} (p : α → Prop) [DecidablePred p] (f : α → β) (xs : List α) :
    xs.filterMap (fun x => if p x then some (f x) else none) = (xs.filter (p ·)).map f := by
  induction xs with
  | nil => rfl
  | cons x xs ih =>
    by_cases hx : p x <;> simp [hx, ih]

theorem labels_canonicalSteps (code : List ResolvedInstruction) :
    (canonicalSteps code).filterMap Step.label =
      ((List.range code.length).filter (· ∈ targetsOf code)).map (placeLabel (targetsOf code)) := by
  have hsnd : (canonicalSteps code).filterMap Step.label =
      (code.zipIdx.map Prod.snd).filterMap fun n =>
        if n ∈ targetsOf code then some (placeLabel (targetsOf code) n) else none := by
    rw [canonicalSteps, List.filterMap_map, List.filterMap_map]
    rfl
  rw [hsnd, List.zipIdx_map_snd, ← List.range_eq_range', filterMap_ite]

theorem target?_canonicalSteps {code : List ResolvedInstruction} {l : Label} :
    (∃ i ∈ (canonicalSteps code).map Step.instruction, i.target? = some l) ↔
      ∃ place ∈ targetsOf code, placeLabel (targetsOf code) place = l := by
  constructor
  · rintro ⟨i, hi, hl⟩
    obtain ⟨s, hs, rfl⟩ := List.mem_map.mp hi
    obtain ⟨⟨r, position⟩, hr, rfl⟩ := List.mem_map.mp hs
    rw [instruction_canonicalStep, Instruction.target?_mapTarget] at hl
    obtain ⟨place, hplace, rfl⟩ := Option.map_eq_some_iff.mp hl
    exact ⟨place, mem_targetsOf.mpr ⟨r, List.fst_mem_of_mem_zipIdx hr, hplace⟩, rfl⟩
  · rintro ⟨place, hplace, rfl⟩
    obtain ⟨r, hr, hrplace⟩ := mem_targetsOf.mp hplace
    obtain ⟨n, hn, rfl⟩ := List.mem_iff_getElem.mp hr
    have hstep := getElem?_canonicalSteps code n
    rw [List.getElem?_eq_getElem hn] at hstep
    refine ⟨_, List.mem_map_of_mem (List.mem_of_getElem? hstep), ?_⟩
    rw [instruction_canonicalStep, Instruction.target?_mapTarget, hrplace]
    rfl

theorem isCanonical_linesOf_canonicalSteps {code : List ResolvedInstruction}
    (h : Resolves code) : IsCanonical (linesOf (canonicalSteps code)) where
  steps := ⟨_, rfl⟩
  labels := by
    rw [labelsOf_linesOf, labels_canonicalSteps, List.length_map, ← List.countP_eq_length_filter,
      ← map_countP_filter_range, List.map_map]
    rfl
  labels_le := by
    rw [labelsOf_linesOf, labels_canonicalSteps, List.length_map]
    have hsub : (List.range code.length).filter (· ∈ targetsOf code) ⊆
        List.range 4294967296 := by
      intro place hplace
      obtain ⟨-, hmem⟩ := List.mem_filter.mp hplace
      exact List.mem_range.mpr (h place (of_decide_eq_true hmem)).2
    have hlen := (List.nodup_range.filter _).length_le_of_subset hsub
    rwa [List.length_range] at hlen
  targets := by
    intro l
    rw [labelsOf_linesOf, instructionsOf_linesOf, target?_canonicalSteps, labels_canonicalSteps,
      List.mem_map]
    constructor
    · rintro ⟨place, hplace, rfl⟩
      exact ⟨place, of_decide_eq_true (List.mem_filter.mp hplace).2, rfl⟩
    · rintro ⟨place, hplace, rfl⟩
      exact ⟨place, List.mem_filter.mpr ⟨List.mem_range.mpr (h place hplace).1,
        decide_eq_true hplace⟩, rfl⟩

/-- Labels chosen anew lead where they were chosen for. -/
theorem resolved_linesOf_canonicalSteps {code : List ResolvedInstruction} (h : Resolves code) :
    resolved (linesOf (canonicalSteps code)) = code := by
  have hnodup := (isCanonical_linesOf_canonicalSteps h).nodup
  rw [labelsOf_linesOf] at hnodup
  refine List.ext_getElem? fun n => ?_
  rw [getElem?_resolved_linesOf, getElem?_canonicalSteps, Option.map_map]
  cases hi : code[n]? with
  | none => rfl
  | some i =>
    refine congrArg some ?_
    rw [Function.comp_apply, instruction_canonicalStep, Instruction.mapTarget_mapTarget]
    refine Instruction.mapTarget_eq_self fun place hplace => ?_
    have hmem : place ∈ targetsOf code := mem_targetsOf.mpr ⟨i, List.mem_of_getElem? hi, hplace⟩
    have hlt : place < (canonicalSteps code).length := by
      rw [length_canonicalSteps]
      exact (h place hmem).1
    refine placeOf_linesOf hnodup hlt ?_
    have hstep := getElem?_canonicalSteps code place
    rw [List.getElem?_eq_getElem hlt, List.getElem?_eq_getElem (h place hmem).1] at hstep
    rw [Option.some.inj hstep]
    exact if_pos hmem

/-- Two labels of one place become one; a label no branch leads to is dropped. -/
example : canonicalLines
    [.label ⟨7⟩, .label ⟨3⟩, .instruction .nop, .label ⟨5⟩,
      .instruction (.branchZero .eq ⟨0⟩ ⟨9⟩), .instruction (.goto ⟨7⟩),
      .label ⟨9⟩, .instruction .returnVoid, .label ⟨4⟩] =
    [.label ⟨0⟩, .instruction .nop, .instruction (.branchZero .eq ⟨0⟩ ⟨1⟩),
      .instruction (.goto ⟨0⟩), .label ⟨1⟩, .instruction .returnVoid] := by
  decide +kernel

end DexWeave
