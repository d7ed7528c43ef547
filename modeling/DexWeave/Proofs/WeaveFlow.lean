/-
  DexWeave/Proofs/WeaveFlow.lean --- control flow through woven bodies.

  WHAT THIS FILE IS FOR.  A woven body is an opening followed by one block for each old
  instruction.  Instructions of the opening and inside a block only go on to the next one;
  the last instruction of a block passes control where the old instruction did, to the
  starts of blocks.  So the paths of the woven body are those of the old body with every
  instruction replaced by its block, behind the opening.

  HOW.  `Splice.KeepsFlow` says this of single blocks.  `Splice.flow_weave_iff` describes a
  step of control in the woven body from it, and everything about branches and paths
  follows from that description.
-/
import DexWeave.Proofs.ControlFlow
import DexWeave.Proofs.Weave

set_option autoImplicit false

namespace DexWeave

/-! ## Lists cut into blocks -/

section Blocks

variable {α β : Type} {f : α → List β} {xs : List α} {x : α} {j n : Nat}

theorem flatMap_take_succ (hx : xs[j]? = some x) :
    (xs.take (j + 1)).flatMap f = (xs.take j).flatMap f ++ f x := by
  rw [List.take_add_one, hx, List.flatMap_append]
  exact congrArg ((xs.take j).flatMap f ++ ·) (List.append_nil (f x))

theorem getElem?_flatMap_of_block (hx : xs[j]? = some x) (hn : n < (f x).length) :
    (xs.flatMap f)[((xs.take j).flatMap f).length + n]? = (f x)[n]? := by
  have hsplit : xs.flatMap f =
      (xs.take j).flatMap f ++ (f x ++ (xs.drop (j + 1)).flatMap f) := by
    conv_lhs => rw [← List.take_append_drop (j + 1) xs, List.flatMap_append, flatMap_take_succ hx]
    rw [List.append_assoc]
  rw [hsplit, List.getElem?_append_right (Nat.le_add_right _ n), Nat.add_sub_cancel_left,
    List.getElem?_append_left hn]

/-- Every position of a list of blocks is in one of the blocks. -/
theorem exists_block_of_lt (hn : n < (xs.flatMap f).length) :
    ∃ j x m, xs[j]? = some x ∧ m < (f x).length ∧ n = ((xs.take j).flatMap f).length + m := by
  induction xs generalizing n with
  | nil => exact absurd hn (Nat.not_lt_zero n)
  | cons x xs ih =>
    rw [List.flatMap_cons, List.length_append] at hn
    by_cases hx : n < (f x).length
    · exact ⟨0, x, n, rfl, hx, (Nat.zero_add n).symm⟩
    · obtain ⟨j, y, m, hy, hm, hnm⟩ := ih (n := n - (f x).length) (by omega)
      refine ⟨j + 1, y, m, hy, hm, ?_⟩
      rw [List.take_succ_cons, List.flatMap_cons, List.length_append]
      omega

end Blocks

theorem range'_prefix (start : Nat) {m n : Nat} (h : m ≤ n) :
    List.range' start m <+: List.range' start n := by
  obtain ⟨k, rfl⟩ := Nat.exists_eq_add_of_le h
  exact ⟨_, List.range'_append_1⟩

namespace Splice

/-! ## Where blocks are -/

/-- Where the block of the instruction at `j` starts in the woven body. -/
def blockStart (s : Splice) (lines : List Line) (j : Nat) : Nat :=
  s.opening.length + (((instructionsOf lines).take j).flatMap s.blockOf).length

/-- The positions of the block of the instruction at `j` in the woven body. -/
def blockPositions (s : Splice) (lines : List Line) (j : Nat) : List Nat :=
  List.range' (s.blockStart lines j) (s.blockStart lines (j + 1) - s.blockStart lines j)

/-- The path through the woven body along the opening and the blocks of a path. -/
def expand (s : Splice) (lines : List Line) (path : List Nat) : List Nat :=
  List.range s.opening.length ++ path.flatMap (s.blockPositions lines)

variable {s : Splice} {lines : List Line}

@[simp] theorem blockStart_zero : s.blockStart lines 0 = s.opening.length := rfl

theorem blockStart_succ {j : Nat} {i : SymbolicInstruction}
    (hi : (instructionsOf lines)[j]? = some i) :
    s.blockStart lines (j + 1) = s.blockStart lines j + (s.blockOf i).length := by
  rw [blockStart, flatMap_take_succ hi, List.length_append, ← Nat.add_assoc, blockStart]

theorem blockStart_mono {j j' : Nat} (h : j ≤ j') :
    s.blockStart lines j ≤ s.blockStart lines j' := by
  have hprefix : (instructionsOf lines).take j <+: (instructionsOf lines).take j' :=
    List.take_prefix_take_left h
  obtain ⟨back, hback⟩ := hprefix
  rw [blockStart, blockStart, ← hback, List.flatMap_append, List.length_append]
  omega

theorem blockStart_of_length_le {j : Nat} (h : (instructionsOf lines).length ≤ j) :
    s.blockStart lines j = (instructionsOf (s.weave lines)).length := by
  rw [blockStart, List.take_of_length_le h, instructionsOf_weave, List.length_append]

/-- Blocks lie one behind the other. -/
theorem blockStart_cases (s : Splice) (lines : List Line) (j k : Nat) :
    k = j ∨ s.blockStart lines (k + 1) ≤ s.blockStart lines j ∨
      s.blockStart lines (j + 1) ≤ s.blockStart lines k := by
  rcases Nat.lt_trichotomy k j with hlt | rfl | hlt
  · exact .inr (.inl (blockStart_mono hlt))
  · exact .inl rfl
  · exact .inr (.inr (blockStart_mono hlt))

theorem opening_le_blockStart (s : Splice) (lines : List Line) (j : Nat) :
    s.opening.length ≤ s.blockStart lines j :=
  Nat.le_add_right _ _

@[simp] theorem expand_nil : s.expand lines [] = List.range s.opening.length :=
  List.append_nil _

theorem expand_concat (path : List Nat) (j : Nat) :
    s.expand lines (path ++ [j]) = s.expand lines path ++ s.blockPositions lines j := by
  rw [expand, List.flatMap_append, ← List.append_assoc, List.flatMap_singleton, expand]

theorem getElem?_weave_of_block {j m : Nat} {i : SymbolicInstruction}
    (hi : (instructionsOf lines)[j]? = some i) (hm : m < (s.blockOf i).length) :
    (instructionsOf (s.weave lines))[s.blockStart lines j + m]? = (s.blockOf i)[m]? := by
  rw [instructionsOf_weave, blockStart, List.getElem?_append_right (by omega), Nat.add_assoc,
    Nat.add_sub_cancel_left, getElem?_flatMap_of_block hi hm]

/-- A label that names the instruction at `j` names the start of its block. -/
theorem lookup_placements_weave {l : Label} {j : Nat}
    (h : (placements 0 lines).lookup l = some j) :
    (placements 0 (s.weave lines)).lookup l = some (s.blockStart lines j) := by
  obtain ⟨hl, rfl⟩ := lookup_placements_eq_some_iff.mp h
  refine lookup_placements_eq_some_iff.mpr ⟨by rwa [labelsOf_weave], ?_⟩
  obtain ⟨front, back, rfl, hfront⟩ := List.eq_append_cons_of_mem (mem_labelsOf.mp hl)
  rw [← mem_labelsOf] at hfront
  have hweave : s.weave (front ++ .label l :: back) =
      s.weave front ++ .label l :: back.flatMap s.weaveLine := by
    rw [weave, List.flatMap_append, ← List.append_assoc]
    rfl
  rw [hweave, placeOf_append_label (by rwa [labelsOf_weave]), placeOf_append_label hfront,
    instructionsOf_weave, blockStart, instructionsOf_append, List.take_left, List.length_append]

/-! ## Steps of control -/

/-- Control passes through a block from its start to its end, and leaves it as it leaves the
instruction that the block stands for.  It passes through the opening in the same way. -/
structure KeepsFlow (s : Splice) : Prop where
  opening : ∀ i ∈ s.opening, i.isStraight = true
  block : ∀ i, ∃ front last, s.blockOf i = front ++ [last] ∧
    (∀ j ∈ front, j.isStraight = true) ∧ last.fallsThrough = i.fallsThrough ∧
    last.target? = i.target?

/-- The instruction at `n` is in the opening, or in a block but not its last one. -/
def Inner (s : Splice) (lines : List Line) (n : Nat) : Prop :=
  n < s.opening.length ∨ ∃ j, s.blockStart lines j ≤ n ∧ n + 1 < s.blockStart lines (j + 1)

namespace KeepsFlow

theorem blockStart_lt_succ (h : s.KeepsFlow) {j : Nat} (hj : j < (instructionsOf lines).length) :
    s.blockStart lines j < s.blockStart lines (j + 1) := by
  obtain ⟨front, last, hblock, -⟩ := h.block (instructionsOf lines)[j]
  rw [blockStart_succ (List.getElem?_eq_getElem hj), hblock, List.length_append,
    List.length_singleton]
  omega

theorem blockStart_lt (h : s.KeepsFlow) {j j' : Nat} (hj : j < (instructionsOf lines).length)
    (hlt : j < j') : s.blockStart lines j < s.blockStart lines j' :=
  Nat.lt_of_lt_of_le (h.blockStart_lt_succ hj) (blockStart_mono hlt)

/-- The starts of blocks are instructions of the woven body. -/
theorem blockStart_lt_length_iff (h : s.KeepsFlow) {j : Nat} :
    s.blockStart lines j < (instructionsOf (s.weave lines)).length ↔
      j < (instructionsOf lines).length := by
  rw [← blockStart_of_length_le (Nat.le_refl _)]
  refine ⟨fun hlt => Nat.lt_of_not_le fun hle => ?_, fun hj => h.blockStart_lt hj hj⟩
  exact absurd (blockStart_mono hle) (Nat.not_le.mpr hlt)

/-- An inner instruction goes on to the next one. -/
theorem straight_of_inner (h : s.KeepsFlow) {n : Nat} (hn : s.Inner lines n) :
    ∃ i, (instructionsOf (s.weave lines))[n]? = some i ∧ i.isStraight = true := by
  rcases hn with hn | ⟨j, hstart, hend⟩
  · refine ⟨s.opening[n], ?_, h.opening _ (List.getElem_mem hn)⟩
    rw [instructionsOf_weave, List.getElem?_append_left hn, List.getElem?_eq_getElem hn]
  · have hj : j < (instructionsOf lines).length := by
      refine Nat.lt_of_not_le fun hle => ?_
      rw [blockStart_of_length_le hle] at hstart
      rw [blockStart_of_length_le (Nat.le_succ_of_le hle)] at hend
      omega
    have hget := List.getElem?_eq_getElem hj
    obtain ⟨front, last, hblock, hfront, -⟩ := h.block (instructionsOf lines)[j]
    obtain ⟨m, rfl⟩ := Nat.exists_eq_add_of_le hstart
    rw [blockStart_succ hget, hblock, List.length_append, List.length_singleton] at hend
    have hm : m < front.length := by omega
    refine ⟨front[m], ?_, hfront _ (List.getElem_mem hm)⟩
    rw [getElem?_weave_of_block hget (by rw [hblock, List.length_append]; omega), hblock,
      List.getElem?_append_left hm, List.getElem?_eq_getElem hm]

/-- The last instruction of a block leaves it as the old instruction does. -/
theorem exists_last (h : s.KeepsFlow) {j n : Nat} {k : SymbolicInstruction}
    (hk : (instructionsOf lines)[j]? = some k) (hn : n + 1 = s.blockStart lines (j + 1)) :
    ∃ i, (instructionsOf (s.weave lines))[n]? = some i ∧ i.fallsThrough = k.fallsThrough ∧
      i.target? = k.target? := by
  obtain ⟨front, last, hblock, -, hfall, htarget⟩ := h.block k
  rw [blockStart_succ hk, hblock, List.length_append, List.length_singleton] at hn
  obtain rfl : n = s.blockStart lines j + front.length := by omega
  refine ⟨last, ?_, hfall, htarget⟩
  rw [getElem?_weave_of_block hk (by rw [hblock]; simp), hblock, List.getElem?_concat_length]

/-- An instruction of the woven body is an inner one, or the last one of a block. -/
theorem instruction_cases (h : s.KeepsFlow) {n : Nat} {i : SymbolicInstruction}
    (hi : (instructionsOf (s.weave lines))[n]? = some i) :
    (s.Inner lines n ∧ i.isStraight = true) ∨
      ∃ j k, (instructionsOf lines)[j]? = some k ∧ n + 1 = s.blockStart lines (j + 1) ∧
        i.fallsThrough = k.fallsThrough ∧ i.target? = k.target? := by
  have hinner : s.Inner lines n → s.Inner lines n ∧ i.isStraight = true := by
    intro hn
    obtain ⟨i', hi', hstraight⟩ := h.straight_of_inner hn
    obtain rfl := Option.some.inj (hi.symm.trans hi')
    exact ⟨hn, hstraight⟩
  by_cases hopening : n < s.opening.length
  · exact .inl (hinner (.inl hopening))
  · obtain ⟨hn, -⟩ := List.getElem?_eq_some_iff.mp hi
    rw [instructionsOf_weave, List.length_append] at hn
    have hback : n - s.opening.length < ((instructionsOf lines).flatMap s.blockOf).length := by
      omega
    obtain ⟨j, k, m, hk, hm, hnm⟩ := exists_block_of_lt hback
    have hstart : n = s.blockStart lines j + m := by
      rw [blockStart]
      omega
    have hend := blockStart_succ (s := s) hk
    by_cases hlast : m + 1 < (s.blockOf k).length
    · exact .inl (hinner (.inr ⟨j, by omega, by omega⟩))
    · have hnend : n + 1 = s.blockStart lines (j + 1) := by omega
      obtain ⟨i', hi', hfall, htarget⟩ := h.exists_last hk hnend
      obtain rfl := Option.some.inj (hi.symm.trans hi')
      exact .inr ⟨j, k, hk, hnend, hfall, htarget⟩

/-- The branches of the woven body are those of the old one, from the ends of blocks to the starts
of blocks. -/
theorem branchesTo_weave_iff (h : s.KeepsFlow) (hlabels : LabelsPlaced lines) {n n' : Nat} :
    BranchesTo (s.weave lines) n n' ↔
      ∃ j j', BranchesTo lines j j' ∧ n + 1 = s.blockStart lines (j + 1) ∧
        n' = s.blockStart lines j' := by
  constructor
  · rintro ⟨i, l, hi, hl, hlookup, -⟩
    rcases h.instruction_cases hi with ⟨-, hstraight⟩ | ⟨j, k, hk, hn, -, htarget⟩
    · rw [(Instruction.isStraight_iff.mp hstraight).2] at hl
      cases hl
    · obtain ⟨hplace, hbranch⟩ := hlabels.exists_branchesTo hk (htarget ▸ hl)
      rw [lookup_placements_weave hplace] at hlookup
      exact ⟨j, _, hbranch, hn, (Option.some.inj hlookup).symm⟩
  · rintro ⟨j, j', ⟨k, l, hk, hl, hlookup, hlt⟩, hn, rfl⟩
    obtain ⟨i, hi, -, htarget⟩ := h.exists_last hk hn
    exact ⟨i, l, hi, htarget.trans hl, lookup_placements_weave hlookup,
      h.blockStart_lt_length_iff.mpr hlt⟩

/-- Control goes on inside the opening and inside blocks, and from the ends of blocks it goes to
the starts of blocks, as it does in the old body. -/
theorem flow_weave_iff (h : s.KeepsFlow) (hlabels : LabelsPlaced lines) {n n' : Nat} :
    Flow (s.weave lines) n n' ↔
      (s.Inner lines n ∧ n' = n + 1) ∨
        ∃ j j', Flow lines j j' ∧ n + 1 = s.blockStart lines (j + 1) ∧
          n' = s.blockStart lines j' := by
  constructor
  · intro hflow
    cases hflow with
    | next i hi hfall =>
      rcases h.instruction_cases hi with ⟨hinner, -⟩ | ⟨j, k, hk, hn, hfall', -⟩
      · exact .inl ⟨hinner, rfl⟩
      · exact .inr ⟨j, j + 1, .next k hk (hfall' ▸ hfall), hn, hn⟩
    | branch n' hbranch =>
      obtain ⟨j, j', hbranch, hn, hn'⟩ := (h.branchesTo_weave_iff hlabels).mp hbranch
      exact .inr ⟨j, j', .branch j' hbranch, hn, hn'⟩
  · rintro (⟨hinner, rfl⟩ | ⟨j, j', hflow, hn, rfl⟩)
    · obtain ⟨i, hi, hstraight⟩ := h.straight_of_inner hinner
      exact .next i hi (Instruction.isStraight_iff.mp hstraight).1
    · cases hflow with
      | next k hk hfall =>
        obtain ⟨i, hi, hfall', -⟩ := h.exists_last hk hn
        rw [← hn]
        exact .next i hi (hfall'.trans hfall)
      | branch j' hbranch =>
        exact .branch _ ((h.branchesTo_weave_iff hlabels).mpr ⟨j, j', hbranch, hn, rfl⟩)

/-- Labels that are placed stay placed. -/
theorem labelsPlaced_weave (h : s.KeepsFlow) (hlabels : LabelsPlaced lines) :
    LabelsPlaced (s.weave lines) where
  nodup := by
    rw [labelsOf_weave]
    exact hlabels.nodup
  placed := by
    intro i hi l hl
    obtain ⟨n, hi⟩ := List.mem_iff_getElem?.mp hi
    rcases h.instruction_cases hi with ⟨-, hstraight⟩ | ⟨j, k, hk, -, -, htarget⟩
    · rw [(Instruction.isStraight_iff.mp hstraight).2] at hl
      cases hl
    · obtain ⟨hplace, hbranch⟩ := hlabels.exists_branchesTo hk (htarget ▸ hl)
      obtain ⟨hmem, hplace⟩ :=
        lookup_placements_eq_some_iff.mp (lookup_placements_weave (s := s) hplace)
      refine ⟨hmem, ?_⟩
      rw [hplace]
      exact h.blockStart_lt_length_iff.mpr hbranch.lt

/-! ## Paths -/

/-- A path goes on through inner instructions. -/
theorem isPath_through (h : s.KeepsFlow) (hlabels : LabelsPlaced lines) {front : List Nat}
    {n count : Nat} (hpath : IsPath (s.weave lines) (front ++ [n]))
    (hinner : ∀ m, n ≤ m → m < n + count → s.Inner lines m)
    (hlt : n + count < (instructionsOf (s.weave lines)).length) :
    IsPath (s.weave lines) (front ++ List.range' n (count + 1)) := by
  induction count with
  | zero => exact hpath
  | succ count ih =>
    have hshort := ih (fun m hm hmn => hinner m hm (by omega)) (by omega)
    rw [List.range'_concat, Nat.one_mul, ← List.append_assoc] at hshort
    rw [List.range'_concat, Nat.one_mul, ← List.append_assoc, List.range'_concat, Nat.one_mul,
      ← List.append_assoc]
    refine IsPath.concat_iff.mpr ⟨hshort, ?_, hlt⟩
    exact (h.flow_weave_iff hlabels).mpr
      (.inl ⟨hinner (n + count) (Nat.le_add_right n count) (by omega), rfl⟩)

/-- A path that gets to the start of a block goes on through the block. -/
theorem isPath_block (h : s.KeepsFlow) (hlabels : LabelsPlaced lines) {front : List Nat} {j : Nat}
    (hpath : IsPath (s.weave lines) (front ++ [s.blockStart lines j])) :
    IsPath (s.weave lines) (front ++ s.blockPositions lines j) := by
  have hstart := hpath.lt _ (List.mem_append_right _ List.mem_cons_self)
  have hj := h.blockStart_lt_length_iff.mp hstart
  have hlt := h.blockStart_lt_succ hj
  have hend : s.blockStart lines (j + 1) ≤ (instructionsOf (s.weave lines)).length := by
    rw [← blockStart_of_length_le (Nat.le_refl _)]
    exact blockStart_mono hj
  obtain ⟨count, hcount⟩ : ∃ count,
      s.blockStart lines (j + 1) - s.blockStart lines j = count + 1 :=
    Nat.exists_eq_succ_of_ne_zero (by omega)
  rw [blockPositions, hcount]
  exact h.isPath_through hlabels hpath (fun m hm hmn => .inr ⟨j, hm, by omega⟩) (by omega)

/-- The opening is run first. -/
theorem isPath_expand_nil (h : s.KeepsFlow) (hlabels : LabelsPlaced lines) :
    IsPath (s.weave lines) (s.expand lines []) := by
  rw [expand_nil]
  cases hlen : s.opening.length with
  | zero => exact .nil _
  | succ count =>
    have hlt : count < (instructionsOf (s.weave lines)).length := by
      rw [instructionsOf_weave, List.length_append]
      omega
    have hentry : IsPath (s.weave lines) ([] ++ [0]) :=
      IsPath.singleton_iff.mpr ⟨rfl, Nat.lt_of_le_of_lt (Nat.zero_le count) hlt⟩
    have hinner : ∀ m, 0 ≤ m → m < 0 + count → s.Inner lines m := fun m _ hm => .inl (by omega)
    have hpath := h.isPath_through hlabels hentry hinner (by omega)
    rwa [List.nil_append, ← List.range_eq_range'] at hpath

/-- Where an old path goes on, the woven path goes on to the start of the block. -/
theorem isPath_expand_concat (h : s.KeepsFlow) (hlabels : LabelsPlaced lines) {path : List Nat}
    {j : Nat} (hpath : IsPath lines (path ++ [j]))
    (hexpand : IsPath (s.weave lines) (s.expand lines path)) :
    IsPath (s.weave lines) (s.expand lines path ++ [s.blockStart lines j]) := by
  have hj := h.blockStart_lt_length_iff.mpr (hpath.lt j (List.mem_append_right _ List.mem_cons_self))
  rcases hpath.concat_cases with ⟨rfl, rfl⟩ | ⟨front, m, rfl, hflow⟩
  · rw [expand_nil] at hexpand ⊢
    rw [blockStart_zero] at hj ⊢
    cases hlen : s.opening.length with
    | zero =>
      rw [hlen] at hj
      exact IsPath.singleton_iff.mpr ⟨rfl, hj⟩
    | succ count =>
      rw [hlen] at hj hexpand
      rw [List.range_succ] at hexpand ⊢
      refine IsPath.concat_iff.mpr ⟨hexpand, ?_, hj⟩
      exact (h.flow_weave_iff hlabels).mpr (.inl ⟨.inl (by omega), rfl⟩)
  · have hm := hpath.lt m (List.mem_append_left _ (List.mem_append_right _ List.mem_cons_self))
    have hlt := h.blockStart_lt_succ hm
    obtain ⟨count, hcount⟩ : ∃ count,
        s.blockStart lines (m + 1) - s.blockStart lines m = count + 1 :=
      Nat.exists_eq_succ_of_ne_zero (by omega)
    rw [expand_concat, blockPositions, hcount, List.range'_concat, Nat.one_mul,
      ← List.append_assoc] at hexpand ⊢
    refine IsPath.concat_iff.mpr ⟨hexpand, ?_, hj⟩
    exact (h.flow_weave_iff hlabels).mpr (.inr ⟨m, j, hflow, by omega, rfl⟩)

/-- A path through the old body is a path through the woven one, behind the opening and with every
instruction replaced by its block. -/
theorem isPath_expand (h : s.KeepsFlow) (hlabels : LabelsPlaced lines) {path : List Nat}
    (hpath : IsPath lines path) : IsPath (s.weave lines) (s.expand lines path) := by
  induction path using List.reverseRecOn with
  | nil => exact h.isPath_expand_nil hlabels
  | append_singleton path j ih =>
    rw [expand_concat]
    refine h.isPath_block hlabels (h.isPath_expand_concat hlabels hpath ?_)
    exact ih (hpath.of_isPrefix (List.prefix_append _ _))

end KeepsFlow

/-- How far a path through the woven body has got along an old path: it is in the opening, or in
the block of the last instruction of the old path. -/
inductive Covers (s : Splice) (lines : List Line) : List Nat → List Nat → Prop where
  | opening (count : Nat) (h : count ≤ s.opening.length) : Covers s lines [] (List.range count)
  | block (path : List Nat) (j count : Nat)
    (h : s.blockStart lines j + (count + 1) ≤ s.blockStart lines (j + 1)) :
    Covers s lines (path ++ [j])
      (s.expand lines path ++ List.range' (s.blockStart lines j) (count + 1))

theorem Covers.prefix_expand {path woven : List Nat} (h : s.Covers lines path woven) :
    woven <+: s.expand lines path := by
  cases h with
  | opening count h =>
    rw [expand_nil, List.range_eq_range', List.range_eq_range']
    exact range'_prefix 0 h
  | block path j count h =>
    rw [expand_concat, List.prefix_append_right_inj, blockPositions]
    exact range'_prefix _ (by omega)

namespace KeepsFlow

/-- A woven path that has run the old path so far enters the next block. -/
theorem covers_concat_start (h : s.KeepsFlow) (path : List Nat) {j : Nat}
    (hj : j < (instructionsOf lines).length) :
    s.Covers lines (path ++ [j]) (s.expand lines path ++ [s.blockStart lines j]) :=
  .block path j 0 (h.blockStart_lt_succ hj)

/-- In the opening, the woven path goes on in the opening or enters the first block. -/
theorem exists_covers_opening (h : s.KeepsFlow) (hlabels : LabelsPlaced lines) {count n : Nat}
    (hcount : count ≤ s.opening.length)
    (hwoven : IsPath (s.weave lines) (List.range count ++ [n])) :
    ∃ path, IsPath lines path ∧ s.Covers lines path (List.range count ++ [n]) := by
  have hn : n = count := by
    cases count with
    | zero => exact hwoven.entry n rfl
    | succ count =>
      rw [List.range_succ] at hwoven
      rcases (h.flow_weave_iff hlabels).mp (IsPath.concat_iff.mp hwoven).2.1 with
        ⟨-, rfl⟩ | ⟨j, j', hflow, hend, -⟩
      · rfl
      · -- The end of a block lies behind the opening.
        have hstart := opening_le_blockStart s lines j
        have hlt := h.blockStart_lt_succ hflow.lt
        omega
  subst hn
  rcases Nat.lt_or_eq_of_le hcount with hlt | rfl
  · rw [← List.range_succ]
    exact ⟨[], .nil lines, .opening (n + 1) hlt⟩
  · have hstart := hwoven.lt _ (List.mem_append_right _ List.mem_cons_self)
    have hpos : 0 < (instructionsOf lines).length := by
      refine h.blockStart_lt_length_iff.mp ?_
      rwa [blockStart_zero]
    have hcovers := h.covers_concat_start [] hpos
    rw [expand_nil, blockStart_zero] at hcovers
    exact ⟨[0], IsPath.singleton_iff.mpr ⟨rfl, hpos⟩, hcovers⟩

/-- In a block, the woven path goes on in the block or enters the block of an instruction that the
old path can go on to. -/
theorem exists_covers_block (h : s.KeepsFlow) (hlabels : LabelsPlaced lines) {path : List Nat}
    {j count n : Nat} (hpath : IsPath lines (path ++ [j]))
    (hcount : s.blockStart lines j + (count + 1) ≤ s.blockStart lines (j + 1))
    (hwoven : IsPath (s.weave lines)
      (s.expand lines path ++ List.range' (s.blockStart lines j) (count + 1) ++ [n])) :
    ∃ path', IsPath lines path' ∧ s.Covers lines path'
      (s.expand lines path ++ List.range' (s.blockStart lines j) (count + 1) ++ [n]) := by
  have hlast := hwoven
  rw [List.range'_concat, Nat.one_mul, ← List.append_assoc] at hlast
  obtain ⟨-, hflow, hn⟩ := IsPath.concat_iff.mp hlast
  have hopening := opening_le_blockStart s lines j
  rcases (h.flow_weave_iff hlabels).mp hflow with ⟨hinner, rfl⟩ | ⟨k, k', hold, hend, rfl⟩
  · -- Control stays in the block, as another block that held the instruction would overlap it.
    have hmore : s.blockStart lines j + (count + 1 + 1) ≤ s.blockStart lines (j + 1) := by
      rcases hinner with hinner | ⟨k, hstart, hend⟩
      · omega
      · rcases blockStart_cases s lines j k with rfl | hk | hk <;> omega
    refine ⟨path ++ [j], hpath, ?_⟩
    rw [List.append_assoc, Nat.add_assoc, ← List.range'_1_concat]
    exact .block path j (count + 1) hmore
  · -- The block that ends here is the one the woven path is in.
    have hk := h.blockStart_lt_succ hold.lt
    obtain rfl : k = j := by
      rcases blockStart_cases s lines j k with rfl | hk | hk <;> omega
    have hcovers := h.covers_concat_start (path ++ [k]) (h.blockStart_lt_length_iff.mp hn)
    rw [expand_concat, blockPositions, ← hend, Nat.add_assoc, Nat.add_sub_cancel_left] at hcovers
    exact ⟨path ++ [k] ++ [k'],
      IsPath.concat_iff.mpr ⟨hpath, hold, h.blockStart_lt_length_iff.mp hn⟩, hcovers⟩

/-- A path through the woven body runs along an old path. -/
theorem exists_covers (h : s.KeepsFlow) (hlabels : LabelsPlaced lines) {woven : List Nat}
    (hwoven : IsPath (s.weave lines) woven) :
    ∃ path, IsPath lines path ∧ s.Covers lines path woven := by
  induction woven using List.reverseRecOn with
  | nil => exact ⟨[], .nil lines, .opening 0 (Nat.zero_le _)⟩
  | append_singleton woven n ih =>
    obtain ⟨path, hpath, hcovers⟩ := ih (hwoven.of_isPrefix (List.prefix_append _ _))
    cases hcovers with
    | opening count hcount => exact h.exists_covers_opening hlabels hcount hwoven
    | block path j count hcount => exact h.exists_covers_block hlabels hpath hcount hwoven

/-- The paths through the woven body are the front parts of the expanded old paths. -/
theorem isPath_weave_iff (h : s.KeepsFlow) (hlabels : LabelsPlaced lines) {woven : List Nat} :
    IsPath (s.weave lines) woven ↔ ∃ path, IsPath lines path ∧ woven <+: s.expand lines path := by
  constructor
  · intro hwoven
    obtain ⟨path, hpath, hcovers⟩ := h.exists_covers hlabels hwoven
    exact ⟨path, hpath, hcovers.prefix_expand⟩
  · rintro ⟨path, hpath, hprefix⟩
    exact (h.isPath_expand hlabels hpath).of_isPrefix hprefix

/-- A path that gets to an instruction of a block has just run the block up to it. -/
theorem exists_append_of_block (h : s.KeepsFlow) (hlabels : LabelsPlaced lines) {front : List Nat}
    {j count : Nat} (hlt : s.blockStart lines j + count < s.blockStart lines (j + 1))
    (hpath : IsPath (s.weave lines) (front ++ [s.blockStart lines j + count])) :
    ∃ before, front = before ++ List.range' (s.blockStart lines j) count := by
  induction count generalizing front with
  | zero => exact ⟨front, (List.append_nil front).symm⟩
  | succ count ih =>
    rcases hpath.concat_cases with ⟨-, hzero⟩ | ⟨front, m, rfl, hflow⟩
    · omega
    · have hopening := opening_le_blockStart s lines j
      obtain rfl : m = s.blockStart lines j + count := by
        rcases (h.flow_weave_iff hlabels).mp hflow with ⟨-, hnext⟩ | ⟨k, k', -, -, hstart⟩
        · omega
        · -- Starts of blocks are not inside a block.
          rcases blockStart_cases s lines j k' with rfl | hk | hk
          · omega
          · have hle : s.blockStart lines k' ≤ s.blockStart lines (k' + 1) :=
              blockStart_mono (Nat.le_add_right k' 1)
            omega
          · omega
      obtain ⟨before, rfl⟩ := ih (by omega) (hpath.of_isPrefix (List.prefix_append _ _))
      exact ⟨before, by rw [List.append_assoc, ← List.range'_1_concat]⟩

end KeepsFlow

end Splice

end DexWeave
