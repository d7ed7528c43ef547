/-
  DexWeave/Proofs/ControlFlow.lean --- where control goes in a body.

  WHAT THIS FILE IS FOR.  From an instruction control goes on to the one behind it, or along
  a branch to the place of a label.  Labels are looked up where storing a body looks them
  up, in `placements`.  A path is a sequence of instructions that control can take from the
  entry of a method.

  HOW PATHS END.  A path may end at any instruction: at a return, at a throw, or at a call
  that throws.  So every front part of a path is a path.
-/
import DexWeave.Proofs.BodyRoundTrip
import Mathlib.Data.List.Chain

set_option autoImplicit false

namespace DexWeave

/-- Whether control can go on to the instruction behind. -/
def Instruction.fallsThrough {Text Typ Method Target : Type} :
    Instruction Text Typ Method Target → Bool
  | returnVoid | returnValue .. | throw _ | goto _ => false
  | _ => true

/-- Whether control always goes on to the instruction behind. -/
def Instruction.isStraight {Text Typ Method Target : Type}
    (i : Instruction Text Typ Method Target) : Bool :=
  i.fallsThrough && i.target?.isNone

theorem Instruction.isStraight_iff {Text Typ Method Target : Type}
    {i : Instruction Text Typ Method Target} :
    i.isStraight = true ↔ i.fallsThrough = true ∧ i.target? = none := by
  rw [isStraight, Bool.and_eq_true, Option.isNone_iff_eq_none]

/-! ## Branches -/

theorem mem_labelsOf {lines : List Line} {l : Label} : l ∈ labelsOf lines ↔ .label l ∈ lines := by
  constructor
  · intro h
    obtain ⟨line, hline, hl⟩ := List.mem_filterMap.mp h
    cases line with
    | label l' => rwa [← Option.some.inj hl]
    | instruction i => cases hl
  · exact fun h => List.mem_filterMap.mpr ⟨_, h, rfl⟩

/-- The instruction at `n` branches to the one at `n'`. -/
def BranchesTo (lines : List Line) (n n' : Nat) : Prop :=
  ∃ i l, (instructionsOf lines)[n]? = some i ∧ i.target? = some l ∧
    (placements 0 lines).lookup l = some n' ∧ n' < (instructionsOf lines).length

theorem BranchesTo.lt {lines : List Line} {n n' : Nat} (h : BranchesTo lines n n') :
    n' < (instructionsOf lines).length := by
  obtain ⟨i, l, -, -, -, hlt⟩ := h
  exact hlt

theorem lookup_placements_eq_some_iff {lines : List Line} {l : Label} {n : Nat} :
    (placements 0 lines).lookup l = some n ↔ l ∈ labelsOf lines ∧ placeOf lines l = n := by
  rw [lookup_placements, Nat.zero_add]
  split
  · rename_i hl
    rw [Option.some.injEq, and_iff_right hl]
  · rename_i hl
    exact ⟨fun h => (by cases h), fun h => absurd h.1 hl⟩

/-- If the labels are placed, every instruction with a target branches to some instruction. -/
theorem LabelsPlaced.exists_branchesTo {lines : List Line} (h : LabelsPlaced lines) {n : Nat}
    {i : SymbolicInstruction} {l : Label} (hi : (instructionsOf lines)[n]? = some i)
    (hl : i.target? = some l) :
    (placements 0 lines).lookup l = some (placeOf lines l) ∧
      BranchesTo lines n (placeOf lines l) := by
  obtain ⟨hmem, hlt⟩ := h.placed i (List.mem_of_getElem? hi) l hl
  have hlookup := lookup_placements_eq_some_iff.mpr ⟨hmem, rfl⟩
  exact ⟨hlookup, i, l, hi, hl, hlookup, hlt⟩

/-! ## Paths -/

/-- Control may pass from the instruction at `n` to the one at `n'`. -/
inductive Flow (lines : List Line) (n : Nat) : Nat → Prop where
  | next (i : SymbolicInstruction) (h : (instructionsOf lines)[n]? = some i)
    (hfall : i.fallsThrough = true) : Flow lines n (n + 1)
  | branch (n' : Nat) (h : BranchesTo lines n n') : Flow lines n n'

theorem Flow.lt {lines : List Line} {n n' : Nat} (h : Flow lines n n') :
    n < (instructionsOf lines).length := by
  cases h with
  | next i hi hfall => exact (List.getElem?_eq_some_iff.mp hi).1
  | branch n' h =>
    obtain ⟨i, l, hi, -⟩ := h
    exact (List.getElem?_eq_some_iff.mp hi).1

/-- The positions of instructions that control can take, from the entry on. -/
structure IsPath (lines : List Line) (path : List Nat) : Prop where
  entry : ∀ n, path.head? = some n → n = 0
  chain : path.IsChain (Flow lines)
  lt : ∀ n ∈ path, n < (instructionsOf lines).length

namespace IsPath

variable {lines : List Line} {path : List Nat} {n : Nat}

theorem nil (lines : List Line) : IsPath lines [] where
  entry := fun _ h => by cases h
  chain := .nil
  lt := fun _ h => absurd h List.not_mem_nil

theorem of_isPrefix {front : List Nat} (h : IsPath lines path) (hfront : front <+: path) :
    IsPath lines front where
  entry := by
    intro n hn
    obtain ⟨back, rfl⟩ := hfront
    refine h.entry n ?_
    rw [List.head?_append, hn]
    rfl
  chain := h.chain.prefix hfront
  lt := fun n hn => h.lt n (hfront.subset hn)

theorem singleton_iff : IsPath lines [n] ↔ n = 0 ∧ n < (instructionsOf lines).length := by
  constructor
  · exact fun h => ⟨h.entry n rfl, h.lt n List.mem_cons_self⟩
  · rintro ⟨rfl, hlt⟩
    refine ⟨fun m hm => (Option.some.inj hm).symm, List.isChain_singleton 0, fun m hm => ?_⟩
    rw [List.mem_singleton.mp hm]
    exact hlt

/-- A path goes on where control passes. -/
theorem concat_iff {m : Nat} :
    IsPath lines (path ++ [m] ++ [n]) ↔
      IsPath lines (path ++ [m]) ∧ Flow lines m n ∧ n < (instructionsOf lines).length := by
  have hlast : (path ++ [m]).getLast? = some m := List.getLast?_concat
  constructor
  · intro h
    refine ⟨h.of_isPrefix (List.prefix_append _ _), ?_,
      h.lt n (List.mem_append_right _ List.mem_cons_self)⟩
    exact (List.isChain_append.mp h.chain).2.2 m hlast n rfl
  · rintro ⟨h, hflow, hlt⟩
    refine ⟨fun k hk => h.entry k ?_, ?_, fun k hk => ?_⟩
    · rwa [List.head?_append_of_ne_nil _ (by simp)] at hk
    · refine List.isChain_append.mpr ⟨h.chain, List.isChain_singleton n, fun x hx y hy => ?_⟩
      obtain rfl := Option.some.inj (hlast.symm.trans hx)
      obtain rfl := Option.some.inj hy
      exact hflow
    · rcases List.mem_append.mp hk with hk | hk
      · exact h.lt k hk
      · rwa [List.mem_singleton.mp hk]

/-- A path reaches an instruction at the entry, or from the instruction before it on the path. -/
theorem concat_cases (h : IsPath lines (path ++ [n])) :
    (path = [] ∧ n = 0) ∨ ∃ front m, path = front ++ [m] ∧ Flow lines m n := by
  rcases path.eq_nil_or_concat' with rfl | ⟨front, m, rfl⟩
  · exact .inl ⟨rfl, h.entry n rfl⟩
  · exact .inr ⟨front, m, rfl, (concat_iff.mp h).2.1⟩

end IsPath

end DexWeave
