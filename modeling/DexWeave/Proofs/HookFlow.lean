/-
  DexWeave/Proofs/HookFlow.lean --- when hooks run.

  WHAT THIS FILE IS FOR.  A transform that is applied changes neither where branches lead
  nor which instructions follow one another; it only adds calls of its hook on the way.
  `Splice.PreservesFlow` says so for a body and the body woven from it, and
  `Transform.Shape` says which calls are added by which kind of transform.

  HOW OFTEN.  What is put in front of the body runs once on every path: no branch leads
  there.  What is put before a return runs on every path to that return, right before it:
  a branch to the return leads to the start of its block.
-/
import DexWeave.Proofs.WeaveFlow

set_option autoImplicit false

namespace DexWeave

open Fallible

/-! ## Bodies with the same control flow -/

/-- The new lines are an opening and one block for every old instruction, and control takes the
same ways through them. -/
structure Splice.PreservesFlow (s : Splice) (lines lines' : List Line) : Prop where
  instructions :
    instructionsOf lines' = s.opening ++ (instructionsOf lines).flatMap s.blockOf
  labelsPlaced : LabelsPlaced lines'
  /-- Storing the new lines cannot fail for a label. -/
  stored : ∀ p : Pools, (∀ i ∈ instructionsOf lines', p.Indexes i) →
    FailsOnly (lowerLines p lines') (.error .outOfRange)
      ((instructionsOf lines').length ≤ 2147483648)
  /-- A label that named an instruction names the start of its block. -/
  places : ∀ l j, (placements 0 lines).lookup l = some j →
    (placements 0 lines').lookup l = some (s.blockStart lines j)
  /-- Branches are at the ends of blocks and lead to the starts of blocks. -/
  branches : ∀ n n', BranchesTo lines' n n' ↔
    ∃ j j', BranchesTo lines j j' ∧ n + 1 = s.blockStart lines (j + 1) ∧
      n' = s.blockStart lines j'
  /-- The new paths are the old ones along the blocks, behind the opening. -/
  paths : ∀ woven, IsPath lines' woven ↔
    ∃ path, IsPath lines path ∧ woven <+: s.expand lines path
  /-- A path runs the opening from its start to its end, and never again. -/
  entered : ∀ woven, IsPath lines' woven → ∃ back,
    woven <+: List.range s.opening.length ++ back ∧ ∀ n ∈ back, s.opening.length ≤ n
  /-- A path that gets to an instruction of a block has just run the block up to it. -/
  passed : ∀ front j count, s.blockStart lines j + count < s.blockStart lines (j + 1) →
    IsPath lines' (front ++ [s.blockStart lines j + count]) →
    ∃ before, front = before ++ List.range' (s.blockStart lines j) count

/-- No position of an expanded path behind the opening is in the opening. -/
theorem Splice.opening_le_of_mem_blockPositions {s : Splice} {lines : List Line} {j n : Nat}
    (h : n ∈ s.blockPositions lines j) : s.opening.length ≤ n :=
  Nat.le_trans (opening_le_blockStart s lines j) (List.mem_range'_1.mp h).1

theorem Splice.KeepsFlow.preservesFlow {s : Splice} {lines : List Line} (h : s.KeepsFlow)
    (hlabels : LabelsPlaced lines) : s.PreservesFlow lines (s.weave lines) where
  instructions := instructionsOf_weave s lines
  labelsPlaced := h.labelsPlaced_weave hlabels
  stored := fun _ hp => failsOnly_lowerLines (h.labelsPlaced_weave hlabels) hp
  places := fun _ _ hl => lookup_placements_weave hl
  branches := fun _ _ => h.branchesTo_weave_iff hlabels
  paths := fun _ => h.isPath_weave_iff hlabels
  entered := by
    intro woven hwoven
    obtain ⟨path, -, hprefix⟩ := (h.isPath_weave_iff hlabels).mp hwoven
    refine ⟨path.flatMap (s.blockPositions lines), hprefix, fun n hn => ?_⟩
    obtain ⟨j, -, hj⟩ := List.mem_flatMap.mp hn
    exact opening_le_of_mem_blockPositions hj
  passed := fun _ _ _ hlt hpath => h.exists_append_of_block hlabels hlt hpath

theorem Splice.blockOf_of_none {s : Splice} {i : SymbolicInstruction} (h : s.block i = none) :
    s.blockOf i = [i] := by
  rw [blockOf, h, Option.getD_none]

theorem Splice.blockOf_of_some {s : Splice} {i : SymbolicInstruction}
    {block : List SymbolicInstruction} (h : s.block i = some block) : s.blockOf i = block := by
  rw [blockOf, h, Option.getD_some]

namespace Transform

variable {t : Transform} {isStatic : Bool} {b b' : Body} {s : Splice} {hook : MethodRef}

theorem Planned.hook_eq (h : t.Planned isStatic b hook s) :
    hook.owner = t.hook.owner ∧ hook.name = t.hook.name := by
  cases h <;> subst hook <;> exact ⟨rfl, rfl⟩

/-! ## What each kind of transform adds -/

/-- What each kind of transform puts in front of a body and in the place of an instruction. -/
inductive Shape (t : Transform) (hook : MethodRef) (opening : List SymbolicInstruction)
    (blockOf : SymbolicInstruction → List SymbolicInstruction) : Prop where
  /-- A hook on entry is called first; no instruction is replaced. -/
  | entry (thisAsObject : Bool) (haction : t.action = .entry thisAsObject) (args : List Register)
    (hopening : opening = [.invokeStatic hook args]) (hkeep : ∀ i, blockOf i = [i])
  /-- A parameter is passed through the hook first; no instruction is replaced. -/
  | parameter (index : Nat) (haction : t.action = .parameter index) (kind : ValueKind)
    (r : Register)
    (hopening : opening = [.invokeStatic hook (kind.registers r), .moveResult kind r])
    (hkeep : ∀ i, blockOf i = [i])
  /-- Without a result, the hook is called before every return without a value. -/
  | exitVoid (haction : t.action = .exit) (hresult : t.target.prototype.result = .void)
    (hopening : opening = [])
    (hreturn : blockOf .returnVoid = [.invokeStatic hook [], .returnVoid])
    (hkeep : ∀ i, i ≠ .returnVoid → blockOf i = [i])
  /-- With a result, every value that is returned is passed through the hook. -/
  | exitValue (haction : t.action = .exit) (type : ValueType)
    (hresult : t.target.prototype.result = .value type) (hopening : opening = [])
    (hreturn : ∀ kind r, blockOf (.returnValue kind r) =
      [.invokeStatic hook (kind.registers r), .moveResult kind r, .returnValue kind r])
    (hkeep : ∀ i, (∀ kind r, i ≠ .returnValue kind r) → blockOf i = [i])
  /-- The hook takes the place of every call of the callee with the dispatch asked for. -/
  | detour (kind : DetourKind) (callee : MethodRef) (haction : t.action = .detour kind callee)
    (hopening : opening = [])
    (hcall : ∀ args, blockOf (.invoke kind.invokeKind callee args) = [.invokeStatic hook args])
    (hkeep : ∀ i, (∀ args, i ≠ .invoke kind.invokeKind callee args) → blockOf i = [i])

theorem shape_exitSplice (haction : t.action = .exit) :
    t.Shape hook (exitSplice hook t.target.prototype.result b).opening
      (exitSplice hook t.target.prototype.result b).blockOf := by
  cases hresult : t.target.prototype.result with
  | void =>
    refine .exitVoid haction hresult rfl rfl fun i hi => Splice.blockOf_of_none ?_
    cases i
    case returnVoid => exact absurd rfl hi
    all_goals rfl
  | value type =>
    refine .exitValue haction type hresult rfl (fun _ _ => rfl) fun i hi =>
      Splice.blockOf_of_none ?_
    cases i
    case returnValue kind r => exact absurd rfl (hi kind r)
    all_goals rfl

theorem shape_detourSplice {kind : DetourKind} {callee : MethodRef}
    (haction : t.action = .detour kind callee) :
    t.Shape hook (detourSplice hook kind.invokeKind callee).opening
      (detourSplice hook kind.invokeKind callee).blockOf := by
  refine .detour kind callee haction rfl (fun args => ?_) fun i hi => ?_
  · exact Splice.blockOf_of_some (if_pos ⟨rfl, rfl⟩)
  · refine Splice.blockOf_of_none (Option.eq_none_iff_forall_ne_some.mpr fun block hblock => ?_)
    obtain ⟨args, rfl, -⟩ := detourBlock_cases hblock
    exact hi args rfl

theorem Planned.shape (h : t.Planned isStatic b hook s) : t.Shape hook s.opening s.blockOf := by
  cases h with
  | entry thisAsObject haction => exact .entry thisAsObject haction _ rfl fun _ => rfl
  | parameter index haction => exact .parameter index haction _ _ rfl fun _ => rfl
  | exit haction => exact shape_exitSplice haction
  | detour kind callee haction => exact shape_detourSplice haction

/-- Whatever a transform adds, control passes through it to the instruction that was there. -/
theorem Shape.keepsFlow (h : t.Shape hook s.opening s.blockOf) : s.KeepsFlow := by
  have hkept : ∀ {i}, s.blockOf i = [i] → ∃ front last, s.blockOf i = front ++ [last] ∧
      (∀ j ∈ front, j.isStraight = true) ∧ last.fallsThrough = i.fallsThrough ∧
      last.target? = i.target? :=
    fun {i} hi => ⟨[], i, hi, fun _ h => absurd h List.not_mem_nil, rfl, rfl⟩
  cases h with
  | entry thisAsObject haction args hopening hkeep =>
    refine ⟨fun i hi => ?_, fun i => hkept (hkeep i)⟩
    rw [hopening, List.mem_singleton] at hi
    exact hi ▸ rfl
  | parameter index haction kind r hopening hkeep =>
    refine ⟨fun i hi => ?_, fun i => hkept (hkeep i)⟩
    rw [hopening, List.mem_pair] at hi
    rcases hi with rfl | rfl <;> rfl
  | exitVoid haction hresult hopening hreturn hkeep =>
    refine ⟨fun i hi => absurd (hopening ▸ hi) List.not_mem_nil, fun i => ?_⟩
    by_cases hi : i = .returnVoid
    · subst hi
      refine ⟨[.invokeStatic hook []], .returnVoid, hreturn, fun j hj => ?_, rfl, rfl⟩
      rw [List.mem_singleton.mp hj]
      rfl
    · exact hkept (hkeep i hi)
  | exitValue haction type hresult hopening hreturn hkeep =>
    refine ⟨fun i hi => absurd (hopening ▸ hi) List.not_mem_nil, fun i => ?_⟩
    by_cases hi : ∃ kind r, i = .returnValue kind r
    · obtain ⟨kind, r, rfl⟩ := hi
      refine ⟨[.invokeStatic hook (kind.registers r), .moveResult kind r], .returnValue kind r,
        hreturn kind r, fun j hj => ?_, rfl, rfl⟩
      rcases List.mem_pair.mp hj with rfl | rfl <;> rfl
    · exact hkept (hkeep i fun kind r h => hi ⟨kind, r, h⟩)
  | detour kind callee haction hopening hcall hkeep =>
    refine ⟨fun i hi => absurd (hopening ▸ hi) List.not_mem_nil, fun i => ?_⟩
    by_cases hi : ∃ args, i = .invoke kind.invokeKind callee args
    · obtain ⟨args, rfl⟩ := hi
      exact ⟨[], .invokeStatic hook args, hcall args, fun _ h => absurd h List.not_mem_nil, rfl,
        rfl⟩
    · exact hkept (hkeep i fun args h => hi ⟨args, h⟩)

/-! ## Transformed bodies -/

/-- A transform that is applied to a body that can be stored leaves control where it was: the new
body is an opening and blocks of the shape the transform asks for, every branch leads to the block
of the instruction it led to, the opening runs once on every path, and a path gets to the end of a
block through the whole of it. -/
theorem preservesFlow_of_transformBody {p : Pools} {stored : List StoredInstruction}
    (hstored : lowerLines p b.lines = .ok stored) (h : t.transformBody isStatic b = .ok b') :
    ∃ (s : Splice) (hook : MethodRef), hook.owner = t.hook.owner ∧ hook.name = t.hook.name ∧
      t.Shape hook s.opening s.blockOf ∧ s.PreservesFlow b.lines b'.lines := by
  obtain ⟨s, hook, hplanned, -, rfl⟩ := exists_planned_of_transformBody h
  have hshape := hplanned.shape
  exact ⟨s, hook, hplanned.hook_eq.1, hplanned.hook_eq.2, hshape,
    hshape.keepsFlow.preservesFlow (labelsPlaced_of_lowerLines hstored)⟩

/-- A loop with two labels at its entry and a branch straight to the return. -/
def countdown : Body :=
  ⟨1, 1, 0,
    [.label ⟨7⟩, .label ⟨3⟩, .instruction (.branchZero .eq ⟨0⟩ ⟨5⟩),
     .instruction (.branchZero .lt ⟨0⟩ ⟨3⟩), .instruction (.goto ⟨7⟩),
     .label ⟨5⟩, .instruction (.returnValue .single ⟨0⟩)]⟩

/-- A hook on the exit of a method from integers to integers. -/
def leave : Transform :=
  ⟨⟨⟨"A"⟩, "run", ⟨[.primitive .int], .value (.primitive .int)⟩⟩, .exit, ⟨⟨"Hooks"⟩, "leave"⟩⟩

/-- The loop with the hook before its return, behind the label of the return. -/
def countdownWithHook : Body :=
  ⟨1, 1, 1,
    [.label ⟨7⟩, .label ⟨3⟩, .instruction (.branchZero .eq ⟨0⟩ ⟨5⟩),
     .instruction (.branchZero .lt ⟨0⟩ ⟨3⟩), .instruction (.goto ⟨7⟩),
     .label ⟨5⟩,
     .instruction (.invokeStatic
       ⟨⟨"Hooks"⟩, "leave", ⟨[.primitive .int], .value (.primitive .int)⟩⟩ [⟨0⟩]),
     .instruction (.moveResult .single ⟨0⟩), .instruction (.returnValue .single ⟨0⟩)]⟩

theorem preservesFlow_of_transformBody_countdown :
    lowerLines ⟨[], [], [], []⟩ countdown.lines =
        .ok [.branchZero .eq ⟨0⟩ 3, .branchZero .lt ⟨0⟩ (-1), .goto (-2),
          .returnValue .single ⟨0⟩] ∧
      leave.transformBody true countdown = .ok countdownWithHook ∧
      ∃ (s : Splice) (hook : MethodRef), hook.owner = ⟨"Hooks"⟩ ∧ hook.name = "leave" ∧
        leave.Shape hook s.opening s.blockOf ∧
        s.PreservesFlow countdown.lines countdownWithHook.lines := by
  have hstored : lowerLines ⟨[], [], [], []⟩ countdown.lines =
      .ok [.branchZero .eq ⟨0⟩ 3, .branchZero .lt ⟨0⟩ (-1), .goto (-2),
        .returnValue .single ⟨0⟩] := by
    decide +kernel
  have hbody : leave.transformBody true countdown = .ok countdownWithHook := by
    decide +kernel
  exact ⟨hstored, hbody, preservesFlow_of_transformBody hstored hbody⟩

end Transform

end DexWeave
