/-
  DexWeave/Proofs/HookOrder.lean --- the order in which the hooks of a method run.

  WHAT THIS FILE IS FOR.  Transforms of one method that are applied one after the other
  leave what a single splice would.  Hooks on entry and of parameters stand in front, the
  last one first; before each return stand the hooks on exit, in order; and of the detours
  of a call the first one counts.  `Transform.Chained` spells this out.

  HOW.  Static calls and moves of results are all that is inserted, and no transform puts
  anything before these or replaces them.  So what a transform does to a body that others
  were woven into, it does to the old one, and the splice of a list grows by one transform
  at its end.
-/
import DexWeave.Proofs.HookCalls
import DexWeave.Proofs.LocalChange

set_option autoImplicit false

namespace DexWeave

namespace Splice

/-- What is woven in depends on the block of every instruction, be it the instruction alone. -/
theorem apply_congr {s s' : Splice} {b : Body} (hopening : s.opening = s'.opening)
    (hblock : ∀ i, s.blockOf i = s'.blockOf i) (hroom : s.room = s'.room) :
    s.apply b = s'.apply b := by
  have hline : s.weaveLine = s'.weaveLine := by
    funext line
    cases line with
    | label l => rfl
    | instruction i => rw [weaveLine, weaveLine, hblock]
  rw [apply, apply, weave, weave, hopening, hline, hroom]

/-- Where every instruction is its own block, nothing is woven in. -/
theorem apply_eq_self_of_blockOf {s : Splice} {b : Body} (hopening : s.opening = [])
    (hblock : ∀ i, s.blockOf i = [i]) (hroom : s.room = 0) : s.apply b = b := by
  have hempty : s.apply b = (⟨[], fun _ => none, 0⟩ : Splice).apply b :=
    apply_congr hopening hblock hroom
  rw [hempty]
  exact apply_eq_self (touches_eq_false_iff.mpr ⟨rfl, fun _ _ => rfl⟩) rfl

end Splice

namespace Transform

/-! ## What each transform inserts -/

/-- What is put in front of a body by a hook on entry or of a parameter that is applied. -/
def openingOf (t : Transform) (isStatic : Bool) (b : Body) : List SymbolicInstruction :=
  match t.action with
  | .entry thisAsObject =>
    [.invokeStatic (t.hook.withPrototype (entryPrototype t.target thisAsObject isStatic))
      b.incoming]
  | .parameter index =>
    match t.target.prototype.parameters[index]? with
    | none => []
    | some type =>
      let kind := ValueKind.ofType type
      let register :=
        b.firstIncoming.index.toNat + (parameterOffset t.target isStatic index).toNat
      [.invokeStatic (t.hook.withPrototype (parameterPrototype type))
        (kind.registers ⟨UInt16.ofNat register⟩), .moveResult kind ⟨UInt16.ofNat register⟩]
  | .exit | .detour .. => []

/-- What is put before an instruction by a hook on exit. -/
def callsBefore (t : Transform) (i : SymbolicInstruction) : List SymbolicInstruction :=
  match t.action with
  | .exit => exitCalls (t.hook.withPrototype (exitPrototype t.target)) t.target.prototype.result i
  | _ => []

/-- The call that takes the place of a call, if the transform is a detour of it. -/
def redirect? (t : Transform) (i : SymbolicInstruction) : Option SymbolicInstruction :=
  match t.action, i with
  | .detour kind callee, .invoke k m args =>
    if k = kind.invokeKind ∧ m = callee then
      some (.invokeStatic (t.hook.withPrototype (detourPrototype callee)) args)
    else none
  | _, _ => none

/-- The call that the first detour of a call puts in its place; what no detour is for stays. -/
def redirect (ts : List Transform) (i : SymbolicInstruction) : SymbolicInstruction :=
  (ts.findSome? (·.redirect? i)).getD i

/-- The instructions that stand for an instruction after a list of transforms. -/
def hooked (ts : List Transform) (i : SymbolicInstruction) : List SymbolicInstruction :=
  ts.flatMap (·.callsBefore i) ++ [redirect ts i]

/-- The lines that stand for a line after a list of transforms. -/
def hookedLine (ts : List Transform) : Line → List Line
  | .label l => [.label l]
  | .instruction i => (hooked ts i).map .instruction

/-- The instruction is left alone by every transform. -/
def Untouched (i : SymbolicInstruction) : Prop :=
  ∀ t : Transform, t.callsBefore i = [] ∧ t.redirect? i = none

variable {t : Transform} {ts : List Transform} {i j : SymbolicInstruction}

theorem callsBefore_of_not_isReturn (t : Transform) (h : i.isReturn = false) :
    t.callsBefore i = [] := by
  rw [callsBefore]
  split
  · cases t.target.prototype.result <;> cases i <;> first | rfl | cases h
  · rfl

theorem redirect?_eq_some_iff :
    t.redirect? i = some j ↔ ∃ kind callee args, t.action = .detour kind callee ∧
      i = .invoke kind.invokeKind callee args ∧
      j = .invokeStatic (t.hook.withPrototype (detourPrototype callee)) args := by
  constructor
  · intro h
    unfold redirect? at h
    split at h
    · rename_i kind callee k m args haction
      split at h
      · rename_i hcall
        exact ⟨kind, callee, args, haction, by rw [hcall.1, hcall.2], (Option.some.inj h).symm⟩
      · cases h
    · cases h
  · rintro ⟨kind, callee, args, haction, rfl, rfl⟩
    unfold redirect?
    rw [haction]
    exact if_pos ⟨rfl, rfl⟩

theorem untouched_invokeStatic (m : MethodRef) (args : List Register) :
    Untouched (.invokeStatic m args) := by
  refine fun t => ⟨t.callsBefore_of_not_isReturn rfl, Option.eq_none_iff_forall_ne_some.mpr ?_⟩
  intro j hj
  obtain ⟨kind, callee, args, -, heq, -⟩ := redirect?_eq_some_iff.mp hj
  cases kind <;> cases heq

theorem untouched_moveResult (kind : ValueKind) (r : Register) :
    Untouched (.moveResult kind r) := by
  refine fun t => ⟨t.callsBefore_of_not_isReturn rfl, Option.eq_none_iff_forall_ne_some.mpr ?_⟩
  intro j hj
  obtain ⟨kind, callee, args, -, heq, -⟩ := redirect?_eq_some_iff.mp hj
  cases heq

/-- What is inserted is calls of hooks, with as many arguments as there can be, and moves of their
results; and all of these are left alone. -/
theorem untouched_of_inserted {hook : MethodRef} (h : Inserted hook 65535 [] i) : Untouched i := by
  cases h with
  | call args => exact untouched_invokeStatic hook args
  | redirected j => exact untouched_invokeStatic hook j.arguments
  | result kind r => exact untouched_moveResult kind r

theorem inserted_registers (hook : MethodRef) (kind : ValueKind) (r : Register) :
    Inserted hook 65535 [] (.invokeStatic hook (kind.registers r)) :=
  .call _ (Nat.le_trans (length_registers_le kind r) (by decide))

theorem inserted_of_mem_callsBefore (h : j ∈ t.callsBefore i) :
    ∃ hook, Inserted hook 65535 [] j := by
  rw [callsBefore] at h
  split at h
  · refine ⟨t.hook.withPrototype (exitPrototype t.target), ?_⟩
    unfold exitCalls at h
    split at h
    · rw [List.mem_singleton.mp h]
      exact .call [] (Nat.zero_le _)
    · rcases List.mem_pair.mp h with rfl | rfl
      · exact inserted_registers _ _ _
      · exact .result _ _
    · cases h
  · cases h

theorem inserted_of_mem_openingOf {isStatic : Bool} {b : Body} (h : j ∈ t.openingOf isStatic b) :
    ∃ hook, Inserted hook 65535 [] j := by
  have hincoming : b.incoming.length ≤ 65535 := by
    have hregisters := b.registers.toNat_lt
    rw [Body.incoming, List.length_map, List.length_range']
    omega
  rw [openingOf] at h
  split at h
  · rw [List.mem_singleton.mp h]
    exact ⟨_, .call _ hincoming⟩
  · split at h
    · cases h
    · rename_i type _
      refine ⟨t.hook.withPrototype (parameterPrototype type), ?_⟩
      rcases List.mem_pair.mp h with rfl | rfl
      · exact inserted_registers _ _ _
      · exact .result _ _
  · cases h
  · cases h

theorem untouched_of_mem_callsBefore (h : j ∈ t.callsBefore i) : Untouched j := by
  obtain ⟨hook, hinserted⟩ := inserted_of_mem_callsBefore h
  exact untouched_of_inserted hinserted

/-! ## What a list of transforms inserts -/

/-- An instruction stays, or a detour redirects it and it was a call. -/
theorem redirect_cases (ts : List Transform) (i : SymbolicInstruction) :
    ((∀ t ∈ ts, t.redirect? i = none) ∧ redirect ts i = i) ∨
      (i.isReturn = false ∧ Untouched (redirect ts i)) := by
  rw [redirect]
  cases hfirst : ts.findSome? (·.redirect? i) with
  | none => exact .inl ⟨List.findSome?_eq_none_iff.mp hfirst, rfl⟩
  | some j =>
    obtain ⟨t, -, hj⟩ := List.exists_of_findSome?_eq_some hfirst
    obtain ⟨kind, callee, args, -, rfl, rfl⟩ := redirect?_eq_some_iff.mp hj
    exact .inr ⟨rfl, untouched_invokeStatic _ args⟩

theorem redirect_of_untouched (ts : List Transform) (h : Untouched i) : redirect ts i = i := by
  rw [redirect, List.findSome?_eq_none_iff.mpr fun t _ => (h t).2]
  rfl

/-- Nothing is put before the call that takes the place of a call, and neither is before that. -/
theorem callsBefore_redirect (t : Transform) (ts : List Transform) (i : SymbolicInstruction) :
    t.callsBefore (redirect ts i) = t.callsBefore i := by
  obtain ⟨-, hsame⟩ | ⟨hcall, huntouched⟩ := redirect_cases ts i
  · rw [hsame]
  · rw [(huntouched t).1, t.callsBefore_of_not_isReturn hcall]

/-- A detour of a call that an earlier one redirected comes too late. -/
theorem redirect_concat (ts : List Transform) (t : Transform) (i : SymbolicInstruction) :
    redirect (ts ++ [t]) i = redirect [t] (redirect ts i) := by
  rw [redirect, List.findSome?_append]
  cases hfirst : ts.findSome? (·.redirect? i) with
  | none =>
    have hsame : redirect ts i = i := by rw [redirect, hfirst, Option.getD_none]
    rw [Option.none_or, hsame, redirect]
  | some j =>
    have hredirected : redirect ts i = j := by rw [redirect, hfirst, Option.getD_some]
    obtain ⟨u, -, hj⟩ := List.exists_of_findSome?_eq_some hfirst
    obtain ⟨kind, callee, args, -, -, rfl⟩ := redirect?_eq_some_iff.mp hj
    rw [Option.some_or, Option.getD_some, hredirected,
      redirect_of_untouched [t] (untouched_invokeStatic _ args)]

theorem flatMap_hooked_of_untouched (ts : List Transform) {js : List SymbolicInstruction}
    (h : ∀ j ∈ js, Untouched j) : js.flatMap (hooked ts) = js := by
  refine flatMap_eq_self fun j hj => ?_
  have hnone : ts.flatMap (·.callsBefore j) = [] :=
    List.flatMap_eq_nil_iff.mpr fun t _ => (h j hj t).1
  rw [hooked, hnone, redirect_of_untouched ts (h j hj), List.nil_append]

/-- What stands for an instruction after one more transform is what that transform makes of what
stood for it. -/
theorem flatMap_hooked (ts : List Transform) (t : Transform) (i : SymbolicInstruction) :
    (hooked ts i).flatMap (hooked [t]) = hooked (ts ++ [t]) i := by
  have hbefore : ∀ j ∈ ts.flatMap (·.callsBefore i), Untouched j := by
    intro j hj
    obtain ⟨u, -, hj⟩ := List.mem_flatMap.mp hj
    exact untouched_of_mem_callsBefore hj
  rw [hooked, List.flatMap_append, flatMap_hooked_of_untouched [t] hbefore, List.flatMap_singleton,
    hooked, List.flatMap_singleton, callsBefore_redirect, ← redirect_concat, hooked,
    List.flatMap_append, List.flatMap_singleton, List.append_assoc]

/-! ## A list of transforms as one splice -/

/-- The calls that a list of transforms inserts, with those in front, and what moves their results. -/
def insertions (ts : List Transform) (front : List SymbolicInstruction) (lines : List Line) :
    List SymbolicInstruction :=
  front ++ (instructionsOf lines).flatMap fun i => ts.flatMap (·.callsBefore i)

/-- All that a list of transforms does to the lines of a body, as one splice. -/
def chain (ts : List Transform) (front : List SymbolicInstruction) (lines : List Line) :
    Splice where
  opening := front
  block i := some (hooked ts i)
  room := ((insertions ts front lines).map (·.arguments.length)).foldl max 0

theorem insertions_nil (front : List SymbolicInstruction) (lines : List Line) :
    insertions [] front lines = front := by
  have hnone : (instructionsOf lines).flatMap (fun i =>
      ([] : List Transform).flatMap (·.callsBefore i)) = [] :=
    List.flatMap_eq_nil_iff.mpr fun _ _ => rfl
  rw [insertions, hnone, List.append_nil]

section Concat

variable {front : List SymbolicInstruction} (hfront : ∀ i ∈ front, Untouched i)
  (front' : List SymbolicInstruction) (lines woven : List Line)

theorem flatMap_weaveLine_chain (ts : List Transform) (front : List SymbolicInstruction)
    (lines : List Line) (is : List SymbolicInstruction) :
    (is.map Line.instruction).flatMap (chain ts front lines).weaveLine =
      (is.flatMap (hooked ts)).map .instruction := by
  rw [List.flatMap_map, List.map_flatMap]
  rfl

theorem weave_chain (ts : List Transform) (front : List SymbolicInstruction)
    (lines woven : List Line) :
    (chain ts front woven).weave lines =
      front.map .instruction ++ lines.flatMap (hookedLine ts) := by
  refine congrArg (front.map Line.instruction ++ ·) (List.flatMap_congr fun line _ => ?_)
  cases line <;> rfl

theorem room_chain_le_iff {n : Nat} :
    (chain ts front lines).room ≤ n ↔ ∀ j ∈ insertions ts front lines, j.arguments.length ≤ n := by
  rw [chain, foldl_max_le_iff, List.forall_mem_map, and_iff_right (Nat.zero_le n)]

theorem flatMap_callsBefore_hooked (t : Transform) (ts : List Transform)
    (i : SymbolicInstruction) : (hooked ts i).flatMap t.callsBefore = t.callsBefore i := by
  have hnone : (ts.flatMap (·.callsBefore i)).flatMap t.callsBefore = [] := by
    refine List.flatMap_eq_nil_iff.mpr fun j hj => ?_
    obtain ⟨u, -, hj⟩ := List.mem_flatMap.mp hj
    exact (untouched_of_mem_callsBefore hj t).1
  rw [hooked, List.flatMap_append, hnone, List.nil_append, List.flatMap_singleton,
    callsBefore_redirect]

include hfront

/-- One transform more, woven into what a list of transforms leaves of some lines, is one splice
with them. -/
theorem weave_chain_concat (ts : List Transform) (t : Transform) :
    (chain [t] front' woven).weave ((chain ts front lines).weave lines) =
      (chain (ts ++ [t]) (front' ++ front) lines).weave lines := by
  have hline : ∀ line, ((chain ts front lines).weaveLine line).flatMap
      (chain [t] front' woven).weaveLine =
        (chain (ts ++ [t]) (front' ++ front) lines).weaveLine line := by
    intro line
    cases line with
    | label l => rfl
    | instruction i =>
      exact (flatMap_weaveLine_chain [t] front' woven (hooked ts i)).trans
        (congrArg (List.map Line.instruction) (flatMap_hooked ts t i))
  have hopening : ((chain ts front lines).opening.map Line.instruction).flatMap
      (chain [t] front' woven).weaveLine = front.map .instruction := by
    rw [flatMap_weaveLine_chain]
    exact congrArg (List.map Line.instruction) (flatMap_hooked_of_untouched [t] hfront)
  rw [Splice.weave, Splice.weave, Splice.weave, List.flatMap_append, hopening, List.flatMap_assoc,
    funext hline, ← List.append_assoc, ← List.map_append]
  rfl

/-- Hooks on exit are called before the returns that were there before. -/
theorem flatMap_callsBefore_weave (ts : List Transform) (t : Transform) :
    (instructionsOf ((chain ts front lines).weave lines)).flatMap t.callsBefore =
      (instructionsOf lines).flatMap t.callsBefore := by
  have hopening : front.flatMap t.callsBefore = [] :=
    List.flatMap_eq_nil_iff.mpr fun i hi => (hfront i hi t).1
  have hblockOf : (chain ts front lines).blockOf = hooked ts := rfl
  rw [Splice.instructionsOf_weave, List.flatMap_append, hblockOf, List.flatMap_assoc,
    funext (flatMap_callsBefore_hooked t ts)]
  exact congrArg (· ++ _) hopening

theorem room_chain_concat (ts : List Transform) (t : Transform) :
    (chain (ts ++ [t]) (front' ++ front) lines).room =
      max (chain ts front lines).room
        (chain [t] front' ((chain ts front lines).weave lines)).room := by
  have hmem : ∀ j, j ∈ insertions (ts ++ [t]) (front' ++ front) lines ↔
      j ∈ insertions ts front lines ∨
        j ∈ insertions [t] front' ((chain ts front lines).weave lines) := by
    intro j
    have hone : insertions [t] front' ((chain ts front lines).weave lines) =
        front' ++ (instructionsOf lines).flatMap t.callsBefore := by
      rw [insertions, ← flatMap_callsBefore_weave hfront lines ts t]
      simp only [List.flatMap_singleton]
    rw [hone, insertions, insertions]
    simp only [List.flatMap_append, List.flatMap_singleton, List.mem_append, List.mem_flatMap,
      and_or_left, exists_or]
    exact (or_congr_left or_comm).trans or_or_or_comm
  refine eq_of_forall_ge_iff fun n => ?_
  rw [Nat.max_le, room_chain_le_iff, room_chain_le_iff, room_chain_le_iff]
  simp only [hmem, or_imp, forall_and]

theorem apply_chain_concat (ts : List Transform) (t : Transform) (b : Body) :
    (chain [t] front' ((chain ts front b.lines).apply b).lines).apply
        ((chain ts front b.lines).apply b) =
      (chain (ts ++ [t]) (front' ++ front) b.lines).apply b := by
  have hlines := weave_chain_concat hfront front' b.lines ((chain ts front b.lines).apply b).lines
    ts t
  have houts : ((chain [t] front' ((chain ts front b.lines).apply b).lines).apply
      ((chain ts front b.lines).apply b)).outs =
        ((chain (ts ++ [t]) (front' ++ front) b.lines).apply b).outs := by
    have happly : ((chain ts front b.lines).apply b).lines =
        (chain ts front b.lines).weave b.lines := rfl
    rw [← UInt16.toNat_inj, Splice.toNat_outs_apply, Splice.toNat_outs_apply,
      Splice.toNat_outs_apply, room_chain_concat hfront front' b.lines ts t, happly,
      Nat.max_assoc, ← Nat.min_max_distrib_right]
  exact congrArg₂ (Body.mk b.registers b.ins) houts hlines

end Concat

/-! ## One transform -/

section Step

variable {isStatic : Bool} {b : Body} {s : Splice} {hook : MethodRef}

/-- What a transform puts in front of a body; nothing if it is refused. -/
def frontOf (t : Transform) (isStatic : Bool) (b : Body) : List SymbolicInstruction :=
  match t.transformBody isStatic b with
  | .ok _ => t.openingOf isStatic b
  | .error _ => []

theorem hooked_singleton (t : Transform) (i : SymbolicInstruction) :
    hooked [t] i = t.callsBefore i ++ [(t.redirect? i).getD i] := by
  rw [hooked, List.flatMap_singleton, redirect, List.findSome?_singleton]

theorem callsBefore_of_ne_exit (h : t.action ≠ .exit) (i : SymbolicInstruction) :
    t.callsBefore i = [] := by
  rw [callsBefore]
  split
  · rename_i haction
    exact absurd haction h
  · rfl

theorem redirect?_of_ne_detour (h : ∀ kind callee, t.action ≠ .detour kind callee)
    (i : SymbolicInstruction) : t.redirect? i = none := by
  refine Option.eq_none_iff_forall_ne_some.mpr fun j hj => ?_
  obtain ⟨kind, callee, -, haction, -⟩ := redirect?_eq_some_iff.mp hj
  exact h kind callee haction

/-- The call of a hook in place of a call, as the block of a detour. -/
theorem blockOf_detourSplice {kind : DetourKind} {callee : MethodRef}
    (haction : t.action = .detour kind callee)
    (hhook : hook = t.hook.withPrototype (detourPrototype callee)) (i : SymbolicInstruction) :
    (detourSplice hook kind.invokeKind callee).blockOf i = [(t.redirect? i).getD i] := by
  have hblock : (detourSplice hook kind.invokeKind callee).block i =
      (t.redirect? i).map ([·]) := by
    unfold redirect?
    rw [haction, hhook]
    cases i
    case invoke k m args =>
      exact (apply_ite (Option.map ([·])) (k = kind.invokeKind ∧ m = callee) (some _) none).symm
    all_goals rfl
  rw [Splice.blockOf, hblock]
  cases t.redirect? i <;> rfl

theorem Planned.blockOf_eq (h : t.Planned isStatic b hook s) (i : SymbolicInstruction) :
    s.blockOf i = hooked [t] i := by
  rw [hooked_singleton]
  cases h with
  | entry thisAsObject haction | parameter index haction =>
    rw [callsBefore_of_ne_exit (by simp [haction]), redirect?_of_ne_detour (by simp [haction])]
    rfl
  | exit haction hook hhook =>
    rw [blockOf_exitSplice, redirect?_of_ne_detour (by simp [haction]), callsBefore, haction, hhook]
    rfl
  | detour kind callee haction hook hhook =>
    rw [blockOf_detourSplice haction hhook, callsBefore_of_ne_exit (by simp [haction])]
    rfl

theorem Planned.opening_eq (h : t.Planned isStatic b hook s) :
    s.opening = t.openingOf isStatic b := by
  rw [openingOf]
  cases h with
  | entry thisAsObject haction hincoming hook hhook => rw [haction, hhook]; rfl
  | parameter index haction type htype hincoming register hregister hlt hook hhook =>
    simp only [haction, htype, hhook, hregister]
    rfl
  | exit haction | detour kind callee haction => rw [haction]; rfl

theorem exitRoom_le_iff {result : ResultType} {n : Nat} :
    exitRoom result i ≤ n ↔ ∀ j ∈ exitCalls hook result i, j.arguments.length ≤ n := by
  cases result <;> cases i <;> simp [exitRoom, exitCalls, SymbolicInstruction.invokeStatic,
    Instruction.arguments]

theorem insertions_of_ne_exit (h : t.action ≠ .exit) (front : List SymbolicInstruction)
    (lines : List Line) : insertions [t] front lines = front := by
  have hnone : (instructionsOf lines).flatMap (fun i => [t].flatMap (·.callsBefore i)) = [] := by
    refine List.flatMap_eq_nil_iff.mpr fun i _ => ?_
    rw [List.flatMap_singleton, callsBefore_of_ne_exit h]
  rw [insertions, hnone, List.append_nil]

theorem Planned.room_eq (h : t.Planned isStatic b hook s) :
    s.room = (chain [t] s.opening b.lines).room := by
  cases h with
  | entry thisAsObject haction =>
    rw [chain, insertions_of_ne_exit (by simp [haction])]
    exact (Nat.zero_max _).symm
  | parameter index haction =>
    rw [chain, insertions_of_ne_exit (by simp [haction])]
    exact ((Nat.max_zero _).trans (Nat.zero_max _)).symm
  | exit haction hook hhook =>
    have hcalls : ∀ i, t.callsBefore i = exitCalls hook t.target.prototype.result i := by
      intro i
      rw [callsBefore, haction, hhook]
    refine eq_of_forall_ge_iff fun n => ?_
    rw [room_chain_le_iff, insertions, List.forall_mem_append, List.forall_mem_flatMap]
    simp only [List.flatMap_singleton, hcalls, ← exitRoom_le_iff]
    rw [exitSplice, foldl_max_le_iff, List.forall_mem_map]
    simp
  | detour kind callee haction =>
    rw [chain, insertions_of_ne_exit (by simp [haction])]
    rfl

/-- Hooks on exit and detours are never refused before anything is looked for. -/
theorem action_of_plan_error {r : Refusal} (h : t.plan isStatic b = .error r) :
    t.action ≠ .exit ∧ ∀ kind callee, t.action ≠ .detour kind callee := by
  refine ⟨fun haction => ?_, fun kind callee haction => ?_⟩
  · rw [plan, haction] at h
    cases h
  · rw [plan, haction] at h
    cases h

theorem frontOf_of_plan_error {r : Refusal} (h : t.plan isStatic b = .error r) :
    t.frontOf isStatic b = [] := by
  rw [frontOf, transformBody, h]
  rfl

theorem frontOf_of_plan_ok (h : t.plan isStatic b = .ok s) : t.frontOf isStatic b = s.opening := by
  obtain ⟨hook, hplanned⟩ := exists_planned h
  rw [frontOf, transformBody, h, Fallible.ok_bind]
  cases htouches : s.touches b.lines with
  | true => exact hplanned.opening_eq.symm
  | false => exact (Splice.touches_eq_false_iff.mp htouches).1.symm

/-- Woven in or not, a transform does to a body what the splice of that one transform does. -/
theorem weaveBody_eq_chain (t : Transform) (isStatic : Bool) (b : Body) :
    t.weaveBody isStatic b = (chain [t] (t.frontOf isStatic b) b.lines).apply b := by
  rw [weaveBody]
  cases hplan : t.plan isStatic b with
  | error r =>
    obtain ⟨hexit, hdetour⟩ := action_of_plan_error hplan
    have hblock : ∀ i, hooked [t] i = [i] := by
      intro i
      rw [hooked_singleton, callsBefore_of_ne_exit hexit, redirect?_of_ne_detour hdetour]
      rfl
    have hroom : (chain [t] [] b.lines).room = 0 := by
      rw [chain, insertions_of_ne_exit hexit]
      rfl
    rw [frontOf_of_plan_error hplan]
    have hsame : (chain [t] [] b.lines).apply b = b :=
      Splice.apply_eq_self_of_blockOf rfl hblock hroom
    exact hsame.symm
  | ok s =>
    obtain ⟨hook, hplanned⟩ := exists_planned hplan
    rw [frontOf_of_plan_ok hplan]
    exact Splice.apply_congr rfl hplanned.blockOf_eq hplanned.room_eq

end Step

end Transform

/-! ## Bodies that are set -/

section ModifyFirst

variable {α : Type} {test : α → Bool} {change change' : α → α}

/-- Changing what is found twice is one change. -/
theorem modifyFirst_modifyFirst {xs : List α} (hkeep : ∀ x, test (change x) = test x) :
    modifyFirst test change' (modifyFirst test change xs) =
      modifyFirst test (change' ∘ change) xs := by
  induction xs with
  | nil => rfl
  | cons x xs ih =>
    by_cases hx : test x = true
    · rw [modifyFirst, if_pos hx, modifyFirst, if_pos ((hkeep x).trans hx), modifyFirst, if_pos hx]
      rfl
    · rw [modifyFirst, if_neg hx, modifyFirst, if_neg hx, ih, modifyFirst, if_neg hx]

end ModifyFirst

namespace DexFile

variable {d : DexFile} {target : MethodRef} {m : Method} {b : Body}

theorem setBody_eq_self (hm : d.method? target = some m) (hb : m.body = some b) :
    d.setBody target b = d := by
  have hchange : d.setBody target b = d.changeBody target fun _ b => b :=
    setBody_eq_changeBody hm hb rfl
  rw [hchange]
  exact changeBody_eq_self fun _ _ _ _ => rfl

theorem setBody_setBody (d : DexFile) (target : MethodRef) (b b' : Body) :
    (d.setBody target b).setBody target b' = d.setBody target b' := by
  refine congrArg DexFile.mk (Eq.trans (modifyFirst_modifyFirst fun _ => rfl) ?_)
  refine congrArg (modifyFirst _ · d.classes) (funext fun k => ?_)
  exact congrArg (ClassDef.mk k.name k.flags k.super) (modifyFirst_modifyFirst fun _ => rfl)

theorem method?_setBody (hm : d.method? target = some m) (hb : m.body = some b) (b' : Body) :
    (d.setBody target b').method? target = some { m with body := some b' } := by
  have hchange : d.setBody target b' = d.changeBody target fun _ _ => b' :=
    setBody_eq_changeBody hm hb rfl
  rw [hchange, method?_changeBody, hm, Option.map_some, Method.changeBody, hb, Option.map_some]

end DexFile

namespace Transform

/-! ## The transforms that are applied -/

variable {t : Transform} {ts : List Transform} {d : DexFile} {target : MethodRef} {m : Method}
  {b : Body}

theorem applyAll_concat (ts : List Transform) (t : Transform) (d : DexFile) :
    applyAll (ts ++ [t]) d = t.applyOrKeep (applyAll ts d) := by
  rw [applyAll, List.foldl_append]
  rfl

theorem reports_concat (ts : List Transform) (t : Transform) (d : DexFile) :
    reports (ts ++ [t]) d = reports ts d ++ [(t, t.refusal? (applyAll ts d))] := by
  induction ts generalizing d with
  | nil => rfl
  | cons u ts ih => rw [List.cons_append, reports, ih, reports, List.cons_append]; rfl

/-- The transforms of a list that are reported as applied. -/
def applied (ts : List Transform) (d : DexFile) : List Transform :=
  ((reports ts d).filter (·.2.isNone)).map Prod.fst

theorem applied_concat (ts : List Transform) (t : Transform) (d : DexFile) :
    applied (ts ++ [t]) d =
      applied ts d ++ if (t.refusal? (applyAll ts d)).isNone then [t] else [] := by
  rw [applied, reports_concat, List.filter_append, List.map_append]
  refine congrArg (applied ts d ++ ·) ?_
  cases hrefusal : t.refusal? (applyAll ts d) <;> simp

/-- What is put in front is the opening of a transform that is reported as applied. -/
theorem frontOf_eq (hm : d.method? t.target = some m) (hb : m.body = some b) :
    t.frontOf m.isStatic b =
      if (t.refusal? d).isNone then t.openingOf m.isStatic b else [] := by
  rw [refusal?_eq, hm, Option.map_some, Option.getD_some, bodyRefusal?, hb, frontOf]
  cases hbody : t.transformBody m.isStatic b with
  | ok b' => simp only [hbody]; rfl
  | error r => simp only [hbody]; rfl

/-! ## Lists of transforms of one method -/

/-- A transform of a body that was set sets what it weaves into that body. -/
theorem applyOrKeep_setBody (hm : d.method? t.target = some m) (hb : m.body = some b) (c : Body) :
    t.applyOrKeep (d.setBody t.target c) = d.setBody t.target (t.weaveBody m.isStatic c) := by
  have hset : (d.setBody t.target c).setBody t.target (t.weaveBody m.isStatic c) =
      (d.setBody t.target c).changeBody t.target t.weaveBody :=
    DexFile.setBody_eq_changeBody (DexFile.method?_setBody hm hb c) rfl rfl
  rw [applyOrKeep_eq_changeBody, keepBody_eq_weaveBody, ← hset, DexFile.setBody_setBody]

/-- One transform more puts its opening in front of the others, if it is applied. -/
theorem openings_concat (hm : (applyAll ts d).method? t.target = some m) {c : Body}
    (hc : m.body = some c) (hsame : t.openingOf m.isStatic c = t.openingOf m.isStatic b) :
    (applied (ts ++ [t]) d).reverse.flatMap (·.openingOf m.isStatic b) =
      t.frontOf m.isStatic c ++ (applied ts d).reverse.flatMap (·.openingOf m.isStatic b) := by
  rw [applied_concat, List.reverse_append, List.flatMap_append, frontOf_eq hm hc, hsame]
  refine congrArg (· ++ _) ?_
  split
  · exact List.flatMap_singleton _ _
  · rfl

theorem inserted_of_mem_openings {us : List Transform} {isStatic : Bool} {i : SymbolicInstruction}
    (h : i ∈ us.flatMap (·.openingOf isStatic b)) : ∃ hook, Inserted hook 65535 [] i := by
  obtain ⟨u, -, hi⟩ := List.mem_flatMap.mp h
  exact inserted_of_mem_openingOf hi

theorem untouched_of_mem_openings {us : List Transform} {isStatic : Bool}
    {i : SymbolicInstruction} (h : i ∈ us.flatMap (·.openingOf isStatic b)) : Untouched i := by
  obtain ⟨hook, hinserted⟩ := inserted_of_mem_openings h
  exact untouched_of_inserted hinserted

section OneMethod

variable (hts : ∀ t ∈ ts, t.target = target) (hm : d.method? target = some m)
  (hb : m.body = some b)

include hts hm hb

/-- Transforms of one method that are applied in order leave what one splice leaves. -/
theorem applyAll_eq_setBody_chain :
    applyAll ts d = d.setBody target ((chain ts
      ((applied ts d).reverse.flatMap (·.openingOf m.isStatic b)) b.lines).apply b) := by
  induction ts using List.reverseRecOn with
  | nil =>
    have hsame : (chain [] [] b.lines).apply b = b := by
      refine Splice.apply_eq_self_of_blockOf rfl (fun i => rfl) ?_
      rw [chain, insertions_nil]
      rfl
    exact (DexFile.setBody_eq_self hm hb).symm.trans (congrArg (d.setBody target) hsame.symm)
  | append_singleton ts t ih =>
    obtain rfl : t.target = target := hts t (List.mem_append_right ts List.mem_cons_self)
    have hold := ih fun u hu => hts u (List.mem_append_left [t] hu)
    -- what is in front and the body, as the transforms before leave them
    generalize hfront : (applied ts d).reverse.flatMap (·.openingOf m.isStatic b) = front at hold
    generalize hbody : (chain ts front b.lines).apply b = c at hold
    have huntouched : ∀ i ∈ front, Untouched i :=
      fun i hi => untouched_of_mem_openings (hfront ▸ hi)
    have hm' : (applyAll ts d).method? t.target = some { m with body := some c } :=
      hold ▸ DexFile.method?_setBody hm hb c
    have hopenings : (applied (ts ++ [t]) d).reverse.flatMap (·.openingOf m.isStatic b) =
        t.frontOf m.isStatic c ++ front :=
      hfront ▸ openings_concat hm' rfl (hbody ▸ rfl)
    rw [hopenings, ← apply_chain_concat huntouched, hbody, ← weaveBody_eq_chain, applyAll_concat,
      hold, applyOrKeep_setBody hm hb]

end OneMethod

/-! ## Room for arguments -/

theorem foldl_max_eq (ns : List Nat) (n : Nat) : ns.foldl max n = max n (ns.foldl max 0) := by
  refine eq_of_forall_ge_iff fun k => ?_
  rw [Nat.max_le, foldl_max_le_iff, foldl_max_le_iff, and_iff_right (Nat.zero_le k)]

/-- Sixteen bits are enough for the number of arguments of every call that is inserted. -/
theorem toNat_outs_chain (ts us : List Transform) (isStatic : Bool) (b : Body) :
    ((chain ts (us.flatMap (·.openingOf isStatic b)) b.lines).apply b).outs.toNat =
      ((insertions ts (us.flatMap (·.openingOf isStatic b)) b.lines).map
        (·.arguments.length)).foldl max b.outs.toNat := by
  have hroom : (chain ts (us.flatMap (·.openingOf isStatic b)) b.lines).room ≤ 65535 := by
    refine (room_chain_le_iff b.lines).mpr fun j hj => ?_
    have hinserted : ∃ hook, Inserted hook 65535 [] j := by
      rcases List.mem_append.mp hj with hj | hj
      · exact inserted_of_mem_openings hj
      · obtain ⟨i, -, hj⟩ := List.mem_flatMap.mp hj
        obtain ⟨u, -, hj⟩ := List.mem_flatMap.mp hj
        exact inserted_of_mem_callsBefore hj
    obtain ⟨hook, hinserted⟩ := hinserted
    obtain hle | ⟨i, hi, -⟩ := hinserted.arguments_le
    · exact hle
    · exact absurd hi List.not_mem_nil
  rw [Splice.toNat_outs_apply, Nat.min_eq_left hroom, foldl_max_eq]
  rfl

/-! ## Detours -/

section Detours

variable {front : List SymbolicInstruction} {lines woven : List Line} {kind : DetourKind}
  {callee : MethodRef}

/-- No detour of the list is for anything that is left. -/
theorem redirect?_of_mem_weave (hfront : ∀ i ∈ front, Untouched i) {j : SymbolicInstruction}
    (hj : j ∈ instructionsOf ((chain ts front woven).weave lines)) (ht : t ∈ ts) :
    t.redirect? j = none := by
  have hblockOf : (chain ts front woven).blockOf = hooked ts := rfl
  rw [Splice.instructionsOf_weave, hblockOf] at hj
  rcases List.mem_append.mp hj with hj | hj
  · exact (hfront j hj t).2
  · obtain ⟨i, -, hj⟩ := List.mem_flatMap.mp hj
    rcases List.mem_append.mp hj with hj | hj
    · obtain ⟨u, -, hj⟩ := List.mem_flatMap.mp hj
      exact (untouched_of_mem_callsBefore hj t).2
    · rw [List.mem_singleton.mp hj]
      obtain ⟨hnone, hsame⟩ | ⟨-, huntouched⟩ := redirect_cases ts i
      · rw [hsame]
        exact hnone t ht
      · exact (huntouched t).2

/-- Without a call that it is for, a detour is refused. -/
theorem transformBody_of_no_call {isStatic : Bool} (haction : t.action = .detour kind callee)
    (hnone : ∀ args, .invoke kind.invokeKind callee args ∉ instructionsOf b.lines) :
    t.transformBody isStatic b = .error .noCallSites := by
  have huntouched : (detourSplice (t.hook.withPrototype (detourPrototype callee)) kind.invokeKind
      callee).touches b.lines = false := by
    refine Splice.touches_eq_false_iff.mpr ⟨rfl, fun i hi => ?_⟩
    refine Option.eq_none_iff_forall_ne_some.mpr fun block hblock => ?_
    obtain ⟨args, rfl, -⟩ := detourBlock_cases hblock
    exact hnone args hi
  rw [transformBody, plan, haction]
  exact if_neg (ne_true_of_eq_false huntouched)

end Detours

/-! ## The order of hooks -/

/-- What transforms of one method that are applied in order leave of its body. -/
structure Chained (ts : List Transform) (d : DexFile) (isStatic : Bool) (b b' : Body) :
    Prop where
  registers : b'.registers = b.registers
  ins : b'.ins = b.ins
  /-- In front stand the openings of the transforms that are applied, the last one first.  Behind
  them every instruction stays, redirected by the first detour that is for it, with the calls of
  all hooks on exit before it if it is a return. -/
  lines : b'.lines = ((applied ts d).reverse.flatMap (·.openingOf isStatic b)).map .instruction ++
    b.lines.flatMap (hookedLine ts)
  /-- There is as much room for arguments as there was and as the inserted calls need. -/
  outs : b'.outs.toNat =
    ((insertions ts ((applied ts d).reverse.flatMap (·.openingOf isStatic b)) b.lines).map
      (·.arguments.length)).foldl max b.outs.toNat
  /-- No call is left that a detour is for. -/
  detoured : ∀ t ∈ ts, ∀ kind callee, t.action = .detour kind callee →
    ∀ args, .invoke kind.invokeKind callee args ∉ instructionsOf b'.lines
  /-- A detour that is applied again is refused, and changes nothing. -/
  again : ∀ t ∈ ts, ∀ kind callee, t.action = .detour kind callee →
    t.apply (applyAll ts d) = .error .noCallSites ∧ t.applyOrKeep (applyAll ts d) = applyAll ts d

/-- Transforms of one method that are applied in order, whatever they are and whether or not they
are refused, leave a body in which the order of their hooks is that of the list: from the last one
to the first one on entry, and from the first one to the last one on exit. -/
theorem chained_of_targets (hts : ∀ t ∈ ts, t.target = target) (hm : d.method? target = some m)
    (hb : m.body = some b) :
    ∃ b', applyAll ts d = d.setBody target b' ∧ Chained ts d m.isStatic b b' := by
  have hall := applyAll_eq_setBody_chain hts hm hb
  have hdetoured : ∀ t ∈ ts, ∀ kind callee, t.action = .detour kind callee →
      ∀ args, .invoke kind.invokeKind callee args ∉ instructionsOf ((chain ts
        ((applied ts d).reverse.flatMap (·.openingOf m.isStatic b)) b.lines).weave b.lines) := by
    intro t ht kind callee haction args hmem
    have hnone := redirect?_of_mem_weave (fun i hi => untouched_of_mem_openings hi) hmem ht
    rw [redirect?_eq_some_iff.mpr ⟨kind, callee, args, haction, rfl, rfl⟩] at hnone
    cases hnone
  refine ⟨_, hall, rfl, rfl, weave_chain _ _ _ _, toNat_outs_chain _ _ _ _, hdetoured, ?_⟩
  intro t ht kind callee haction
  have hrefused : t.apply (applyAll ts d) = .error .noCallSites := by
    rw [hall, apply, hts t ht, DexFile.method?_setBody hm hb]
    exact congrArg (Except.map _)
      (transformBody_of_no_call haction (hdetoured t ht kind callee haction))
  exact ⟨hrefused, by rw [applyOrKeep, hrefused]⟩

/-- The body of the method of `timer`. -/
def timerBody : Body :=
  ⟨6, 4, 1,
    [.label ⟨2⟩, .instruction (.invoke .virtual clock [⟨5⟩]),
     .label ⟨0⟩, .instruction (.moveResult .wide ⟨0⟩),
     .instruction (.branchZero .ne ⟨0⟩ ⟨2⟩),
     .instruction (.returnValue .wide ⟨3⟩)]⟩

theorem chained_of_targets_watch :
    (∀ t ∈ watch ++ watch, t.target = wait) ∧
      timer.method? wait = some ⟨wait, ⟨1⟩, some timerBody⟩ ∧
      (applied (watch ++ watch) timer).length = 9 ∧
      ∃ b', applyAll (watch ++ watch) timer = timer.setBody wait b' ∧
        Chained (watch ++ watch) timer false timerBody b' := by
  have hts : ∀ t ∈ watch ++ watch, t.target = wait := by decide +kernel
  have hm : timer.method? wait = some ⟨wait, ⟨1⟩, some timerBody⟩ := by decide +kernel
  have happlied : (applied (watch ++ watch) timer).length = 9 := by decide +kernel
  exact ⟨hts, hm, happlied, chained_of_targets hts hm rfl⟩

end Transform

end DexWeave
