/-
  DexWeave/Proofs/Reordering.lean --- transforms applied in another order.

  WHAT THIS FILE IS FOR.  Two transforms get in each other's way only if they weave into
  the same place: in front of one method, before its returns, or in place of the same calls
  in it.  `Transform.group` names the place.  Lists of transforms that differ only in how
  they interleave their groups do the same to a dex file and report the same.

  HOW.  A splice spares another one if it replaces neither what the other one inserts nor
  what it replaces.  Splices of different groups spare each other, since what is inserted is
  static calls and moves of results, and no splice replaces these.  So two neighbours of
  different groups can be swapped, and from there on the argument is about lists: the first
  transform of one list is the first of its group in the other, and is moved to the front.
-/
import DexWeave.Proofs.BodyChange
import DexWeave.Proofs.Verification

set_option autoImplicit false

namespace DexWeave

/-! ## Splices that spare each other -/

namespace Splice

variable {s s' : Splice} {lines : List Line}

/-- The first splice replaces nothing that the second one inserts or replaces. -/
structure Spares (s s' : Splice) : Prop where
  opening : ∀ i ∈ s'.opening, s.block i = none
  replaced : ∀ i block, s'.block i = some block → s.block i = none
  inserted : ∀ i block, s'.block i = some block → ∀ j ∈ block, s.block j = none

theorem toNat_outs_apply (s : Splice) (b : Body) :
    (s.apply b).outs.toNat = max b.outs.toNat (min s.room 65535) :=
  Body.toNat_outs_reserveOuts { b with lines := s.weave b.lines } s.room

theorem touches_eq_false_iff :
    s.touches lines = false ↔ s.opening = [] ∧ ∀ i ∈ instructionsOf lines, s.block i = none := by
  simp [touches]

/-- Instructions that are not replaced stay as they are. -/
theorem flatMap_weaveLine_of_none {is : List SymbolicInstruction} (h : ∀ i ∈ is, s.block i = none) :
    (is.map Line.instruction).flatMap s.weaveLine = is.map Line.instruction := by
  induction is with
  | nil => rfl
  | cons i is ih =>
    obtain ⟨hi, his⟩ := List.forall_mem_cons.mp h
    rw [List.map_cons, List.flatMap_cons, ih his, weaveLine, blockOf_of_none hi]
    rfl

namespace Spares

/-- What holds wherever a splice replaces nothing holds everywhere in a body exactly if it does
after weaving in a splice that is spared. -/
theorem forall_weave_iff (h : s.Spares s') {P : SymbolicInstruction → Prop}
    (hP : ∀ i, s.block i = none → P i) (lines : List Line) :
    (∀ i ∈ instructionsOf (s'.weave lines), P i) ↔ ∀ i ∈ instructionsOf lines, P i := by
  have hblock : ∀ i, (∀ j ∈ s'.blockOf i, P j) ↔ P i := by
    intro i
    cases hi : s'.block i with
    | none => rw [blockOf_of_none hi, List.forall_mem_singleton]
    | some block =>
      rw [blockOf_of_some hi]
      exact iff_of_true (fun j hj => hP j (h.inserted i block hi j hj)) (hP i (h.replaced i block hi))
  rw [instructionsOf_weave, List.forall_mem_append,
    and_iff_right fun i hi => hP i (h.opening i hi), List.forall_mem_flatMap]
  exact forall₂_congr fun i _ => hblock i

theorem touches_weave (h : s.Spares s') (lines : List Line) :
    s.touches (s'.weave lines) = s.touches lines := by
  rw [Bool.eq_iff_iff, ← not_iff_not, Bool.not_eq_true, Bool.not_eq_true, touches_eq_false_iff,
    touches_eq_false_iff, h.forall_weave_iff (fun _ hi => hi)]

theorem flatMap_weaveLine_comm (h : s.Spares s') (h' : s'.Spares s) (line : Line) :
    (s'.weaveLine line).flatMap s.weaveLine = (s.weaveLine line).flatMap s'.weaveLine := by
  cases line with
  | label l => rfl
  | instruction i =>
    cases hi : s.block i with
    | none =>
      cases hi' : s'.block i with
      | none => simp only [weaveLine, blockOf_of_none, hi, hi', List.map_singleton,
          List.flatMap_singleton]
      | some block =>
        rw [weaveLine, weaveLine, blockOf_of_some hi', blockOf_of_none hi,
          flatMap_weaveLine_of_none (h.inserted i block hi'), List.map_singleton, List.flatMap_singleton,
          weaveLine, blockOf_of_some hi']
    | some block =>
      rw [weaveLine, weaveLine, blockOf_of_some hi, blockOf_of_none (h'.replaced i block hi),
        flatMap_weaveLine_of_none (h'.inserted i block hi), List.map_singleton, List.flatMap_singleton,
        weaveLine, blockOf_of_some hi]

/-- Splices that spare each other can be woven in in either order, if only one of them puts
something in front. -/
theorem weave_comm (h : s.Spares s') (h' : s'.Spares s)
    (hopening : s.opening = [] ∨ s'.opening = []) (lines : List Line) :
    s.weave (s'.weave lines) = s'.weave (s.weave lines) := by
  have hlines : (lines.flatMap s'.weaveLine).flatMap s.weaveLine =
      (lines.flatMap s.weaveLine).flatMap s'.weaveLine := by
    rw [List.flatMap_assoc, List.flatMap_assoc]
    exact congrArg (lines.flatMap ·) (funext (flatMap_weaveLine_comm h h'))
  rw [weave, weave, weave, weave, List.flatMap_append, List.flatMap_append,
    flatMap_weaveLine_of_none h.opening, flatMap_weaveLine_of_none h'.opening, hlines]
  rcases hopening with hopening | hopening
  · rw [hopening, List.map_nil, List.nil_append, List.nil_append]
  · rw [hopening, List.map_nil, List.nil_append, List.nil_append]

theorem apply_comm (h : s.Spares s') (h' : s'.Spares s)
    (hopening : s.opening = [] ∨ s'.opening = []) (b : Body) :
    s.apply (s'.apply b) = s'.apply (s.apply b) := by
  have hlines : (s.apply (s'.apply b)).lines = (s'.apply (s.apply b)).lines :=
    h.weave_comm h' hopening b.lines
  have houts : (s.apply (s'.apply b)).outs = (s'.apply (s.apply b)).outs := by
    rw [← UInt16.toNat_inj, toNat_outs_apply, toNat_outs_apply, toNat_outs_apply, toNat_outs_apply]
    exact Nat.max_right_comm _ _ _
  exact congrArg₂ (Body.mk b.registers b.ins) houts hlines

end Spares

end Splice

/-! ## Groups -/

/-- A place that transforms weave into. -/
inductive Group where
  /-- In front of a method. -/
  | opening (target : MethodRef)
  /-- Before the returns of a method. -/
  | exit (target : MethodRef)
  /-- The calls of one method, with one dispatch, that another one makes. -/
  | detour (target : MethodRef) (kind : DetourKind) (callee : MethodRef)
  deriving DecidableEq, Repr

namespace Transform

/-- The place that the transform weaves into. -/
def group (t : Transform) : Group :=
  match t.action with
  | .entry _ | .parameter _ => .opening t.target
  | .exit => .exit t.target
  | .detour kind callee => .detour t.target kind callee

variable {t u : Transform} {isStatic isStatic' : Bool} {b b' : Body} {s s' : Splice}
variable {hook hook' : MethodRef}

namespace Planned

theorem exists_inserts (h : t.Planned isStatic b hook s) (old : List SymbolicInstruction) :
    ∃ room, s.Inserts hook room old := by
  cases h with
  | entry => exact ⟨_, inserts_entrySplice _ b old⟩
  | parameter => exact ⟨_, inserts_parameterSplice _ _ _ old⟩
  | exit => exact ⟨_, inserts_exitSplice _ _ b old⟩
  | detour => exact ⟨_, inserts_detourSplice _ _ _ old⟩

theorem group_of_opening (h : t.Planned isStatic b hook s) (hopening : s.opening ≠ []) :
    t.group = .opening t.target := by
  cases h with
  | entry _ haction | parameter _ haction => rw [group, haction]
  | exit | detour => exact absurd rfl hopening

/-- What is replaced tells the group. -/
theorem group_of_block (h : t.Planned isStatic b hook s) {i : SymbolicInstruction}
    {block : List SymbolicInstruction} (hi : s.block i = some block) :
    (i.isReturn = true ∧ t.group = .exit t.target) ∨
      ∃ kind callee args, i = .invoke (DetourKind.invokeKind kind) callee args ∧
        t.group = .detour t.target kind callee := by
  cases h with
  | entry | parameter => cases hi
  | exit haction =>
    refine .inl ⟨?_, by rw [group, haction]⟩
    obtain ⟨rfl, -⟩ | ⟨k, r, rfl, -⟩ := exitBlock_cases hi
    · rfl
    · rfl
  | detour kind callee haction =>
    obtain ⟨args, rfl, -⟩ := detourBlock_cases hi
    exact .inr ⟨kind, callee, args, rfl, by rw [group, haction]⟩

/-- What transforms insert is not replaced by any. -/
theorem block_eq_none_of_inserted (h : t.Planned isStatic b hook s) {room : Nat}
    {old : List SymbolicInstruction} {i : SymbolicInstruction} (hi : Inserted hook' room old i) :
    s.block i = none := by
  by_contra hne
  obtain ⟨block, hblock⟩ := Option.ne_none_iff_exists'.mp hne
  obtain ⟨hreturn, -⟩ | ⟨kind, callee, args, rfl, -⟩ := h.group_of_block hblock
  · cases hi <;> cases hreturn
  · cases kind <;> cases hi

/-- No instruction is replaced by transforms of two groups. -/
theorem block_eq_none_of_block (h : t.Planned isStatic b hook s)
    (h' : u.Planned isStatic' b' hook' s') (htarget : t.target = u.target)
    (hgroup : t.group ≠ u.group) {i : SymbolicInstruction} {block : List SymbolicInstruction}
    (hi : s'.block i = some block) : s.block i = none := by
  by_contra hne
  obtain ⟨block', hi'⟩ := Option.ne_none_iff_exists'.mp hne
  obtain ⟨hreturn, ht⟩ | ⟨kind, callee, args, rfl, ht⟩ := h.group_of_block hi'
  · obtain ⟨-, hu⟩ | ⟨kind, callee, args, rfl, -⟩ := h'.group_of_block hi
    · exact hgroup (by rw [ht, hu, htarget])
    · cases hreturn
  · obtain ⟨hreturn, -⟩ | ⟨kind', callee', args', heq, hu⟩ := h'.group_of_block hi
    · cases hreturn
    · obtain ⟨hkind, rfl, -⟩ := Instruction.invoke.inj heq
      have hkinds : kind = kind' := by cases kind <;> cases kind' <;> first | rfl | cases hkind
      exact hgroup (by rw [ht, hu, htarget, hkinds])

/-- Transforms of different groups spare what the other one weaves in. -/
theorem spares (h : t.Planned isStatic b hook s) (h' : u.Planned isStatic' b' hook' s')
    (htarget : t.target = u.target) (hgroup : t.group ≠ u.group) : s.Spares s' where
  opening := by
    obtain ⟨room, hinserts⟩ := h'.exists_inserts []
    exact fun i hi => h.block_eq_none_of_inserted (hinserts.opening i hi)
  replaced := fun i block hi => h.block_eq_none_of_block h' htarget hgroup hi
  inserted := by
    intro i block hi j hj
    obtain ⟨room, hinserts⟩ := h'.exists_inserts [i]
    obtain ⟨-, -, hold⟩ := hinserts.block i block hi
    rcases hold List.mem_cons_self j hj with rfl | hj
    · exact h.block_eq_none_of_block h' htarget hgroup hi
    · exact h.block_eq_none_of_inserted hj

theorem opening_eq_nil_or (h : t.Planned isStatic b hook s)
    (h' : u.Planned isStatic' b' hook' s') (htarget : t.target = u.target)
    (hgroup : t.group ≠ u.group) : s.opening = [] ∨ s'.opening = [] := by
  by_contra hne
  obtain ⟨hs, hs'⟩ := not_or.mp hne
  exact hgroup (by rw [h.group_of_opening hs, h'.group_of_opening hs', htarget])

theorem apply_comm (h : t.Planned isStatic b hook s) (h' : u.Planned isStatic' b' hook' s')
    (htarget : t.target = u.target) (hgroup : t.group ≠ u.group) (c : Body) :
    s.apply (s'.apply c) = s'.apply (s.apply c) :=
  (h.spares h' htarget hgroup).apply_comm (h'.spares h htarget.symm hgroup.symm)
    (h.opening_eq_nil_or h' htarget hgroup) c

end Planned

/-! ## Two transforms of one method -/

theorem exitRoom_eq_zero {result : ResultType} {i : SymbolicInstruction}
    (h : exitBlock hook result i = none) : exitRoom result i = 0 := by
  unfold exitRoom
  split
  · cases h
  · rfl

/-- Weaving in what is spared leaves the plan as it was: the arguments on entry are kept, and the
returns are. -/
theorem plan_apply (hspares : ∀ s, t.plan isStatic b = .ok s → s.Spares s') :
    t.plan isStatic (s'.apply b) = t.plan isStatic b := by
  cases haction : t.action with
  | entry thisAsObject => rw [plan, plan, haction]; rfl
  | parameter index => rw [plan, plan, haction]; rfl
  | detour kind callee => rw [plan, plan, haction]
  | exit =>
    rw [plan, haction] at hspares
    rw [plan, plan, haction]
    refine congrArg Except.ok ?_
    have hroom : ∀ n, ((instructionsOf (s'.weave b.lines)).map
        (exitRoom t.target.prototype.result)).foldl max 0 ≤ n ↔
          ((instructionsOf b.lines).map (exitRoom t.target.prototype.result)).foldl max 0 ≤ n := by
      intro n
      rw [foldl_max_le_iff, foldl_max_le_iff, List.forall_mem_map, List.forall_mem_map,
        (hspares _ rfl).forall_weave_iff fun i hi => exitRoom_eq_zero hi ▸ Nat.zero_le n]
    exact congrArg (Splice.mk [] _) (Nat.le_antisymm ((hroom _).mpr (Nat.le_refl _))
      ((hroom _).mp (Nat.le_refl _)))

/-- A transform does to a body what it did before one of another group was woven in. -/
theorem transformBody_apply (h' : u.Planned isStatic' b' hook' s') (htarget : t.target = u.target)
    (hgroup : t.group ≠ u.group) :
    t.transformBody isStatic (s'.apply b) = (t.transformBody isStatic b).map s'.apply := by
  have hspares : ∀ s, t.plan isStatic b = .ok s → s.Spares s' := by
    intro s hs
    obtain ⟨hook, hplanned⟩ := exists_planned hs
    exact hplanned.spares h' htarget hgroup
  rw [transformBody, transformBody, plan_apply hspares]
  cases hplan : t.plan isStatic b with
  | error r => rfl
  | ok s =>
    obtain ⟨hook, hplanned⟩ := exists_planned hplan
    have htouches : s.touches (s'.apply b).lines = s.touches b.lines :=
      (hspares s hplan).touches_weave b.lines
    simp only [Fallible.ok_bind, htouches, hplanned.apply_comm h' htarget hgroup b]
    split
    · rfl
    · rfl

/-- Applied or refused, a transform of another group makes no difference. -/
theorem transformBody_keepBody (htarget : t.target = u.target) (hgroup : t.group ≠ u.group)
    (isStatic : Bool) (b : Body) :
    t.transformBody isStatic (u.keepBody isStatic b) =
      (t.transformBody isStatic b).map (u.keepBody isStatic) := by
  cases hu : u.transformBody isStatic b with
  | ok c =>
    obtain ⟨s', hook', hplanned', -, rfl⟩ := exists_planned_of_transformBody hu
    rw [keepBody_of_ok hu, transformBody_apply hplanned' htarget hgroup]
    cases ht : t.transformBody isStatic b with
    | error r => rfl
    | ok c =>
      obtain ⟨s, hook, hplanned, -, rfl⟩ := exists_planned_of_transformBody ht
      have hboth : u.transformBody isStatic (s.apply b) = .ok (s'.apply (s.apply b)) := by
        rw [transformBody_apply hplanned htarget.symm hgroup.symm, hu, Fallible.ok_map,
          hplanned.apply_comm hplanned' htarget hgroup]
      rw [Fallible.ok_map, Fallible.ok_map, keepBody_of_ok hboth]
  | error r =>
    rw [keepBody_of_error hu]
    cases ht : t.transformBody isStatic b with
    | error r => rfl
    | ok c =>
      obtain ⟨s, hook, hplanned, -, rfl⟩ := exists_planned_of_transformBody ht
      have hrefused : u.transformBody isStatic (s.apply b) = .error r := by
        rw [transformBody_apply hplanned htarget.symm hgroup.symm, hu]
        rfl
      rw [Fallible.ok_map, keepBody_of_error hrefused]

theorem keepBody_comm (htarget : t.target = u.target) (hgroup : t.group ≠ u.group)
    (isStatic : Bool) (b : Body) :
    t.keepBody isStatic (u.keepBody isStatic b) = u.keepBody isStatic (t.keepBody isStatic b) := by
  have hbody := transformBody_keepBody htarget hgroup isStatic b
  cases ht : t.transformBody isStatic b with
  | ok c =>
    rw [ht, Fallible.ok_map] at hbody
    rw [keepBody_of_ok hbody, keepBody_of_ok ht]
  | error r =>
    rw [ht] at hbody
    rw [keepBody_of_error hbody, keepBody_of_error ht]

theorem bodyRefusal?_changeBody (htarget : t.target = u.target) (hgroup : t.group ≠ u.group)
    (m : Method) : t.bodyRefusal? (m.changeBody u.keepBody) = t.bodyRefusal? m := by
  have hstatic : (m.changeBody u.keepBody).isStatic = m.isStatic := rfl
  rw [bodyRefusal?, bodyRefusal?, hstatic, Method.changeBody]
  cases hb : m.body with
  | none => rfl
  | some b =>
    simp only [Option.map_some, transformBody_keepBody htarget hgroup]
    cases t.transformBody m.isStatic b <;> rfl

/-! ## Two transforms of a dex file -/

/-- A transform is refused before one of another group exactly as it is after it. -/
theorem refusal?_applyOrKeep (hgroup : t.group ≠ u.group) (d : DexFile) :
    t.refusal? (u.applyOrKeep d) = t.refusal? d := by
  rw [refusal?_eq, refusal?_eq, applyOrKeep_eq_changeBody]
  by_cases htarget : t.target = u.target
  · rw [htarget, DexFile.method?_changeBody, Option.map_map]
    exact congrArg (fun f => ((d.method? u.target).map f).getD (some Refusal.methodNotFound))
      (funext (bodyRefusal?_changeBody htarget hgroup))
  · rw [DexFile.method?_changeBody_of_ne htarget]

/-- Transforms of different groups can be applied in either order. -/
theorem applyOrKeep_comm (hgroup : t.group ≠ u.group) (d : DexFile) :
    t.applyOrKeep (u.applyOrKeep d) = u.applyOrKeep (t.applyOrKeep d) := by
  simp only [applyOrKeep_eq_changeBody]
  exact DexFile.changeBody_comm fun htarget => keepBody_comm htarget hgroup

/-! ## Lists of transforms -/

/-- What is reported of each transform of a list that is applied in order: why it was refused, if
it was. -/
def reports : List Transform → DexFile → List (Transform × Option Refusal)
  | [], _ => []
  | t :: ts, d => (t, t.refusal? d) :: reports ts (t.applyOrKeep d)

/-- A transform can be moved in front of transforms of other groups. -/
theorem applyAll_move {front : List Transform} (hfront : ∀ u ∈ front, u.group ≠ t.group)
    (back : List Transform) (d : DexFile) :
    applyAll (front ++ t :: back) d = applyAll (t :: front ++ back) d := by
  induction front generalizing d with
  | nil => rfl
  | cons u front ih =>
    obtain ⟨hu, hfront⟩ := List.forall_mem_cons.mp hfront
    have hswap := applyOrKeep_comm hu.symm d
    rw [List.cons_append, applyAll_cons, ih hfront, List.cons_append, applyAll_cons, hswap]
    rfl

/-- Moved there, it and they are reported as before. -/
theorem reports_move {front : List Transform} (hfront : ∀ u ∈ front, u.group ≠ t.group)
    (back : List Transform) (d : DexFile) :
    ∃ front' back', reports (front ++ t :: back) d = front' ++ (t, t.refusal? d) :: back' ∧
      reports (front ++ back) (t.applyOrKeep d) = front' ++ back' ∧
      front'.map Prod.fst = front := by
  induction front generalizing d with
  | nil => exact ⟨[], reports back (t.applyOrKeep d), rfl, rfl, rfl⟩
  | cons u front ih =>
    obtain ⟨hu, hfront⟩ := List.forall_mem_cons.mp hfront
    obtain ⟨front', back', hall, hrest, hfst⟩ := ih hfront (u.applyOrKeep d)
    refine ⟨(u, u.refusal? d) :: front', back', ?_, ?_, by rw [List.map_cons, hfst]⟩
    · rw [List.cons_append, reports, hall, refusal?_applyOrKeep hu.symm, List.cons_append]
    · rw [List.cons_append, reports, refusal?_applyOrKeep hu, applyOrKeep_comm hu, hrest,
        List.cons_append]

theorem filter_move {α κ : Type} [DecidableEq κ] (key : α → κ) {front : List α} {x : α}
    (hfront : ∀ y ∈ front, key y ≠ key x) (back : List α) (k : κ) :
    (front ++ x :: back).filter (key · = k) = (x :: (front ++ back)).filter (key · = k) := by
  by_cases hx : key x = k
  · have hnone : front.filter (key · = k) = [] :=
      List.filter_eq_nil_iff.mpr fun y hy => by simpa [← hx] using hfront y hy
    simp [List.filter_append, hx, hnone]
  · simp [List.filter_append, hx]

/-- Lists of transforms that have the same transforms of each group in the same order do the same
to every dex file, and what they report of the transforms of a group is the same. -/
theorem applyAll_eq_of_groups {ts us : List Transform} (hperm : ts.Perm us)
    (hgroups : ∀ t ∈ ts, ts.filter (·.group = t.group) = us.filter (·.group = t.group))
    (d : DexFile) :
    applyAll ts d = applyAll us d ∧ (reports ts d).Perm (reports us d) ∧
      ∀ g, (reports ts d).filter (·.1.group = g) = (reports us d).filter (·.1.group = g) := by
  induction ts generalizing us d with
  | nil =>
    obtain rfl := hperm.nil_eq
    exact ⟨rfl, .refl _, fun _ => rfl⟩
  | cons t ts ih =>
    -- the other list has this transform first among those of its group
    have hfirst : us.filter (·.group = t.group) = t :: ts.filter (·.group = t.group) :=
      (hgroups t List.mem_cons_self).symm.trans
        (List.filter_cons_of_pos (decide_eq_true rfl))
    obtain ⟨front, back, rfl, hfront, -, -⟩ := List.filter_eq_cons_iff.mp hfirst
    replace hfront : ∀ u ∈ front, u.group ≠ t.group :=
      fun u hu => of_decide_eq_false (eq_false_of_ne_true (hfront u hu))
    have hperm' : ts.Perm (front ++ back) := (hperm.trans List.perm_middle).cons_inv
    have hgroups' : ∀ u ∈ ts,
        ts.filter (·.group = u.group) = (front ++ back).filter (·.group = u.group) := by
      intro u hu
      have hfilter := hgroups u (List.mem_cons_of_mem t hu)
      rw [filter_move group hfront] at hfilter
      by_cases htu : t.group = u.group
      · simpa [List.filter_cons, htu] using hfilter
      · simpa [List.filter_cons, htu] using hfilter
    obtain ⟨happly, hreports, hfilter⟩ := ih hperm' hgroups' (t.applyOrKeep d)
    obtain ⟨front', back', hall, hrest, hfst⟩ := reports_move hfront back d
    have hfront' : ∀ r ∈ front', r.1.group ≠ t.group :=
      fun r hr => hfront r.1 (hfst ▸ List.mem_map_of_mem hr)
    refine ⟨?_, ?_, fun g => ?_⟩
    · rw [applyAll_cons, happly, applyAll_move hfront]
      rfl
    · rw [reports, hall]
      exact ((hrest ▸ hreports).cons _).trans List.perm_middle.symm
    · have hmove := filter_move (fun r : Transform × Option Refusal => r.1.group)
        (x := (t, t.refusal? d)) hfront' back' g
      rw [reports, hall, hmove, ← hrest, List.filter_cons, List.filter_cons, hfilter g]

/-- The transforms of `watch` with those in front of the method last. -/
def rewatch : List Transform :=
  [⟨wait, .detour .virtual clock, ⟨⟨"Watch"⟩, "now"⟩⟩, ⟨wait, .exit, ⟨⟨"Watch"⟩, "leave"⟩⟩,
   ⟨wait, .entry false, ⟨⟨"Watch"⟩, "enter"⟩⟩, ⟨wait, .parameter 0, ⟨⟨"Watch"⟩, "limit"⟩⟩,
   ⟨wait, .entry true, ⟨⟨"Watch"⟩, "start"⟩⟩]

theorem applyAll_eq_of_groups_rewatch :
    watch ≠ rewatch ∧ applyAll watch timer = applyAll rewatch timer ∧
      (reports watch timer).Perm (reports rewatch timer) := by
  obtain ⟨happly, hreports, -⟩ :=
    applyAll_eq_of_groups (by decide +kernel : watch.Perm rewatch) (by decide +kernel) timer
  exact ⟨by decide +kernel, happly, hreports⟩

end Transform

end DexWeave
