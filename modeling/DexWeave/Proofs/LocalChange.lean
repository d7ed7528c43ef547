/-
  DexWeave/Proofs/LocalChange.lean --- where a transform changes a dex file.

  WHAT THIS FILE IS FOR.  A transform that is applied changes the dex file, and what it
  changes is the instructions and the room for arguments in one body: that of the first
  method with the name and prototype of the target, in the first class with the name of
  its owner.  A transform that is refused changes nothing.

  IN PLACE.  Whether a body has something to replace is known only after all of it was
  looked at, so one may weave first and decide afterwards.  `Transform.weaveBody` does
  that; a body in which nothing is replaced comes out as it was.
-/
import DexWeave.Proofs.Reordering

set_option autoImplicit false

namespace DexWeave

/-! ## Blocks in place of elements -/

section FlatMap

variable {α : Type} {f : α → List α}

theorem length_le_length_flatMap {xs : List α} (h : ∀ x ∈ xs, f x ≠ []) :
    xs.length ≤ (xs.flatMap f).length := by
  induction xs with
  | nil => exact Nat.le_refl _
  | cons x xs ih =>
    obtain ⟨hx, hxs⟩ := List.forall_mem_cons.mp h
    have hpos := List.length_pos_iff.mpr hx
    have hrest := ih hxs
    rw [List.flatMap_cons, List.length_append, List.length_cons]
    omega

theorem flatMap_eq_self {xs : List α} (h : ∀ x ∈ xs, f x = [x]) : xs.flatMap f = xs := by
  rw [List.flatMap_congr h]
  exact List.flatMap_singleton' xs

/-- A list with something in front and a block in the place of each element is the old list only if
nothing is in front and each block is the element. -/
theorem eq_of_append_flatMap_eq_self {front xs : List α} (h : ∀ x ∈ xs, f x ≠ [])
    (heq : front ++ xs.flatMap f = xs) : front = [] ∧ ∀ x ∈ xs, f x = [x] := by
  induction xs generalizing front with
  | nil =>
    rw [List.flatMap_nil, List.append_nil] at heq
    exact ⟨heq, fun x hx => absurd hx List.not_mem_nil⟩
  | cons x xs ih =>
    obtain ⟨hx, hxs⟩ := List.forall_mem_cons.mp h
    have hpos := List.length_pos_iff.mpr hx
    have hrest := length_le_length_flatMap hxs
    have hlen := congrArg List.length heq
    rw [List.flatMap_cons, List.length_append, List.length_append, List.length_cons] at hlen
    obtain rfl := List.length_eq_zero_iff.mp (by omega : front.length = 0)
    obtain ⟨y, hy⟩ := List.length_eq_one_iff.mp (by omega : (f x).length = 1)
    rw [List.nil_append, List.flatMap_cons, hy, List.singleton_append, List.cons.injEq] at heq
    obtain ⟨rfl, htail⟩ := heq
    obtain ⟨-, hall⟩ := ih hxs ((List.nil_append _).trans htail)
    exact ⟨rfl, List.forall_mem_cons.mpr ⟨hy, hall⟩⟩

end FlatMap

/-! ## Bodies that are not touched -/

namespace Splice

variable {s : Splice} {lines : List Line} {b : Body}

theorem flatMap_weaveLine_eq_self (h : ∀ i ∈ instructionsOf lines, s.block i = none) :
    lines.flatMap s.weaveLine = lines := by
  refine flatMap_eq_self fun line hline => ?_
  cases line with
  | label l => rfl
  | instruction i =>
    have hi : i ∈ instructionsOf lines := List.mem_filterMap.mpr ⟨_, hline, rfl⟩
    rw [weaveLine, blockOf_of_none (h i hi), List.map_singleton]

theorem weave_eq_self (h : s.touches lines = false) : s.weave lines = lines := by
  obtain ⟨hopening, hnone⟩ := touches_eq_false_iff.mp h
  rw [weave, hopening, flatMap_weaveLine_eq_self hnone]
  rfl

theorem apply_eq_self (h : s.touches b.lines = false) (hroom : s.room = 0) : s.apply b = b := by
  have houts : (s.apply b).outs = b.outs := by
    rw [← UInt16.toNat_inj, toNat_outs_apply, hroom]
    exact Nat.max_eq_left (Nat.zero_le _)
  exact congrArg₂ (Body.mk b.registers b.ins) houts (weave_eq_self h)

end Splice

namespace Transform

variable {t : Transform} {isStatic : Bool} {b b' : Body} {s : Splice} {hook : MethodRef}

/-- Where nothing is replaced, no arguments are passed either. -/
theorem Planned.room_eq_zero (h : t.Planned isStatic b hook s)
    (htouches : s.touches b.lines = false) : s.room = 0 := by
  obtain ⟨hopening, hnone⟩ := Splice.touches_eq_false_iff.mp htouches
  cases h with
  | entry | parameter => cases hopening
  | exit =>
    refine Nat.le_zero.mp (foldl_max_le_iff.mpr ⟨Nat.le_refl 0, ?_⟩)
    rw [List.forall_mem_map]
    exact fun i hi => Nat.le_of_eq (exitRoom_eq_zero (hnone i hi))
  | detour => rfl

/-- The body with the transform woven in, whether or not there is anything to replace. -/
def weaveBody (t : Transform) (isStatic : Bool) (b : Body) : Body :=
  match t.plan isStatic b with
  | .ok s => s.apply b
  | .error _ => b

/-- A body may be woven in place before it is known whether anything is replaced. -/
theorem keepBody_eq_weaveBody (t : Transform) : t.keepBody = t.weaveBody := by
  funext isStatic b
  rw [weaveBody]
  cases hplan : t.plan isStatic b with
  | error r => exact keepBody_of_error (by rw [transformBody, hplan]; rfl)
  | ok s =>
    obtain ⟨hook, hplanned⟩ := exists_planned hplan
    cases htouches : s.touches b.lines with
    | true =>
      exact keepBody_of_ok (by rw [transformBody, hplan, Fallible.ok_bind, if_pos htouches])
    | false =>
      have hrefused : t.transformBody isStatic b = .error .noCallSites := by
        rw [transformBody, hplan, Fallible.ok_bind, htouches]
        rfl
      rw [keepBody_of_error hrefused]
      exact (Splice.apply_eq_self htouches (hplanned.room_eq_zero htouches)).symm

/-! ## Bodies that are touched -/

namespace Planned

/-- What takes the place of an instruction is not that instruction alone. -/
theorem block_ne_singleton (h : t.Planned isStatic b hook s) {i : SymbolicInstruction}
    {block : List SymbolicInstruction} (hi : s.block i = some block) : block ≠ [i] := by
  intro heq
  cases h with
  | entry | parameter => cases hi
  | exit =>
    obtain ⟨rfl, rfl⟩ | ⟨k, r, rfl, rfl⟩ := exitBlock_cases hi
    · cases heq
    · cases heq
  | detour kind =>
    obtain ⟨args, rfl, rfl⟩ := detourBlock_cases hi
    -- only calls of objects are redirected, and to static calls
    cases kind <;> cases heq

theorem instructionsOf_weave_ne (h : t.Planned isStatic b hook s) {lines : List Line}
    (htouches : s.touches lines = true) : instructionsOf (s.weave lines) ≠ instructionsOf lines := by
  intro heq
  obtain ⟨room, hinserts⟩ := h.exists_inserts []
  rw [Splice.instructionsOf_weave] at heq
  obtain ⟨hopening, hsame⟩ :=
    eq_of_append_flatMap_eq_self (fun i _ => hinserts.keepsBranches.nonempty i) heq
  have huntouched : s.touches lines = false := by
    refine Splice.touches_eq_false_iff.mpr ⟨hopening, fun i hi => ?_⟩
    cases hblock : s.block i with
    | none => rfl
    | some block =>
      have hblockOf := hsame i hi
      rw [Splice.blockOf_of_some hblock] at hblockOf
      exact absurd hblockOf (h.block_ne_singleton hblock)
  rw [htouches] at huntouched
  cases huntouched

end Planned

end Transform

/-! ## One body of a dex file -/

theorem modifyFirst_append_cons {α : Type} {test : α → Bool} {change : α → α} {front : List α}
    {x : α} (hfront : ∀ y ∈ front, test y = false) (hx : test x = true) (back : List α) :
    modifyFirst test change (front ++ x :: back) = front ++ change x :: back := by
  induction front with
  | nil => rw [List.nil_append, modifyFirst, if_pos hx, List.nil_append]
  | cons y front ih =>
    obtain ⟨hy, hfront⟩ := List.forall_mem_cons.mp hfront
    rw [List.cons_append, modifyFirst, if_neg (by simp [hy]), ih hfront, List.cons_append]

namespace DexFile

/-- The second dex file is the first one but for the room for arguments, which is not less, and the
instructions, between the same labels, in one body: that of the first method with the name and
prototype of the target in the first class with the name of its owner. -/
inductive DiffersOnlyAt (target : MethodRef) : DexFile → DexFile → Prop where
  | body (front back : List ClassDef) (k : ClassDef) (before after : List Method) (m : Method)
    (b : Body) (outs : UInt16) (lines : List Line)
    (hfront : ∀ c ∈ front, c.name ≠ target.owner) (hk : k.name = target.owner)
    (hbefore : ∀ m' ∈ before, m'.isNamedBy target = false) (hm : m.isNamedBy target = true)
    (houts : b.outs ≤ outs) (hlabels : labelsOf lines = labelsOf b.lines)
    (hinstructions : instructionsOf lines ≠ instructionsOf b.lines) :
    DiffersOnlyAt target
      ⟨front ++ { k with methods := before ++ { m with body := some b } :: after } :: back⟩
      ⟨front ++ { k with methods := before ++
        { m with body := some { b with outs := outs, lines := lines } } :: after } :: back⟩

variable {d d' : DexFile} {target : MethodRef} {m : Method} {b : Body}

theorem DiffersOnlyAt.ne (h : d.DiffersOnlyAt target d') : d' ≠ d := by
  cases h with
  | body front back k before after m b outs lines _ _ _ _ _ _ hinstructions =>
    intro heq
    simp only [DexFile.mk.injEq, List.append_cancel_left_eq, List.cons.injEq, ClassDef.mk.injEq,
      Method.mk.injEq, Option.some.injEq, true_and, and_true] at heq
    exact hinstructions (congrArg (instructionsOf ∘ Body.lines) heq)

theorem differsOnlyAt_setBody (hm : d.method? target = some m) (hb : m.body = some b)
    {outs : UInt16} {lines : List Line} (houts : b.outs ≤ outs)
    (hlabels : labelsOf lines = labelsOf b.lines)
    (hinstructions : instructionsOf lines ≠ instructionsOf b.lines) :
    d.DiffersOnlyAt target (d.setBody target { b with outs := outs, lines := lines }) := by
  obtain ⟨classes⟩ := d
  obtain ⟨⟨name, flags, super, methods⟩, hk, hkm⟩ := Option.bind_eq_some_iff.mp hm
  obtain ⟨hname, front, back, rfl, hfront⟩ := List.find?_eq_some_iff_append.mp hk
  obtain ⟨hnamed, before, after, rfl, hbefore⟩ := List.find?_eq_some_iff_append.mp hkm
  obtain ⟨ref, mflags, body⟩ := m
  obtain rfl : body = some b := hb
  replace hfront : ∀ c ∈ front, decide (c.name = target.owner) = false :=
    fun c hc => Bool.not_eq_true' _ |>.mp (hfront c hc)
  replace hbefore : ∀ m' ∈ before, m'.isNamedBy target = false :=
    fun m' hm' => Bool.not_eq_true' _ |>.mp (hbefore m' hm')
  rw [setBody, modifyFirst_append_cons hfront hname, modifyFirst_append_cons hbefore hnamed]
  exact .body front back ⟨name, flags, super, before ++ ⟨ref, mflags, some b⟩ :: after⟩ before after
    ⟨ref, mflags, some b⟩ b outs lines (fun c hc => of_decide_eq_false (hfront c hc))
    (of_decide_eq_true hname) hbefore hnamed houts hlabels hinstructions

end DexFile

namespace Transform

/-! ## What a transform changes -/

/-- A transform that is applied makes a difference in the body of its target. -/
theorem differsOnlyAt_of_apply {t : Transform} {d d' : DexFile} (h : t.apply d = .ok d') :
    d.DiffersOnlyAt t.target d' := by
  obtain ⟨m, b, b', hm, hb, hbody, rfl⟩ := exists_of_apply h
  obtain ⟨s, hook, hplanned, htouches, rfl⟩ := exists_planned_of_transformBody hbody
  exact DexFile.differsOnlyAt_setBody hm hb (UInt16.le_iff_toNat_le.mpr (s.outs_le_apply b))
    (s.labelsOf_weave b.lines) (hplanned.instructionsOf_weave_ne htouches)

/-- A transform is applied exactly if the dex file changes, and the change is in one body.  It is
the same if the body is woven in place, before it is known whether the transform is refused. -/
theorem applied_iff_differsOnlyAt (t : Transform) (d : DexFile) :
    (t.refusal? d = none ↔ t.applyOrKeep d ≠ d) ∧
      (t.applyOrKeep d ≠ d ↔ d.DiffersOnlyAt t.target (t.applyOrKeep d)) ∧
      t.applyOrKeep d = d.changeBody t.target t.weaveBody := by
  have hinPlace : t.applyOrKeep d = d.changeBody t.target t.weaveBody := by
    rw [applyOrKeep_eq_changeBody, keepBody_eq_weaveBody]
  refine ⟨?_, ⟨fun hne => ?_, DexFile.DiffersOnlyAt.ne⟩, hinPlace⟩
  · rw [refusal?, applyOrKeep]
    cases happly : t.apply d with
    | ok d' => exact iff_of_true rfl (differsOnlyAt_of_apply happly).ne
    | error r => exact iff_of_false (Option.some_ne_none r) (absurd rfl)
  · rw [applyOrKeep] at hne ⊢
    cases happly : t.apply d with
    | ok d' => exact differsOnlyAt_of_apply happly
    | error r => exact absurd (by rw [happly]) hne

end Transform

end DexWeave
