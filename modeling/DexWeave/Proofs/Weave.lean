/-
  DexWeave/Proofs/Weave.lean --- what a transform does to a dex file.

  WHAT THIS FILE IS FOR.  A transform that is applied changes one body and nothing else.
  `Transform.Woven` says all that can be new in the dex file that results: instructions
  that were inserted, each a call of the one hook or the move of its result.  Most of what
  is preserved by applying transforms follows from that description; where it matters what
  exactly a kind of transform weaves in, it follows from `Transform.Planned`.

  THE HOOK.  The types of a hook come from the target, so what was readable stays
  readable.  Its parameters are as few as fit their field, but where a receiver is one
  parameter more: that of a redirected call, or of a target whose registers cannot be
  counted.
-/
import DexWeave.Proofs.Encodable
import DexWeave.Proofs.Splice
import DexWeave.Transform.Apply

set_option autoImplicit false

namespace DexWeave

open Fallible

namespace Transform

/-! ## Plans -/

/-- What a transform plans to weave in, and the hook that it calls there. -/
inductive Planned (t : Transform) (isStatic : Bool) (b : Body) : MethodRef → Splice → Prop where
  | entry (thisAsObject : Bool) (haction : t.action = .entry thisAsObject)
    (hincoming : incomingMatches t.target isStatic b = true) (hook : MethodRef)
    (hhook : hook = t.hook.withPrototype (entryPrototype t.target thisAsObject isStatic)) :
    Planned t isStatic b hook (entrySplice hook b)
  | parameter (index : Nat) (haction : t.action = .parameter index) (type : ValueType)
    (htype : t.target.prototype.parameters[index]? = some type)
    (hincoming : incomingMatches t.target isStatic b = true) (register : Nat)
    (hregister : register =
      b.firstIncoming.index.toNat + (parameterOffset t.target isStatic index).toNat)
    (hlt : register < 65536) (hook : MethodRef)
    (hhook : hook = t.hook.withPrototype (parameterPrototype type)) :
    Planned t isStatic b hook
      (parameterSplice hook (ValueKind.ofType type) ⟨UInt16.ofNat register⟩)
  | exit (haction : t.action = .exit) (hook : MethodRef)
    (hhook : hook = t.hook.withPrototype (exitPrototype t.target)) :
    Planned t isStatic b hook (exitSplice hook t.target.prototype.result b)
  | detour (kind : DetourKind) (callee : MethodRef) (haction : t.action = .detour kind callee)
    (hook : MethodRef) (hhook : hook = t.hook.withPrototype (detourPrototype callee)) :
    Planned t isStatic b hook (detourSplice hook kind.invokeKind callee)

section Plans

variable {t : Transform} {isStatic : Bool} {b b' : Body} {s : Splice} {hook : MethodRef}

theorem exists_planned (h : t.plan isStatic b = .ok s) :
    ∃ hook, t.Planned isStatic b hook s := by
  rw [plan] at h
  split at h
  · rename_i thisAsObject haction
    split at h
    · rename_i hincoming
      obtain rfl := Except.ok.inj h
      exact ⟨_, .entry thisAsObject haction hincoming _ rfl⟩
    · cases h
  · rename_i index haction
    split at h
    · cases h
    · rename_i type htype
      split at h
      · rename_i hincoming
        simp only at h
        split at h
        · rename_i hlt
          obtain rfl := Except.ok.inj h
          exact ⟨_, .parameter index haction type htype hincoming _ rfl hlt _ rfl⟩
        · cases h
      · cases h
  · rename_i haction
    obtain rfl := Except.ok.inj h
    exact ⟨_, .exit haction _ rfl⟩
  · rename_i kind callee haction
    obtain rfl := Except.ok.inj h
    exact ⟨_, .detour kind callee haction _ rfl⟩

/-- A body that was transformed has a planned splice woven in. -/
theorem exists_planned_of_transformBody (h : t.transformBody isStatic b = .ok b') :
    ∃ s hook, t.Planned isStatic b hook s ∧ s.touches b.lines = true ∧ b' = s.apply b := by
  obtain ⟨s, hplan, h⟩ := bind_eq_ok.mp h
  obtain ⟨hook, hplanned⟩ := exists_planned hplan
  split at h
  · rename_i htouches
    exact ⟨s, hook, hplanned, htouches, (Except.ok.inj h).symm⟩
  · cases h

end Plans

/-! ## The splices of transforms -/

theorem length_registers_le (kind : ValueKind) (r : Register) : (kind.registers r).length ≤ 2 := by
  cases kind <;> simp [ValueKind.registers]

theorem inserts_entrySplice (hook : MethodRef) (b : Body) (old : List SymbolicInstruction) :
    (entrySplice hook b).Inserts hook b.incoming.length old where
  opening := by
    intro i hi
    rw [List.mem_singleton.mp hi]
    exact .call _ (Nat.le_refl _)
  block := fun _ _ h => by cases h
  branchless := fun _ _ h => by cases h

theorem inserts_parameterSplice (hook : MethodRef) (kind : ValueKind) (r : Register)
    (old : List SymbolicInstruction) : (parameterSplice hook kind r).Inserts hook 2 old where
  opening := by
    intro i hi
    rcases List.mem_cons.mp hi with rfl | hi
    · exact .call _ (length_registers_le kind r)
    · rw [List.mem_singleton.mp hi]
      exact .result kind r
  block := fun _ _ h => by cases h
  branchless := fun _ _ h => by cases h

/-- Only returns get a block, and it ends with the return. -/
theorem exitBlock_cases {hook : MethodRef} {result : ResultType} {i : SymbolicInstruction}
    {block : List SymbolicInstruction} (h : exitBlock hook result i = some block) :
    (i = .returnVoid ∧ block = [.invokeStatic hook [], i]) ∨
      ∃ k r, i = .returnValue k r ∧
        block = [.invokeStatic hook (k.registers r), .moveResult k r, i] := by
  unfold exitBlock at h
  split at h
  · exact .inl ⟨rfl, (Option.some.inj h).symm⟩
  · exact .inr ⟨_, _, rfl, (Option.some.inj h).symm⟩
  · cases h

theorem inserts_exitSplice (hook : MethodRef) (result : ResultType) (b : Body)
    (old : List SymbolicInstruction) : (exitSplice hook result b).Inserts hook 2 old where
  opening := fun _ h => absurd h List.not_mem_nil
  block := by
    intro i block h
    obtain ⟨rfl, rfl⟩ | ⟨k, r, rfl, rfl⟩ := exitBlock_cases h
    · refine ⟨rfl, List.cons_ne_nil _ _, fun _ j hj => ?_⟩
      rcases List.mem_cons.mp hj with rfl | hj
      · exact .inr (.call _ (Nat.zero_le _))
      · exact .inl (List.mem_singleton.mp hj)
    · refine ⟨rfl, List.cons_ne_nil _ _, fun _ j hj => ?_⟩
      rcases List.mem_cons.mp hj with rfl | hj
      · exact .inr (.call _ (length_registers_le k r))
      · rcases List.mem_cons.mp hj with rfl | hj
        · exact .inr (.result k r)
        · exact .inl (List.mem_singleton.mp hj)
  branchless := by
    intro i block h j hj
    obtain ⟨rfl, rfl⟩ | ⟨k, r, rfl, rfl⟩ := exitBlock_cases h
    · rcases List.mem_cons.mp hj with rfl | hj
      · rfl
      · rw [List.mem_singleton.mp hj]
        rfl
    · rcases List.mem_cons.mp hj with rfl | hj
      · rfl
      · rcases List.mem_cons.mp hj with rfl | hj
        · rfl
        · rw [List.mem_singleton.mp hj]
          rfl

/-- Only calls of the callee get a block: the call of the hook. -/
theorem detourBlock_cases {hook callee : MethodRef} {kind : InvokeKind} {i : SymbolicInstruction}
    {block : List SymbolicInstruction} (h : detourBlock hook kind callee i = some block) :
    ∃ args, i = .invoke kind callee args ∧ block = [.invokeStatic hook args] := by
  unfold detourBlock at h
  split at h
  · split at h
    · rename_i hcall
      obtain ⟨rfl, rfl⟩ := hcall
      exact ⟨_, rfl, (Option.some.inj h).symm⟩
    · cases h
  · cases h

theorem inserts_detourSplice (hook callee : MethodRef) (kind : InvokeKind)
    (old : List SymbolicInstruction) : (detourSplice hook kind callee).Inserts hook 2 old where
  opening := fun _ h => absurd h List.not_mem_nil
  block := by
    intro i block h
    obtain ⟨args, rfl, rfl⟩ := detourBlock_cases h
    refine ⟨rfl, List.cons_ne_nil _ _, fun hi j hj => ?_⟩
    rw [List.mem_singleton.mp hj]
    exact .inr (.redirected _ hi)
  branchless := by
    intro i block h j hj
    obtain ⟨args, rfl, rfl⟩ := detourBlock_cases h
    rw [List.mem_singleton.mp hj]
    rfl

end Transform

/-! ## Changing one body -/

section ModifyFirst

variable {α β : Type} {test : α → Bool} {change : α → α}

theorem length_modifyFirst (test : α → Bool) (change : α → α) (xs : List α) :
    (modifyFirst test change xs).length = xs.length := by
  induction xs with
  | nil => rfl
  | cons x xs ih =>
    rw [modifyFirst]
    split
    · rfl
    · rw [List.length_cons, List.length_cons, ih]

theorem map_modifyFirst {f : α → β} (h : ∀ x, f (change x) = f x) (xs : List α) :
    (modifyFirst test change xs).map f = xs.map f := by
  induction xs with
  | nil => rfl
  | cons x xs ih =>
    rw [modifyFirst]
    split
    · rw [List.map_cons, List.map_cons, h]
    · rw [List.map_cons, List.map_cons, ih]

/-- What is changed is the first element that passes the test. -/
theorem mem_modifyFirst {xs : List α} {y : α} (h : y ∈ modifyFirst test change xs) :
    y ∈ xs ∨ ∃ x, xs.find? test = some x ∧ y = change x := by
  induction xs with
  | nil => exact absurd h List.not_mem_nil
  | cons x xs ih =>
    rw [modifyFirst] at h
    split at h
    · rename_i htest
      rcases List.mem_cons.mp h with rfl | h
      · exact .inr ⟨x, List.find?_cons_of_pos htest, rfl⟩
      · exact .inl (List.mem_cons_of_mem x h)
    · rename_i htest
      rcases List.mem_cons.mp h with rfl | h
      · exact .inl List.mem_cons_self
      · rcases ih h with h | ⟨z, hz, rfl⟩
        · exact .inl (List.mem_cons_of_mem x h)
        · exact .inr ⟨z, (List.find?_cons_of_neg htest).trans hz, rfl⟩

theorem change_mem_modifyFirst {xs : List α} {x : α} (h : xs.find? test = some x) :
    change x ∈ modifyFirst test change xs := by
  induction xs with
  | nil => cases h
  | cons y ys ih =>
    rw [modifyFirst]
    split
    · rename_i htest
      rw [List.find?_cons_of_pos htest] at h
      obtain rfl := Option.some.inj h
      exact List.mem_cons_self
    · rename_i htest
      rw [List.find?_cons_of_neg htest] at h
      exact List.mem_cons_of_mem y (ih h)

end ModifyFirst

/-- The class declares the methods of another one, some of them with a body that is allowed. -/
structure ClassDef.SameBut (k k' : ClassDef) (allowed : Body → Prop) : Prop where
  name : k'.name = k.name
  flags : k'.flags = k.flags
  super : k'.super = k.super
  length : k'.methods.length = k.methods.length
  methods : ∀ m' ∈ k'.methods, ∃ m ∈ k.methods, m'.ref = m.ref ∧ m'.flags = m.flags ∧
    ∀ b, m'.body = some b → m.body = some b ∨ allowed b

theorem ClassDef.SameBut.mono {k k' : ClassDef} {allowed allowed' : Body → Prop}
    (h : k.SameBut k' allowed) (hallowed : ∀ b, allowed b → allowed' b) :
    k.SameBut k' allowed' where
  name := h.name
  flags := h.flags
  super := h.super
  length := h.length
  methods := by
    intro m' hm'
    obtain ⟨m, hm, href, hflags, hbody⟩ := h.methods m' hm'
    exact ⟨m, hm, href, hflags, fun b hb => (hbody b hb).imp_right (hallowed b)⟩

namespace DexFile

variable {d : DexFile} {target : MethodRef} {b : Body}

theorem names_setBody :
    (d.setBody target b).classes.map ClassDef.name = d.classes.map ClassDef.name := by
  refine map_modifyFirst ?_ d.classes
  exact fun _ => rfl

/-- Changing a body changes nothing but a body. -/
theorem sameBut_of_mem_setBody {k' : ClassDef} (h : k' ∈ (d.setBody target b).classes) :
    ∃ k ∈ d.classes, k.SameBut k' (· = b) := by
  rcases mem_modifyFirst h with h | ⟨k, hk, rfl⟩
  · exact ⟨k', h, rfl, rfl, rfl, rfl, fun m hm => ⟨m, hm, rfl, rfl, fun _ hb => .inl hb⟩⟩
  · refine ⟨k, List.mem_of_find?_eq_some hk, rfl, rfl, rfl, length_modifyFirst _ _ _,
      fun m' hm' => ?_⟩
    rcases mem_modifyFirst hm' with hm' | ⟨m, hm, rfl⟩
    · exact ⟨m', hm', rfl, rfl, fun _ hb => .inl hb⟩
    · exact ⟨m, List.mem_of_find?_eq_some hm, rfl, rfl,
        fun _ hb => .inr (Option.some.inj hb).symm⟩

/-- The new body is one of the bodies, if there is a method that it is for. -/
theorem mem_bodies_setBody {m : Method} (hm : d.method? target = some m) :
    b ∈ (d.setBody target b).bodies := by
  obtain ⟨k, hk, hkm⟩ := Option.bind_eq_some_iff.mp hm
  exact mem_bodies.mpr
    ⟨_, change_mem_modifyFirst hk, _, change_mem_modifyFirst hkm, rfl⟩

end DexFile

/-! ## The types of a method -/

/-- The type of the result, if there is one. -/
def ResultType.types : ResultType → List ValueType
  | value t => [t]
  | void => []

/-- The types of the parameters and of the result. -/
def Prototype.types (p : Prototype) : List ValueType := p.parameters ++ p.result.types

theorem Prototype.wellFormed_iff {p : Prototype} :
    p.WellFormed ↔ ∀ t ∈ p.types, t.WellFormed := by
  have hresult : p.result.WellFormed ↔ ∀ t ∈ p.result.types, t.WellFormed := by
    cases p.result with
    | value t => simp [ResultType.WellFormed, ResultType.types]
    | void => simp [ResultType.WellFormed, ResultType.types]
  rw [types, List.forall_mem_append, ← hresult]
  exact ⟨fun h => ⟨h.parameters, h.result⟩, fun h => ⟨h.1, h.2⟩⟩

/-- A descriptor in a method reference is that of its owner, of one of its types, or of no
result. -/
theorem MethodRef.mem_descriptors_iff {m : MethodRef} {s : String} :
    s ∈ m.descriptors ↔ s = m.owner.descriptor ∨
      (∃ t ∈ m.prototype.types, s = t.descriptor) ∨
      (m.prototype.result = .void ∧ s = ResultType.void.descriptor) := by
  rw [descriptors, Prototype.types]
  cases hresult : m.prototype.result <;>
    simp [ResultType.types, ResultType.descriptor, or_and_right, exists_or, eq_comm, or_comm,
      or_left_comm]

/-! ## Hooks -/

namespace Transform

/-- Where the types of a hook come from: from a prototype that is mentioned; the receiver of the
target or of a redirected call; or the root of the classes. -/
inductive HookType (t : Transform) (d : DexFile) : ValueType → Prop where
  | mentioned (m : MethodRef) (h : m ∈ d.mentionedMethods) (u : ValueType)
    (hu : u ∈ m.prototype.types) : HookType t d u
  | root : HookType t d (.object .javaLangObject)
  | target (k : ClassDef) (h : k ∈ d.classes) (hk : k.name = t.target.owner) :
    HookType t d (.object t.target.owner)
  | callee (kind : DetourKind) (m : MethodRef) (haction : t.action = .detour kind m)
    (h : m ∈ d.mentionedMethods) : HookType t d (.object m.owner)

/-- The hook may take more parameters than a prototype has: a detour makes the receiver of the
redirected calls one of them, and so does a hook on entry, where the registers of the arguments
are more than can be counted. -/
inductive TakesTooMany (t : Transform) (d : DexFile) : Prop where
  | callee (kind : DetourKind) (callee : MethodRef) (haction : t.action = .detour kind callee)
    (h : 65535 ≤ callee.prototype.parameters.length)
  | uncounted (thisAsObject : Bool) (haction : t.action = .entry thisAsObject) (m : Method)
    (hm : d.method? t.target = some m) (h : 65536 ≤ argumentRegisters t.target m.isStatic)

/-- The hook that a transform calls where it is applied. -/
structure HookOf (t : Transform) (d : DexFile) (hook : MethodRef) : Prop where
  owner : hook.owner = t.hook.owner
  name : hook.name = t.hook.name
  types : ∀ u ∈ hook.prototype.types, t.HookType d u
  parameters : hook.prototype.parameters.length < 65536 ∨ t.TakesTooMany d

/-- How many arguments the inserted calls have: at most two, but for hooks on entry, which take
all there are. -/
def RoomFor (t : Transform) (b : Body) (room : Nat) : Prop :=
  room = 2 ∨ ∃ thisAsObject, t.action = .entry thisAsObject ∧ room = b.incoming.length

variable {t : Transform} {d : DexFile} {b : Body} {s : Splice}

theorem length_le_totalWidth (ts : List ValueType) : ts.length ≤ ValueType.totalWidth ts := by
  induction ts with
  | nil => exact Nat.le_refl _
  | cons u us ih =>
    have hwidth : 1 ≤ u.width := by
      rw [ValueType.width]
      split <;> omega
    rw [List.length_cons, ValueType.totalWidth]
    omega

theorem length_parameters_entryPrototype (target : MethodRef) (thisAsObject isStatic : Bool) :
    (entryPrototype target thisAsObject isStatic).parameters.length ≤
      argumentRegisters target isStatic := by
  have hparameters := length_le_totalWidth target.prototype.parameters
  rw [entryPrototype, argumentRegisters, receiverRegisters, List.length_append]
  cases isStatic <;> simp <;> omega

/-- The method a transform is applied to. -/
structure Targets (t : Transform) (d : DexFile) (k : ClassDef) (m : Method) (b : Body) :
    Prop where
  found : d.method? t.target = some m
  mem : k ∈ d.classes
  name : k.name = t.target.owner
  method : m ∈ k.methods
  prototype : m.ref.prototype = t.target.prototype
  body : m.body = some b

theorem exists_targets {m : Method} (hm : d.method? t.target = some m) (hb : m.body = some b) :
    ∃ k, t.Targets d k m b := by
  obtain ⟨k, hk, hkm⟩ := Option.bind_eq_some_iff.mp hm
  have hname : decide (k.name = t.target.owner) = true :=
    List.find?_some (p := fun k : ClassDef => k.name = t.target.owner) hk
  have hnamed := List.find?_some hkm
  simp only [Method.isNamedBy, MethodRef.answersTo, decide_eq_true_eq] at hname hnamed
  exact ⟨k, hm, List.mem_of_find?_eq_some hk, hname, List.mem_of_find?_eq_some hkm, hnamed.2, hb⟩

namespace Targets

variable {k : ClassDef} {m : Method}

theorem hookType (h : t.Targets d k m b) {u : ValueType} (hu : u ∈ t.target.prototype.types) :
    t.HookType d u :=
  .mentioned m.ref (DexFile.ref_mem_mentionedMethods h.mem h.method) u
    (by rw [h.prototype]; exact hu)

theorem mem_bodies (h : t.Targets d k m b) : b ∈ d.bodies :=
  DexFile.mem_bodies.mpr ⟨k, h.mem, m, h.method, h.body⟩

theorem hookOf_entry (h : t.Targets d k m b) {thisAsObject : Bool}
    (haction : t.action = .entry thisAsObject) :
    t.HookOf d (t.hook.withPrototype (entryPrototype t.target thisAsObject m.isStatic)) := by
  refine ⟨rfl, rfl, fun u hu => ?_, ?_⟩
  · rcases List.mem_append.mp hu with hu | hu
    · rcases List.mem_append.mp hu with hu | hu
      · split at hu
        · exact absurd hu List.not_mem_nil
        · rw [List.mem_singleton.mp hu]
          cases thisAsObject with
          | true => exact .root
          | false => exact .target k h.mem h.name
      · exact h.hookType (List.mem_append_left _ hu)
    · exact absurd hu List.not_mem_nil
  · by_cases hcount : argumentRegisters t.target m.isStatic < 65536
    · exact .inl (Nat.lt_of_le_of_lt (length_parameters_entryPrototype ..) hcount)
    · exact .inr (.uncounted thisAsObject haction m h.found (Nat.le_of_not_lt hcount))

theorem hookOf_parameter (h : t.Targets d k m b) {type : ValueType}
    (htype : type ∈ t.target.prototype.parameters) :
    t.HookOf d (t.hook.withPrototype (parameterPrototype type)) := by
  refine ⟨rfl, rfl, fun u hu => ?_, .inl (by decide : 1 < 65536)⟩
  have hu' : u = type := by
    rcases List.mem_append.mp hu with hu | hu <;> exact List.mem_singleton.mp hu
  exact h.hookType (List.mem_append_left _ (hu' ▸ htype))

theorem hookOf_exit (h : t.Targets d k m b) :
    t.HookOf d (t.hook.withPrototype (exitPrototype t.target)) := by
  have hresult : ∀ u ∈ t.target.prototype.result.types, t.HookType d u :=
    fun u hu => h.hookType (List.mem_append_right _ hu)
  cases hr : t.target.prototype.result with
  | void =>
    have hproto : exitPrototype t.target = ⟨[], .void⟩ := by rw [exitPrototype, hr]
    rw [hproto]
    exact ⟨rfl, rfl, fun u hu => absurd hu List.not_mem_nil, .inl (by decide : 0 < 65536)⟩
  | value u =>
    have hproto : exitPrototype t.target = ⟨[u], .value u⟩ := by rw [exitPrototype, hr]
    rw [hr] at hresult
    rw [hproto]
    refine ⟨rfl, rfl, fun v hv => ?_, .inl (by decide : 1 < 65536)⟩
    rcases List.mem_append.mp hv with hv | hv <;> exact hresult v hv

theorem hookOf_detour {kind : DetourKind} {callee : MethodRef}
    (haction : t.action = .detour kind callee) (hcallee : callee ∈ d.mentionedMethods) :
    t.HookOf d (t.hook.withPrototype (detourPrototype callee)) := by
  refine ⟨rfl, rfl, fun u hu => ?_, ?_⟩
  · rcases List.mem_append.mp hu with hu | hu
    · rcases List.mem_cons.mp hu with rfl | hu
      · exact .callee kind callee haction hcallee
      · exact .mentioned callee hcallee u (List.mem_append_left _ hu)
    · exact .mentioned callee hcallee u (List.mem_append_right _ hu)
  · by_cases hlen : 65535 ≤ callee.prototype.parameters.length
    · exact .inr (.callee kind callee haction hlen)
    · refine .inl ?_
      have hcons : (detourPrototype callee).parameters.length =
          callee.prototype.parameters.length + 1 := List.length_cons
      rw [HookRef.withPrototype, hcons]
      omega

/-- A detour that touches a body redirects a call in it. -/
theorem callee_mem_mentionedMethods (h : t.Targets d k m b) {hook callee : MethodRef}
    {kind : InvokeKind} (htouches : (detourSplice hook kind callee).touches b.lines = true) :
    callee ∈ d.mentionedMethods := by
  have hany : (instructionsOf b.lines).any
      (fun i => (detourBlock hook kind callee i).isSome) = true := htouches
  obtain ⟨i, hi, hblock⟩ := List.any_eq_true.mp hany
  obtain ⟨block, hblock⟩ := Option.isSome_iff_exists.mp hblock
  obtain ⟨args, rfl, -⟩ := detourBlock_cases hblock
  exact DexFile.method?_mem_mentionedMethods
    (DexFile.mem_instructions h.mem h.method h.body hi) rfl

/-- What is woven into the target is inserted calls of one hook. -/
theorem exists_inserts (h : t.Targets d k m b) {hook : MethodRef}
    (hplanned : t.Planned m.isStatic b hook s) (htouches : s.touches b.lines = true) :
    ∃ room, t.HookOf d hook ∧ t.RoomFor b room ∧ s.Inserts hook room (instructionsOf b.lines) := by
  cases hplanned with
  | entry thisAsObject haction hincoming hook hhook =>
    exact ⟨_, hhook ▸ h.hookOf_entry haction, .inr ⟨thisAsObject, haction, rfl⟩,
      inserts_entrySplice _ b _⟩
  | parameter index haction type htype hincoming register hregister hlt hook hhook =>
    exact ⟨_, hhook ▸ h.hookOf_parameter (List.mem_of_getElem? htype), .inl rfl,
      inserts_parameterSplice _ _ _ _⟩
  | exit haction hook hhook =>
    exact ⟨_, hhook ▸ h.hookOf_exit, .inl rfl, inserts_exitSplice _ _ b _⟩
  | detour kind callee haction hook hhook =>
    have hcallee := h.callee_mem_mentionedMethods htouches
    exact ⟨_, hhook ▸ hookOf_detour haction hcallee, .inl rfl, inserts_detourSplice _ _ _ _⟩

end Targets

/-! ## What is new in a woven dex file -/

/-- What a transform that is applied does to a dex file: some bodies have calls of its hook woven
in, and everything else is kept. -/
structure Woven (t : Transform) (d d' : DexFile) (hook : MethodRef) (b : Body) (room : Nat) :
    Prop where
  hookOf : t.HookOf d hook
  target : ∃ m, d.method? t.target = some m ∧ m.body = some b
  roomFor : t.RoomFor b room
  names : d'.classes.map ClassDef.name = d.classes.map ClassDef.name
  classes : ∃ s : Splice, s.Inserts hook room (instructionsOf b.lines) ∧ b ∈ d.bodies ∧
    ∀ k' ∈ d'.classes, ∃ k ∈ d.classes, k.SameBut k' (·.lines = s.weave b.lines)

/-- A transform that is applied gives the method that it targets a transformed body. -/
theorem exists_of_apply {d' : DexFile} (h : t.apply d = .ok d') :
    ∃ m b b', d.method? t.target = some m ∧ m.body = some b ∧
      t.transformBody m.isStatic b = .ok b' ∧ d' = d.setBody t.target b' := by
  rw [apply] at h
  split at h
  · cases h
  · rename_i m hm
    split at h
    · cases h
    · rename_i b hb
      obtain ⟨b', hbody, rfl⟩ := map_eq_ok.mp h
      exact ⟨m, b, b', hm, hb, hbody, rfl⟩

/-- A planned splice that touches the body of the target is woven into the dex file. -/
theorem Planned.exists_woven {m : Method} {hook : MethodRef}
    (hplanned : t.Planned m.isStatic b hook s) (htouches : s.touches b.lines = true)
    (hm : d.method? t.target = some m) (hb : m.body = some b) :
    ∃ room, t.Woven d (d.setBody t.target (s.apply b)) hook b room := by
  obtain ⟨k, htargets⟩ := exists_targets hm hb
  obtain ⟨room, hhook, hroom, hinserts⟩ := htargets.exists_inserts hplanned htouches
  refine ⟨room, hhook, ⟨m, hm, hb⟩, hroom, DexFile.names_setBody, s, hinserts,
    htargets.mem_bodies, fun k' hk' => ?_⟩
  obtain ⟨k, hk, hsame⟩ := DexFile.sameBut_of_mem_setBody hk'
  exact ⟨k, hk, hsame.mono fun _ hb => hb ▸ rfl⟩

theorem exists_woven {d' : DexFile} (h : t.apply d = .ok d') :
    ∃ hook b room, t.Woven d d' hook b room := by
  obtain ⟨m, b, b', hm, hb, hbody, rfl⟩ := exists_of_apply h
  obtain ⟨s, hook, hplanned, htouches, rfl⟩ := exists_planned_of_transformBody hbody
  obtain ⟨room, hwoven⟩ := hplanned.exists_woven htouches hm hb
  exact ⟨hook, b, room, hwoven⟩

end Transform

end DexWeave
