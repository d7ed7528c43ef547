/-
  DexWeave/Proofs/ClassReading.lean --- names of classes, read alone and inside prototypes.

  WHAT THIS FILE IS FOR.  The descriptor of a class has two readers.  Defined classes,
  super classes and owners are read alone, and the name is all that stands before the last
  semicolon.  The types of prototypes are read as types, and there the name ends at the
  first semicolon.  The two agree on names without a semicolon, and on no others.

  WHAT FOLLOWS.  A hook on entry takes the receiver of its target as a parameter, so the
  name of a class passes from the first kind of place to the second.  A class whose name
  has a semicolon can be read; with such a hook woven in it is stored, and then it cannot
  be read any more.

  HOW.  Storing writes anything, so a class that a transform was applied to is read again
  exactly if it is readable, and it is readable exactly if the hook is.
-/
import DexWeave.Proofs.Reencode
import DexWeave.Proofs.TransformRun

set_option autoImplicit false

namespace DexWeave

open Fallible

/-! ## The two readers -/

/-- A text is read as a class that stands alone exactly if it is the descriptor of one that has a
name. -/
theorem ClassName.ofDescriptor?_eq_some_iff {s : String} {c : ClassName} :
    ofDescriptor? s = some c ↔ c.text ≠ "" ∧ s = c.descriptor := by
  constructor
  · intro h
    obtain ⟨hs, hne⟩ := eq_of_ofDescriptor? h
    exact ⟨hne, hs⟩
  · rintro ⟨hne, rfl⟩
    rw [ofDescriptor?_descriptor, if_neg hne]

/-- Read as a type, a text is a class exactly if it is that class alone and its name has no
semicolon. -/
theorem ValueType.ofDescriptor?_eq_object_iff {s : String} {c : ClassName} :
    ofDescriptor? s = some (.object c) ↔
      ClassName.ofDescriptor? s = some c ∧ ';' ∉ c.text.toList := by
  rw [ofDescriptor?_eq_some_iff, ClassName.ofDescriptor?_eq_some_iff,
    Transform.descriptor_object, and_right_comm]
  exact and_congr_left fun _ => ⟨fun h => ⟨h.nonempty, h.unbroken⟩, fun h => ⟨h.1, h.2⟩⟩

namespace Transform

variable {t : Transform} {isStatic : Bool} {b : Body} {s : Splice} {hook : MethodRef}
variable {d d' : DexFile} {bs new : Bytes} {name : ClassName}

/-! ## Hooks that are woven in -/

/-- Where a planned splice touches a body, it calls the hook. -/
theorem Planned.exists_call (h : t.Planned isStatic b hook s)
    (htouches : s.touches b.lines = true) :
    ∃ args, SymbolicInstruction.invokeStatic hook args ∈ instructionsOf (s.weave b.lines) := by
  rw [Splice.instructionsOf_weave]
  -- a splice with nothing in front has a block, and the block starts with the call
  have hblock : s.opening = [] →
      (∀ i block, s.block i = some block → ∃ args, .invokeStatic hook args ∈ block) →
      ∃ args, .invokeStatic hook args ∈ (instructionsOf b.lines).flatMap s.blockOf := by
    intro hopening hcall
    rw [Splice.touches, hopening] at htouches
    obtain ⟨i, hi, hsome⟩ := List.any_eq_true.mp htouches
    obtain ⟨block, hblock⟩ := Option.isSome_iff_exists.mp hsome
    obtain ⟨args, hargs⟩ := hcall i block hblock
    refine ⟨args, List.mem_flatMap.mpr ⟨i, hi, ?_⟩⟩
    rw [Splice.blockOf, hblock]
    exact hargs
  cases h with
  | entry | parameter => exact ⟨_, List.mem_append_left _ List.mem_cons_self⟩
  | exit =>
    refine hblock rfl fun i block hi => ?_
    obtain ⟨-, rfl⟩ | ⟨k, r, -, rfl⟩ := exitBlock_cases hi
    · exact ⟨_, List.mem_cons_self⟩
    · exact ⟨_, List.mem_cons_self⟩
  | detour =>
    refine hblock rfl fun i block hi => ?_
    obtain ⟨args, -, rfl⟩ := detourBlock_cases hi
    exact ⟨args, List.mem_cons_self⟩

/-- What a readable dex file becomes is readable exactly if the hook is. -/
theorem Woven.readable_iff {room : Nat} (h : t.Woven d d' hook b room) (hd : d.Readable)
    (hhook : hook ∈ d'.mentionedMethods) : d'.Readable ↔ hook.WellFormed :=
  ⟨fun h' => ⟨h'.owners hook hhook, h'.prototypes hook hhook⟩, fun h' => h.readable hd h'⟩

/-- A class that was read and transformed is read again as what it was transformed to, if the hook
can be read back, and is refused otherwise. -/
theorem returnsWhen_decode_of_apply (hdecode : DexFile.decode bs name = .ok d)
    (happly : t.apply d = .ok d') (himage : d'.image = .ok new) :
    ∃ m b hook s, d.method? t.target = some m ∧ m.body = some b ∧
      t.Planned m.isStatic b hook s ∧
      ReturnsWhen (DexFile.decode new name) hook.WellFormed d' := by
  obtain ⟨c, k, -, rfl, rfl, hfrom⟩ := DexFile.readFrom_of_decode hdecode
  obtain ⟨m, b, b', hm, hb, hbody, rfl⟩ := exists_of_apply happly
  obtain ⟨s, hook, hplanned, htouches, rfl⟩ := exists_planned_of_transformBody hbody
  obtain ⟨room, hwoven⟩ := hplanned.exists_woven htouches hm hb
  obtain ⟨args, hcall⟩ := hplanned.exists_call htouches
  have hhook : hook ∈ (DexFile.setBody ⟨[k]⟩ t.target (s.apply b)).mentionedMethods :=
    DexFile.method?_mem_mentionedMethods
      (DexFile.mem_instructions_iff.mpr ⟨s.apply b, DexFile.mem_bodies_setBody hm, hcall⟩) rfl
  have hreadable := hwoven.readable_iff hfrom.readable hhook
  have hcanonical := hwoven.isCanonical fun b hb => hfrom.isCanonical hb
  have hnames := hwoven.names
  refine ⟨m, b, hook, s, hm, hb, hplanned, ?_⟩
  -- the transformed dex file still defines one class, of the same name
  obtain ⟨k', hk'⟩ : ∃ k', (DexFile.setBody ⟨[k]⟩ t.target (s.apply b)).classes = [k'] :=
    List.length_eq_one_iff.mp (by simpa using congrArg List.length hnames)
  have hd' : DexFile.setBody ⟨[k]⟩ t.target (s.apply b) = ⟨[k']⟩ := by rw [← hk']
  rw [hd'] at himage hreadable hcanonical hnames ⊢
  have hreturns := DexFile.returnsWhen_decode_image himage
  rw [DexFile.canonical_eq_self hcanonical, List.singleton_inj.mp hnames] at hreturns
  exact hreturns.congr hreadable

/-! ## Hooks on entry -/

/-- The prototype of a hook on entry can be read back if there is no receiver, if the receiver is
passed as a plain object, or if the name of its class can stand inside a prototype. -/
theorem wellFormed_entryPrototype_iff {target : MethodRef} (htarget : target.WellFormed)
    (thisAsObject isStatic : Bool) :
    (entryPrototype target thisAsObject isStatic).WellFormed ↔
      isStatic = true ∨ thisAsObject = true ∨ ';' ∉ target.owner.text.toList := by
  have hwf : (entryPrototype target thisAsObject isStatic).WellFormed ↔
      ∀ u ∈ if isStatic then []
        else [ValueType.object (if thisAsObject then ClassName.javaLangObject else target.owner)],
        u.WellFormed := by
    constructor
    · exact fun h u hu => h.parameters u (List.mem_append_left _ hu)
    · intro h
      refine ⟨fun u hu => ?_, trivial⟩
      rcases List.mem_append.mp hu with hu | hu
      · exact h u hu
      · exact htarget.prototype.parameters u hu
  have hroot : ClassName.javaLangObject.WellFormed := by decide
  have howner : target.owner.WellFormed ↔ ';' ∉ target.owner.text.toList :=
    ⟨fun h => h.unbroken, fun h => ⟨htarget.owner, h⟩⟩
  rw [hwf]
  cases isStatic <;> cases thisAsObject <;>
    simp [ValueType.WellFormed, ValueType.object, ElementType.WellFormed, hroot, howner]

/-- The two readers agree on a descriptor exactly if the name of the class has no semicolon.  So a
class with a hook on entry, in a class that has a name, is read again as what it was transformed
to exactly if the name of the class has none, or is not passed to the hook; otherwise it is
refused. -/
theorem reads_again_iff_unbroken (s : String) (c : ClassName) :
    (ValueType.ofDescriptor? s = some (.object c) ↔
      ClassName.ofDescriptor? s = some c ∧ ';' ∉ c.text.toList) ∧
    ∀ (bs new : Bytes) (name : ClassName) (d d' : DexFile) (t : Transform) (thisAsObject : Bool)
      (m : Method), DexFile.decode bs name = .ok d → t.action = .entry thisAsObject →
      d.method? t.target = some m → t.apply d = .ok d' → t.hook.owner.text ≠ "" →
      d'.encode Allocator.heap = .ok new →
      (DexFile.decode new name = .ok d' ↔
        m.isStatic = true ∨ thisAsObject = true ∨ ';' ∉ name.text.toList) ∧
      (DexFile.decode new name ≠ .ok d' → ∃ e, DexFile.decode new name = .error e) := by
  refine ⟨ValueType.ofDescriptor?_eq_object_iff, ?_⟩
  intro bs new name d d' t thisAsObject m hdecode haction hm happly howner hencode
  rw [DexFile.encode_eq_image Allocator.heap_exact] at hencode
  obtain ⟨m', b, hook, s, hm', hb, hplanned, hreturns⟩ :=
    returnsWhen_decode_of_apply hdecode happly hencode
  obtain rfl := Option.some.inj (hm.symm.trans hm')
  obtain ⟨c, k, -, rfl, rfl, hfrom⟩ := DexFile.readFrom_of_decode hdecode
  obtain ⟨k', htargets⟩ := exists_targets hm hb
  have hname : k.name = t.target.owner := List.mem_singleton.mp htargets.mem ▸ htargets.name
  have hclass := hfrom.readable.classes k.name
    (DexFile.name_mem_definedClasses List.mem_cons_self)
  have hprototype := hfrom.readable.prototypes m.ref
    (DexFile.ref_mem_mentionedMethods htargets.mem htargets.method)
  rw [htargets.prototype] at hprototype
  rw [hname] at hclass hreturns ⊢
  have hhook : hook.WellFormed ↔
      m.isStatic = true ∨ thisAsObject = true ∨ ';' ∉ t.target.owner.text.toList := by
    cases hplanned with
    | entry thisAsObject' haction' hincoming hook hhook =>
      obtain rfl := HookAction.entry.inj (haction.symm.trans haction')
      rw [← wellFormed_entryPrototype_iff ⟨hclass, hprototype⟩, hhook]
      exact ⟨fun h => h.prototype, fun h => ⟨howner, h⟩⟩
    | parameter index haction' => exact absurd (haction.symm.trans haction') (by simp)
    | exit haction' => exact absurd (haction.symm.trans haction') (by simp)
    | detour kind callee haction' => exact absurd (haction.symm.trans haction') (by simp)
  refine ⟨?_, fun hne => hreturns.exists_error fun hgood => hne (hreturns.eq_ok hgood)⟩
  rw [hreturns d', and_iff_left rfl, hhook]

end Transform

/-! ## A name with a semicolon -/

namespace SplitName

/-- A class with a semicolon in its name, and one method, which has a receiver. -/
def original : ClassDef :=
  ⟨⟨"a;b"⟩, ⟨1⟩, none,
    [⟨⟨⟨"a;b"⟩, "run", ⟨[], .void⟩⟩, ⟨1⟩, some ⟨1, 1, 0, [.instruction .returnVoid]⟩⟩]⟩

/-- A hook on entry of the method. -/
def enter (thisAsObject : Bool) : Transform :=
  ⟨⟨⟨"a;b"⟩, "run", ⟨[], .void⟩⟩, .entry thisAsObject, ⟨⟨"Hooks"⟩, "enter"⟩⟩

/-- The class with the hook woven in. -/
def hooked (thisAsObject : Bool) : DexFile := (enter thisAsObject).applyOrKeep ⟨[original]⟩

theorem apply_enter (thisAsObject : Bool) :
    (enter thisAsObject).apply ⟨[original]⟩ = .ok (hooked thisAsObject) := by
  cases thisAsObject <;> decide +kernel

theorem exists_image_hooked (thisAsObject : Bool) :
    ∃ new, (hooked thisAsObject).image = .ok new := by
  cases thisAsObject <;> exact exists_ok_of_isOk (by decide +kernel)

/-- The class itself can be read. -/
theorem exists_decode_original : ∃ bs, DexFile.decode bs ⟨"a;b"⟩ = .ok ⟨[original]⟩ := by
  obtain ⟨bs, hbs⟩ := exists_ok_of_isOk
    (by decide +kernel : (DexFile.image ⟨[original]⟩).isOk = true)
  have hcanonical : IsCanonical [.instruction .returnVoid] :=
    ⟨⟨[⟨none, .returnVoid⟩], rfl⟩, rfl, by decide, by simp [labelsOf, instructionsOf, Line.label?,
      Line.instruction?, Instruction.target?]⟩
  have hbodies : DexFile.bodies ⟨[original]⟩ = [⟨1, 1, 0, [.instruction .returnVoid]⟩] := by
    decide +kernel
  have hread : DexFile.decode bs original.name = .ok ⟨[original]⟩ :=
    DexFile.decode_image hbs (by decide +kernel)
      (hbodies ▸ List.forall_mem_singleton.mpr hcanonical)
  exact ⟨bs, hread⟩

/-- With the receiver as a plain object, the class is read again. -/
theorem reads_again_iff_unbroken_plain :
    ∃ bs new, DexFile.decode bs ⟨"a;b"⟩ = .ok ⟨[original]⟩ ∧
      (enter true).apply ⟨[original]⟩ = .ok (hooked true) ∧
      (hooked true).encode Allocator.heap = .ok new ∧
      DexFile.decode new ⟨"a;b"⟩ = .ok (hooked true) := by
  obtain ⟨bs, hbs⟩ := exists_decode_original
  obtain ⟨new, himage⟩ := exists_image_hooked true
  have hencode : (hooked true).encode Allocator.heap = .ok new := by
    rw [DexFile.encode_eq_image Allocator.heap_exact, himage]
  obtain ⟨-, hreads⟩ := Transform.reads_again_iff_unbroken "La;b;" original.name
  obtain ⟨hiff, -⟩ := hreads bs new ⟨"a;b"⟩ ⟨[original]⟩ (hooked true) (enter true) true _ hbs rfl
    rfl (apply_enter true) (by decide) hencode
  exact ⟨bs, new, hbs, apply_enter true, hencode, hiff.mpr (.inr (.inl rfl))⟩

/-- The readers differ, and with the receiver as an instance of its class, the class is stored and
cannot be read again. -/
theorem not_readers_agree :
    (¬ ∀ (s : String) (c : ClassName), ClassName.ofDescriptor? s = some c ↔
      ValueType.ofDescriptor? s = some (.object c)) ∧
    ¬ ∀ (bs new : Bytes) (name : ClassName) (d d' : DexFile) (t : Transform) (thisAsObject : Bool)
      (m : Method), DexFile.decode bs name = .ok d → t.action = .entry thisAsObject →
      d.method? t.target = some m → m.isStatic = false → t.apply d = .ok d' →
      t.hook.owner.text ≠ "" → d'.encode Allocator.heap = .ok new →
      ∃ d'', DexFile.decode new name = .ok d'' := by
  constructor
  · intro hagree
    exact absurd ((hagree "La;b;" ⟨"a;b"⟩).mp (by decide +kernel)) (by decide +kernel)
  · intro hreads
    obtain ⟨bs, hbs⟩ := exists_decode_original
    obtain ⟨new, himage⟩ := exists_image_hooked false
    obtain ⟨d'', hd''⟩ := hreads bs new ⟨"a;b"⟩ ⟨[original]⟩ (hooked false) (enter false) false _ hbs
      rfl rfl rfl (apply_enter false) (by decide)
      (by rw [DexFile.encode_eq_image Allocator.heap_exact, himage])
    obtain ⟨k, hk, hname⟩ : ∃ k, hooked false = ⟨[k]⟩ ∧ k.name = ⟨"a;b"⟩ := ⟨_, rfl, rfl⟩
    have hunreadable : ¬ (hooked false).Readable := by decide +kernel
    rw [hk] at himage hunreadable
    have hreturns := DexFile.returnsWhen_decode_image himage
    rw [hname] at hreturns
    exact hunreadable ((hreturns d'').mp hd'').1

end SplitName

end DexWeave
