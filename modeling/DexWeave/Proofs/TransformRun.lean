/-
  DexWeave/Proofs/TransformRun.lean --- dex files after a list of transforms.

  WHAT THIS FILE IS FOR.  A list of transforms is applied one after the other, in any
  number and order.  Each invariant is proved for one transform that is applied, from what
  that transform may insert, and then holds after any list of them.

  THE INVARIANTS.  Labels stay canonical whatever is woven in.  What can be read back
  stays so if the hooks can be named.  Entries stay as small as their fields unless some
  transform on the way inserts one that is not; which those are is `Transform.Overflows`.
-/
import DexWeave.Proofs.Weave

set_option autoImplicit false

namespace DexWeave

namespace Transform

/-! ## What a woven dex file mentions -/

namespace Woven

variable {t : Transform} {d d' : DexFile} {hook : MethodRef} {b : Body} {room : Nat}

/-- Every body is an old one or the woven one. -/
theorem body_cases (h : t.Woven d d' hook b room) :
    ∃ s : Splice, s.Inserts hook room (instructionsOf b.lines) ∧ b ∈ d.bodies ∧
      ∀ b' ∈ d'.bodies, b' ∈ d.bodies ∨ b'.lines = s.weave b.lines := by
  obtain ⟨s, hinserts, hb, hclasses⟩ := h.classes
  refine ⟨s, hinserts, hb, fun b' hb' => ?_⟩
  obtain ⟨k', hk', m', hm', hb'⟩ := DexFile.mem_bodies.mp hb'
  obtain ⟨k, hk, hsame⟩ := hclasses k' hk'
  obtain ⟨m, hm, -, -, hbody⟩ := hsame.methods m' hm'
  exact (hbody b' hb').imp_left fun hold => DexFile.mem_bodies.mpr ⟨k, hk, m, hm, hold⟩

theorem instruction_cases (h : t.Woven d d' hook b room) {i : SymbolicInstruction}
    (hi : i ∈ d'.instructions) : i ∈ d.instructions ∨ Inserted hook room d.instructions i := by
  obtain ⟨s, hinserts, hb, hbodies⟩ := h.body_cases
  have hold : ∀ i ∈ instructionsOf b.lines, i ∈ d.instructions :=
    fun i hi => DexFile.mem_instructions_iff.mpr ⟨b, hb, hi⟩
  obtain ⟨b', hb', hi⟩ := DexFile.mem_instructions_iff.mp hi
  rcases hbodies b' hb' with hmem | hlines
  · exact .inl (DexFile.mem_instructions_iff.mpr ⟨b', hmem, hi⟩)
  · rw [hlines] at hi
    rcases hinserts.mem_instructionsOf_weave hi with hi | hi
    · exact .inl (hold i hi)
    · exact .inr (hi.mono hold)

theorem method_cases (h : t.Woven d d' hook b room) {m : MethodRef}
    (hm : m ∈ d'.mentionedMethods) : m ∈ d.mentionedMethods ∨ m = hook := by
  rcases List.mem_append.mp hm with hm | hm
  · obtain ⟨k', hk', hm⟩ := List.mem_flatMap.mp hm
    obtain ⟨m', hm', rfl⟩ := List.mem_map.mp hm
    obtain ⟨s, -, -, hclasses⟩ := h.classes
    obtain ⟨k, hk, hsame⟩ := hclasses k' hk'
    obtain ⟨m, hm, href, -⟩ := hsame.methods m' hm'
    rw [href]
    exact .inl (DexFile.ref_mem_mentionedMethods hk hm)
  · obtain ⟨i, hi, hm⟩ := List.mem_filterMap.mp hm
    rcases h.instruction_cases hi with hi | hi
    · exact .inl (DexFile.method?_mem_mentionedMethods hi hm)
    · exact .inr (hi.eq_hook hm)

theorem mem_definedClasses (h : t.Woven d d' hook b room) {c : ClassName}
    (hc : c ∈ d'.definedClasses) : c ∈ d.definedClasses := by
  obtain ⟨k', hk', hc⟩ := List.mem_flatMap.mp hc
  obtain ⟨s, -, -, hclasses⟩ := h.classes
  obtain ⟨k, hk, hsame⟩ := hclasses k' hk'
  rw [hsame.name, hsame.super] at hc
  exact List.mem_flatMap.mpr ⟨k, hk, hc⟩

theorem type_mem (h : t.Woven d d' hook b room) {i : SymbolicInstruction}
    (hi : i ∈ d'.instructions) {u : ValueType} (hu : i.type? = some u) : i ∈ d.instructions := by
  refine (h.instruction_cases hi).resolve_right fun hins => ?_
  rw [hins.type?_eq] at hu
  cases hu

/-! ## Labels -/

theorem isCanonical (h : t.Woven d d' hook b room)
    (hcanonical : ∀ b ∈ d.bodies, IsCanonical b.lines) : ∀ b ∈ d'.bodies, IsCanonical b.lines := by
  obtain ⟨s, hinserts, hb, hbodies⟩ := h.body_cases
  intro b' hb'
  rcases hbodies b' hb' with hmem | hlines
  · exact hcanonical b' hmem
  · rw [hlines]
    exact Splice.isCanonical_weave hinserts.keepsBranches (hcanonical b hb)

end Woven

/-! ## Readability -/

/-- The hook is in a class with a name, and the receiver of a redirected call has a type that can
be read back. -/
structure Named (t : Transform) : Prop where
  hook : t.hook.owner.text ≠ ""
  callee : ∀ kind callee, t.action = .detour kind callee → ';' ∉ callee.owner.text.toList

theorem HookType.wellFormed {t : Transform} {d : DexFile} {u : ValueType} (h : t.HookType d u)
    (hd : d.Readable) (ht : t.Named)
    (hclasses : ∀ k ∈ d.classes, ';' ∉ k.name.text.toList) : u.WellFormed := by
  cases h with
  | mentioned m hm u hu => exact Prototype.wellFormed_iff.mp (hd.prototypes m hm) u hu
  | root => exact (by decide : ClassName.javaLangObject.WellFormed)
  | target k hk hname =>
    have hgood : k.name.WellFormed :=
      ⟨hd.classes k.name (DexFile.name_mem_definedClasses hk), hclasses k hk⟩
    rw [hname] at hgood
    exact hgood
  | callee kind m haction hm =>
    exact (⟨hd.owners m hm, ht.callee kind m haction⟩ : m.owner.WellFormed)

theorem HookOf.wellFormed {t : Transform} {d : DexFile} {hook : MethodRef} (h : t.HookOf d hook)
    (hd : d.Readable) (ht : t.Named)
    (hclasses : ∀ k ∈ d.classes, ';' ∉ k.name.text.toList) : hook.WellFormed := by
  refine ⟨?_, Prototype.wellFormed_iff.mpr fun u hu => (h.types u hu).wellFormed hd ht hclasses⟩
  rw [h.owner]
  exact ht.hook

theorem Woven.readable {t : Transform} {d d' : DexFile} {hook : MethodRef} {b : Body} {room : Nat}
    (h : t.Woven d d' hook b room) (hd : d.Readable) (hhook : hook.WellFormed) :
    d'.Readable where
  classes := fun c hc => hd.classes c (h.mem_definedClasses hc)
  owners := by
    intro m hm
    rcases h.method_cases hm with hm | rfl
    · exact hd.owners m hm
    · exact hhook.owner
  prototypes := by
    intro m hm
    rcases h.method_cases hm with hm | rfl
    · exact hd.prototypes m hm
    · exact hhook.prototype
  instances := fun i hi u hu => hd.instances i (h.type_mem hi hu) u hu
  class_flags := by
    intro k' hk'
    obtain ⟨s, -, -, hclasses⟩ := h.classes
    obtain ⟨k, hk, hsame⟩ := hclasses k' hk'
    rw [hsame.flags]
    exact hd.class_flags k hk
  method_flags := by
    intro k' hk' m' hm'
    obtain ⟨s, -, -, hclasses⟩ := h.classes
    obtain ⟨k, hk, hsame⟩ := hclasses k' hk'
    obtain ⟨m, hm, -, hflags, -⟩ := hsame.methods m' hm'
    rw [hflags]
    exact hd.method_flags k hk m hm

/-! ## Sizes -/

/-- The transform inserts an entry that is larger than its field: a call with more arguments than
there are in one call, a prototype with more parameters than one has, or a text of four
gigabytes. -/
inductive Overflows (t : Transform) (d : DexFile) : Prop where
  | arguments (thisAsObject : Bool) (haction : t.action = .entry thisAsObject) (m : Method)
    (hm : d.method? t.target = some m) (b : Body) (hb : m.body = some b)
    (h : 255 < b.incoming.length)
  | parameters (h : t.TakesTooMany d)
  | text (h : 4294967296 ≤ (Utf8.encode t.hook.name).length ∨
      4294967296 ≤ (Utf8.encode t.hook.owner.descriptor).length)

theorem descriptor_object (c : ClassName) : (ValueType.object c).descriptor = c.descriptor := by
  simp [ValueType.object, ValueType.descriptor, ElementType.descriptor]

theorem HookType.length_descriptor_lt {t : Transform} {d : DexFile} {u : ValueType}
    (h : t.HookType d u) (hd : d.EntriesFit) : (Utf8.encode u.descriptor).length < 4294967296 := by
  have hmention : ∀ s ∈ d.mentionedDescriptors, (Utf8.encode s).length < 4294967296 :=
    fun s hs => hd.texts s (DexFile.mem_mentionedStrings_of_descriptor hs)
  cases h with
  | mentioned m hm u hu =>
    refine hmention _ (DexFile.mem_mentionedDescriptors_of_method hm ?_)
    exact MethodRef.mem_descriptors_iff.mpr (.inr (.inl ⟨u, hu, rfl⟩))
  | root => decide
  | target k hk hname =>
    rw [descriptor_object, ← hname]
    exact hmention _ (DexFile.class_mem_mentionedDescriptors (DexFile.name_mem_definedClasses hk))
  | callee kind m haction hm =>
    rw [descriptor_object]
    exact hmention _ (DexFile.mem_mentionedDescriptors_of_method hm m.owner_mem_descriptors)

theorem HookOf.length_descriptor_lt {t : Transform} {d : DexFile} {hook : MethodRef}
    (h : t.HookOf d hook) (hd : d.EntriesFit) (ht : ¬ t.Overflows d) {s : String}
    (hs : s ∈ hook.descriptors) : (Utf8.encode s).length < 4294967296 := by
  rcases MethodRef.mem_descriptors_iff.mp hs with rfl | ⟨u, hu, rfl⟩ | ⟨-, rfl⟩
  · rw [h.owner]
    exact Nat.lt_of_not_le fun hlen => ht (.text (.inr hlen))
  · exact (h.types u hu).length_descriptor_lt hd
  · decide

namespace Woven

variable {t : Transform} {d d' : DexFile} {hook : MethodRef} {b : Body} {room : Nat}

theorem room_lt (h : t.Woven d d' hook b room) (ht : ¬ t.Overflows d) : room < 256 := by
  rcases h.roomFor with rfl | ⟨thisAsObject, haction, rfl⟩
  · decide
  · obtain ⟨m, hm, hb⟩ := h.target
    exact Nat.lt_of_not_le fun hlen => ht (.arguments thisAsObject haction m hm b hb hlen)

theorem length_string_lt (h : t.Woven d d' hook b room) (hd : d.EntriesFit)
    (ht : ¬ t.Overflows d) {s : String} (hs : s ∈ d'.mentionedStrings) :
    (Utf8.encode s).length < 4294967296 := by
  have hdescriptor : ∀ s ∈ d.mentionedDescriptors, (Utf8.encode s).length < 4294967296 :=
    fun s hs => hd.texts s (DexFile.mem_mentionedStrings_of_descriptor hs)
  rcases List.mem_append.mp hs with hs | hs
  · rcases List.mem_append.mp hs with hs | hs
    · obtain ⟨i, hi, hs⟩ := List.mem_filterMap.mp hs
      rcases h.instruction_cases hi with hi | hi
      · exact hd.texts s (DexFile.text?_mem_mentionedStrings hi hs)
      · rw [hi.text?_eq] at hs
        cases hs
    · obtain ⟨m, hm, rfl⟩ := List.mem_map.mp hs
      rcases h.method_cases hm with hm | rfl
      · exact hd.texts m.name (DexFile.name_mem_mentionedStrings hm)
      · rw [h.hookOf.name]
        exact Nat.lt_of_not_le fun hlen => ht (.text (.inl hlen))
  · rcases List.mem_append.mp hs with hs | hs
    · rcases List.mem_append.mp hs with hs | hs
      · obtain ⟨c, hc, rfl⟩ := List.mem_map.mp hs
        exact hdescriptor _ (DexFile.class_mem_mentionedDescriptors (h.mem_definedClasses hc))
      · obtain ⟨m, hm, hs⟩ := List.mem_flatMap.mp hs
        rcases h.method_cases hm with hm | rfl
        · exact hdescriptor s (DexFile.mem_mentionedDescriptors_of_method hm hs)
        · exact h.hookOf.length_descriptor_lt hd ht hs
    · obtain ⟨u, hu, rfl⟩ := List.mem_map.mp hs
      obtain ⟨i, hi, hu⟩ := List.mem_filterMap.mp hu
      exact hdescriptor _ (DexFile.type?_mem_mentionedDescriptors (h.type_mem hi hu) hu)

/-- The entries of a woven dex file fit, unless the transform inserted one that does not. -/
theorem entriesFit (h : t.Woven d d' hook b room) (hd : d.EntriesFit) (ht : ¬ t.Overflows d) :
    d'.EntriesFit where
  texts := fun s hs => h.length_string_lt hd ht hs
  parameters := by
    intro m hm
    rcases h.method_cases hm with hm | rfl
    · exact hd.parameters m hm
    · exact h.hookOf.parameters.resolve_right fun hmany => ht (.parameters hmany)
  arguments := by
    intro i hi
    rcases h.instruction_cases hi with hi | hi
    · exact hd.arguments i hi
    · rcases hi.arguments_le with hlen | ⟨j, hj, harguments⟩
      · exact Nat.lt_of_le_of_lt hlen (h.room_lt ht)
      · rw [harguments]
        exact hd.arguments j hj

end Woven

/-! ## Runs -/

theorem applyAll_cons (t : Transform) (ts : List Transform) (d : DexFile) :
    applyAll (t :: ts) d = applyAll ts (t.applyOrKeep d) := rfl

/-- A transform is refused and keeps the dex file, or it is applied. -/
theorem applyOrKeep_cases (t : Transform) (d : DexFile) :
    t.applyOrKeep d = d ∨ t.apply d = .ok (t.applyOrKeep d) := by
  rw [applyOrKeep]
  cases t.apply d with
  | error r => exact .inl rfl
  | ok d' => exact .inr rfl

/-- What every applied transform preserves holds after a list of them. -/
theorem applyAll_induction {P : DexFile → Prop} {ts : List Transform}
    (hstep : ∀ t ∈ ts, ∀ d d', P d → t.apply d = .ok d' → P d') {d : DexFile} (h : P d) :
    P (applyAll ts d) := by
  induction ts generalizing d with
  | nil => exact h
  | cons t ts ih =>
    rw [applyAll_cons]
    refine ih (fun u hu => hstep u (List.mem_cons_of_mem t hu)) ?_
    rcases applyOrKeep_cases t d with hkeep | happly
    · rw [hkeep]
      exact h
    · exact hstep t List.mem_cons_self d _ h happly

theorem isCanonical_applyAll (ts : List Transform) {d : DexFile}
    (h : ∀ b ∈ d.bodies, IsCanonical b.lines) :
    ∀ b ∈ (applyAll ts d).bodies, IsCanonical b.lines := by
  refine applyAll_induction (P := fun d => ∀ b ∈ d.bodies, IsCanonical b.lines) ?_ h
  intro t _ d d' hd happly
  obtain ⟨hook, b, room, hwoven⟩ := exists_woven happly
  exact hwoven.isCanonical hd

/-- Classes keep their names and their methods. -/
theorem names_applyAll (ts : List Transform) (d : DexFile) :
    (applyAll ts d).classes.map ClassDef.name = d.classes.map ClassDef.name := by
  refine applyAll_induction
    (P := fun d' => d'.classes.map ClassDef.name = d.classes.map ClassDef.name) ?_ rfl
  intro t _ d₁ d₂ hd happly
  obtain ⟨hook, b, room, hwoven⟩ := exists_woven happly
  exact hwoven.names.trans hd

theorem length_methods_applyAll (ts : List Transform) {d : DexFile} {bound : Nat}
    (h : ∀ k ∈ d.classes, k.methods.length < bound) :
    ∀ k ∈ (applyAll ts d).classes, k.methods.length < bound := by
  refine applyAll_induction (P := fun d => ∀ k ∈ d.classes, k.methods.length < bound) ?_ h
  intro t _ d d' hd happly k' hk'
  obtain ⟨hook, b, room, hwoven⟩ := exists_woven happly
  obtain ⟨s, -, -, hclasses⟩ := hwoven.classes
  obtain ⟨k, hk, hsame⟩ := hclasses k' hk'
  rw [hsame.length]
  exact hd k hk

theorem readable_applyAll {ts : List Transform} (hts : ∀ t ∈ ts, t.Named) {d : DexFile}
    (hclasses : ∀ k ∈ d.classes, ';' ∉ k.name.text.toList) (h : d.Readable) :
    (applyAll ts d).Readable := by
  -- The names of the classes are carried along, as a hook may take one of them as a type.
  refine (applyAll_induction (P := fun d' => d'.Readable ∧
    d'.classes.map ClassDef.name = d.classes.map ClassDef.name) ?_ ⟨h, rfl⟩).1
  rintro t ht d₁ d₂ ⟨hreadable, hnames⟩ happly
  obtain ⟨hook, b, room, hwoven⟩ := exists_woven happly
  have hunbroken : ∀ k ∈ d₁.classes, ';' ∉ k.name.text.toList := by
    intro k hk
    have hmem : k.name ∈ d.classes.map ClassDef.name := by
      rw [← hnames]
      exact List.mem_map_of_mem hk
    obtain ⟨k', hk', hname⟩ := List.mem_map.mp hmem
    rw [← hname]
    exact hclasses k' hk'
  exact ⟨hwoven.readable hreadable (hwoven.hookOf.wellFormed hreadable (hts t ht) hunbroken),
    hwoven.names.trans hnames⟩

/-- On the way through the list some transform is applied that inserts an entry larger than its
field. -/
def OverflowsOnTheWay (ts : List Transform) (d : DexFile) : Prop :=
  ∃ front t back d', ts = front ++ t :: back ∧ t.apply (applyAll front d) = .ok d' ∧
    t.Overflows (applyAll front d)

/-- Entries that fit still fit after a list of transforms, unless one overflows on the way. -/
theorem entriesFit_applyAll {ts : List Transform} {d : DexFile} (h : d.EntriesFit) :
    (applyAll ts d).EntriesFit ∨ OverflowsOnTheWay ts d := by
  induction ts generalizing d with
  | nil => exact .inl h
  | cons t ts ih =>
    rw [applyAll_cons]
    have hnext : (t.applyOrKeep d).EntriesFit ∨ OverflowsOnTheWay (t :: ts) d := by
      rcases applyOrKeep_cases t d with hkeep | happly
      · rw [hkeep]
        exact .inl h
      · by_cases ht : t.Overflows d
        · exact .inr ⟨[], t, ts, _, rfl, happly, ht⟩
        · obtain ⟨hook, b, room, hwoven⟩ := exists_woven happly
          exact .inl (hwoven.entriesFit h ht)
    rcases hnext with hnext | hover
    · refine (ih hnext).imp_right ?_
      rintro ⟨front, u, back, d', rfl, happly, hu⟩
      exact ⟨t :: front, u, back, d', rfl, happly, hu⟩
    · exact .inr hover

end Transform

end DexWeave
