/-
  DexWeave/Proofs/DexRoundTrip.lean --- dex files stored and read again.

  WHAT THIS FILE IS FOR.  A dex file that was stored is read back with its labels in
  canonical form, if it is readable: storing writes any name and any flag word, and reading
  refuses some of them.  The file says which, and follows a dex file through the pools, the
  bytes and back.

  HOW.  For each part of a dex file there is one lemma that says what reading returns for
  its stored form, and when.  The conditions of the parts add up to `DexFile.Readable`,
  which speaks of the dex file as a whole.
-/
import DexWeave.Proofs.BodyRoundTrip
import DexWeave.Proofs.Layout

set_option autoImplicit false

namespace DexWeave

open Fallible

/-! ## Canonical labels -/

/-- The body with its labels chosen anew. -/
def Body.canonical (b : Body) : Body := { b with lines := canonicalLines b.lines }

/-- The method with the labels of its body chosen anew. -/
def Method.canonical (m : Method) : Method := { m with body := m.body.map Body.canonical }

/-- The class with the labels of its bodies chosen anew. -/
def ClassDef.canonical (c : ClassDef) : ClassDef :=
  { c with methods := c.methods.map Method.canonical }

/-- The dex file with the labels of its bodies chosen anew. -/
def DexFile.canonical (d : DexFile) : DexFile := ⟨d.classes.map ClassDef.canonical⟩

/-! ## What can be read back -/

/-- Whether everything the body refers to can be read back. -/
def Body.WellFormed (b : Body) : Prop := ∀ i ∈ instructionsOf b.lines, i.WellFormed

instance (b : Body) : Decidable b.WellFormed :=
  inferInstanceAs (Decidable (∀ i ∈ instructionsOf b.lines, i.WellFormed))

/-- Whether everything a method consists of can be read back. -/
structure Method.WellFormed (m : Method) : Prop where
  ref : m.ref.WellFormed
  flags : m.flags.isKnown = true
  body : ∀ b, m.body = some b → b.WellFormed

instance (m : Method) : Decidable m.WellFormed :=
  decidable_of_iff (m.ref.WellFormed ∧ m.flags.isKnown = true ∧
      ∀ b, m.body = some b → b.WellFormed)
    ⟨fun h => ⟨h.1, h.2.1, h.2.2⟩, fun h => ⟨h.ref, h.flags, h.body⟩⟩

/-- Whether everything a class consists of can be read back. -/
structure ClassDef.WellFormed (c : ClassDef) : Prop where
  name : c.name.text ≠ ""
  flags : c.flags.isKnown = true
  super : ∀ s, c.super = some s → s.text ≠ ""
  methods : ∀ m ∈ c.methods, m.WellFormed

instance (c : ClassDef) : Decidable c.WellFormed :=
  decidable_of_iff (c.name.text ≠ "" ∧ c.flags.isKnown = true ∧
      (∀ s, c.super = some s → s.text ≠ "") ∧ ∀ m ∈ c.methods, m.WellFormed)
    ⟨fun h => ⟨h.1, h.2.1, h.2.2.1, h.2.2.2⟩, fun h => ⟨h.name, h.flags, h.super, h.methods⟩⟩

/-- Whether a dex file that was stored can be read: the classes it defines, extends or calls into
have a name; the types of prototypes and of new instances have descriptors that are read as
these types; and no flag word has a bit without a meaning. -/
structure DexFile.Readable (d : DexFile) : Prop where
  classes : ∀ c ∈ d.definedClasses, c.text ≠ ""
  owners : ∀ m ∈ d.mentionedMethods, m.owner.text ≠ ""
  prototypes : ∀ m ∈ d.mentionedMethods, m.prototype.WellFormed
  instances : ∀ i ∈ d.instructions, ∀ t, i.type? = some t → t.WellFormed
  class_flags : ∀ c ∈ d.classes, c.flags.isKnown = true
  method_flags : ∀ c ∈ d.classes, ∀ m ∈ c.methods, m.flags.isKnown = true

/-- A dex file can be read if each of its classes can. -/
theorem DexFile.readable_iff {d : DexFile} : d.Readable ↔ ∀ c ∈ d.classes, c.WellFormed := by
  constructor
  · intro h c hc
    refine ⟨h.classes _ (name_mem_definedClasses hc), h.class_flags c hc,
      fun s hs => h.classes _ (super_mem_definedClasses hc hs), fun m hm => ?_⟩
    have href := ref_mem_mentionedMethods hc hm
    refine ⟨⟨h.owners _ href, h.prototypes _ href⟩, h.method_flags c hc m hm, fun b hb i hi => ?_⟩
    have hmem := mem_instructions hc hm hb hi
    refine ⟨h.instances i hmem, fun r hr => ?_⟩
    have hcall := method?_mem_mentionedMethods hmem hr
    exact ⟨h.owners _ hcall, h.prototypes _ hcall⟩
  · intro h
    have hinstruction : ∀ i ∈ d.instructions, i.WellFormed := by
      intro i hi
      obtain ⟨c, hc, hi⟩ := List.mem_flatMap.mp hi
      obtain ⟨m, hm, hi⟩ := List.mem_flatMap.mp hi
      rw [Method.instructions] at hi
      split at hi
      · exact absurd hi List.not_mem_nil
      · rename_i b hb
        exact ((h c hc).methods m hm).body b hb i hi
    have hmethod : ∀ m ∈ d.mentionedMethods, m.WellFormed := by
      intro m hm
      rcases List.mem_append.mp hm with hm | hm
      · obtain ⟨c, hc, hm⟩ := List.mem_flatMap.mp hm
        obtain ⟨m', hm', rfl⟩ := List.mem_map.mp hm
        exact ((h c hc).methods m' hm').ref
      · obtain ⟨i, hi, hm⟩ := List.mem_filterMap.mp hm
        exact (hinstruction i hi).method m hm
    refine ⟨fun k hk => ?_, fun m hm => (hmethod m hm).owner, fun m hm => (hmethod m hm).prototype,
      fun i hi => (hinstruction i hi).type, fun c hc => (h c hc).flags,
      fun c hc m hm => ((h c hc).methods m hm).flags⟩
    obtain ⟨c, hc, hk⟩ := List.mem_flatMap.mp hk
    rcases List.mem_cons.mp hk with rfl | hk
    · exact (h c hc).name
    · exact (h c hc).super k (Option.mem_toList.mp hk)

instance (d : DexFile) : Decidable d.Readable :=
  decidable_of_iff (∀ c ∈ d.classes, c.WellFormed) DexFile.readable_iff.symm

/-! ## Storing a part -/

/-- The stored form of the body of a method, if it has one. -/
def Body.lowerIfAny (p : Pools) : Option Body → Except EncodeFailure (Option StoredBody)
  | none => .ok none
  | some b => (b.lower p).map some

theorem Method.lower_eq (p : Pools) (m : Method) :
    m.lower p = (do
      let body ← Body.lowerIfAny p m.body
      let ref ← p.indexOfMethod m.ref
      .ok ⟨ref, m.flags.bits, body⟩) := by
  obtain ⟨ref, flags, _ | b⟩ := m <;> rfl

theorem Body.lower_eq_ok_iff {p : Pools} {b : Body} {stored : StoredBody} :
    b.lower p = .ok stored ↔ ∃ instructions, lowerLines p b.lines = .ok instructions ∧
      stored = ⟨b.registers, b.ins, b.outs, instructions⟩ := by
  rw [lower, bind_eq_ok]
  exact exists_congr fun _ => and_congr_right fun _ => by rw [Except.ok.injEq, eq_comm]

theorem Body.lowerIfAny_eq_ok_iff {p : Pools} {body : Option Body} {stored : Option StoredBody} :
    lowerIfAny p body = .ok stored ↔ Option.Rel (fun b s => b.lower p = .ok s) body stored := by
  cases body with
  | none =>
    rw [lowerIfAny, Except.ok.injEq]
    exact ⟨fun h => h ▸ .none, fun h => by cases h; rfl⟩
  | some b =>
    rw [lowerIfAny, map_eq_ok]
    constructor
    · rintro ⟨s, hs, rfl⟩
      exact .some hs
    · intro h
      cases h with
      | some hs => exact ⟨_, hs, rfl⟩

theorem Method.lower_eq_ok_iff {p : Pools} {m : Method} {stored : StoredMethod} :
    m.lower p = .ok stored ↔ ∃ ref body, p.indexOfMethod m.ref = .ok ref ∧
      Option.Rel (fun b s => b.lower p = .ok s) m.body body ∧
      stored = ⟨ref, m.flags.bits, body⟩ := by
  rw [lower_eq]
  constructor
  · intro h
    obtain ⟨body, hbody, h⟩ := bind_eq_ok.mp h
    obtain ⟨ref, href, h⟩ := bind_eq_ok.mp h
    exact ⟨ref, body, href, Body.lowerIfAny_eq_ok_iff.mp hbody, (Except.ok.inj h).symm⟩
  · rintro ⟨ref, body, href, hbody, rfl⟩
    rw [Body.lowerIfAny_eq_ok_iff.mpr hbody, ok_bind, href, ok_bind]

theorem ClassDef.lower_eq_ok_iff {p : Pools} {c : ClassDef} {stored : StoredClass} :
    c.lower p = .ok stored ↔ ∃ type super methods,
      p.indexOfType c.name.descriptor = .ok type ∧ superIndex p c.super = .ok super ∧
      c.methods.mapM (·.lower p) = .ok methods ∧
      stored = ⟨type, c.flags.bits, super, methods⟩ := by
  constructor
  · intro h
    obtain ⟨methods, hmethods, h⟩ := bind_eq_ok.mp h
    obtain ⟨type, htype, h⟩ := bind_eq_ok.mp h
    obtain ⟨super, hsuper, h⟩ := bind_eq_ok.mp h
    exact ⟨type, super, methods, htype, hsuper, hmethods, (Except.ok.inj h).symm⟩
  · rintro ⟨type, super, methods, htype, hsuper, hmethods, rfl⟩
    rw [lower, hmethods, ok_bind, htype, ok_bind, hsuper, ok_bind]

/-! ## Reading the stored form of a part -/

theorem returnsWhen_knownFlags (word : UInt32) :
    ReturnsWhen (knownFlags word) (AccessFlags.isKnown ⟨word⟩ = true) ⟨word⟩ :=
  .of_ite rfl

theorem Body.returnsWhen_lift {p : Pools} {b : Body} {stored : StoredBody}
    (h : b.lower p = .ok stored) : ReturnsWhen (stored.lift p) b.WellFormed b.canonical := by
  obtain ⟨instructions, hlines, rfl⟩ := lower_eq_ok_iff.mp h
  exact (returnsWhen_liftLines hlines).bind_ok (Body.mk b.registers b.ins b.outs ·)

theorem Method.returnsWhen_lift {p : Pools} {m : Method} {stored : StoredMethod}
    (h : m.lower p = .ok stored) : ReturnsWhen (stored.lift p) m.WellFormed m.canonical := by
  obtain ⟨ref, body, href, hbody, rfl⟩ := lower_eq_ok_iff.mp h
  have hmethod := Pools.methodAt_of_indexOfMethod href
  have hflags := returnsWhen_knownFlags m.flags.bits
  obtain ⟨mref, flags, mbody⟩ := m
  cases hbody with
  | none =>
    refine (hmethod.bind (hflags.bind_ok (Method.mk mref · none))).congr ?_
    exact ⟨fun h => ⟨h.1, h.2, fun _ hb => (by cases hb)⟩, fun h => ⟨h.ref, h.flags⟩⟩
  | @some b storedBody hstored =>
    have hlift := Body.returnsWhen_lift hstored
    refine (hmethod.bind (hflags.bind (hlift.bind_ok (Method.mk mref flags <| some ·)))).congr ?_
    constructor
    · rintro ⟨hm, hf, hb⟩
      refine ⟨hm, hf, ?_⟩
      rintro _ ⟨⟩
      exact hb
    · exact fun h => ⟨h.ref, h.flags, h.body b rfl⟩

/-- No type has the index that stands for an absent super class. -/
theorem ne_noIndex_of_indexOfType {p : Pools} (hlen : p.types.length < 4294967296)
    {descriptor : String} {i : UInt32} (h : p.indexOfType descriptor = .ok i) :
    i ≠ StoredClass.noIndex := by
  obtain ⟨s, -, hi⟩ := bind_eq_ok.mp h
  obtain ⟨hlt, -⟩ := List.getElem?_eq_some_iff.mp (getElem?_of_poolIndex hi)
  rintro rfl
  have hnat : StoredClass.noIndex.toNat = 4294967295 := rfl
  omega

theorem returnsWhen_superAt {p : Pools} (hlen : p.types.length < 4294967296)
    {super : Option ClassName} {i : UInt32} (h : superIndex p super = .ok i) :
    ReturnsWhen (superAt p i) (∀ s, super = some s → s.text ≠ "") super := by
  cases super with
  | none =>
    obtain rfl := Except.ok.inj h
    exact (ReturnsWhen.of_ok (if_pos rfl)).congr ⟨fun _ _ h => (by cases h), fun _ => trivial⟩
  | some s =>
    rw [superAt, if_neg (ne_noIndex_of_indexOfType hlen h)]
    refine ((Pools.classAt_of_indexOfType h).map some).congr ?_
    constructor
    · rintro hs _ ⟨⟩
      exact hs
    · exact fun hs => hs s rfl

theorem ClassDef.returnsWhen_lift {p : Pools} (hlen : p.types.length < 4294967296)
    {c : ClassDef} {stored : StoredClass} (h : c.lower p = .ok stored) :
    ReturnsWhen (stored.lift p) c.WellFormed c.canonical := by
  obtain ⟨type, super, methods, htype, hsuper, hmethods, rfl⟩ := lower_eq_ok_iff.mp h
  have hlift := ReturnsWhen.mapM (f := (StoredMethod.lift p ·)) (g := Method.canonical)
    ((mapM_eq_ok_iff.mp hmethods).flip.imp fun _ _ => Method.returnsWhen_lift)
  refine ((Pools.classAt_of_indexOfType htype).bind ((returnsWhen_knownFlags c.flags.bits).bind
    ((returnsWhen_superAt hlen hsuper).bind
      (hlift.bind_ok (ClassDef.mk c.name c.flags c.super ·))))).congr ?_
  exact ⟨fun h => ⟨h.1, h.2.1, h.2.2.1, h.2.2.2⟩,
    fun h => ⟨h.name, h.flags, h.super, h.methods⟩⟩

/-! ## Containers of dex files -/

namespace Container

variable {d : DexFile} {c : Container}

theorem ofDexFile_eq_ok_iff :
    ofDexFile d = .ok c ↔ Pools.ofDexFile d = .ok c.pools ∧
      d.classes.mapM (·.lower c.pools) = .ok c.classes := by
  constructor
  · intro h
    obtain ⟨pools, hpools, h⟩ := bind_eq_ok.mp h
    obtain ⟨classes, hclasses, h⟩ := bind_eq_ok.mp h
    obtain rfl := Except.ok.inj h
    exact ⟨hpools, hclasses⟩
  · rintro ⟨hpools, hclasses⟩
    rw [ofDexFile, hpools, ok_bind, hclasses, ok_bind]

/-- Reading the container of a dex file returns it with canonical labels, if it is readable. -/
theorem returnsWhen_toDexFile (h : ofDexFile d = .ok c)
    (hlen : c.pools.types.length < 4294967296) :
    ReturnsWhen c.toDexFile d.Readable d.canonical := by
  obtain ⟨-, hclasses⟩ := ofDexFile_eq_ok_iff.mp h
  have hlift := ReturnsWhen.mapM (f := (StoredClass.lift c.pools ·)) (g := ClassDef.canonical)
    ((mapM_eq_ok_iff.mp hclasses).flip.imp fun _ _ => ClassDef.returnsWhen_lift hlen)
  exact (hlift.bind_ok DexFile.mk).congr DexFile.readable_iff.symm

end Container

/-! ## Images -/

/-- The allocator always hands out memory of the size it is asked for. -/
def Allocator.Exact (allocate : Allocator) : Prop :=
  ∀ size, ∃ contents, allocate size = .memory contents ∧ contents.length = size

theorem Allocator.heap_exact : Allocator.heap.Exact :=
  fun size => ⟨List.replicate size 0, rfl, List.length_replicate⟩

theorem Allocator.Exact.place_eq {allocate : Allocator} (h : allocate.Exact) (bytes : Bytes) :
    allocate.place bytes = .ok bytes := by
  obtain ⟨contents, hcontents, hlen⟩ := h bytes.length
  rw [place, hcontents]
  simp only [hlen, Nat.lt_irrefl, if_false]
  rw [List.drop_eq_nil_of_le (Nat.le_of_eq hlen), List.append_nil]

/-- In memory of the right size stands the image and nothing else. -/
theorem DexFile.encode_eq_image {allocate : Allocator} (h : allocate.Exact) (d : DexFile) :
    d.encode allocate = d.image := by
  rw [encode]
  cases d.image with
  | error e => rfl
  | ok bytes => exact h.place_eq bytes

theorem DexFile.image_eq_ok_iff {d : DexFile} {bytes : Bytes} :
    d.image = .ok bytes ↔ ∃ c, Container.ofDexFile d = .ok c ∧ c.render? = some bytes := by
  rw [image, bind_eq_ok]
  refine exists_congr fun c => and_congr_right fun _ => ?_
  cases c.render? with
  | none => simp
  | some bytes' => simp

/-! ## Finding a class -/

/-- Corresponding elements pass the tests at the same positions. -/
theorem findIdx?_congr {α β : Type} {f : α → Bool} {g : β → Bool} {xs : List α} {ys : List β}
    (h : List.Forall₂ (fun x y => f x = g y) xs ys) : xs.findIdx? f = ys.findIdx? g := by
  induction h with
  | nil => rfl
  | cons hxy _ ih => rw [List.findIdx?_cons, List.findIdx?_cons, hxy, ih]

/-- Among strings that differ, a descriptor has one type. -/
theorem Pools.findType?_of_indexOfType {p : Pools} (hnodup : p.strings.Nodup)
    {descriptor : String} {i : UInt32} (h : p.indexOfType descriptor = .ok i) :
    p.findType? descriptor = some i.toNat := by
  obtain ⟨s, hs, hi⟩ := bind_eq_ok.mp h
  have hstring := getElem?_of_poolIndex hs
  have htest : ∀ j : UInt32, decide (p.strings[j.toNat]? = some descriptor) = (j == s) := by
    intro j
    rw [Bool.eq_iff_iff, decide_eq_true_iff, beq_iff_eq]
    constructor
    · intro hj
      obtain ⟨hlt, hget⟩ := List.getElem?_eq_some_iff.mp hj
      obtain ⟨hlt', hget'⟩ := List.getElem?_eq_some_iff.mp hstring
      exact UInt32.toNat_inj.mp ((hnodup.getElem_inj_iff).mp (hget.trans hget'.symm))
    · rintro rfl
      exact hstring
  rw [findType?, funext htest]
  exact poolIndex_eq_ok_iff.mp hi

/-- Classes with the same index are the same. -/
theorem Pools.className_inj {p : Pools} {a b : ClassName} {i : UInt32}
    (ha : p.indexOfType a.descriptor = .ok i) (hb : p.indexOfType b.descriptor = .ok i) :
    a = b :=
  ClassName.descriptor_injective
    (Except.ok.inj ((descriptorAt_of_indexOfType ha).symm.trans (descriptorAt_of_indexOfType hb)))

namespace Container

variable {d : DexFile} {c : Container}

/-- In the container of a dex file a class is found where the dex file defines it first. -/
theorem classIndex?_eq (h : ofDexFile d = .ok c) {name : ClassName}
    (hname : name ∈ d.definedClasses) :
    c.classIndex? name = d.classes.findIdx? (·.name = name) := by
  obtain ⟨hpools, hclasses⟩ := ofDexFile_eq_ok_iff.mp h
  have hbuilt := Pools.builtFrom_of_ofDexFile hpools
  obtain ⟨i, hi⟩ := hbuilt.exists_indexOfType (DexFile.class_mem_mentionedDescriptors hname)
  rw [classIndex?, Pools.findType?_of_indexOfType hbuilt.nodup hi]
  refine (findIdx?_congr ((mapM_eq_ok_iff.mp hclasses).imp fun k stored hk => ?_)).symm
  obtain ⟨_, -, hk⟩ := bind_eq_ok.mp hk
  obtain ⟨type, htype, hk⟩ := bind_eq_ok.mp hk
  obtain ⟨_, -, hk⟩ := bind_eq_ok.mp hk
  obtain rfl := Except.ok.inj hk
  rw [Bool.eq_iff_iff, decide_eq_true_iff, decide_eq_true_iff, UInt32.toNat_inj]
  constructor
  · rintro rfl
    exact Except.ok.inj (htype.symm.trans hi)
  · rintro rfl
    exact Pools.className_inj htype hi

/-- Reading one class of the container returns the first one of its name, with canonical
labels. -/
theorem exists_classDefAt (h : ofDexFile d = .ok c) (hlen : c.pools.types.length < 4294967296)
    (hreadable : d.Readable) {k : ClassDef} (hk : k ∈ d.classes) :
    ∃ position definition, c.classIndex? k.name = some position ∧
      c.classDefAt position = .ok definition ∧
      d.canonical.class? k.name = some definition := by
  have hname := DexFile.name_mem_definedClasses hk
  obtain ⟨-, hclasses⟩ := ofDexFile_eq_ok_iff.mp h
  obtain ⟨first, hfirst⟩ : ∃ first, d.classes.find? (·.name = k.name) = some first :=
    Option.isSome_iff_exists.mp (List.find?_isSome.mpr ⟨k, hk, decide_eq_true rfl⟩)
  have hposition := hfirst
  rw [List.find?_eq_bind_findIdx?_getElem?] at hposition
  obtain ⟨position, hindex, hget⟩ := Option.bind_eq_some_iff.mp hposition
  obtain ⟨hlt, rfl⟩ := List.getElem?_eq_some_iff.mp hget
  have hlt' : position < c.classes.length := by rw [length_of_mapM hclasses]; exact hlt
  have hlift := ClassDef.returnsWhen_lift hlen (getElem_of_mapM hclasses hlt hlt')
  refine ⟨position, d.classes[position].canonical, (classIndex?_eq h hname).trans hindex, ?_, ?_⟩
  · rw [classDefAt, List.getElem?_eq_getElem hlt']
    exact hlift.eq_ok (DexFile.readable_iff.mp hreadable _ (List.getElem_mem hlt))
  · rw [DexFile.class?, DexFile.canonical, List.find?_map]
    exact congrArg (Option.map ClassDef.canonical) hfirst

end Container

/-! ## The way there and back -/

namespace DexFile

/-- A dex file that was stored is a container.  Reading it returns the dex file with canonical
labels exactly if it is readable, and fails otherwise; reading one of its classes returns the
first definition of that name. -/
theorem parse_of_encode {d : DexFile} {bytes : Bytes}
    (h : d.encode Allocator.heap = .ok bytes) :
    ∃ c, Container.parse bytes = .ok c ∧
      (c.toDexFile = .ok d.canonical ↔ d.Readable) ∧
      (¬ d.Readable → ∃ e, c.toDexFile = .error e) ∧
      (d.Readable → ∀ k ∈ d.classes, ∃ definition,
        d.canonical.class? k.name = some definition ∧
        decode bytes k.name = .ok ⟨[definition]⟩) := by
  rw [encode_eq_image Allocator.heap_exact] at h
  obtain ⟨c, hc, hrender⟩ := image_eq_ok_iff.mp h
  obtain ⟨hfits, rfl⟩ := Container.render?_eq_some_iff.mp hrender
  have hparse := Container.parse_eq_ok_iff.mpr ⟨hfits, rfl⟩
  have hreturns := Container.returnsWhen_toDexFile hc hfits.pools.types_length
  refine ⟨c, hparse, ?_, hreturns.exists_error, fun hreadable k hk => ?_⟩
  · rw [hreturns d.canonical, and_iff_left rfl]
  · obtain ⟨position, definition, hindex, hdefinition, hclass⟩ :=
      Container.exists_classDefAt hc hfits.pools.types_length hreadable hk
    refine ⟨definition, hclass, ?_⟩
    rw [decode, hparse, ok_bind]
    simp only [hindex, hdefinition, ok_bind]

/-- A class with a loop.  Two labels stand before the first instruction; one label is not used,
and one stands behind the last instruction. -/
def loop : DexFile :=
  ⟨[{ name := ⟨"A"⟩, flags := ⟨1⟩, super := some .javaLangObject
      methods := [{
        ref := ⟨⟨"A"⟩, "run", ⟨[], .void⟩⟩, flags := ⟨9⟩
        body := some ⟨1, 0, 0,
          [.label ⟨7⟩, .label ⟨3⟩, .instruction .nop, .label ⟨5⟩,
           .instruction (.branchZero .eq ⟨0⟩ ⟨3⟩), .instruction (.goto ⟨7⟩),
           .instruction .returnVoid, .label ⟨9⟩]⟩ }] }]⟩

theorem parse_of_encode_loop :
    ∃ bytes c, loop.encode Allocator.heap = .ok bytes ∧ Container.parse bytes = .ok c ∧
      c.toDexFile = .ok loop.canonical ∧ decode bytes ⟨"A"⟩ = .ok loop.canonical := by
  obtain ⟨bytes, hbytes⟩ : ∃ bytes, loop.encode Allocator.heap = .ok bytes :=
    exists_ok_of_isOk (by decide +kernel)
  obtain ⟨c, hparse, hread, -, hdecode⟩ := parse_of_encode hbytes
  have hreadable : loop.Readable := by decide +kernel
  obtain ⟨definition, hclass, hdefinition⟩ := hdecode hreadable _ List.mem_cons_self
  have hcanonical : loop.canonical = ⟨[definition]⟩ := by
    obtain rfl := Option.some.inj hclass
    rfl
  exact ⟨bytes, c, hbytes, hparse, hread.mpr hreadable, hcanonical ▸ hdefinition⟩

end DexFile

end DexWeave
