/-
  DexWeave/Proofs/ReadFrom.lean --- dex files that were read.

  WHAT THIS FILE IS FOR.  A container may come from anywhere: its pools need no order, may
  repeat themselves and may hold what nothing refers to.  A dex file read from it is still
  fit to be stored: its labels are canonical, what it mentions can be read back, and its
  pools are no larger than those it was read from.

  HOW.  Each mention of the dex file was looked up somewhere in the container, so distinct
  mentions come from distinct entries of its pools.
-/
import DexWeave.Proofs.Encodable

set_option autoImplicit false

namespace DexWeave

open Fallible

/-- Distinct values that were each read from an entry are no more than the entries. -/
theorem length_dedup_le_of_reads {ε α β : Type} [DecidableEq β] {f : α → Except ε β}
    {pool : List α} {xs : List β} (h : ∀ x ∈ xs, ∃ a ∈ pool, f a = .ok x) :
    xs.dedup.length ≤ pool.length := by
  have hsub : xs.dedup ⊆ pool.filterMap fun a => (f a).toOption := by
    intro x hx
    obtain ⟨a, ha, hax⟩ := h x (List.mem_dedup.mp hx)
    exact List.mem_filterMap.mpr ⟨a, ha, by rw [hax]; rfl⟩
  exact Nat.le_trans ((List.nodup_dedup xs).length_le_of_subset hsub) (List.length_filterMap_le _ _)

/-! ## Looking up -/

namespace Pools

variable {p : Pools} {i : UInt32}

theorem mem_of_entry {α : Type} {kind : PoolKind} {pool : List α} {a : α}
    (h : entry kind pool i = .ok a) : a ∈ pool :=
  List.mem_of_getElem? (entry_eq_ok_iff.mp h)

theorem descriptorAt_of_classAt {c : ClassName} (h : p.classAt i = .ok c) :
    p.descriptorAt i = .ok c.descriptor ∧ c.text ≠ "" := by
  obtain ⟨s, hs, h⟩ := bind_eq_ok.mp h
  split at h
  · rename_i hc
    obtain rfl := Except.ok.inj h
    obtain ⟨rfl, hne⟩ := ClassName.eq_of_ofDescriptor? hc
    exact ⟨hs, hne⟩
  · cases h

theorem descriptorAt_of_valueTypeAt {t : ValueType} (h : p.valueTypeAt i = .ok t) :
    p.descriptorAt i = .ok t.descriptor ∧ t.WellFormed := by
  obtain ⟨s, hs, h⟩ := bind_eq_ok.mp h
  split at h
  · rename_i ht
    obtain rfl := Except.ok.inj h
    obtain ⟨hgood, rfl⟩ := ValueType.ofDescriptor?_eq_some_iff.mp ht
    exact ⟨hs, hgood⟩
  · cases h

theorem descriptorAt_of_resultTypeAt {r : ResultType} (h : p.resultTypeAt i = .ok r) :
    p.descriptorAt i = .ok r.descriptor ∧ r.WellFormed := by
  obtain ⟨s, hs, h⟩ := bind_eq_ok.mp h
  split at h
  · rename_i hr
    obtain rfl := Except.ok.inj h
    obtain ⟨hgood, rfl⟩ := ResultType.ofDescriptor?_eq_some_iff.mp hr
    exact ⟨hs, hgood⟩
  · cases h

/-- The descriptor is one that the type pool holds. -/
def HoldsDescriptor (p : Pools) (s : String) : Prop := ∃ i, p.descriptorAt i = .ok s

theorem HoldsDescriptor.exists_type {s : String} (h : p.HoldsDescriptor s) :
    ∃ t ∈ p.types, p.stringAt t = .ok s := by
  obtain ⟨i, hi⟩ := h
  obtain ⟨t, ht, hs⟩ := bind_eq_ok.mp hi
  exact ⟨t, mem_of_entry ht, hs⟩

theorem HoldsDescriptor.mem_strings {s : String} (h : p.HoldsDescriptor s) : s ∈ p.strings := by
  obtain ⟨t, -, hs⟩ := h.exists_type
  exact mem_of_entry hs

/-- The prototype an entry of the pool stands for. -/
def readProto (p : Pools) (stored : StoredProto) : Except DecodeError Prototype := do
  let result ← p.resultTypeAt stored.result
  let parameters ← stored.parameters.mapM p.valueTypeAt
  .ok ⟨parameters, result⟩

/-- The method an entry of the pool stands for. -/
def readMethod (p : Pools) (stored : StoredMethodId) : Except DecodeError MethodRef := do
  let owner ← p.classAt stored.owner
  let name ← p.stringAt stored.name
  let prototype ← p.prototypeAt stored.proto
  .ok ⟨owner, name, prototype⟩

theorem length_of_readProto {stored : StoredProto} {m : Prototype}
    (h : p.readProto stored = .ok m) : stored.parameters.length = m.parameters.length := by
  obtain ⟨result, -, h⟩ := bind_eq_ok.mp h
  obtain ⟨parameters, hparameters, h⟩ := bind_eq_ok.mp h
  obtain rfl := Except.ok.inj h
  exact (length_of_mapM hparameters).symm

/-- What a prototype that was looked up consists of. -/
structure HoldsProto (p : Pools) (m : Prototype) : Prop where
  wellFormed : m.WellFormed
  result : p.HoldsDescriptor m.result.descriptor
  parameters : ∀ t ∈ m.parameters, p.HoldsDescriptor t.descriptor
  entry : ∃ stored ∈ p.protos, p.readProto stored = .ok m

theorem holdsProto_of_prototypeAt {m : Prototype} (h : p.prototypeAt i = .ok m) :
    p.HoldsProto m := by
  obtain ⟨stored, hstored, hread⟩ := bind_eq_ok.mp h
  obtain ⟨result, hresult, h⟩ := bind_eq_ok.mp hread
  obtain ⟨parameters, hparameters, h⟩ := bind_eq_ok.mp h
  obtain rfl := Except.ok.inj h
  have hparameter : ∀ t ∈ parameters, p.HoldsDescriptor t.descriptor ∧ t.WellFormed := by
    intro t ht
    obtain ⟨j, -, hj⟩ := exists_of_mem_result hparameters ht
    exact ⟨⟨j, (descriptorAt_of_valueTypeAt hj).1⟩, (descriptorAt_of_valueTypeAt hj).2⟩
  obtain ⟨hdescriptor, hgood⟩ := descriptorAt_of_resultTypeAt hresult
  exact ⟨⟨fun t ht => (hparameter t ht).2, hgood⟩, ⟨_, hdescriptor⟩,
    fun t ht => (hparameter t ht).1, stored, mem_of_entry hstored, hread⟩

/-- What a method that was looked up consists of. -/
structure HoldsMethod (p : Pools) (m : MethodRef) : Prop where
  owner_ne : m.owner.text ≠ ""
  owner : p.HoldsDescriptor m.owner.descriptor
  name : m.name ∈ p.strings
  proto : p.HoldsProto m.prototype
  entry : ∃ stored ∈ p.methods, p.readMethod stored = .ok m

theorem holdsMethod_of_methodAt {m : MethodRef} (h : p.methodAt i = .ok m) : p.HoldsMethod m := by
  obtain ⟨stored, hstored, hread⟩ := bind_eq_ok.mp h
  obtain ⟨owner, howner, h⟩ := bind_eq_ok.mp hread
  obtain ⟨name, hname, h⟩ := bind_eq_ok.mp h
  obtain ⟨prototype, hprototype, h⟩ := bind_eq_ok.mp h
  obtain rfl := Except.ok.inj h
  obtain ⟨hdescriptor, hne⟩ := descriptorAt_of_classAt howner
  exact ⟨hne, ⟨_, hdescriptor⟩, mem_of_entry hname, holdsProto_of_prototypeAt hprototype,
    stored, mem_of_entry hstored, hread⟩

theorem HoldsMethod.descriptor {m : MethodRef} (h : p.HoldsMethod m) {s : String}
    (hs : s ∈ m.descriptors) : p.HoldsDescriptor s := by
  rcases List.mem_cons.mp hs with rfl | hs
  · exact h.owner
  · rcases List.mem_cons.mp hs with rfl | hs
    · exact h.proto.result
    · obtain ⟨t, ht, rfl⟩ := List.mem_map.mp hs
      exact h.proto.parameters t ht

end Pools

/-! ## Reading a definition -/

/-- What an instruction that was read refers to. -/
structure Pools.HoldsInstruction (p : Pools) (i : SymbolicInstruction) : Prop where
  text : ∀ s, i.text? = some s → s ∈ p.strings
  type : ∀ t, i.type? = some t → p.HoldsDescriptor t.descriptor ∧ t.WellFormed
  method : ∀ m, i.method? = some m → p.HoldsMethod m

theorem holdsInstruction_of_liftLines {p : Pools} {body : List StoredInstruction}
    {lines : List Line} (h : liftLines p body = .ok lines) {i : SymbolicInstruction}
    (hi : i ∈ instructionsOf lines) :
    p.HoldsInstruction i ∧ ∃ stored ∈ body, i.arguments = stored.arguments := by
  obtain ⟨code, hcode, rfl⟩ := liftLines_eq_ok_iff.mp h
  rw [instructionsOf_linesOf] at hi
  obtain ⟨s, hs, rfl⟩ := List.mem_map.mp hi
  obtain ⟨⟨r, position⟩, hr, rfl⟩ := List.mem_map.mp hs
  obtain ⟨⟨stored, position'⟩, hstored, hr⟩ :=
    exists_of_mem_result hcode (List.fst_mem_of_mem_zipIdx hr)
  rw [instruction_canonicalStep]
  refine ⟨⟨fun s hs => ?_, fun t ht => ?_, fun m hm => ?_⟩, stored,
    List.fst_mem_of_mem_zipIdx hstored, ?_⟩
  · rw [Instruction.text?_mapTarget] at hs
    obtain ⟨n, -, hn⟩ := Instruction.text?_of_traverse hr hs
    exact Pools.mem_of_entry hn
  · rw [Instruction.type?_mapTarget] at ht
    obtain ⟨n, -, hn⟩ := Instruction.type?_of_traverse hr ht
    exact ⟨⟨n, (Pools.descriptorAt_of_valueTypeAt hn).1⟩, (Pools.descriptorAt_of_valueTypeAt hn).2⟩
  · rw [Instruction.method?_mapTarget] at hm
    obtain ⟨n, -, hn⟩ := Instruction.method?_of_traverse hr hm
    exact Pools.holdsMethod_of_methodAt hn
  · rw [Instruction.arguments_mapTarget]
    exact Instruction.arguments_of_traverse hr

theorem isKnown_of_knownFlags {word : UInt32} {f : AccessFlags} (h : knownFlags word = .ok f) :
    f.isKnown = true := by
  obtain ⟨hknown, rfl⟩ := (returnsWhen_knownFlags word f).mp h
  exact hknown

/-- What a method that was read consists of. -/
structure Method.LiftedFrom (m : Method) (p : Pools) (stored : StoredMethod) : Prop where
  ref : p.HoldsMethod m.ref
  flags : m.flags.isKnown = true
  body : ∀ b, m.body = some b → ∃ s, stored.body = some s ∧ liftLines p s.instructions = .ok b.lines

theorem Method.liftedFrom_of_lift {p : Pools} {stored : StoredMethod} {m : Method}
    (h : stored.lift p = .ok m) : m.LiftedFrom p stored := by
  obtain ⟨ref, href, h⟩ := bind_eq_ok.mp h
  obtain ⟨flags, hflags, h⟩ := bind_eq_ok.mp h
  have hholds := Pools.holdsMethod_of_methodAt href
  have hknown := isKnown_of_knownFlags hflags
  split at h
  · obtain rfl := Except.ok.inj h
    exact ⟨hholds, hknown, fun _ hb => (by cases hb)⟩
  · rename_i s hs
    obtain ⟨b, hb, h⟩ := bind_eq_ok.mp h
    obtain rfl := Except.ok.inj h
    obtain ⟨lines, hlines, hb⟩ := bind_eq_ok.mp hb
    obtain rfl := Except.ok.inj hb
    refine ⟨hholds, hknown, ?_⟩
    rintro _ ⟨⟩
    exact ⟨s, hs, hlines⟩

/-- What a class that was read consists of. -/
structure ClassDef.LiftedFrom (c : ClassDef) (p : Pools) (stored : StoredClass) : Prop where
  name : p.classAt stored.type = .ok c.name
  flags : c.flags.isKnown = true
  super : ∀ s, c.super = some s → ∃ i, p.classAt i = .ok s
  methods : stored.methods.mapM (·.lift p) = .ok c.methods

theorem ClassDef.liftedFrom_of_lift {p : Pools} {stored : StoredClass} {c : ClassDef}
    (h : stored.lift p = .ok c) : c.LiftedFrom p stored := by
  obtain ⟨name, hname, h⟩ := bind_eq_ok.mp h
  obtain ⟨flags, hflags, h⟩ := bind_eq_ok.mp h
  obtain ⟨super, hsuper, h⟩ := bind_eq_ok.mp h
  obtain ⟨methods, hmethods, h⟩ := bind_eq_ok.mp h
  obtain rfl := Except.ok.inj h
  refine ⟨hname, isKnown_of_knownFlags hflags, fun s hs => ?_, hmethods⟩
  rw [superAt] at hsuper
  split at hsuper
  · obtain rfl := Except.ok.inj hsuper
    cases hs
  · obtain ⟨k, hk, rfl⟩ := map_eq_ok.mp hsuper
    obtain rfl := Option.some.inj hs
    exact ⟨_, hk⟩

/-! ## Dex files that were read -/

/-- The definitions of the dex file were read from definitions of the container. -/
structure DexFile.ReadFrom (d : DexFile) (c : Container) : Prop where
  fits : c.Fits
  classes : ∃ stored : List StoredClass, (∀ s ∈ stored, s ∈ c.classes) ∧
    stored.length ≤ c.classes.length ∧ stored.mapM (·.lift c.pools) = .ok d.classes

theorem DexFile.readFrom_of_toDexFile {bs : Bytes} {c : Container} {d : DexFile}
    (hparse : Container.parse bs = .ok c) (h : c.toDexFile = .ok d) : d.ReadFrom c := by
  obtain ⟨classes, hclasses, h⟩ := bind_eq_ok.mp h
  obtain rfl := Except.ok.inj h
  have hfits := (Container.parse_eq_ok_iff.mp hparse).1
  exact ⟨hfits, c.classes, fun _ hs => hs, Nat.le_refl _, hclasses⟩

/-- The definition found for a name has the descriptor of that name. -/
theorem Container.descriptorAt_of_classIndex? {c : Container} {name : ClassName} {position : Nat}
    (h : c.classIndex? name = some position) {stored : StoredClass}
    (hstored : c.classes[position]? = some stored) :
    c.pools.descriptorAt stored.type = .ok name.descriptor := by
  obtain ⟨type, htype, hposition⟩ := Option.bind_eq_some_iff.mp h
  obtain ⟨hlt, htest, -⟩ := List.findIdx?_eq_some_iff_getElem.mp hposition
  obtain ⟨hltType, hstring, -⟩ := List.findIdx?_eq_some_iff_getElem.mp htype
  rw [List.getElem?_eq_getElem hlt] at hstored
  obtain rfl := Option.some.inj hstored
  obtain rfl := of_decide_eq_true htest
  rw [Pools.descriptorAt, Pools.entry_eq_ok (List.getElem?_eq_getElem hltType), ok_bind]
  exact Pools.entry_eq_ok (of_decide_eq_true hstring)

/-- The class of a name is read as a dex file with one definition, of that name. -/
theorem DexFile.readFrom_of_decode {bs : Bytes} {name : ClassName} {d : DexFile}
    (h : decode bs name = .ok d) :
    ∃ c k, Container.parse bs = .ok c ∧ d = ⟨[k]⟩ ∧ k.name = name ∧ d.ReadFrom c := by
  obtain ⟨c, hparse, h⟩ := bind_eq_ok.mp h
  split at h
  · cases h
  · rename_i position hposition
    obtain ⟨k, hk, h⟩ := bind_eq_ok.mp h
    obtain rfl := Except.ok.inj h
    rw [Container.classDefAt] at hk
    split at hk
    · rename_i stored hstored
      have hmem := List.mem_of_getElem? hstored
      refine ⟨c, k, hparse, rfl, ?_, (Container.parse_eq_ok_iff.mp hparse).1, [stored],
        fun s hs => List.mem_singleton.mp hs ▸ hmem, List.length_pos_of_mem hmem, ?_⟩
      · have hname := (ClassDef.liftedFrom_of_lift hk).name
        have hdescriptor := Container.descriptorAt_of_classIndex? hposition hstored
        exact ClassName.descriptor_injective (Except.ok.inj
          ((Pools.descriptorAt_of_classAt hname).1.symm.trans hdescriptor))
      · rw [List.mapM_cons, hk]
        rfl
    · cases hk

namespace DexFile.ReadFrom

variable {d : DexFile} {c : Container}

/-- Every definition was read from one of the container. -/
theorem exists_class (h : d.ReadFrom c) {k : ClassDef} (hk : k ∈ d.classes) :
    ∃ stored ∈ c.classes, k.LiftedFrom c.pools stored := by
  obtain ⟨all, hsub, -, hall⟩ := h.classes
  obtain ⟨stored, hstored, hlift⟩ := exists_of_mem_result hall hk
  exact ⟨stored, hsub stored hstored, ClassDef.liftedFrom_of_lift hlift⟩

theorem exists_method (h : d.ReadFrom c) {k : ClassDef} (hk : k ∈ d.classes) {m : Method}
    (hm : m ∈ k.methods) : ∃ stored : StoredMethod, stored.Fits ∧
      m.LiftedFrom c.pools stored := by
  obtain ⟨stored, hstored, hclass⟩ := h.exists_class hk
  obtain ⟨storedMethod, hmem, hlift⟩ := exists_of_mem_result hclass.methods hm
  exact ⟨storedMethod, (h.fits.classes stored hstored).methods storedMethod hmem,
    Method.liftedFrom_of_lift hlift⟩

theorem exists_body (h : d.ReadFrom c) {b : Body} (hb : b ∈ d.bodies) :
    ∃ stored : StoredBody, stored.Fits ∧
      liftLines c.pools stored.instructions = .ok b.lines := by
  obtain ⟨k, hk, m, hm, hmb⟩ := mem_bodies.mp hb
  obtain ⟨stored, hfits, hmethod⟩ := h.exists_method hk hm
  obtain ⟨body, hbody, hlines⟩ := hmethod.body b hmb
  exact ⟨body, hfits body hbody, hlines⟩

/-- Every body that was read is canonical. -/
theorem isCanonical (h : d.ReadFrom c) {b : Body} (hb : b ∈ d.bodies) : IsCanonical b.lines := by
  obtain ⟨stored, hfits, hlines⟩ := h.exists_body hb
  exact isCanonical_of_liftLines hlines (Nat.le_of_lt hfits.length)

theorem holdsInstruction (h : d.ReadFrom c) {i : SymbolicInstruction} (hi : i ∈ d.instructions) :
    c.pools.HoldsInstruction i ∧ i.arguments.length < 256 := by
  obtain ⟨b, hb, hi⟩ := mem_instructions_iff.mp hi
  obtain ⟨stored, hfits, hlines⟩ := h.exists_body hb
  obtain ⟨hholds, j, hj, hij⟩ := holdsInstruction_of_liftLines hlines hi
  exact ⟨hholds, hij ▸ hfits.instructions j hj⟩

theorem holdsMethod (h : d.ReadFrom c) {m : MethodRef} (hm : m ∈ d.mentionedMethods) :
    c.pools.HoldsMethod m := by
  rcases List.mem_append.mp hm with hm | hm
  · obtain ⟨k, hk, hm⟩ := List.mem_flatMap.mp hm
    obtain ⟨m', hm', rfl⟩ := List.mem_map.mp hm
    obtain ⟨stored, -, hmethod⟩ := h.exists_method hk hm'
    exact hmethod.ref
  · obtain ⟨i, hi, hm⟩ := List.mem_filterMap.mp hm
    exact (h.holdsInstruction hi).1.method m hm

theorem exists_classAt (h : d.ReadFrom c) {k : ClassName} (hk : k ∈ d.definedClasses) :
    ∃ i, c.pools.classAt i = .ok k := by
  obtain ⟨definition, hdefinition, hk⟩ := List.mem_flatMap.mp hk
  obtain ⟨stored, -, hclass⟩ := h.exists_class hdefinition
  rcases List.mem_cons.mp hk with rfl | hk
  · exact ⟨_, hclass.name⟩
  · exact hclass.super k (Option.mem_toList.mp hk)

/-- A dex file that was read can be read again. -/
theorem readable (h : d.ReadFrom c) : d.Readable where
  classes := by
    intro k hk
    obtain ⟨i, hi⟩ := h.exists_classAt hk
    exact (Pools.descriptorAt_of_classAt hi).2
  owners := fun m hm => (h.holdsMethod hm).owner_ne
  prototypes := fun m hm => (h.holdsMethod hm).proto.wellFormed
  instances := fun i hi t ht => ((h.holdsInstruction hi).1.type t ht).2
  class_flags := by
    intro k hk
    obtain ⟨stored, -, hclass⟩ := h.exists_class hk
    exact hclass.flags
  method_flags := by
    intro k hk m hm
    obtain ⟨stored, -, hmethod⟩ := h.exists_method hk hm
    exact hmethod.flags

/-! ## Sizes of what was read -/

theorem holdsDescriptor (h : d.ReadFrom c) {s : String} (hs : s ∈ d.mentionedDescriptors) :
    c.pools.HoldsDescriptor s := by
  rcases List.mem_append.mp hs with hs | hs
  · rcases List.mem_append.mp hs with hs | hs
    · obtain ⟨k, hk, rfl⟩ := List.mem_map.mp hs
      obtain ⟨i, hi⟩ := h.exists_classAt hk
      exact ⟨i, (Pools.descriptorAt_of_classAt hi).1⟩
    · obtain ⟨m, hm, hs⟩ := List.mem_flatMap.mp hs
      exact (h.holdsMethod hm).descriptor hs
  · obtain ⟨t, ht, rfl⟩ := List.mem_map.mp hs
    obtain ⟨i, hi, ht⟩ := List.mem_filterMap.mp ht
    exact ((h.holdsInstruction hi).1.type t ht).1

theorem mem_strings (h : d.ReadFrom c) {s : String} (hs : s ∈ d.mentionedStrings) :
    s ∈ c.pools.strings := by
  rcases List.mem_append.mp hs with hs | hs
  · rcases List.mem_append.mp hs with hs | hs
    · obtain ⟨i, hi, hs⟩ := List.mem_filterMap.mp hs
      exact (h.holdsInstruction hi).1.text s hs
    · obtain ⟨m, hm, rfl⟩ := List.mem_map.mp hs
      exact (h.holdsMethod hm).name
  · exact (h.holdsDescriptor hs).mem_strings

/-- Distinct mentions were read from distinct entries. -/
theorem poolsBelow (h : d.ReadFrom c) : d.PoolsBelow 4294967296 where
  strings := by
    refine Nat.lt_of_le_of_lt ?_ h.fits.pools.strings_length
    exact (List.nodup_dedup _).length_le_of_subset fun s hs =>
      h.mem_strings (List.mem_dedup.mp hs)
  types := by
    refine Nat.lt_of_le_of_lt ?_ h.fits.pools.types_length
    exact length_dedup_le_of_reads (f := c.pools.stringAt) fun s hs =>
      (h.holdsDescriptor hs).exists_type
  protos := by
    refine Nat.lt_of_le_of_lt ?_ h.fits.pools.protos_length
    refine length_dedup_le_of_reads (f := c.pools.readProto) fun m hm => ?_
    obtain ⟨r, hr, rfl⟩ := List.mem_map.mp hm
    exact (h.holdsMethod hr).proto.entry
  methods := by
    refine Nat.lt_of_le_of_lt ?_ h.fits.pools.methods_length
    exact length_dedup_le_of_reads (f := c.pools.readMethod) fun m hm => (h.holdsMethod hm).entry

theorem entriesFit (h : d.ReadFrom c) : d.EntriesFit where
  texts := fun s hs => h.fits.pools.strings s (h.mem_strings hs)
  parameters := by
    intro m hm
    obtain ⟨stored, hmem, hread⟩ := (h.holdsMethod hm).proto.entry
    rw [← Pools.length_of_readProto hread]
    exact h.fits.pools.protos stored hmem
  arguments := fun i hi => (h.holdsInstruction hi).2

theorem length_methods_lt (h : d.ReadFrom c) {k : ClassDef} (hk : k ∈ d.classes) :
    k.methods.length < 4294967296 := by
  obtain ⟨stored, hmem, hclass⟩ := h.exists_class hk
  rw [length_of_mapM hclass.methods]
  exact (h.fits.classes stored hmem).length

/-- A dex file that was read fits, if its bodies are not too long for distances. -/
theorem fits_of_bodies (h : d.ReadFrom c)
    (hbodies : ∀ b ∈ d.bodies, (instructionsOf b.lines).length ≤ 2147483648) : d.Fits where
  toEntriesFit := h.entriesFit
  pools := h.poolsBelow
  classes := by
    obtain ⟨stored, -, hlen, hlift⟩ := h.classes
    rw [length_of_mapM hlift]
    exact Nat.lt_of_le_of_lt hlen h.fits.length
  methods := fun _ hk => h.length_methods_lt hk
  bodies := hbodies

theorem labelsPlaced (h : d.ReadFrom c) : d.LabelsPlaced :=
  fun _ hb => (h.isCanonical hb).labelsPlaced

end DexFile.ReadFrom

end DexWeave
