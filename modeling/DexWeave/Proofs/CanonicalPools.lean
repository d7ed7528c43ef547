/-
  DexWeave/Proofs/CanonicalPools.lean --- the pools of a stored dex file.

  WHAT THIS FILE IS FOR.  What a dex file mentions is described place by place, without the
  lists that the pools are built from.  The pools that are stored hold exactly that, each
  item once, and every pool strictly ascends: strings by their bytes, types by the position
  of their descriptors, prototypes by result and parameters, methods by owner, name and
  prototype.

  ONE ITEM, ONE ENTRY.  An entry of a later pool is made of positions in the earlier ones,
  so that it stands for one item, and that it is the only one that does, follows from pool
  to pool: from the strings to the types, then to the prototypes, then to the methods.

  WHAT FOLLOWS.  Pools of this kind are determined by what is mentioned.  Dex files that
  mention the same are stored with the same bytes for their pools.
-/
import DexWeave.Proofs.DexRoundTrip
import DexWeave.Proofs.TextOrder

set_option autoImplicit false

namespace DexWeave

open Fallible

/-! ## What a dex file mentions -/

namespace DexFile

variable {d : DexFile}

/-- The methods that are declared or invoked. -/
inductive MentionsMethod (d : DexFile) : MethodRef → Prop where
  | declared (c : ClassDef) (hc : c ∈ d.classes) (m : Method) (hm : m ∈ c.methods) :
    MentionsMethod d m.ref
  | invoked (kind : InvokeKind) (m : MethodRef) (args : List Register)
    (h : .invoke kind m args ∈ d.instructions) : MentionsMethod d m

/-- The descriptors of the types that occur. -/
inductive MentionsDescriptor (d : DexFile) : String → Prop where
  | defined (c : ClassDef) (hc : c ∈ d.classes) : MentionsDescriptor d c.name.descriptor
  | super (c : ClassDef) (hc : c ∈ d.classes) (s : ClassName) (hs : c.super = some s) :
    MentionsDescriptor d s.descriptor
  | owner (m : MethodRef) (hm : d.MentionsMethod m) : MentionsDescriptor d m.owner.descriptor
  | parameter (m : MethodRef) (hm : d.MentionsMethod m) (t : ValueType)
    (ht : t ∈ m.prototype.parameters) : MentionsDescriptor d t.descriptor
  | result (m : MethodRef) (hm : d.MentionsMethod m) :
    MentionsDescriptor d m.prototype.result.descriptor
  | instantiated (r : Register) (t : ValueType) (h : .newInstance r t ∈ d.instructions) :
    MentionsDescriptor d t.descriptor

/-- The literals, the names of methods and the descriptors. -/
inductive MentionsString (d : DexFile) : String → Prop where
  | literal (r : Register) (s : String) (h : .constString r s ∈ d.instructions) :
    MentionsString d s
  | name (m : MethodRef) (hm : d.MentionsMethod m) : MentionsString d m.name
  | descriptor (s : String) (h : d.MentionsDescriptor s) : MentionsString d s

theorem mem_mentionedMethods_iff {m : MethodRef} :
    m ∈ d.mentionedMethods ↔ d.MentionsMethod m := by
  constructor
  · intro h
    rcases List.mem_append.mp h with h | h
    · obtain ⟨c, hc, h⟩ := List.mem_flatMap.mp h
      obtain ⟨k, hk, rfl⟩ := List.mem_map.mp h
      exact .declared c hc k hk
    · obtain ⟨i, hi, hm⟩ := List.mem_filterMap.mp h
      obtain ⟨kind, args, rfl⟩ := Instruction.method?_eq_some_iff.mp hm
      exact .invoked kind m args hi
  · rintro (⟨c, hc, k, hk⟩ | ⟨kind, m, args, h⟩)
    · exact ref_mem_mentionedMethods hc hk
    · exact method?_mem_mentionedMethods h rfl

theorem mem_mentionedDescriptors_iff {s : String} :
    s ∈ d.mentionedDescriptors ↔ d.MentionsDescriptor s := by
  constructor
  · intro h
    rcases List.mem_append.mp h with h | h
    · rcases List.mem_append.mp h with h | h
      · obtain ⟨name, hname, rfl⟩ := List.mem_map.mp h
        obtain ⟨c, hc, hname⟩ := List.mem_flatMap.mp hname
        rcases List.mem_cons.mp hname with rfl | hname
        · exact .defined c hc
        · exact .super c hc name (Option.mem_toList.mp hname)
      · obtain ⟨m, hm, hs⟩ := List.mem_flatMap.mp h
        replace hm := mem_mentionedMethods_iff.mp hm
        rcases List.mem_cons.mp hs with rfl | hs
        · exact .owner m hm
        · rcases List.mem_cons.mp hs with rfl | hs
          · exact .result m hm
          · obtain ⟨t, ht, rfl⟩ := List.mem_map.mp hs
            exact .parameter m hm t ht
    · obtain ⟨t, ht, rfl⟩ := List.mem_map.mp h
      obtain ⟨i, hi, ht⟩ := List.mem_filterMap.mp ht
      obtain ⟨r, rfl⟩ := Instruction.type?_eq_some_iff.mp ht
      exact .instantiated r t hi
  · intro h
    cases h with
    | defined c hc => exact class_mem_mentionedDescriptors (name_mem_definedClasses hc)
    | super c hc s hs => exact class_mem_mentionedDescriptors (super_mem_definedClasses hc hs)
    | owner m hm =>
      exact mem_mentionedDescriptors_of_method (mem_mentionedMethods_iff.mpr hm)
        m.owner_mem_descriptors
    | parameter m hm t ht =>
      exact mem_mentionedDescriptors_of_method (mem_mentionedMethods_iff.mpr hm)
        (m.parameter_mem_descriptors ht)
    | result m hm =>
      exact mem_mentionedDescriptors_of_method (mem_mentionedMethods_iff.mpr hm)
        m.result_mem_descriptors
    | instantiated r t h => exact type?_mem_mentionedDescriptors h rfl

theorem mem_mentionedStrings_iff {s : String} :
    s ∈ d.mentionedStrings ↔ d.MentionsString s := by
  constructor
  · intro h
    rcases List.mem_append.mp h with h | h
    · rcases List.mem_append.mp h with h | h
      · obtain ⟨i, hi, hs⟩ := List.mem_filterMap.mp h
        obtain ⟨r, rfl⟩ := Instruction.text?_eq_some_iff.mp hs
        exact .literal r s hi
      · obtain ⟨m, hm, rfl⟩ := List.mem_map.mp h
        exact .name m (mem_mentionedMethods_iff.mp hm)
    · exact .descriptor s (mem_mentionedDescriptors_iff.mp h)
  · intro h
    cases h with
    | literal r s h => exact text?_mem_mentionedStrings h rfl
    | name m hm => exact name_mem_mentionedStrings (mem_mentionedMethods_iff.mpr hm)
    | descriptor s h =>
      exact mem_mentionedStrings_of_descriptor (mem_mentionedDescriptors_iff.mpr h)

end DexFile

/-! ## Orders of entries -/

theorem compare_list_eq_lt_iff {as bs : List UInt32} : compare as bs = .lt ↔ as < bs := by
  induction as generalizing bs with
  | nil => cases bs <;> simp [compare, List.compareLex]
  | cons a as ih =>
    cases bs with
    | nil => simp [compare, List.compareLex]
    | cons b bs =>
      have hcons : compare (a :: as) (b :: bs) = (compare a b).then (compare as bs) :=
        List.compareLex_cons_cons
      rw [hcons, Ordering.then_eq_lt, ih, List.cons_lt_cons_iff, Std.compare_eq_iff_eq]
      exact or_congr_left compareOfLessAndEq_eq_lt

/-- The order of prototypes: by result, then by parameters. -/
def StoredProto.Precedes (a b : StoredProto) : Prop :=
  a.result < b.result ∨ a.result = b.result ∧ a.parameters < b.parameters

theorem StoredProto.compare_eq_lt_iff {a b : StoredProto} :
    compare a b = .lt ↔ a.Precedes b := by
  have hthen : compare a b = (compare a.result b.result).then
      (compare a.parameters b.parameters) := rfl
  rw [hthen, Ordering.then_eq_lt, compare_list_eq_lt_iff, Std.compare_eq_iff_eq]
  exact or_congr_left compareOfLessAndEq_eq_lt

/-- The order of methods: by owner, then by name, then by prototype. -/
def StoredMethodId.Precedes (a b : StoredMethodId) : Prop :=
  a.owner < b.owner ∨ a.owner = b.owner ∧
    (a.name < b.name ∨ a.name = b.name ∧ a.proto < b.proto)

theorem StoredMethodId.compare_eq_lt_iff {a b : StoredMethodId} :
    compare a b = .lt ↔ a.Precedes b := by
  have hlt : ∀ {m n : UInt32}, compare m n = .lt ↔ m < n := compareOfLessAndEq_eq_lt
  have hthen : compare a b = (compare a.owner b.owner).then
      ((compare a.name b.name).then (compare a.proto b.proto)) := rfl
  rw [hthen, Ordering.then_eq_lt, Ordering.then_eq_lt, Std.compare_eq_iff_eq,
    Std.compare_eq_iff_eq, hlt, hlt, hlt, Precedes]

/-- A list in an order that compares like the given one is ascending. -/
theorem ascending_iff_pairwise {α : Type} [Ord α] {precedes : α → α → Prop}
    (h : ∀ {a b}, compare a b = .lt ↔ precedes a b) {xs : List α} :
    OrderedSet.Ascending xs ↔ xs.Pairwise precedes := by
  rw [OrderedSet.Ascending]
  exact iff_of_eq (congrArg (xs.Pairwise ·) (funext₂ fun _ _ => propext h))

/-! ## Entries and items -/

/-- The entries of a pool stand for exactly the items with a property, each item once. -/
def Enumerates {α β : Type} (standsFor : α → β → Prop) (pool : List α) (isItem : β → Prop) :
    Prop :=
  ∃ items, List.Forall₂ standsFor pool items ∧ items.Nodup ∧ ∀ b, b ∈ items ↔ isItem b

namespace Enumerates

variable {α β : Type} {standsFor : α → β → Prop} {pool : List α} {isItem : β → Prop}

/-- The entries are all that stand for an item, if no two of them stand for the same. -/
theorem mem_iff (h : Enumerates standsFor pool isItem)
    (hentry : ∀ {a a' b}, standsFor a b → standsFor a' b → a = a') {a : α} :
    a ∈ pool ↔ ∃ b, isItem b ∧ standsFor a b := by
  obtain ⟨items, hall, -, hitems⟩ := h
  constructor
  · intro ha
    obtain ⟨n, hn, rfl⟩ := List.getElem_of_mem ha
    have hn' : n < items.length := hall.length_eq ▸ hn
    exact ⟨items[n], (hitems _).mp (List.getElem_mem hn'), hall.get hn hn'⟩
  · rintro ⟨b, hb, hab⟩
    obtain ⟨n, hn, rfl⟩ := List.getElem_of_mem ((hitems b).mpr hb)
    have hn' : n < pool.length := hall.length_eq ▸ hn
    rw [hentry hab (hall.get hn' hn)]
    exact List.getElem_mem hn'

theorem exists_items (h : ∀ a ∈ pool, ∃ b, isItem b ∧ standsFor a b) :
    ∃ items, List.Forall₂ standsFor pool items ∧ ∀ b ∈ items, isItem b := by
  induction pool with
  | nil => exact ⟨[], .nil, fun _ h => absurd h List.not_mem_nil⟩
  | cons a pool ih =>
    obtain ⟨⟨b, hb, hab⟩, hpool⟩ := List.forall_mem_cons.mp h
    obtain ⟨items, hall, hitems⟩ := ih hpool
    exact ⟨b :: items, .cons hab hall, List.forall_mem_cons.mpr ⟨hb, hitems⟩⟩

/-- Distinct entries for items, one for each item there is. -/
theorem of_nodup (hpool : pool.Nodup) (hitem : ∀ a ∈ pool, ∃ b, isItem b ∧ standsFor a b)
    (hcover : ∀ b, isItem b → ∃ a ∈ pool, standsFor a b)
    (hentry : ∀ {a a' b}, standsFor a b → standsFor a' b → a = a')
    (hfunctional : ∀ {a b b'}, standsFor a b → standsFor a b' → b = b') :
    Enumerates standsFor pool isItem := by
  obtain ⟨items, hall, hitems⟩ := exists_items hitem
  refine ⟨items, hall, ?_, fun b => ⟨hitems b, fun hb => ?_⟩⟩
  · rw [List.nodup_iff_pairwise_ne, List.pairwise_iff_getElem] at hpool ⊢
    intro m n hm hn hmn heq
    have hm' : m < pool.length := hall.length_eq ▸ hm
    have hn' : n < pool.length := hall.length_eq ▸ hn
    have hfirst : standsFor pool[m] items[m] := hall.get hm' hm
    rw [heq] at hfirst
    exact hpool m n hm' hn' hmn (hentry hfirst (hall.get hn' hn))
  · obtain ⟨a, ha, hab⟩ := hcover b hb
    obtain ⟨n, hn, rfl⟩ := List.getElem_of_mem ha
    have hn' : n < items.length := hall.length_eq ▸ hn
    rw [hfunctional hab (hall.get hn hn')]
    exact List.getElem_mem hn'

/-- Ascending pools whose entries stand for the same items are equal. -/
theorem pool_eq [Ord α] [Std.LawfulEqOrd α] [Std.TransOrd α] {precedes : α → α → Prop}
    (horder : ∀ {a b}, compare a b = .lt ↔ precedes a b) {pool' : List α}
    {standsFor' : α → β → Prop} {isItem' : β → Prop} (h : Enumerates standsFor pool isItem)
    (h' : Enumerates standsFor' pool' isItem') (hpool : pool.Pairwise precedes)
    (hpool' : pool'.Pairwise precedes) (hentries : ∀ a b, standsFor a b ↔ standsFor' a b)
    (hitems : ∀ b, isItem b ↔ isItem' b)
    (hentry : ∀ {a a' b}, standsFor a b → standsFor a' b → a = a') : pool = pool' := by
  refine ((ascending_iff_pairwise horder).mpr hpool).ext
    ((ascending_iff_pairwise horder).mpr hpool') fun a => ?_
  have hentry' : ∀ {a a' b}, standsFor' a b → standsFor' a' b → a = a' := fun hab hab' =>
    hentry ((hentries _ _).mpr hab) ((hentries _ _).mpr hab')
  rw [h.mem_iff hentry, h'.mem_iff hentry']
  exact exists_congr fun b => and_congr (hitems b) (hentries a b)

end Enumerates

namespace Pools

/-! ## What entries stand for -/

/-- The entry of the prototype pool stands for a prototype. -/
structure ProtoFor (p : Pools) (stored : StoredProto) (m : Prototype) : Prop where
  result : p.descriptorAt stored.result = .ok m.result.descriptor
  parameters :
    List.Forall₂ (fun i t => p.descriptorAt i = .ok t.descriptor) stored.parameters m.parameters

/-- The entry of the method pool stands for a method. -/
structure MethodFor (p : Pools) (stored : StoredMethodId) (m : MethodRef) : Prop where
  owner : p.descriptorAt stored.owner = .ok m.owner.descriptor
  name : p.stringAt stored.name = .ok m.name
  proto : ∃ proto, p.protos[stored.proto.toNat]? = some proto ∧ p.ProtoFor proto m.prototype

/-- The pools hold exactly what a dex file mentions, each item once and in order. -/
structure Canonical (p : Pools) (d : DexFile) : Prop where
  strings_ascend : p.strings.Pairwise fun s t => Utf8.encode s < Utf8.encode t
  strings : ∀ s, s ∈ p.strings ↔ d.MentionsString s
  types_ascend : p.types.Pairwise (· < ·)
  types : Enumerates (fun i s => p.stringAt i = .ok s) p.types d.MentionsDescriptor
  protos_ascend : p.protos.Pairwise StoredProto.Precedes
  protos : Enumerates p.ProtoFor p.protos fun m => ∃ r, d.MentionsMethod r ∧ r.prototype = m
  methods_ascend : p.methods.Pairwise StoredMethodId.Precedes
  methods : Enumerates p.MethodFor p.methods d.MentionsMethod

variable {p : Pools} {d : DexFile}

/-- Positions of one entry in a pool without duplicates are the same. -/
theorem position_unique {α : Type} {pool : List α} (hpool : pool.Nodup) {i j : UInt32} {a : α}
    (hi : pool[i.toNat]? = some a) (hj : pool[j.toNat]? = some a) : i = j := by
  obtain ⟨hlt, hi⟩ := List.getElem?_eq_some_iff.mp hi
  obtain ⟨hlt', hj⟩ := List.getElem?_eq_some_iff.mp hj
  exact UInt32.toNat_inj.mp ((hpool.getElem_inj_iff).mp (hi.trans hj.symm))

theorem stringAt_unique (hstrings : p.strings.Nodup) {i j : UInt32} {s : String}
    (hi : p.stringAt i = .ok s) (hj : p.stringAt j = .ok s) : i = j :=
  position_unique hstrings (entry_eq_ok_iff.mp hi) (entry_eq_ok_iff.mp hj)

theorem descriptorAt_unique (hstrings : p.strings.Nodup) (htypes : p.types.Nodup) {i j : UInt32}
    {s : String} (hi : p.descriptorAt i = .ok s) (hj : p.descriptorAt j = .ok s) : i = j := by
  obtain ⟨k, hk, hks⟩ := bind_eq_ok.mp hi
  obtain ⟨l, hl, hls⟩ := bind_eq_ok.mp hj
  obtain rfl := stringAt_unique hstrings hks hls
  exact position_unique htypes (entry_eq_ok_iff.mp hk) (entry_eq_ok_iff.mp hl)

theorem ProtoFor.unique (hstrings : p.strings.Nodup) (htypes : p.types.Nodup)
    {a b : StoredProto} {m : Prototype} (ha : p.ProtoFor a m) (hb : p.ProtoFor b m) : a = b := by
  obtain ⟨result, parameters⟩ := a
  obtain ⟨result', parameters'⟩ := b
  have hparameter : Relator.LeftUnique fun (i : UInt32) (t : ValueType) =>
      p.descriptorAt i = .ok t.descriptor :=
    fun _ _ _ hi hj => descriptorAt_unique hstrings htypes hi hj
  rw [StoredProto.mk.injEq]
  exact ⟨descriptorAt_unique hstrings htypes ha.result hb.result,
    List.left_unique_forall₂' hparameter ha.parameters hb.parameters⟩

theorem ProtoFor.functional {a : StoredProto} {m m' : Prototype} (h : p.ProtoFor a m)
    (h' : p.ProtoFor a m') : m = m' := by
  obtain ⟨parameters, result⟩ := m
  obtain ⟨parameters', result'⟩ := m'
  have hparameter : Relator.RightUnique fun (i : UInt32) (t : ValueType) =>
      p.descriptorAt i = .ok t.descriptor :=
    fun _ _ _ ht ht' => ValueType.descriptor_injective (Except.ok.inj (ht.symm.trans ht'))
  rw [Prototype.mk.injEq]
  exact ⟨List.right_unique_forall₂' hparameter h.parameters h'.parameters,
    ResultType.descriptor_injective (Except.ok.inj (h.result.symm.trans h'.result))⟩

theorem MethodFor.unique (hstrings : p.strings.Nodup) (htypes : p.types.Nodup)
    (hprotos : p.protos.Nodup) {a b : StoredMethodId} {m : MethodRef} (ha : p.MethodFor a m)
    (hb : p.MethodFor b m) : a = b := by
  obtain ⟨proto, hproto, hfor⟩ := ha.proto
  obtain ⟨proto', hproto', hfor'⟩ := hb.proto
  obtain rfl := hfor.unique hstrings htypes hfor'
  have howners := descriptorAt_unique hstrings htypes ha.owner hb.owner
  have hnames := stringAt_unique hstrings ha.name hb.name
  have hprotos := position_unique hprotos hproto hproto'
  obtain ⟨owner, name, index⟩ := a
  obtain ⟨owner', name', index'⟩ := b
  rw [StoredMethodId.mk.injEq]
  exact ⟨howners, hnames, hprotos⟩

theorem MethodFor.functional {a : StoredMethodId} {m m' : MethodRef} (h : p.MethodFor a m)
    (h' : p.MethodFor a m') : m = m' := by
  obtain ⟨proto, hproto, hfor⟩ := h.proto
  obtain ⟨proto', hproto', hfor'⟩ := h'.proto
  obtain rfl := Option.some.inj (hproto.symm.trans hproto')
  have howners := ClassName.descriptor_injective (Except.ok.inj (h.owner.symm.trans h'.owner))
  have hnames := Except.ok.inj (h.name.symm.trans h'.name)
  have hprototypes := hfor.functional hfor'
  obtain ⟨owner, name, prototype⟩ := m
  obtain ⟨owner', name', prototype'⟩ := m'
  rw [MethodRef.mk.injEq]
  exact ⟨howners, hnames, hprototypes⟩

/-! ## Pools that were built -/

theorem protoFor_of_storeProto {m : Prototype} {stored : StoredProto}
    (h : p.storeProto m = .ok stored) : p.ProtoFor stored m := by
  obtain ⟨result, hresult, h⟩ := bind_eq_ok.mp h
  obtain ⟨parameters, hparameters, h⟩ := bind_eq_ok.mp h
  obtain rfl := Except.ok.inj h
  exact ⟨descriptorAt_of_indexOfType hresult,
    (mapM_eq_ok_iff.mp hparameters).flip.imp fun _ _ => descriptorAt_of_indexOfType⟩

theorem methodFor_of_storeMethod {m : MethodRef} {stored : StoredMethodId}
    (h : p.storeMethod m = .ok stored) : p.MethodFor stored m := by
  obtain ⟨owner, howner, h⟩ := bind_eq_ok.mp h
  obtain ⟨name, hname, h⟩ := bind_eq_ok.mp h
  obtain ⟨proto, hproto, h⟩ := bind_eq_ok.mp h
  obtain ⟨index, hindex, h⟩ := bind_eq_ok.mp h
  obtain rfl := Except.ok.inj h
  exact ⟨descriptorAt_of_indexOfType howner, stringAt_of_indexOfString hname,
    proto, getElem?_of_poolIndex hindex, protoFor_of_storeProto hproto⟩

/-- In an ascending pool, larger items have larger positions. -/
theorem indexOfString_lt (hascending : OrderedSet.Ascending p.strings) {s t : String}
    {i j : UInt32} (hi : p.indexOfString s = .ok i) (hj : p.indexOfString t = .ok j)
    (h : compare s t = .lt) : i < j := by
  obtain ⟨hlt, rfl⟩ := List.getElem?_eq_some_iff.mp (getElem?_of_poolIndex hi)
  obtain ⟨hlt', rfl⟩ := List.getElem?_eq_some_iff.mp (getElem?_of_poolIndex hj)
  rw [OrderedSet.Ascending, List.pairwise_iff_getElem] at hascending
  rw [UInt32.lt_iff_toNat_lt]
  rcases Nat.lt_trichotomy i.toNat j.toNat with hij | hij | hij
  · exact hij
  · simp [hij] at h
  · have hgt := Std.OrientedCmp.gt_iff_lt.mpr (hascending _ _ hlt' hlt hij)
    rw [h] at hgt
    cases hgt

theorem BuiltFrom.ascending_strings (h : p.BuiltFrom d) : OrderedSet.Ascending p.strings :=
  h.strings ▸ OrderedSet.ascending_ofList _

theorem BuiltFrom.types_ascend (h : p.BuiltFrom d) : p.types.Pairwise (· < ·) := by
  have hall := mapM_eq_ok_iff.mp h.types
  have hdescriptors := OrderedSet.ascending_ofList d.mentionedDescriptors
  rw [OrderedSet.Ascending, List.pairwise_iff_getElem] at hdescriptors
  refine List.pairwise_iff_getElem.mpr fun m n hm hn hmn => ?_
  have hm' := hall.length_eq.symm ▸ hm
  have hn' := hall.length_eq.symm ▸ hn
  exact indexOfString_lt h.ascending_strings (hall.get hm' hm) (hall.get hn' hn)
    (hdescriptors m n hm' hn' hmn)

/-- The pools that are built for a dex file hold exactly what it mentions, in order. -/
theorem BuiltFrom.canonical (h : p.BuiltFrom d) : p.Canonical d := by
  have htypes : p.types.Nodup := h.types_ascend.imp UInt32.ne_of_lt
  obtain ⟨protos, hprotos, hprotosEq⟩ := h.protos
  obtain ⟨methods, hmethods, hmethodsEq⟩ := h.methods
  have hprotosNodup : p.protos.Nodup := hprotosEq ▸ OrderedSet.nodup_ofList _
  refine ⟨?_, fun s => ?_, h.types_ascend, ?_, ?_, ?_, ?_, ?_⟩
  · exact (ascending_iff_pairwise Utf8.compare_eq_lt_iff).mp h.ascending_strings
  · rw [h.strings, OrderedSet.mem_ofList, DexFile.mem_mentionedStrings_iff]
  · refine .of_nodup htypes (fun i hi => ?_) (fun s hs => ?_) (stringAt_unique h.nodup)
      fun hs hs' => Except.ok.inj (hs.symm.trans hs')
    · obtain ⟨s, hs, hsi⟩ := exists_of_mem_result h.types hi
      exact ⟨s, DexFile.mem_mentionedDescriptors_iff.mp (OrderedSet.mem_ofList.mp hs),
        stringAt_of_indexOfString hsi⟩
    · obtain ⟨i, hi, hsi⟩ := exists_of_mem_of_mapM h.types
        (OrderedSet.mem_ofList.mpr (DexFile.mem_mentionedDescriptors_iff.mpr hs))
      exact ⟨i, hi, stringAt_of_indexOfString hsi⟩
  · rw [hprotosEq]
    exact (ascending_iff_pairwise StoredProto.compare_eq_lt_iff).mp
      (OrderedSet.ascending_ofList _)
  · refine .of_nodup hprotosNodup (fun stored hstored => ?_) (fun m hm => ?_)
      (ProtoFor.unique h.nodup htypes) ProtoFor.functional
    · rw [hprotosEq, OrderedSet.mem_ofList] at hstored
      obtain ⟨m, hm, hstored⟩ := exists_of_mem_result hprotos hstored
      obtain ⟨r, hr, rfl⟩ := List.mem_map.mp hm
      exact ⟨_, ⟨r, DexFile.mem_mentionedMethods_iff.mp hr, rfl⟩, protoFor_of_storeProto hstored⟩
    · obtain ⟨r, hr, rfl⟩ := hm
      obtain ⟨stored, hmem, hstored⟩ := exists_of_mem_of_mapM hprotos
        (List.mem_map_of_mem (DexFile.mem_mentionedMethods_iff.mpr hr))
      exact ⟨stored, hprotosEq ▸ OrderedSet.mem_ofList.mpr hmem, protoFor_of_storeProto hstored⟩
  · rw [hmethodsEq]
    exact (ascending_iff_pairwise StoredMethodId.compare_eq_lt_iff).mp
      (OrderedSet.ascending_ofList _)
  · refine .of_nodup (hmethodsEq ▸ OrderedSet.nodup_ofList _) (fun stored hstored => ?_)
      (fun m hm => ?_) (MethodFor.unique h.nodup htypes hprotosNodup) MethodFor.functional
    · rw [hmethodsEq, OrderedSet.mem_ofList] at hstored
      obtain ⟨m, hm, hstored⟩ := exists_of_mem_result hmethods hstored
      exact ⟨m, DexFile.mem_mentionedMethods_iff.mp hm, methodFor_of_storeMethod hstored⟩
    · obtain ⟨stored, hmem, hstored⟩ := exists_of_mem_of_mapM hmethods
        (DexFile.mem_mentionedMethods_iff.mpr hm)
      exact ⟨stored, hmethodsEq ▸ OrderedSet.mem_ofList.mpr hmem,
        methodFor_of_storeMethod hstored⟩

/-! ## Pools of the same items -/

namespace Canonical

theorem strings_nodup (h : p.Canonical d) : p.strings.Nodup := by
  refine h.strings_ascend.imp ?_
  rintro s _ hlt rfl
  exact List.lt_irrefl _ hlt

theorem types_nodup (h : p.Canonical d) : p.types.Nodup :=
  h.types_ascend.imp UInt32.ne_of_lt

theorem protos_nodup (h : p.Canonical d) : p.protos.Nodup := by
  refine h.protos_ascend.imp fun hlt heq => ?_
  have hlt := StoredProto.compare_eq_lt_iff.mpr hlt
  rw [heq, Std.compare_self] at hlt
  cases hlt

/-- The pools are determined by what is mentioned. -/
theorem eq_of_same {p' : Pools} {d' : DexFile} (h : p.Canonical d) (h' : p'.Canonical d')
    (hstrings : ∀ s, d.MentionsString s ↔ d'.MentionsString s)
    (hdescriptors : ∀ s, d.MentionsDescriptor s ↔ d'.MentionsDescriptor s)
    (hmethods : ∀ m, d.MentionsMethod m ↔ d'.MentionsMethod m) : p = p' := by
  have hs := h.strings_nodup
  have ht := h.types_nodup
  have hp := h.protos_nodup
  obtain ⟨strings, types, protos, methods⟩ := p
  obtain ⟨strings', types', protos', methods'⟩ := p'
  -- each pool is fixed by those before it: its entries stand for the same items in both
  obtain rfl : strings = strings' := by
    refine ((ascending_iff_pairwise Utf8.compare_eq_lt_iff).mpr h.strings_ascend).ext
      ((ascending_iff_pairwise Utf8.compare_eq_lt_iff).mpr h'.strings_ascend) fun s => ?_
    exact (h.strings s).trans ((hstrings s).trans (h'.strings s).symm)
  obtain rfl : types = types' :=
    h.types.pool_eq compareOfLessAndEq_eq_lt h'.types h.types_ascend h'.types_ascend
      (fun _ _ => Iff.rfl) hdescriptors (stringAt_unique hs)
  have hproto : ∀ stored m, ProtoFor ⟨strings, types, protos, methods⟩ stored m ↔
      ProtoFor ⟨strings, types, protos', methods'⟩ stored m :=
    fun _ _ => ⟨fun h => ⟨h.result, h.parameters⟩, fun h => ⟨h.result, h.parameters⟩⟩
  obtain rfl : protos = protos' :=
    h.protos.pool_eq StoredProto.compare_eq_lt_iff h'.protos h.protos_ascend h'.protos_ascend
      hproto (fun m => exists_congr fun r => and_congr_left fun _ => hmethods r)
      (ProtoFor.unique hs ht)
  have hmethod : ∀ stored m, MethodFor ⟨strings, types, protos, methods⟩ stored m ↔
      MethodFor ⟨strings, types, protos, methods'⟩ stored m := by
    refine fun stored m => ⟨fun h => ⟨h.owner, h.name, ?_⟩, fun h => ⟨h.owner, h.name, ?_⟩⟩
    · obtain ⟨proto, hget, hfor⟩ := h.proto
      exact ⟨proto, hget, (hproto _ _).mp hfor⟩
    · obtain ⟨proto, hget, hfor⟩ := h.proto
      exact ⟨proto, hget, (hproto _ _).mpr hfor⟩
  obtain rfl : methods = methods' :=
    h.methods.pool_eq StoredMethodId.compare_eq_lt_iff h'.methods h.methods_ascend
      h'.methods_ascend hmethod hmethods (MethodFor.unique hs ht hp)
  rfl

end Canonical

/-! ## Stored pools -/

/-- The pools are stored in a buffer: behind the magic and the checksum. -/
def StoredIn (p : Pools) (buffer : Bytes) : Prop :=
  p.Fits ∧ ∃ checksum rest,
    buffer = Container.magic ++ Layout.u32 checksum ++ p.bytes ++ rest

/-- A buffer stores the pools of one container at most. -/
theorem StoredIn.eq {p' : Pools} {buffer : Bytes} (h : p.StoredIn buffer)
    (h' : p'.StoredIn buffer) : p = p' := by
  obtain ⟨hfits, checksum, rest, rfl⟩ := h
  obtain ⟨hfits', checksum', rest', heq⟩ := h'
  have hheader : ∀ n, (Container.magic ++ Layout.u32 n).length = 12 := fun n => by
    simp [Container.magic, Layout.u32]
  rw [List.append_assoc, List.append_assoc (Container.magic ++ _)] at heq
  obtain ⟨-, hbytes⟩ := List.append_inj heq (by rw [hheader, hheader])
  have hread : format.read (p'.bytes ++ rest') = .ok (p, rest) :=
    (format_writes.read_eq_ok_iff format_exact).mpr ⟨hfits, hbytes.symm⟩
  have hread' : format.read (p'.bytes ++ rest') = .ok (p', rest') :=
    (format_writes.read_eq_ok_iff format_exact).mpr ⟨hfits', rfl⟩
  exact congrArg Prod.fst (Except.ok.inj (hread.symm.trans hread'))

end Pools

/-- What is placed in memory stands in front. -/
theorem Allocator.exists_append_of_place {allocate : Allocator} {bytes buffer : Bytes}
    (h : allocate.place bytes = .ok buffer) : ∃ tail, buffer = bytes ++ tail := by
  rw [place] at h
  split at h
  · cases h
  · cases h
  · split at h
    · cases h
    · exact ⟨_, (Except.ok.inj h).symm⟩

namespace DexFile

variable {d d' : DexFile} {allocate : Allocator} {buffer : Bytes}

theorem exists_pools_of_encode (h : d.encode allocate = .ok buffer) :
    ∃ p : Pools, p.StoredIn buffer ∧ p.Canonical d := by
  obtain ⟨bytes, himage, hplace⟩ := bind_eq_ok.mp h
  obtain ⟨tail, rfl⟩ := Allocator.exists_append_of_place hplace
  obtain ⟨c, hc, hrender⟩ := image_eq_ok_iff.mp himage
  obtain ⟨hfits, rfl⟩ := Container.render?_eq_some_iff.mp hrender
  obtain ⟨hpools, -⟩ := Container.ofDexFile_eq_ok_iff.mp hc
  refine ⟨c.pools, ⟨hfits.pools, Crc32.checksum c.bytes,
    Layout.list 4 StoredClass.bytes c.classes ++ tail, ?_⟩,
    (Pools.builtFrom_of_ofDexFile hpools).canonical⟩
  rw [Container.image, Container.bytes, Layout.u32]
  simp only [List.append_assoc]

/-- A buffer that a dex file is stored in has one sequence of pools behind its header, and they
hold exactly what the dex file mentions, each item once and in order.  Dex files that mention the
same items, wherever and however often, are stored with the same pools, byte for byte. -/
theorem encode_pools_canonical :
    (∀ (d : DexFile) (allocate : Allocator) (buffer : Bytes), d.encode allocate = .ok buffer →
      ∃ p : Pools, p.StoredIn buffer ∧ p.Canonical d ∧ ∀ p', p'.StoredIn buffer → p' = p) ∧
    ∀ (d d' : DexFile) (allocate allocate' : Allocator) (buffer buffer' : Bytes),
      d.encode allocate = .ok buffer → d'.encode allocate' = .ok buffer' →
      (∀ s, d.MentionsString s ↔ d'.MentionsString s) →
      (∀ s, d.MentionsDescriptor s ↔ d'.MentionsDescriptor s) →
      (∀ m, d.MentionsMethod m ↔ d'.MentionsMethod m) →
      ∃ p : Pools, p.StoredIn buffer ∧ p.StoredIn buffer' := by
  constructor
  · intro d allocate buffer h
    obtain ⟨p, hstored, hcanonical⟩ := exists_pools_of_encode h
    exact ⟨p, hstored, hcanonical, fun p' hp' => hp'.eq hstored⟩
  · intro d d' allocate allocate' buffer buffer' h h' hstrings hdescriptors hmethods
    obtain ⟨p, hstored, hcanonical⟩ := exists_pools_of_encode h
    obtain ⟨p', hstored', hcanonical'⟩ := exists_pools_of_encode h'
    obtain rfl := hcanonical.eq_of_same hcanonical' hstrings hdescriptors hmethods
    exact ⟨p, hstored, hstored'⟩

/-- A method that is called. -/
def callee : MethodRef := ⟨⟨"A"⟩, "tick", ⟨[.primitive .int], .void⟩⟩

/-- A method that calls it some number of times. -/
def caller (calls : Nat) : Method :=
  ⟨⟨⟨"A"⟩, "run", ⟨[], .void⟩⟩, ⟨9⟩, some ⟨1, 0, 1,
    List.replicate calls (.instruction (.invokeStatic callee [⟨0⟩])) ++
      [.instruction .returnVoid]⟩⟩

/-- A class with the two methods. -/
def ticking : DexFile := ⟨[⟨⟨"A"⟩, ⟨1⟩, none, [caller 2, ⟨callee, ⟨9⟩, none⟩]⟩]⟩

/-- The class with its methods in the other order, and one call less. -/
def tickingOnce : DexFile := ⟨[⟨⟨"A"⟩, ⟨1⟩, none, [⟨callee, ⟨9⟩, none⟩, caller 1]⟩]⟩

theorem encode_pools_canonical_ticking :
    ticking ≠ tickingOnce ∧ ∃ (buffer buffer' : Bytes) (p : Pools),
      ticking.encode Allocator.heap = .ok buffer ∧
      tickingOnce.encode Allocator.heap = .ok buffer' ∧ p.StoredIn buffer ∧ p.StoredIn buffer' := by
  obtain ⟨buffer, hbuffer⟩ := exists_ok_of_isOk
    (by decide +kernel : (ticking.encode Allocator.heap).isOk = true)
  obtain ⟨buffer', hbuffer'⟩ := exists_ok_of_isOk
    (by decide +kernel : (tickingOnce.encode Allocator.heap).isOk = true)
  have hstrings : ticking.mentionedStrings ⊆ tickingOnce.mentionedStrings ∧
      tickingOnce.mentionedStrings ⊆ ticking.mentionedStrings := by decide +kernel
  have hdescriptors : ticking.mentionedDescriptors ⊆ tickingOnce.mentionedDescriptors ∧
      tickingOnce.mentionedDescriptors ⊆ ticking.mentionedDescriptors := by decide +kernel
  have hmethods : ticking.mentionedMethods ⊆ tickingOnce.mentionedMethods ∧
      tickingOnce.mentionedMethods ⊆ ticking.mentionedMethods := by decide +kernel
  obtain ⟨-, hsame⟩ := encode_pools_canonical
  obtain ⟨p, hp, hp'⟩ := hsame ticking tickingOnce _ _ buffer buffer' hbuffer hbuffer'
    (fun _ => by
      rw [← mem_mentionedStrings_iff, ← mem_mentionedStrings_iff]
      exact ⟨fun h => hstrings.1 h, fun h => hstrings.2 h⟩)
    (fun _ => by
      rw [← mem_mentionedDescriptors_iff, ← mem_mentionedDescriptors_iff]
      exact ⟨fun h => hdescriptors.1 h, fun h => hdescriptors.2 h⟩)
    (fun _ => by
      rw [← mem_mentionedMethods_iff, ← mem_mentionedMethods_iff]
      exact ⟨fun h => hmethods.1 h, fun h => hmethods.2 h⟩)
  exact ⟨by decide +kernel, buffer, buffer', p, hbuffer, hbuffer', hp, hp'⟩

end DexFile

end DexWeave
