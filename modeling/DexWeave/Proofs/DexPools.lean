/-
  DexWeave/Proofs/DexPools.lean --- the pools of a dex file.

  WHAT THIS FILE IS FOR.  The pools are built once for a whole dex file and then looked
  up for every reference in it.  The builder and the lookups go over the same mentions:
  the file states what a mention is, one lemma for each place it can stand in, and that
  every mention has an index in the pools that were built.

  SIZES.  The only way to have no pools is to mention more distinct items of a kind
  than there are indices.
-/
import DexWeave.Proofs.PoolIndex
import Mathlib.Data.List.Dedup

set_option autoImplicit false

namespace DexWeave

open Fallible

/-! ## Mentions -/

namespace DexFile

variable {d : DexFile}

theorem ref_mem_mentionedMethods {c : ClassDef} (hc : c ∈ d.classes) {m : Method}
    (hm : m ∈ c.methods) : m.ref ∈ d.mentionedMethods := by
  refine List.mem_append_left _ (List.mem_flatMap.mpr ⟨c, hc, ?_⟩)
  exact List.mem_map_of_mem hm

theorem mem_instructions {c : ClassDef} (hc : c ∈ d.classes) {m : Method} (hm : m ∈ c.methods)
    {b : Body} (hb : m.body = some b) {i : SymbolicInstruction}
    (hi : i ∈ instructionsOf b.lines) : i ∈ d.instructions := by
  refine List.mem_flatMap.mpr ⟨c, hc, List.mem_flatMap.mpr ⟨m, hm, ?_⟩⟩
  rw [Method.instructions, hb]
  exact hi

theorem method?_mem_mentionedMethods {i : SymbolicInstruction} (hi : i ∈ d.instructions)
    {m : MethodRef} (hm : i.method? = some m) : m ∈ d.mentionedMethods :=
  List.mem_append_right _ (List.mem_filterMap.mpr ⟨i, hi, hm⟩)

theorem mem_mentionedStrings_of_descriptor {s : String} (hs : s ∈ d.mentionedDescriptors) :
    s ∈ d.mentionedStrings :=
  List.mem_append_right _ hs

theorem name_mem_mentionedStrings {m : MethodRef} (hm : m ∈ d.mentionedMethods) :
    m.name ∈ d.mentionedStrings :=
  List.mem_append_left _ (List.mem_append_right _ (List.mem_map_of_mem hm))

theorem text?_mem_mentionedStrings {i : SymbolicInstruction} (hi : i ∈ d.instructions)
    {s : String} (hs : i.text? = some s) : s ∈ d.mentionedStrings :=
  List.mem_append_left _ (List.mem_append_left _ (List.mem_filterMap.mpr ⟨i, hi, hs⟩))

theorem class_mem_mentionedDescriptors {c : ClassName} (hc : c ∈ d.definedClasses) :
    c.descriptor ∈ d.mentionedDescriptors :=
  List.mem_append_left _ (List.mem_append_left _ (List.mem_map_of_mem hc))

theorem type?_mem_mentionedDescriptors {i : SymbolicInstruction} (hi : i ∈ d.instructions)
    {t : ValueType} (ht : i.type? = some t) : t.descriptor ∈ d.mentionedDescriptors :=
  List.mem_append_right _ (List.mem_map_of_mem (List.mem_filterMap.mpr ⟨i, hi, ht⟩))

theorem mem_mentionedDescriptors_of_method {m : MethodRef} (hm : m ∈ d.mentionedMethods)
    {s : String} (hs : s ∈ m.descriptors) : s ∈ d.mentionedDescriptors :=
  List.mem_append_left _ (List.mem_append_right _ (List.mem_flatMap.mpr ⟨m, hm, hs⟩))

theorem name_mem_definedClasses {c : ClassDef} (hc : c ∈ d.classes) :
    c.name ∈ d.definedClasses :=
  List.mem_flatMap.mpr ⟨c, hc, List.mem_cons_self⟩

theorem super_mem_definedClasses {c : ClassDef} (hc : c ∈ d.classes) {s : ClassName}
    (hs : c.super = some s) : s ∈ d.definedClasses := by
  refine List.mem_flatMap.mpr ⟨c, hc, List.mem_cons_of_mem _ ?_⟩
  rw [hs]
  exact List.mem_singleton_self s

end DexFile

theorem MethodRef.owner_mem_descriptors (m : MethodRef) : m.owner.descriptor ∈ m.descriptors :=
  List.mem_cons_self

theorem MethodRef.result_mem_descriptors (m : MethodRef) :
    m.prototype.result.descriptor ∈ m.descriptors :=
  List.mem_cons_of_mem _ List.mem_cons_self

theorem MethodRef.parameter_mem_descriptors (m : MethodRef) {t : ValueType}
    (ht : t ∈ m.prototype.parameters) : t.descriptor ∈ m.descriptors :=
  List.mem_cons_of_mem _ (List.mem_cons_of_mem _ (List.mem_map_of_mem ht))

/-! ## Sizes -/

/-- Every pool of the dex file has fewer entries than the bound: its entries are the distinct
strings, descriptors, prototypes and methods that are mentioned. -/
structure DexFile.PoolsBelow (d : DexFile) (bound : Nat) : Prop where
  strings : d.mentionedStrings.dedup.length < bound
  types : d.mentionedDescriptors.dedup.length < bound
  protos : (d.mentionedMethods.map MethodRef.prototype).dedup.length < bound
  methods : d.mentionedMethods.dedup.length < bound

instance (d : DexFile) (bound : Nat) : Decidable (d.PoolsBelow bound) :=
  decidable_of_iff (d.mentionedStrings.dedup.length < bound ∧
      d.mentionedDescriptors.dedup.length < bound ∧
      (d.mentionedMethods.map MethodRef.prototype).dedup.length < bound ∧
      d.mentionedMethods.dedup.length < bound)
    ⟨fun h => ⟨h.1, h.2.1, h.2.2.1, h.2.2.2⟩,
      fun h => ⟨h.strings, h.types, h.protos, h.methods⟩⟩

theorem DexFile.PoolsBelow.mono {d : DexFile} {bound bound' : Nat} (h : d.PoolsBelow bound)
    (hle : bound ≤ bound') : d.PoolsBelow bound' where
  strings := Nat.lt_of_lt_of_le h.strings hle
  types := Nat.lt_of_lt_of_le h.types hle
  protos := Nat.lt_of_lt_of_le h.protos hle
  methods := Nat.lt_of_lt_of_le h.methods hle

theorem OrderedSet.nodup_ofList {α : Type} [Ord α] [Std.LawfulEqOrd α] [Std.TransOrd α]
    (xs : List α) : (OrderedSet.ofList xs).Nodup := by
  refine (OrderedSet.ascending_ofList xs).imp ?_
  rintro a b h rfl
  simp at h

/-- An ordered set has as many elements as there are distinct ones in the list. -/
theorem OrderedSet.length_ofList {α : Type} [Ord α] [Std.LawfulEqOrd α] [Std.TransOrd α]
    [DecidableEq α] (xs : List α) : (OrderedSet.ofList xs).length = xs.dedup.length := by
  refine List.Perm.length_eq ?_
  rw [List.perm_ext_iff_of_nodup (OrderedSet.nodup_ofList xs) (List.nodup_dedup xs)]
  intro a
  rw [OrderedSet.mem_ofList, List.mem_dedup]

/-- Distinct results come from distinct elements. -/
theorem length_dedup_le_of_mapM {ε α β : Type} [DecidableEq α] [DecidableEq β]
    {f : α → Except ε β} {xs : List α} {ys : List β} (h : xs.mapM f = .ok ys) :
    ys.dedup.length ≤ xs.dedup.length := by
  have hall := mapM_eq_ok_iff.mp h
  clear h
  induction hall with
  | nil => exact Nat.le_refl _
  | @cons x y xs ys hxy htail ih =>
    by_cases hx : x ∈ xs
    · obtain ⟨y', hy', hy⟩ := exists_of_mem_of_mapM (mapM_eq_ok_iff.mpr htail) hx
      obtain rfl : y' = y := Except.ok.inj (hy.symm.trans hxy)
      rw [List.dedup_cons_of_mem hx, List.dedup_cons_of_mem hy']
      exact ih
    · rw [List.dedup_cons_of_notMem hx, List.length_cons]
      by_cases hy : y ∈ ys
      · rw [List.dedup_cons_of_mem hy]
        omega
      · rw [List.dedup_cons_of_notMem hy, List.length_cons]
        omega

/-! ## The pools that are built -/

namespace Pools

/-- The string pool is that of what the dex file mentions. -/
structure HoldsStrings (p : Pools) (d : DexFile) : Prop where
  strings : p.strings = OrderedSet.ofList d.mentionedStrings
  strings_le : p.strings.length ≤ 4294967296

/-- So is the type pool. -/
structure HoldsTypes (p : Pools) (d : DexFile) : Prop extends p.HoldsStrings d where
  types : (OrderedSet.ofList d.mentionedDescriptors).mapM p.indexOfString = .ok p.types
  types_le : p.types.length ≤ 4294967296

/-- So is the prototype pool. -/
structure HoldsProtos (p : Pools) (d : DexFile) : Prop extends p.HoldsTypes d where
  protos : ∃ stored, (d.mentionedMethods.map MethodRef.prototype).mapM p.storeProto = .ok stored ∧
    p.protos = OrderedSet.ofList stored
  protos_le : p.protos.length ≤ 4294967296

/-- All pools are those of what the dex file mentions, with no more entries than there are
indices. -/
structure BuiltFrom (p : Pools) (d : DexFile) : Prop extends p.HoldsProtos d where
  methods : ∃ stored, d.mentionedMethods.mapM p.storeMethod = .ok stored ∧
    p.methods = OrderedSet.ofList stored
  methods_le : p.methods.length ≤ 4294967296

variable {p : Pools} {d : DexFile}

namespace HoldsStrings

theorem nodup (h : p.HoldsStrings d) : p.strings.Nodup := by
  rw [h.strings]
  exact OrderedSet.nodup_ofList _

theorem exists_indexOfString (h : p.HoldsStrings d) {s : String}
    (hs : s ∈ d.mentionedStrings) : ∃ i, p.indexOfString s = .ok i := by
  refine exists_poolIndex ?_ h.strings_le
  rw [h.strings, OrderedSet.mem_ofList]
  exact hs

end HoldsStrings

namespace HoldsTypes

theorem hasType (h : p.HoldsTypes d) {s : String} (hs : s ∈ d.mentionedDescriptors) :
    p.HasType s := by
  obtain ⟨i, hi, hsi⟩ := exists_of_mem_of_mapM h.types (OrderedSet.mem_ofList.mpr hs)
  refine ⟨⟨i, hsi⟩, fun j hj => ?_⟩
  obtain rfl := Except.ok.inj (hsi.symm.trans hj)
  exact hi

theorem exists_indexOfType (h : p.HoldsTypes d) {s : String}
    (hs : s ∈ d.mentionedDescriptors) : ∃ i, p.indexOfType s = .ok i :=
  (h.hasType hs).exists_indexOfType h.types_le

theorem exists_storeProto (h : p.HoldsTypes d) {m : MethodRef} (hm : m ∈ d.mentionedMethods) :
    ∃ stored, p.storeProto m.prototype = .ok stored := by
  refine Pools.exists_storeProto (h.hasType ?_) (fun t ht => h.hasType ?_) h.types_le
  · exact DexFile.mem_mentionedDescriptors_of_method hm m.result_mem_descriptors
  · exact DexFile.mem_mentionedDescriptors_of_method hm (m.parameter_mem_descriptors ht)

end HoldsTypes

theorem HoldsProtos.exists_storeMethod (h : p.HoldsProtos d) {m : MethodRef}
    (hm : m ∈ d.mentionedMethods) : ∃ stored, p.storeMethod m = .ok stored := by
  obtain ⟨all, hall, hprotos⟩ := h.protos
  obtain ⟨stored, hmem, hstored⟩ := exists_of_mem_of_mapM hall (List.mem_map_of_mem hm)
  have howner := h.hasType (DexFile.mem_mentionedDescriptors_of_method hm m.owner_mem_descriptors)
  have hname := h.exists_indexOfString (DexFile.name_mem_mentionedStrings hm)
  refine Pools.exists_storeMethod howner hname hstored ?_ h.types_le h.protos_le
  rw [hprotos, OrderedSet.mem_ofList]
  exact hmem

theorem BuiltFrom.exists_indexOfMethod (h : p.BuiltFrom d) {m : MethodRef}
    (hm : m ∈ d.mentionedMethods) : ∃ i, p.indexOfMethod m = .ok i := by
  obtain ⟨all, hall, hmethods⟩ := h.methods
  obtain ⟨stored, hmem, hstored⟩ := exists_of_mem_of_mapM hall hm
  have hpool : stored ∈ p.methods := by
    rw [hmethods, OrderedSet.mem_ofList]
    exact hmem
  obtain ⟨i, hi⟩ := exists_poolIndex hpool h.methods_le
  exact ⟨i, bind_eq_ok.mpr ⟨stored, hstored, hi⟩⟩

theorem checkCount_eq_ok_iff {α : Type} {pool pool' : List α} :
    checkCount pool = .ok pool' ↔ pool = pool' ∧ pool.length ≤ 4294967296 := by
  unfold checkCount
  split
  · rename_i hlen
    rw [Except.ok.injEq, and_iff_left hlen]
  · rename_i hlen
    exact ⟨fun h => (by cases h), fun h => absurd h.2 hlen⟩

theorem builtFrom_of_ofDexFile (h : ofDexFile d = .ok p) : p.BuiltFrom d := by
  obtain ⟨strings, hstrings, h⟩ := bind_eq_ok.mp h
  obtain ⟨descriptors, hdescriptors, h⟩ := bind_eq_ok.mp h
  obtain ⟨types, htypes, h⟩ := bind_eq_ok.mp h
  obtain ⟨storedProtos, hstoredProtos, h⟩ := bind_eq_ok.mp h
  obtain ⟨protos, hprotos, h⟩ := bind_eq_ok.mp h
  obtain ⟨storedMethods, hstoredMethods, h⟩ := bind_eq_ok.mp h
  obtain ⟨methods, hmethods, h⟩ := bind_eq_ok.mp h
  obtain rfl := Except.ok.inj h
  obtain ⟨rfl, hstringsLe⟩ := checkCount_eq_ok_iff.mp hstrings
  obtain ⟨rfl, hdescriptorsLe⟩ := checkCount_eq_ok_iff.mp hdescriptors
  obtain ⟨rfl, hprotosLe⟩ := checkCount_eq_ok_iff.mp hprotos
  obtain ⟨rfl, hmethodsLe⟩ := checkCount_eq_ok_iff.mp hmethods
  have htypesLe : types.length ≤ 4294967296 := by
    rw [length_of_mapM htypes]
    exact hdescriptorsLe
  exact ⟨⟨⟨⟨rfl, hstringsLe⟩, htypes, htypesLe⟩, ⟨storedProtos, hstoredProtos, rfl⟩, hprotosLe⟩,
    ⟨storedMethods, hstoredMethods, rfl⟩, hmethodsLe⟩

/-! ## When there are no pools -/

theorem failsOnly_checkCount {α : Type} {pool : List α} {fits : Prop}
    (h : fits → pool.length < 4294967296) :
    FailsOnly (checkCount pool) (.error .outOfRange) fits :=
  .of_ite rfl fun hfits => Nat.le_of_lt (h hfits)

/-- Building the pools fails only for a pool with too many entries: every lookup made on the way
finds what it looks for. -/
theorem failsOnly_ofDexFile (d : DexFile) :
    FailsOnly (ofDexFile d) (.error .outOfRange) (d.PoolsBelow 4294967296) := by
  unfold ofDexFile
  refine (failsOnly_checkCount ?_).bind fun strings hstrings => ?_
  · rw [OrderedSet.length_ofList]
    exact DexFile.PoolsBelow.strings
  obtain ⟨rfl, hstringsLe⟩ := checkCount_eq_ok_iff.mp hstrings
  have hholds : HoldsStrings ⟨OrderedSet.ofList d.mentionedStrings, [], [], []⟩ d :=
    ⟨rfl, hstringsLe⟩
  refine (failsOnly_checkCount ?_).bind fun descriptors hdescriptors => ?_
  · rw [OrderedSet.length_ofList]
    exact DexFile.PoolsBelow.types
  obtain ⟨rfl, hdescriptorsLe⟩ := checkCount_eq_ok_iff.mp hdescriptors
  obtain ⟨types, htypes⟩ := exists_mapM_eq_ok fun s (hs : s ∈ OrderedSet.ofList _) =>
    hholds.exists_indexOfString
      (DexFile.mem_mentionedStrings_of_descriptor (OrderedSet.mem_ofList.mp hs))
  rw [htypes, ok_bind]
  have htypesLe : types.length ≤ 4294967296 := by
    rw [length_of_mapM htypes]
    exact hdescriptorsLe
  have hholds : HoldsTypes ⟨OrderedSet.ofList d.mentionedStrings, types, [], []⟩ d :=
    ⟨⟨rfl, hstringsLe⟩, htypes, htypesLe⟩
  obtain ⟨storedProtos, hstoredProtos⟩ := exists_mapM_eq_ok
    fun m (hm : m ∈ d.mentionedMethods.map MethodRef.prototype) => by
      obtain ⟨r, hr, rfl⟩ := List.mem_map.mp hm
      exact hholds.exists_storeProto hr
  rw [hstoredProtos, ok_bind]
  refine (failsOnly_checkCount ?_).bind fun protos hprotos => ?_
  · intro hfits
    rw [OrderedSet.length_ofList]
    exact Nat.lt_of_le_of_lt (length_dedup_le_of_mapM hstoredProtos) hfits.protos
  obtain ⟨rfl, hprotosLe⟩ := checkCount_eq_ok_iff.mp hprotos
  have hholds : HoldsProtos ⟨OrderedSet.ofList d.mentionedStrings, types,
      OrderedSet.ofList storedProtos, []⟩ d :=
    ⟨⟨⟨rfl, hstringsLe⟩, htypes, htypesLe⟩, ⟨storedProtos, hstoredProtos, rfl⟩, hprotosLe⟩
  obtain ⟨storedMethods, hstoredMethods⟩ :=
    exists_mapM_eq_ok fun m (hm : m ∈ d.mentionedMethods) => hholds.exists_storeMethod hm
  rw [hstoredMethods, ok_bind]
  refine (failsOnly_checkCount ?_).bind fun methods _ => .of_ok rfl
  intro hfits
  rw [OrderedSet.length_ofList]
  exact Nat.lt_of_le_of_lt (length_dedup_le_of_mapM hstoredMethods) hfits.methods

end Pools

end DexWeave
