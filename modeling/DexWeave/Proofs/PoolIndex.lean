/-
  DexWeave/Proofs/PoolIndex.lean --- indices and what they stand for.

  WHAT THIS FILE IS FOR.  Storing replaces a string, a type or a method by its index in
  a pool; reading looks the index up again.  Neither side depends on the order of the
  pools, so the two are compared for pools of any content: whatever an item was
  indexed as is what looking that index up returns, if the item can be read back.

  WHICH POOLS HOLD WHAT.  The pools built for a dex file hold every item that it
  mentions, so an index is missing only where a pool has more entries than there are
  indices.
-/
import DexWeave.Container.Encode
import DexWeave.Container.Lookup
import DexWeave.Proofs.Descriptor
import DexWeave.Proofs.Fallible

set_option autoImplicit false

namespace DexWeave

open Fallible

/-! ## Positions -/

theorem poolIndex_eq_ok_iff {position : Option Nat} {i : UInt32} :
    poolIndex position = .ok i ↔ position = some i.toNat := by
  cases position with
  | none => simp [poolIndex]
  | some n =>
    simp only [poolIndex, Option.some.injEq]
    split
    · rename_i hn
      rw [Except.ok.injEq]
      constructor
      · rintro rfl
        exact (UInt32.toNat_ofNat_of_lt' hn).symm
      · rintro rfl
        exact UInt32.ofNat_toNat
    · rename_i hn
      have := i.toNat_lt
      simp only [reduceCtorEq, false_iff]
      omega

section Positions

variable {α : Type} [DecidableEq α]

theorem getElem?_of_poolIndex {pool : List α} {a : α} {i : UInt32}
    (h : poolIndex (pool.idxOf? a) = .ok i) : pool[i.toNat]? = some a := by
  obtain ⟨hlt, ha, -⟩ := List.idxOf?_eq_some_iff.mp (poolIndex_eq_ok_iff.mp h)
  rw [List.getElem?_eq_getElem hlt, ha]

theorem exists_poolIndex {pool : List α} {a : α} (ha : a ∈ pool)
    (hlen : pool.length ≤ 4294967296) : ∃ i, poolIndex (pool.idxOf? a) = .ok i := by
  obtain ⟨n, hn⟩ := Option.isSome_iff_exists.mp (List.isSome_idxOf?.mpr ha)
  obtain ⟨hlt, -⟩ := List.idxOf?_eq_some_iff.mp hn
  refine ⟨UInt32.ofNat n, ?_⟩
  rw [hn, poolIndex, if_pos (by omega)]

end Positions

namespace Pools

/-! ## Looking up what was indexed -/

theorem entry_eq_ok_iff {α : Type} {kind : PoolKind} {pool : List α} {i : UInt32} {a : α} :
    entry kind pool i = .ok a ↔ pool[i.toNat]? = some a := by
  rw [entry]
  cases pool[i.toNat]? with
  | none => exact iff_of_false nofun nofun
  | some b => rw [Except.ok.injEq, Option.some.injEq]

theorem entry_eq_ok {α : Type} {kind : PoolKind} {pool : List α} {i : UInt32} {a : α}
    (h : pool[i.toNat]? = some a) : entry kind pool i = .ok a :=
  entry_eq_ok_iff.mpr h

theorem stringAt_of_indexOfString {p : Pools} {s : String} {i : UInt32}
    (h : p.indexOfString s = .ok i) : p.stringAt i = .ok s :=
  entry_eq_ok (getElem?_of_poolIndex h)

theorem descriptorAt_of_indexOfType {p : Pools} {descriptor : String} {i : UInt32}
    (h : p.indexOfType descriptor = .ok i) : p.descriptorAt i = .ok descriptor := by
  obtain ⟨s, hs, hi⟩ := bind_eq_ok.mp h
  rw [descriptorAt, entry_eq_ok (getElem?_of_poolIndex hi), ok_bind]
  exact stringAt_of_indexOfString hs

theorem classAt_of_indexOfType {p : Pools} {c : ClassName} {i : UInt32}
    (h : p.indexOfType c.descriptor = .ok i) : ReturnsWhen (p.classAt i) (c.text ≠ "") c := by
  refine .of_ite (e := .notAClassType c.descriptor) ?_
  rw [classAt, descriptorAt_of_indexOfType h, ok_bind, ClassName.ofDescriptor?_descriptor]
  by_cases hc : c.text = "" <;> simp [hc]

theorem valueTypeAt_of_indexOfValueType {p : Pools} {t : ValueType} {i : UInt32}
    (h : p.indexOfValueType t = .ok i) : ReturnsWhen (p.valueTypeAt i) t.WellFormed t := by
  refine .of_ite (e := .invalidDescriptor) ?_
  rw [valueTypeAt, descriptorAt_of_indexOfType h, ok_bind, ValueType.ofDescriptor?_descriptor]
  by_cases ht : t.WellFormed <;> simp [ht]

theorem resultTypeAt_of_indexOfType {p : Pools} {r : ResultType} {i : UInt32}
    (h : p.indexOfType r.descriptor = .ok i) : ReturnsWhen (p.resultTypeAt i) r.WellFormed r := by
  refine .of_ite (e := .invalidDescriptor) ?_
  rw [resultTypeAt, descriptorAt_of_indexOfType h, ok_bind, ResultType.ofDescriptor?_descriptor]
  by_cases hr : r.WellFormed <;> simp [hr]

theorem prototypeAt_of_storeProto {p : Pools} {m : Prototype} {stored : StoredProto}
    {i : UInt32} (h : p.storeProto m = .ok stored)
    (hi : poolIndex (p.protos.idxOf? stored) = .ok i) :
    ReturnsWhen (p.prototypeAt i) m.WellFormed m := by
  obtain ⟨result, hresult, h⟩ := bind_eq_ok.mp h
  obtain ⟨parameters, hparameters, h⟩ := bind_eq_ok.mp h
  obtain rfl := Except.ok.inj h
  have hall : List.Forall₂ (fun j t => ReturnsWhen (p.valueTypeAt j) t.WellFormed t)
      parameters m.parameters :=
    (mapM_eq_ok_iff.mp hparameters).flip.imp fun _ _ => valueTypeAt_of_indexOfValueType
  have hmap := ReturnsWhen.mapM (g := id) hall
  rw [List.map_id] at hmap
  rw [prototypeAt, entry_eq_ok (getElem?_of_poolIndex hi), ok_bind]
  refine ((resultTypeAt_of_indexOfType hresult).bind
    (hmap.bind_ok (Prototype.mk · m.result))).congr ?_
  exact ⟨fun h => ⟨h.2, h.1⟩, fun h => ⟨h.result, h.parameters⟩⟩

theorem methodAt_of_indexOfMethod {p : Pools} {m : MethodRef} {i : UInt32}
    (h : p.indexOfMethod m = .ok i) : ReturnsWhen (p.methodAt i) m.WellFormed m := by
  obtain ⟨stored, hstored, hi⟩ := bind_eq_ok.mp h
  obtain ⟨owner, howner, hstored⟩ := bind_eq_ok.mp hstored
  obtain ⟨name, hname, hstored⟩ := bind_eq_ok.mp hstored
  obtain ⟨proto, hproto, hstored⟩ := bind_eq_ok.mp hstored
  obtain ⟨index, hindex, hstored⟩ := bind_eq_ok.mp hstored
  obtain rfl := Except.ok.inj hstored
  rw [methodAt, entry_eq_ok (getElem?_of_poolIndex hi), ok_bind]
  simp only [stringAt_of_indexOfString hname, ok_bind]
  refine ((classAt_of_indexOfType howner).bind
    ((prototypeAt_of_storeProto hproto hindex).bind_ok (MethodRef.mk m.owner m.name ·))).congr ?_
  exact ⟨fun h => ⟨h.1, h.2⟩, fun h => ⟨h.owner, h.prototype⟩⟩

/-! ## Indices of what is there -/

/-- The pools hold a descriptor: its string, and the type at that string. -/
structure HasType (p : Pools) (descriptor : String) : Prop where
  string : ∃ i, p.indexOfString descriptor = .ok i
  type : ∀ i, p.indexOfString descriptor = .ok i → i ∈ p.types

theorem HasType.exists_indexOfType {p : Pools} {descriptor : String}
    (h : p.HasType descriptor) (hlen : p.types.length ≤ 4294967296) :
    ∃ i, p.indexOfType descriptor = .ok i := by
  obtain ⟨s, hs⟩ := h.string
  obtain ⟨i, hi⟩ := exists_poolIndex (h.type s hs) hlen
  exact ⟨i, bind_eq_ok.mpr ⟨s, hs, hi⟩⟩

theorem exists_storeProto {p : Pools} {m : Prototype} (hresult : p.HasType m.result.descriptor)
    (hparameters : ∀ t ∈ m.parameters, p.HasType t.descriptor)
    (hlen : p.types.length ≤ 4294967296) : ∃ stored, p.storeProto m = .ok stored := by
  obtain ⟨result, hr⟩ := hresult.exists_indexOfType hlen
  obtain ⟨parameters, hp⟩ := exists_mapM_eq_ok (f := p.indexOfValueType) fun t ht =>
    (hparameters t ht).exists_indexOfType hlen
  exact ⟨⟨result, parameters⟩, bind_eq_ok.mpr ⟨result, hr, bind_eq_ok.mpr ⟨parameters, hp, rfl⟩⟩⟩

theorem exists_storeMethod {p : Pools} {m : MethodRef} (howner : p.HasType m.owner.descriptor)
    (hname : ∃ i, p.indexOfString m.name = .ok i) {stored : StoredProto}
    (hproto : p.storeProto m.prototype = .ok stored) (hmem : stored ∈ p.protos)
    (htypes : p.types.length ≤ 4294967296) (hprotos : p.protos.length ≤ 4294967296) :
    ∃ stored, p.storeMethod m = .ok stored := by
  obtain ⟨owner, ho⟩ := howner.exists_indexOfType htypes
  obtain ⟨name, hn⟩ := hname
  obtain ⟨index, hi⟩ := exists_poolIndex hmem hprotos
  exact ⟨⟨owner, name, index⟩, bind_eq_ok.mpr ⟨owner, ho, bind_eq_ok.mpr ⟨name, hn,
    bind_eq_ok.mpr ⟨stored, hproto, bind_eq_ok.mpr ⟨index, hi, rfl⟩⟩⟩⟩⟩

end Pools

end DexWeave
