/-
  DexWeave/Stored/Pools.lean --- the pools of a container.

  WHAT THIS FILE IS FOR.  Strings, types, prototypes and methods are stored once, in
  four pools, and named everywhere else by their position.  A type is the position of
  its descriptor among the strings; a prototype and a method are made of positions.

  THE ORDERS.  Written pools ascend: prototypes by result, then by parameters, and
  methods by owner, then by name, then by prototype.  Both orders are total, and only
  equal entries compare as equal.
-/
import DexWeave.Format.Text
import DexWeave.Format.Word

set_option autoImplicit false

namespace DexWeave

/-- An entry of the prototype pool. -/
structure StoredProto where
  /-- The type of the result. -/
  result : UInt32
  /-- The types of the parameters. -/
  parameters : List UInt32
  deriving DecidableEq, Repr, Inhabited

namespace StoredProto

instance : Ord StoredProto := ⟨fun a b =>
  (compare a.result b.result).then (compare a.parameters b.parameters)⟩

instance : Std.TransOrd StoredProto :=
  inferInstanceAs (Std.TransCmp
    (compareLex (compareOn StoredProto.result) (compareOn StoredProto.parameters)))

instance : Std.LawfulEqOrd StoredProto where
  eq_of_compare := by
    intro a b h
    obtain ⟨hr, hp⟩ := Ordering.then_eq_eq.mp h
    cases a
    cases b
    rw [StoredProto.mk.injEq]
    exact ⟨Std.compare_eq_iff_eq.mp hr, Std.compare_eq_iff_eq.mp hp⟩

/-- How an entry of the prototype pool is stored. -/
def format : Format StoredProto :=
  (Format.u32.pair (Format.u32.counted 2)).map
    (fun (result, parameters) => ⟨result, parameters⟩)
    (fun p => (p.result, p.parameters))

theorem format_exact : format.Exact :=
  Format.map_exact_of_inverse
    (Format.pair_exact Format.u32_exact (Format.counted_exact Format.u32_exact 2))
    (fun _ => rfl) (fun _ => rfl)

end StoredProto

/-- An entry of the method pool. -/
structure StoredMethodId where
  /-- The type of the owner. -/
  owner : UInt32
  /-- The string of the name. -/
  name : UInt32
  /-- The prototype. -/
  proto : UInt32
  deriving DecidableEq, Repr, Inhabited

namespace StoredMethodId

instance : Ord StoredMethodId := ⟨fun a b =>
  (compare a.owner b.owner).then ((compare a.name b.name).then (compare a.proto b.proto))⟩

instance : Std.TransOrd StoredMethodId :=
  inferInstanceAs (Std.TransCmp
    (compareLex (compareOn StoredMethodId.owner)
      (compareLex (compareOn StoredMethodId.name) (compareOn StoredMethodId.proto))))

instance : Std.LawfulEqOrd StoredMethodId where
  eq_of_compare := by
    intro a b h
    obtain ⟨ho, hrest⟩ := Ordering.then_eq_eq.mp h
    obtain ⟨hn, hp⟩ := Ordering.then_eq_eq.mp hrest
    cases a
    cases b
    rw [StoredMethodId.mk.injEq]
    exact ⟨Std.compare_eq_iff_eq.mp ho, Std.compare_eq_iff_eq.mp hn,
      Std.compare_eq_iff_eq.mp hp⟩

/-- How an entry of the method pool is stored: the prototype stands before the name. -/
def format : Format StoredMethodId :=
  (Format.u32.pair (Format.u32.pair Format.u32)).map
    (fun (owner, proto, name) => ⟨owner, name, proto⟩)
    (fun m => (m.owner, m.proto, m.name))

theorem format_exact : format.Exact :=
  Format.map_exact_of_inverse
    (Format.pair_exact Format.u32_exact (Format.pair_exact Format.u32_exact Format.u32_exact))
    (fun _ => rfl) (fun _ => rfl)

end StoredMethodId

/-- The four pools of a container. -/
structure Pools where
  /-- The strings. -/
  strings : List String
  /-- The types, each the position of its descriptor among the strings. -/
  types : List UInt32
  /-- The prototypes. -/
  protos : List StoredProto
  /-- The methods. -/
  methods : List StoredMethodId
  deriving DecidableEq, Repr, Inhabited

namespace Pools

/-- How the pools are stored: one after the other, each behind its size. -/
def format : Format Pools :=
  ((Format.text.counted 4).pair ((Format.u32.counted 4).pair
    ((StoredProto.format.counted 4).pair (StoredMethodId.format.counted 4)))).map
    (fun (strings, types, protos, methods) => ⟨strings, types, protos, methods⟩)
    (fun p => (p.strings, p.types, p.protos, p.methods))

theorem format_exact : format.Exact :=
  Format.map_exact_of_inverse
    (Format.pair_exact (Format.counted_exact Format.text_exact 4)
      (Format.pair_exact (Format.counted_exact Format.u32_exact 4)
        (Format.pair_exact (Format.counted_exact StoredProto.format_exact 4)
          (Format.counted_exact StoredMethodId.format_exact 4))))
    (fun _ => rfl) (fun _ => rfl)

end Pools

end DexWeave
