/-
  DexWeave/Container/Lookup.lean --- what pool positions stand for.

  WHAT THIS FILE IS FOR.  Reading an editable class looks up every position that its
  stored form holds.  A position may lie behind the end of its pool, a type may be no
  class where a class is needed, and a descriptor may be malformed.
-/
import DexWeave.Stored.Pools
import DexWeave.Types.MethodRef

set_option autoImplicit false

namespace DexWeave.Pools

/-- The entry of a pool at a position. -/
def entry {α : Type} (kind : PoolKind) (pool : List α) (i : UInt32) : Except DecodeError α :=
  match pool[i.toNat]? with
  | some a => .ok a
  | none => .error (.badPoolIndex kind i)

/-- The string at a position. -/
def stringAt (p : Pools) (i : UInt32) : Except DecodeError String := entry .string p.strings i

/-- The descriptor of the type at a position. -/
def descriptorAt (p : Pools) (i : UInt32) : Except DecodeError String := do
  let s ← entry .type p.types i
  p.stringAt s

/-- The value type at a position of the type pool. -/
def valueTypeAt (p : Pools) (i : UInt32) : Except DecodeError ValueType := do
  let descriptor ← p.descriptorAt i
  match ValueType.ofDescriptor? descriptor with
  | some t => .ok t
  | none => .error .invalidDescriptor

/-- The result type at a position of the type pool. -/
def resultTypeAt (p : Pools) (i : UInt32) : Except DecodeError ResultType := do
  let descriptor ← p.descriptorAt i
  match ResultType.ofDescriptor? descriptor with
  | some t => .ok t
  | none => .error .invalidDescriptor

/-- The class at a position of the type pool. -/
def classAt (p : Pools) (i : UInt32) : Except DecodeError ClassName := do
  let descriptor ← p.descriptorAt i
  match ClassName.ofDescriptor? descriptor with
  | some c => .ok c
  | none => .error (.notAClassType descriptor)

/-- The prototype at a position; its result is looked up before its parameters. -/
def prototypeAt (p : Pools) (i : UInt32) : Except DecodeError Prototype := do
  let stored ← entry .proto p.protos i
  let result ← p.resultTypeAt stored.result
  let parameters ← stored.parameters.mapM p.valueTypeAt
  .ok ⟨parameters, result⟩

/-- The method at a position: its owner, its name and its prototype, in this order. -/
def methodAt (p : Pools) (i : UInt32) : Except DecodeError MethodRef := do
  let stored ← entry .method p.methods i
  let owner ← p.classAt stored.owner
  let name ← p.stringAt stored.name
  let prototype ← p.prototypeAt stored.proto
  .ok ⟨owner, name, prototype⟩

/-- The position of the first type with the given descriptor. -/
def findType? (p : Pools) (descriptor : String) : Option Nat :=
  p.types.findIdx? fun i => p.strings[i.toNat]? = some descriptor

end DexWeave.Pools
