/-
  DexWeave/Container/Encode.lean --- from editable classes to containers.

  WHAT THIS FILE IS FOR.  The pools are built from what the classes mention, every
  item once and in ascending order; then every reference is replaced by a position
  and every label by a distance.  The image depends on what is mentioned and not on
  where, so equal dex files have equal images.

  WHICH FAULT WINS.  The labels of all bodies are checked first, in the order of the
  classes and methods; then the counts; then memory is asked for, once.
-/
import DexWeave.Collection.OrderedSet
import DexWeave.Container.Allocator
import DexWeave.Container.EncodeError
import DexWeave.Container.Mention
import DexWeave.Stored.Container

set_option autoImplicit false

namespace DexWeave

/-! ## Pools -/

/-- A position as an index; there is none behind the last index of 32 bits. -/
def poolIndex (position : Option Nat) : Except EncodeFailure UInt32 :=
  match position with
  | none => .error .notPooled
  | some n => if n < 4294967296 then .ok (UInt32.ofNat n) else .error (.error .outOfRange)

namespace Pools

/-- The index of a string. -/
def indexOfString (p : Pools) (s : String) : Except EncodeFailure UInt32 :=
  poolIndex (p.strings.idxOf? s)

/-- The index of the type with a descriptor. -/
def indexOfType (p : Pools) (descriptor : String) : Except EncodeFailure UInt32 := do
  let s ← p.indexOfString descriptor
  poolIndex (p.types.idxOf? s)

/-- The index of a value type. -/
def indexOfValueType (p : Pools) (t : ValueType) : Except EncodeFailure UInt32 :=
  p.indexOfType t.descriptor

/-- The entry of the prototype pool for a prototype. -/
def storeProto (p : Pools) (m : Prototype) : Except EncodeFailure StoredProto := do
  let result ← p.indexOfType m.result.descriptor
  let parameters ← m.parameters.mapM p.indexOfValueType
  .ok ⟨result, parameters⟩

/-- The entry of the method pool for a method. -/
def storeMethod (p : Pools) (m : MethodRef) : Except EncodeFailure StoredMethodId := do
  let owner ← p.indexOfType m.owner.descriptor
  let name ← p.indexOfString m.name
  let stored ← p.storeProto m.prototype
  let proto ← poolIndex (p.protos.idxOf? stored)
  .ok ⟨owner, name, proto⟩

/-- The index of a method. -/
def indexOfMethod (p : Pools) (m : MethodRef) : Except EncodeFailure UInt32 := do
  let stored ← p.storeMethod m
  poolIndex (p.methods.idxOf? stored)

/-- Refuses a pool with more entries than there are indices. -/
def checkCount {α : Type} (pool : List α) : Except EncodeFailure (List α) :=
  if pool.length ≤ 4294967296 then .ok pool else .error (.error .outOfRange)

/-- The pools of what a dex file mentions. -/
def ofDexFile (d : DexFile) : Except EncodeFailure Pools := do
  let strings ← checkCount (OrderedSet.ofList d.mentionedStrings)
  let descriptors ← checkCount (OrderedSet.ofList d.mentionedDescriptors)
  let types ← descriptors.mapM (indexOfString ⟨strings, [], [], []⟩)
  let stored ← (d.mentionedMethods.map MethodRef.prototype).mapM
    (storeProto ⟨strings, types, [], []⟩)
  let protos ← checkCount (OrderedSet.ofList stored)
  let stored ← d.mentionedMethods.mapM (storeMethod ⟨strings, types, protos, []⟩)
  let methods ← checkCount (OrderedSet.ofList stored)
  .ok ⟨strings, types, protos, methods⟩

end Pools

/-! ## Bodies -/

/-- The labels among the lines, each with the number of instructions before it. -/
def placements : Nat → List Line → List (Label × Nat)
  | _, [] => []
  | n, .label l :: lines => (l, n) :: placements n lines
  | n, .instruction _ :: lines => placements (n + 1) lines

/-- The first label that is one of those seen before it. -/
def firstRepeated (seen : List Label) : List Label → Option Label
  | [] => none
  | l :: ls => if l ∈ seen then some l else firstRepeated (l :: seen) ls

/-- The distance from a branch to a label, in a body of the given length. -/
def offsetTo (places : List (Label × Nat)) (length position : Nat) (l : Label) :
    Except EncodeFailure Int32 :=
  match places.lookup l with
  | none => .error (.error (.undefinedLabel l))
  | some target =>
    if length ≤ target then .error (.error (.danglingLabel l))
    else if 2147483648 ≤ target ∨ 2147483648 ≤ position then .error (.error .outOfRange)
    else .ok (Int32.ofInt ((target : Int) - position))

/-- The stored instructions of editable lines. -/
def lowerLines (pools : Pools) (lines : List Line) :
    Except EncodeFailure (List StoredInstruction) :=
  match firstRepeated [] (labelsOf lines) with
  | some l => .error (.error (.duplicateLabel l))
  | none =>
    let places := placements 0 lines
    let instructions := instructionsOf lines
    instructions.zipIdx.mapM fun (i, position) =>
      i.traverse pools.indexOfString pools.indexOfValueType pools.indexOfMethod
        (offsetTo places instructions.length position)

/-- The stored form of a body. -/
def Body.lower (pools : Pools) (b : Body) : Except EncodeFailure StoredBody := do
  let instructions ← lowerLines pools b.lines
  .ok ⟨b.registers, b.ins, b.outs, instructions⟩

/-! ## Definitions -/

/-- The stored form of a method. -/
def Method.lower (pools : Pools) (m : Method) : Except EncodeFailure StoredMethod := do
  let body ← match m.body with
    | none => .ok none
    | some b => (b.lower pools).map some
  let ref ← pools.indexOfMethod m.ref
  .ok ⟨ref, m.flags.bits, body⟩

/-- The index of a super class. -/
def superIndex (pools : Pools) : Option ClassName → Except EncodeFailure UInt32
  | none => .ok StoredClass.noIndex
  | some c => pools.indexOfType c.descriptor

/-- The stored form of a class. -/
def ClassDef.lower (pools : Pools) (c : ClassDef) : Except EncodeFailure StoredClass := do
  let methods ← c.methods.mapM (·.lower pools)
  let type ← pools.indexOfType c.name.descriptor
  let super ← superIndex pools c.super
  .ok ⟨type, c.flags.bits, super, methods⟩

/-! ## Images -/

/-- The container of a dex file. -/
def Container.ofDexFile (d : DexFile) : Except EncodeFailure Container := do
  let pools ← Pools.ofDexFile d
  let classes ← d.classes.mapM (·.lower pools)
  .ok ⟨pools, classes⟩

/-- The bytes of a dex file as a container. -/
def DexFile.image (d : DexFile) : Except EncodeFailure Bytes := do
  let c ← Container.ofDexFile d
  match c.render? with
  | none => .error (.error .outOfRange)
  | some bytes => .ok bytes

/-- Writes bytes over the front of the memory handed out for them; what lies behind them stays
as it was. -/
def Allocator.place (allocate : Allocator) (bytes : Bytes) : Except EncodeFailure Bytes :=
  match allocate bytes.length with
  | .refused => .error (.error (.allocationFailed bytes.length))
  | .aborted message => .error (.aborted message)
  | .memory contents =>
    if contents.length < bytes.length then
      .error (.error (.allocationFailed bytes.length))
    else .ok (bytes ++ contents.drop bytes.length)

/-- Stores a dex file in memory of the allocator. -/
def DexFile.encode (d : DexFile) (allocate : Allocator) : Except EncodeFailure Bytes := do
  let bytes ← d.image
  allocate.place bytes

end DexWeave
