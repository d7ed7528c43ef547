/-
  DexWeave/Container/Decode.lean --- from containers to editable classes.

  WHAT THIS FILE IS FOR.  Every position is replaced by what it stands for, and every
  branch offset by a label.  Labels are placed where some branch leads and are
  numbered from zero in the order of their places, so a container has one editable
  form.

  WHICH FAULT WINS.  Within a body, a branch that leaves it is reported before any
  position that cannot be looked up.
-/
import DexWeave.Collection.OrderedSet
import DexWeave.Container.Lookup
import DexWeave.Dex.DexFile
import DexWeave.Stored.Container

set_option autoImplicit false

namespace DexWeave

/-! ## Bodies -/

/-- Where a branch leads in a body of the given length. -/
def branchTarget (length position : Nat) (offset : Int32) : Except DecodeError Nat :=
  let target := (position : Int) + offset.toInt
  if 0 ≤ target ∧ target < length then .ok target.toNat
  else .error (.invalidBranchTarget position offset)

/-- Where the branches of a body lead, in the order of the branches. -/
def branchTargets (body : List StoredInstruction) : Except DecodeError (List Nat) :=
  (body.zipIdx.filterMap fun (i, position) => i.target?.map fun offset => (position, offset)).mapM
    fun (position, offset) => branchTarget body.length position offset

/-- The label of a place, among the ascending places that have one. -/
def labelOf (places : List Nat) (place : Nat) : Label := ⟨UInt32.ofNat (places.idxOf place)⟩

/-- The editable lines of a stored body. -/
def liftLines (pools : Pools) (body : List StoredInstruction) :
    Except DecodeError (List Line) := do
  let targets ← branchTargets body
  let places := OrderedSet.ofList targets
  let groups ← body.zipIdx.mapM fun (stored, position) => do
    let i ← stored.traverse pools.stringAt pools.valueTypeAt pools.methodAt fun offset =>
      (branchTarget body.length position offset).map (labelOf places)
    let labels := if position ∈ places then [Line.label (labelOf places position)] else []
    .ok (labels ++ [Line.instruction i])
  .ok groups.flatten

/-- The editable form of a stored body. -/
def StoredBody.lift (pools : Pools) (b : StoredBody) : Except DecodeError Body := do
  let lines ← liftLines pools b.instructions
  .ok ⟨b.registers, b.ins, b.outs, lines⟩

/-! ## Definitions -/

/-- A flag word whose bits all have a meaning. -/
def knownFlags (word : UInt32) : Except DecodeError AccessFlags :=
  if AccessFlags.isKnown ⟨word⟩ then .ok ⟨word⟩ else .error (.unknownFlags word)

/-- The editable form of a stored method. -/
def StoredMethod.lift (pools : Pools) (m : StoredMethod) : Except DecodeError Method := do
  let ref ← pools.methodAt m.ref
  let flags ← knownFlags m.flags
  match m.body with
  | none => .ok ⟨ref, flags, none⟩
  | some b =>
    let body ← b.lift pools
    .ok ⟨ref, flags, some body⟩

/-- The super class a stored index stands for. -/
def superAt (pools : Pools) (i : UInt32) : Except DecodeError (Option ClassName) :=
  if i = StoredClass.noIndex then .ok none else (pools.classAt i).map some

/-- The editable form of a stored class. -/
def StoredClass.lift (pools : Pools) (c : StoredClass) : Except DecodeError ClassDef := do
  let name ← pools.classAt c.type
  let flags ← knownFlags c.flags
  let super ← superAt pools c.super
  let methods ← c.methods.mapM (·.lift pools)
  .ok ⟨name, flags, super, methods⟩

/-! ## Containers -/

namespace Container

/-- The position of the first definition whose type is the first one with the descriptor of the
class. -/
def classIndex? (c : Container) (name : ClassName) : Option Nat := do
  let type ← c.pools.findType? name.descriptor
  c.classes.findIdx? (·.type.toNat = type)

/-- The editable form of the definition at a position. -/
def classDefAt (c : Container) (position : Nat) : Except DecodeError ClassDef :=
  match c.classes[position]? with
  | some stored => stored.lift c.pools
  | none => .error (.noClassAt position)

/-- The editable form of the whole container. -/
def toDexFile (c : Container) : Except DecodeError DexFile := do
  let classes ← c.classes.mapM (·.lift c.pools)
  .ok ⟨classes⟩

end Container

/-- Reads the definition of one class out of a container; the result defines that class only. -/
def DexFile.decode (bs : Bytes) (name : ClassName) : Except DecodeError DexFile := do
  let c ← Container.parse bs
  match c.classIndex? name with
  | none => .error (.classNotFound name)
  | some position =>
    let definition ← c.classDefAt position
    .ok ⟨[definition]⟩

end DexWeave
