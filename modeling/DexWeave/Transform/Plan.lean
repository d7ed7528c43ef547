/-
  DexWeave/Transform/Plan.lean --- what a transform weaves into its target.

  WHAT THIS FILE IS FOR.  For each action, the calls that are inserted and the
  registers they are passed.  Hooks that take arguments rely on where the arguments
  are on entry, so they are refused where a body disagrees with its prototype.
-/
import DexWeave.Transform.Basic
import DexWeave.Transform.Splice

set_option autoImplicit false

namespace DexWeave.Transform

/-- The registers taken by a receiver. -/
def receiverRegisters (isStatic : Bool) : Nat := if isStatic then 0 else 1

/-- Whether the arguments on entry are exactly those of the prototype, as registers are counted. -/
def incomingMatches (target : MethodRef) (isStatic : Bool) (b : Body) : Bool :=
  b.ins = ValueType.countWidths target.prototype.parameters +
    UInt16.ofNat (receiverRegisters isStatic)

/-- Where a parameter is, counted from the first register that holds an argument. -/
def parameterOffset (target : MethodRef) (isStatic : Bool) (index : Nat) : UInt16 :=
  ValueType.countWidths (target.prototype.parameters.take index) +
    UInt16.ofNat (receiverRegisters isStatic)

/-- Passes all arguments to the hook. -/
def entrySplice (hook : MethodRef) (b : Body) : Splice where
  opening := [.invokeStatic hook b.incoming]
  block _ := none
  room := b.incoming.length

/-- Replaces the value that starts in a register by what the hook returns for it. -/
def parameterSplice (hook : MethodRef) (kind : ValueKind) (r : Register) : Splice where
  opening := [.invokeStatic hook (kind.registers r), .moveResult kind r]
  block _ := none
  room := (kind.registers r).length

/-- The block of a return, if it is of the form the result asks for. -/
def exitBlock (hook : MethodRef) (result : ResultType) (i : SymbolicInstruction) :
    Option (List SymbolicInstruction) :=
  match result, i with
  | .void, .returnVoid => some [.invokeStatic hook [], .returnVoid]
  | .value _, .returnValue k s =>
    some [.invokeStatic hook (k.registers s), .moveResult k s, .returnValue k s]
  | _, _ => none

/-- The argument registers of the hook before a return. -/
def exitRoom (result : ResultType) (i : SymbolicInstruction) : Nat :=
  match result, i with
  | .value _, .returnValue k s => (k.registers s).length
  | _, _ => 0

/-- Calls the hook before every return of the form the result asks for. -/
def exitSplice (hook : MethodRef) (result : ResultType) (b : Body) : Splice where
  opening := []
  block := exitBlock hook result
  room := ((instructionsOf b.lines).map (exitRoom result)).foldl max 0

/-- The call that takes the place of a call of the callee, if the dispatch is the one asked for. -/
def detourBlock (hook : MethodRef) (kind : InvokeKind) (callee : MethodRef)
    (i : SymbolicInstruction) : Option (List SymbolicInstruction) :=
  match i with
  | .invoke k m args =>
    if k = kind ∧ m = callee then some [.invokeStatic hook args] else none
  | _ => none

/-- Calls the hook in place of the callee, with the same arguments. -/
def detourSplice (hook : MethodRef) (kind : InvokeKind) (callee : MethodRef) : Splice where
  opening := []
  block := detourBlock hook kind callee
  room := 0

/-- What the transform weaves into a body of its target. -/
def plan (t : Transform) (isStatic : Bool) (b : Body) : Except Refusal Splice :=
  match t.action with
  | .entry thisAsObject =>
    if incomingMatches t.target isStatic b then
      .ok (entrySplice (t.hook.withPrototype (entryPrototype t.target thisAsObject isStatic)) b)
    else .error .incomingMismatch
  | .parameter index =>
    match t.target.prototype.parameters[index]? with
    | none => .error .parameterIndex
    | some type =>
      if incomingMatches t.target isStatic b then
        let register :=
          b.firstIncoming.index.toNat + (parameterOffset t.target isStatic index).toNat
        if register < 65536 then
          .ok (parameterSplice (t.hook.withPrototype (parameterPrototype type))
            (ValueKind.ofType type) ⟨UInt16.ofNat register⟩)
        else .error .parameterRegister
      else .error .incomingMismatch
  | .exit =>
    .ok (exitSplice (t.hook.withPrototype (exitPrototype t.target)) t.target.prototype.result b)
  | .detour kind callee =>
    .ok (detourSplice (t.hook.withPrototype (detourPrototype callee)) kind.invokeKind callee)

/-! ## Counting -/

/-- The number of registers of the arguments on entry, a receiver among them. -/
def argumentRegisters (target : MethodRef) (isStatic : Bool) : Nat :=
  ValueType.totalWidth target.prototype.parameters + receiverRegisters isStatic

variable {target : MethodRef} {isStatic : Bool} {b : Body}

theorem incomingMatches_iff : incomingMatches target isStatic b = true ↔
    b.ins = UInt16.ofNat (argumentRegisters target isStatic) := by
  rw [incomingMatches, decide_eq_true_iff, ValueType.countWidths_eq, ← UInt16.ofNat_add,
    argumentRegisters]

theorem incomingMatches_of_ins_eq (h : b.ins.toNat = argumentRegisters target isStatic) :
    incomingMatches target isStatic b = true := by
  rw [incomingMatches_iff, ← h, UInt16.ofNat_toNat]

/-- If the registers of the arguments can be counted, the arguments are those of the prototype. -/
theorem ins_eq_of_incomingMatches (hcount : argumentRegisters target isStatic < 65536)
    (h : incomingMatches target isStatic b = true) :
    b.ins.toNat = argumentRegisters target isStatic := by
  rw [incomingMatches_iff.mp h, UInt16.toNat_ofNat_of_lt' hcount]

theorem parameterOffset_eq (target : MethodRef) (isStatic : Bool) (index : Nat) :
    parameterOffset target isStatic index =
      UInt16.ofNat (ValueType.totalWidth (target.prototype.parameters.take index) +
        receiverRegisters isStatic) := by
  rw [parameterOffset, ValueType.countWidths_eq, ← UInt16.ofNat_add]

end DexWeave.Transform
