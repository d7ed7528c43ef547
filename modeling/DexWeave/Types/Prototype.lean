/-
  DexWeave/Types/Prototype.lean --- parameter and result types of methods.

  WHAT THIS FILE IS FOR.  A prototype is the list of a method's parameter types and
  the type of its result, which may be absent.  Its descriptor puts the parameters
  between parentheses and the result behind them.

  THE ORDER.  Prototypes are ordered by their parameters first; a result type comes
  before no result.
-/
import DexWeave.Types.ValueType

set_option autoImplicit false

namespace DexWeave

/-- What a method returns. -/
inductive ResultType where
  /-- A value of the given type. -/
  | value (type : ValueType)
  /-- Nothing. -/
  | void
  deriving DecidableEq, Repr, Inhabited, Hashable, Ord

namespace ResultType

/-- The descriptor of the result. -/
def descriptor : ResultType → String
  | value t => t.descriptor
  | void => "V"

/-- The name shown to people. -/
def display : ResultType → String
  | value t => t.display
  | void => "void"

/-- The result whose descriptor is given. -/
def ofDescriptor? (descriptor : String) : Option ResultType :=
  if descriptor = "V" then some void else (ValueType.ofDescriptor? descriptor).map value

instance : ToString ResultType := ⟨display⟩

end ResultType

/-- The parameter types and the result type of a method. -/
structure Prototype where
  /-- The types of the parameters, without a receiver. -/
  parameters : List ValueType
  /-- The type of the result. -/
  result : ResultType
  deriving DecidableEq, Repr, Inhabited, Hashable, Ord

namespace Prototype

/-- The descriptor of the prototype. -/
def descriptor (p : Prototype) : String :=
  "(" ++ String.join (p.parameters.map ValueType.descriptor) ++ ")" ++ p.result.descriptor

/-- Reads parameter types up to the closing parenthesis, with what follows it. -/
def readParameters (cs : List Char) : Option (List ValueType × List Char) :=
  match cs with
  | ')' :: rest => some ([], rest)
  | cs =>
    match h : ValueType.read cs with
    | none => none
    | some (t, rest) =>
      have := ValueType.length_read h
      (readParameters rest).map fun (ts, after) => (t :: ts, after)
termination_by cs.length

/-- The prototype whose descriptor is given. -/
def ofDescriptor? (descriptor : String) : Option Prototype :=
  match descriptor.toList with
  | '(' :: cs => do
    let (parameters, rest) ← readParameters cs
    let result ← ResultType.ofDescriptor? (String.ofList rest)
    some ⟨parameters, result⟩
  | _ => none

/-- The number of registers that hold the parameters, as it is counted. -/
def parameterRegisters (p : Prototype) : Nat := (ValueType.countWidths p.parameters).toNat

instance : ToString Prototype := ⟨descriptor⟩

end Prototype

end DexWeave
