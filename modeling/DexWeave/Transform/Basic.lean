/-
  DexWeave/Transform/Basic.lean --- transforms of one method.

  WHAT THIS FILE IS FOR.  A transform names a target method, a static hook, and what
  is done with the hook: call it on entry, call it before every normal exit, pass a
  parameter through it, or call it in place of another method.  The hook has no
  prototype of its own; the prototype follows from the target.
-/
import DexWeave.Code.Body
import DexWeave.Types.MethodRef

set_option autoImplicit false

namespace DexWeave

/-- A static method named without its prototype. -/
structure HookRef where
  /-- The class that declares the hook. -/
  owner : ClassName
  /-- The name of the hook. -/
  name : String
  deriving DecidableEq, Repr, Inhabited

namespace HookRef

/-- The hook with a prototype. -/
def withPrototype (h : HookRef) (p : Prototype) : MethodRef := ⟨h.owner, h.name, p⟩

/-- The text shown to people. -/
def display (h : HookRef) : String := h.owner.text ++ "." ++ h.name

end HookRef

/-- The calls that a detour may redirect. -/
inductive DetourKind where
  | interface
  | virtual
  deriving DecidableEq, Repr, Inhabited

namespace DetourKind

/-- The dispatch of the redirected calls. -/
def invokeKind : DetourKind → InvokeKind
  | interface => .interface
  | virtual => .virtual

/-- The word for the kind. -/
def display (k : DetourKind) : String :=
  match k with
  | interface => "interface"
  | virtual => "virtual"

end DetourKind

/-- What is done with a hook. -/
inductive HookAction where
  /-- Call it with every argument before the first instruction, the receiver as an instance of
  its class or as a plain object. -/
  | entry (thisAsObject : Bool)
  /-- Call it before every normal exit, with the result, which it may replace. -/
  | exit
  /-- Replace a parameter, counted without the receiver, by what it returns for it. -/
  | parameter (index : Nat)
  /-- Call it in place of another method, wherever the target calls that one. -/
  | detour (kind : DetourKind) (callee : MethodRef)
  deriving DecidableEq, Repr, Inhabited

/-- A change to one method. -/
structure Transform where
  /-- The method that is changed. -/
  target : MethodRef
  /-- What is done. -/
  action : HookAction
  /-- The hook it is done with. -/
  hook : HookRef
  deriving DecidableEq, Repr, Inhabited

namespace Transform

/-- The class whose definition the transform changes. -/
def className (t : Transform) : ClassName := t.target.owner

/-! ## The prototypes of hooks -/

/-- The prototype of an entry hook: the receiver, unless there is none, and the parameters. -/
def entryPrototype (target : MethodRef) (thisAsObject isStatic : Bool) : Prototype where
  parameters :=
    (if isStatic then []
     else [ValueType.object (if thisAsObject then ClassName.javaLangObject else target.owner)]) ++
      target.prototype.parameters
  result := .void

/-- The prototype of an exit hook: from the result to the result. -/
def exitPrototype (target : MethodRef) : Prototype :=
  match target.prototype.result with
  | .void => ⟨[], .void⟩
  | .value t => ⟨[t], .value t⟩

/-- The prototype of the hook of a parameter: from its type to its type. -/
def parameterPrototype (t : ValueType) : Prototype := ⟨[t], .value t⟩

/-- The prototype of the hook of a detour: the receiver becomes the first parameter. -/
def detourPrototype (callee : MethodRef) : Prototype where
  parameters := ValueType.object callee.owner :: callee.prototype.parameters
  result := callee.prototype.result

end Transform

/-- Why a transform leaves a dex file as it is. -/
inductive Refusal where
  /-- The class does not declare the method. -/
  | methodNotFound
  /-- The method has no body. -/
  | noCode
  /-- The arguments on entry are not those of the prototype. -/
  | incomingMismatch
  /-- The prototype has no such parameter. -/
  | parameterIndex
  /-- The parameter would be in a register behind the last one. -/
  | parameterRegister
  /-- Nothing in the body is to be replaced. -/
  | noCallSites
  deriving DecidableEq, Repr, Inhabited

/-- The text of the refusal. -/
def Refusal.display : Refusal → String
  | methodNotFound => "method not found"
  | noCode => "skipped: method has no code"
  | incomingMismatch => "skipped: incoming registers do not match the prototype"
  | parameterIndex => "skipped: parameter index out of range"
  | parameterRegister => "skipped: parameter register out of range"
  | noCallSites => "no call sites"

end DexWeave
