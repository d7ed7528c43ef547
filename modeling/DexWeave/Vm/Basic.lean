/-
  DexWeave/Vm/Basic.lean --- what instrumentation needs of a virtual machine.

  WHAT THIS FILE IS FOR.  A machine tells which classes it has loaded, switches the
  notification of class loads on and off, replaces the bytes of classes, and loads a
  class again.  While it does the last, it hands the bytes of every class it loads to
  a hook, which may return other bytes for them; what the machine does next may depend
  on them.  So loading again is not a function but a conversation: a tree that
  branches on the answers of the hook.

  MEMORY.  New bytes have to be in memory of the machine.  What memory it has at hand comes
  with every load, so it may depend on the state of the machine and on all that was said
  before.
-/
import DexWeave.Container.Allocator
import DexWeave.Types.ClassName

set_option autoImplicit false

namespace DexWeave

/-- Why a machine refuses a call. -/
inductive VmError where
  /-- The class cannot be changed. -/
  | unmodifiableClass (name : ClassName)
  /-- The new bytes of the class are not accepted. -/
  | invalidClassFormat (name : ClassName)
  /-- The notification cannot be switched. -/
  | notificationMode
  /-- Any other error, by its number. -/
  | code (number : UInt32)
  deriving DecidableEq, Repr, Inhabited

/-- The text of the error. -/
def VmError.message : VmError → String
  | unmodifiableClass name => "Class " ++ name.text ++ " is not modifiable"
  | invalidClassFormat name => "The VM rejected the class bytes of " ++ name.text
  | notificationMode => "Failed to change the notification mode of the class-file-load hook"
  | code number => "VM call failed with error code " ++ toString number.toNat

/-- A class that is being loaded. -/
structure ClassLoad where
  /-- The class. -/
  name : ClassName
  /-- The bytes of the container that holds it. -/
  bytes : Bytes
  deriving DecidableEq, Repr, Inhabited

/-- A machine loading a class again: it is done, or it hands a load to the hook and goes on
with the answer. -/
inductive Loading (σ : Type) where
  /-- The machine is done. -/
  | done (result : Except VmError Unit) (state : σ)
  /-- A class is loaded; the hook keeps its bytes, or returns new ones in memory that it is
  given when it asks for some. -/
  | load (allocate : Allocator) (event : ClassLoad) (resume : Option Bytes → Loading σ)

namespace Loading

variable {σ τ η : Type}

/-- Lets a hook with a state of its own answer every load. -/
def run (hook : η → Allocator × ClassLoad → Option Bytes × η) :
    η → Loading σ → (Except VmError Unit × σ) × η
  | h, done result state => ((result, state), h)
  | h, load allocate event resume =>
    let (returned, h') := hook h (allocate, event)
    run hook h' (resume returned)

/-- The same conversation with another view of the final state. -/
def map (f : σ → τ) : Loading σ → Loading τ
  | done result state => done result (f state)
  | load allocate event resume => load allocate event fun returned => map f (resume returned)

theorem run_map (f : σ → τ) (hook : η → Allocator × ClassLoad → Option Bytes × η) (h : η)
    (l : Loading σ) :
    (l.map f).run hook h =
      (((l.run hook h).1.1, f (l.run hook h).1.2), (l.run hook h).2) := by
  induction l generalizing h with
  | done result state => rfl
  | load allocate event resume ih =>
    exact ih (hook h (allocate, event)).1 (hook h (allocate, event)).2

end Loading

/-- A virtual machine on states of type `σ`. -/
structure Vm (σ : Type) where
  /-- Whether a class is loaded. -/
  isLoaded : σ → ClassName → Bool
  /-- Switches the notification of class loads on or off. -/
  setLoadHook : σ → Bool → Except VmError Unit × σ
  /-- Replaces the bytes of classes in one step. -/
  redefine : σ → List (ClassName × Bytes) → Except VmError Unit × σ
  /-- Loads a class again. -/
  retransform : σ → ClassName → Loading σ

end DexWeave
