/-
  DexWeave/Vm/Logged.lean --- a machine that keeps a record of its calls.

  WHAT THIS FILE IS FOR.  Any machine can be given a record of the calls that were
  made of it, in order, whether they succeeded or not.  Asking whether a class is
  loaded leaves no trace.
-/
import DexWeave.Vm.Basic

set_option autoImplicit false

namespace DexWeave

/-- A call of a machine. -/
inductive VmCall where
  /-- The notification is switched. -/
  | setLoadHook (enabled : Bool)
  /-- A class is to be loaded again. -/
  | retransform (name : ClassName)
  /-- Classes are to get new bytes. -/
  | redefine (names : List ClassName)
  deriving DecidableEq, Repr, Inhabited

namespace Vm

variable {σ : Type}

/-- The machine with a record of its calls beside its state. -/
def logged (vm : Vm σ) : Vm (σ × List VmCall) where
  isLoaded s name := vm.isLoaded s.1 name
  setLoadHook s enabled :=
    let (result, state) := vm.setLoadHook s.1 enabled
    (result, state, s.2 ++ [.setLoadHook enabled])
  redefine s definitions :=
    let (result, state) := vm.redefine s.1 definitions
    (result, state, s.2 ++ [.redefine (definitions.map Prod.fst)])
  retransform s name :=
    (vm.retransform s.1 name).map fun state => (state, s.2 ++ [.retransform name])

end Vm

end DexWeave
