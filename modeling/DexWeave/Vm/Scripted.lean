/-
  DexWeave/Vm/Scripted.lean --- a machine that follows a script.

  WHAT THIS FILE IS FOR.  A scripted machine is a table of loaded classes with a
  script that says which calls fail and which classes are loaded when one is loaded
  again.  Loads reach the hook only while the notification is on; bytes that the hook
  returns replace those of the class, loading it if it was not.
-/
import DexWeave.Collection.Table
import DexWeave.Vm.Basic

set_option autoImplicit false

namespace DexWeave

/-- What happens when one class is loaded again. -/
structure RetransformScript where
  /-- The error raised before any load. -/
  error : Option VmError
  /-- The classes that are loaded; by default the class itself. -/
  events : Option (List ClassName)
  /-- The error raised after the loads. -/
  errorAfter : Option VmError
  deriving DecidableEq, Repr, Inhabited

/-- Which calls fail. -/
structure VmScript where
  /-- The error raised by switching the notification on. -/
  enableError : Option VmError
  /-- The error raised by switching it off. -/
  disableError : Option VmError
  /-- The error raised by replacing bytes. -/
  redefineError : Option VmError
  /-- What happens when a class is loaded again. -/
  retransform : List (ClassName × RetransformScript)
  deriving DecidableEq, Repr, Inhabited

/-- The state of a scripted machine. -/
structure ScriptedVm where
  /-- The script. -/
  script : VmScript
  /-- Whether loads reach the hook. -/
  hookEnabled : Bool
  /-- The loaded classes with their bytes, each class once. -/
  classes : Table ClassName Bytes
  deriving DecidableEq, Repr, Inhabited

namespace ScriptedVm

/-- A call that fails if the script says so. -/
def outcome : Option VmError → Except VmError Unit
  | none => .ok ()
  | some e => .error e

/-- The bytes of a class, none if it is not loaded. -/
def bytesOf? (vm : ScriptedVm) (name : ClassName) : Option Bytes := vm.classes.lookup name

/-- Gives a class new bytes, loading it if it was not. -/
def store (vm : ScriptedVm) (name : ClassName) (bytes : Bytes) : ScriptedVm :=
  { vm with classes := vm.classes.put name bytes }

/-- Takes a class away. -/
def unload (vm : ScriptedVm) (name : ClassName) : ScriptedVm :=
  { vm with classes := vm.classes.erase name }

theorem bytesOf?_store (vm : ScriptedVm) (name other : ClassName) (bytes : Bytes) :
    (vm.store name bytes).bytesOf? other =
      if other = name then some bytes else vm.bytesOf? other := by
  simp [bytesOf?, store, Table.lookup_put]

theorem bytesOf?_unload (vm : ScriptedVm) (name other : ClassName) :
    (vm.unload name).bytesOf? other = if other = name then none else vm.bytesOf? other := by
  simp [bytesOf?, unload, Table.lookup_erase]

/-- Loads classes one after the other, and ends as the script says. -/
def deliver (allocate : Allocator) (errorAfter : Option VmError) :
    List ClassName → ScriptedVm → Loading ScriptedVm
  | [], vm => .done (outcome errorAfter) vm
  | name :: names, vm =>
    .load allocate ⟨name, (vm.bytesOf? name).getD []⟩ fun returned =>
      deliver allocate errorAfter names <|
        match returned with
        | none => vm
        | some bytes => vm.store name bytes

/-- Loads a class again. -/
def retransform (allocate : Allocator) (vm : ScriptedVm) (name : ClassName) :
    Loading ScriptedVm :=
  let script := (vm.script.retransform.lookup name).getD ⟨none, none, none⟩
  match script.error with
  | some e => .done (.error e) vm
  | none =>
    if vm.hookEnabled then deliver allocate script.errorAfter (script.events.getD [name]) vm
    else .done (.ok ()) vm

/-- The scripted machine with the given memory. -/
def machine (allocate : Allocator) : Vm ScriptedVm where
  isLoaded vm name := (vm.bytesOf? name).isSome
  setLoadHook vm enabled :=
    match if enabled then vm.script.enableError else vm.script.disableError with
    | some e => (.error e, vm)
    | none => (.ok (), { vm with hookEnabled := enabled })
  redefine vm definitions :=
    match vm.script.redefineError with
    | some e => (.error e, vm)
    | none => (.ok (), definitions.foldl (fun vm d => vm.store d.1 d.2) vm)
  retransform := retransform allocate

end ScriptedVm

end DexWeave
