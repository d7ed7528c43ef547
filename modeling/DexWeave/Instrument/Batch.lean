/-
  DexWeave/Instrument/Batch.lean --- a list of transforms applied to a machine.

  WHAT THIS FILE IS FOR.  The transforms are grouped by class.  If every class of the
  batch has a cached entry, all of them are redefined in one call; otherwise each
  class is loaded again through a bridge, and a class that fails does not stop the
  others.  The notification of loads is on for just as long.

  WHAT IS NOT AN ERROR.  A cache that cannot be read or written, a redefinition that
  is refused, and a notification that cannot be switched off again.
-/
import DexWeave.Cache
import DexWeave.Instrument.Bridge
import DexWeave.Instrument.Report

set_option autoImplicit false

namespace DexWeave

/-- Why a batch is given up or not a success. -/
inductive InstrumentError where
  /-- A class is not loaded; nothing was done. -/
  | classNotFound (name : ClassName)
  /-- The notification cannot be switched on; nothing was done. -/
  | eventSetup (e : VmError)
  /-- Some classes were not instrumented. -/
  | retransformFailed (report : BatchReport)
  deriving DecidableEq, Repr, Inhabited

/-- The text of the error. -/
def InstrumentError.message : InstrumentError → String
  | classNotFound name => "Class " ++ name.text ++ " is not loaded"
  | eventSetup e => "Failed to enable the class-file-load hook: " ++ e.message
  | retransformFailed report =>
    toString report.failures.length ++ " of " ++ toString report.size ++
      " classes failed to be instrumented"

/-- The transforms grouped by class, in the order in which the classes are first named. -/
def Bridge.ofTransforms (transforms : List Transform) : List Bridge :=
  (transforms.map Transform.className).eraseDups.map fun name =>
    ⟨name, transforms.filter fun t => t.className = name⟩

theorem Bridge.map_name_ofTransforms (transforms : List Transform) :
    (Bridge.ofTransforms transforms).map Bridge.name =
      (transforms.map Transform.className).eraseDups := by
  simp [Bridge.ofTransforms, Function.comp_def]

/-- What a batch needs to know besides its transforms. -/
structure Instrumenter (φ : Type) where
  /-- The cache, if there is one. -/
  cache : Option (ClassCache φ)
  /-- Whether the cache is read and written. -/
  cachingEnabled : Bool

namespace Instrumenter

variable {σ φ : Type}

/-- Uses a cache whenever there is one. -/
def new (cache : Option (ClassCache φ)) : Instrumenter φ := ⟨cache, cache.isSome⟩

/-- The cache that is read and written. -/
def activeCache (inst : Instrumenter φ) : Option (ClassCache φ) :=
  if inst.cachingEnabled then inst.cache else none

/-! ## From the cache -/

/-- The cached entries of all classes, unless one is missing or cannot be read. -/
def cachedEntries (cache : ClassCache φ) (store : φ) (names : List ClassName) :
    Option (List (ClassName × Bytes)) :=
  names.mapM fun name =>
    match cache.read store name with
    | .ok (some bytes) => some (name, bytes)
    | _ => none

/-- Redefines all classes in one call, if the cache has all of them and the machine agrees. -/
def redefineFromCache (inst : Instrumenter φ) (vm : Vm σ) (bridges : List Bridge) (state : σ)
    (store : φ) : Option BatchReport × σ :=
  match inst.activeCache with
  | none => (none, state)
  | some cache =>
    match cachedEntries cache store (bridges.map Bridge.name) with
    | none => (none, state)
    | some entries =>
      match vm.redefine state entries with
      | (.error _, state) => (none, state)
      | (.ok (), state) => (some ⟨bridges.map fun b => (b.name, .redefined)⟩, state)

/-! ## Class by class -/

/-- Writes the entry of a class; a failure is let pass. -/
def stash (inst : Instrumenter φ) (store : φ) (name : ClassName) (bytes : Bytes) : φ :=
  match inst.activeCache with
  | none => store
  | some cache => (cache.write store name bytes).2

/-- What became of a class, from the machine's answer and from what the bridge saw. -/
def classOutcome (result : Except VmError Unit) (seen : BridgeOutcome) : ClassOutcome :=
  match result, seen with
  | .error e, _ => .failed ("retransformation failed: " ++ e.message)
  | .ok (), .replaced _ => .retransformed
  | .ok (), .failed e => .failed e.message
  | .ok (), .notReached => .failed "the class never reached the class-file-load hook"

/-- Loads one class again through its bridge. -/
def retransformOne (inst : Instrumenter φ) (vm : Vm σ) (b : Bridge) (state : σ) (store : φ) :
    ClassOutcome × σ × φ :=
  let ((result, state), seen) :=
    (vm.retransform state b.name).run b.hook .notReached
  let store :=
    match result, seen with
    | .ok (), .replaced bytes => inst.stash store b.name bytes
    | _, _ => store
  (classOutcome result seen, state, store)

/-- Loads the classes of a batch again, one after the other. -/
def retransformAll (inst : Instrumenter φ) (vm : Vm σ) :
    List Bridge → σ → φ → List (ClassName × ClassOutcome) × σ × φ
  | [], state, store => ([], state, store)
  | b :: bs, state, store =>
    let (outcome, state, store) := inst.retransformOne vm b state store
    let (outcomes, state, store) := inst.retransformAll vm bs state store
    ((b.name, outcome) :: outcomes, state, store)

/-! ## Batches -/

/-- The end of a batch: its result, what the reporter was told, and the states it left. -/
structure Outcome (σ φ α ε : Type) where
  /-- The result. -/
  result : Except ε α
  /-- What the reporter was told, in order. -/
  notices : List Notice
  /-- The state of the machine. -/
  state : σ
  /-- The state of the cache. -/
  store : φ

/-- The report of a batch and the states it left, once the notification is on. -/
def process (inst : Instrumenter φ) (vm : Vm σ) (bridges : List Bridge) (state : σ) (store : φ) :
    BatchReport × σ × φ :=
  match inst.redefineFromCache vm bridges state store with
  | (some report, state) => (report, state, store)
  | (none, state) =>
    let (outcomes, state, store) := inst.retransformAll vm bridges state store
    (⟨outcomes⟩, state, store)

/-- Applies transforms to the classes loaded in a machine. -/
def instrument (inst : Instrumenter φ) (vm : Vm σ) (transforms : List Transform) (state : σ)
    (store : φ) : Outcome σ φ BatchReport InstrumentError :=
  match transforms.find? fun t => !vm.isLoaded state t.className with
  | some t => ⟨.error (.classNotFound t.className), [], state, store⟩
  | none =>
    if transforms.isEmpty then ⟨.ok .empty, [], state, store⟩
    else
      match vm.setLoadHook state true with
      | (.error e, state) => ⟨.error (.eventSetup e), [], state, store⟩
      | (.ok (), state) =>
        let (report, state, store) :=
          inst.process vm (Bridge.ofTransforms transforms) state store
        let (_, state) := vm.setLoadHook state false
        if report.isSuccess then ⟨.ok report, [], state, store⟩
        else
          ⟨.error (.retransformFailed report), [.instrumentationFailures report.failures], state,
            store⟩

end Instrumenter

end DexWeave
