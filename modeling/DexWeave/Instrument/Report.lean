/-
  DexWeave/Instrument/Report.lean --- what became of a batch.

  WHAT THIS FILE IS FOR.  A report has one outcome for every class of a batch, in the
  order in which the batch first named them.  Failures are told to a reporter, which
  is modelled by the notices it gets.
-/
import DexWeave.Types.ClassName

set_option autoImplicit false

namespace DexWeave

/-- What became of one class. -/
inductive ClassOutcome where
  /-- It got cached bytes. -/
  | redefined
  /-- It got new bytes while it was loaded again. -/
  | retransformed
  /-- It was not instrumented. -/
  | failed (reason : String)
  deriving DecidableEq, Repr, Inhabited

/-- The text of the outcome. -/
def ClassOutcome.display : ClassOutcome → String
  | redefined => "redefined from cache"
  | retransformed => "retransformed"
  | failed reason => "failed: " ++ reason

/-- A class that was not instrumented. -/
structure ClassFailure where
  /-- The class. -/
  name : ClassName
  /-- Why. -/
  reason : String
  deriving DecidableEq, Repr, Inhabited

/-- The text of the failure. -/
def ClassFailure.display (f : ClassFailure) : String := f.name.text ++ ": " ++ f.reason

/-- The outcome of every class of a batch. -/
structure BatchReport where
  /-- Classes and outcomes, in the order of the batch. -/
  outcomes : List (ClassName × ClassOutcome)
  deriving DecidableEq, Repr, Inhabited

namespace BatchReport

/-- The report of a batch without classes. -/
def empty : BatchReport := ⟨[]⟩

/-- The outcome of a class. -/
def outcome? (r : BatchReport) (name : ClassName) : Option ClassOutcome := r.outcomes.lookup name

/-- The number of classes. -/
def size (r : BatchReport) : Nat := r.outcomes.length

/-- The classes that were not instrumented. -/
def failures (r : BatchReport) : List ClassFailure :=
  r.outcomes.filterMap fun (name, outcome) =>
    match outcome with
    | .failed reason => some ⟨name, reason⟩
    | _ => none

/-- Whether every class was instrumented. -/
def isSuccess (r : BatchReport) : Bool := r.failures.isEmpty

end BatchReport

/-- What a reporter is told. -/
inductive Notice where
  /-- Some classes of a batch were not instrumented. -/
  | instrumentationFailures (failures : List ClassFailure)
  /-- Instrumentation was given up. -/
  | unhandledFailure (message : String)
  deriving DecidableEq, Repr, Inhabited

end DexWeave
