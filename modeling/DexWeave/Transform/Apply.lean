/-
  DexWeave/Transform/Apply.lean --- transforms applied to dex files.

  WHAT THIS FILE IS FOR.  A transform changes the body of its target or is refused;
  a refused one changes nothing.  A list of transforms is applied in order, and a
  refusal does not stop the ones behind it.
-/
import DexWeave.Dex.DexFile
import DexWeave.Transform.Plan

set_option autoImplicit false

namespace DexWeave.Transform

/-- The body with the transform woven in. -/
def transformBody (t : Transform) (isStatic : Bool) (b : Body) : Except Refusal Body := do
  let splice ← t.plan isStatic b
  if splice.touches b.lines then .ok (splice.apply b) else .error .noCallSites

/-- The dex file with the transform woven into the body of its target. -/
def apply (t : Transform) (d : DexFile) : Except Refusal DexFile :=
  match d.method? t.target with
  | none => .error .methodNotFound
  | some m =>
    match m.body with
    | none => .error .noCode
    | some b => (t.transformBody m.isStatic b).map (d.setBody t.target)

/-- The dex file after the transform, changed or not. -/
def applyOrKeep (t : Transform) (d : DexFile) : DexFile :=
  match t.apply d with
  | .ok d' => d'
  | .error _ => d

/-- The dex file after a list of transforms. -/
def applyAll (ts : List Transform) (d : DexFile) : DexFile :=
  ts.foldl (fun d t => t.applyOrKeep d) d

/-- The text of what a transform did. -/
def outcomeText {α : Type} : Except Refusal α → String
  | .ok _ => "instrumented"
  | .error r => r.display

end DexWeave.Transform
