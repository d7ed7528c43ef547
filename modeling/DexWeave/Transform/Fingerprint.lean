/-
  DexWeave/Transform/Fingerprint.lean --- the identity of a list of transforms.

  WHAT THIS FILE IS FOR.  Every transform has a one-line text that names its target,
  its hook and all that changes what it does.  The lines of a list, in order, are the
  text whose SHA-256 digest tells lists apart.
-/
import DexWeave.Digest.Sha256
import DexWeave.Text.Hex
import DexWeave.Text.Utf8
import DexWeave.Transform.Basic

set_option autoImplicit false

namespace DexWeave.Transform

/-- The text of a transform. -/
def display (t : Transform) : String :=
  let target := t.target.display
  let hook := t.hook.display
  match t.action with
  | .entry thisAsObject =>
    "entry-hook " ++ target ++ " -> " ++ hook ++ (if thisAsObject then " (this as object)" else "")
  | .exit => "exit-hook " ++ target ++ " -> " ++ hook
  | .parameter index =>
    "modify-parameter " ++ target ++ " #" ++ toString index ++ " -> " ++ hook
  | .detour kind callee =>
    "detour-" ++ kind.display ++ " " ++ callee.display ++ " in " ++ target ++ " -> " ++ hook

/-- The text of a list of transforms, one line each. -/
def canonicalText (ts : List Transform) : String :=
  String.join (ts.map fun t => t.display ++ "\n")

/-- The digest that identifies a list of transforms, in order. -/
def fingerprint (ts : List Transform) : String :=
  Hex.ofBytes (Sha256.digest (Utf8.encode (canonicalText ts)))

end DexWeave.Transform
