/-
  DexWeave/Text/CodePoints.lean --- sets of code points as ranges.

  WHAT THIS FILE IS FOR.  A character property is a table of ranges of code points,
  both ends included, in ascending order.
-/
set_option autoImplicit false

namespace DexWeave.Text

/-- A set of code points, as ranges with both ends included. -/
abbrev CodePoints : Type := List (Nat × Nat)

/-- Whether some range of the set holds the character. -/
def CodePoints.holds (set : CodePoints) (c : Char) : Bool :=
  set.any fun range => range.1 ≤ c.toNat && c.toNat ≤ range.2

/-- Whether the ranges follow one another with a gap between any two. -/
def CodePoints.isAscending (set : CodePoints) : Bool :=
  set.all (fun range => range.1 ≤ range.2) &&
    (set.zip set.tail).all fun (range, next) => range.2 + 1 < next.1

/-- The number of code points, if the ranges ascend. -/
def CodePoints.size (set : CodePoints) : Nat :=
  set.foldr (fun range rest => range.2 + 1 - range.1 + rest) 0

end DexWeave.Text
