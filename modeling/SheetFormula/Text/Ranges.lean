/-!
# Ranges of code points

A class of characters is a list of inclusive ranges in ascending order, so that a search can stop at
the first range that starts above the code point.
-/

namespace SheetFormula.Text

/-- The code point lies in one of the ascending ranges. -/
def inRanges : List (Nat × Nat) → Nat → Bool
  | [], _ => false
  | (first, last) :: rest, n =>
      if n < first then false else if n ≤ last then true else inRanges rest n

end SheetFormula.Text
