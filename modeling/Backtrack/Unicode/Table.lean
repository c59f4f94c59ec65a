/-
# Property tables

A property of code points is given by *strides*: every `step`-th code point from `lo` to `hi`.
A table keeps its strides, in which a single code point is looked up, next to the canonical
set of the same code points, in which whole sets are combined; `set_eq` ties the two together.
-/
import Backtrack.CodePoint.Set

namespace Backtrack.Unicode

open CodePoint (Range)

/-- Every `step`-th code point from `lo` to `hi`. -/
structure Stride where
  lo : Nat
  hi : Nat
  step : Nat
deriving Repr, DecidableEq

namespace Stride

/-- Whether `c` lies on the stride. -/
def contains (s : Stride) (c : Nat) : Bool :=
  s.lo ≤ c && c ≤ s.hi && (c - s.lo) % s.step == 0

/-- The stride as ranges: one if nothing is left out, else one for each code point. -/
def ranges (s : Stride) : List Range :=
  if s.step ≤ 1 then [⟨s.lo, s.hi⟩]
  else (List.range ((s.hi - s.lo) / s.step + 1)).map fun i : Nat => Range.single (s.lo + i * s.step)

end Stride

/-- The canonical set of the code points on some strides. -/
def setOfStrides (strides : List Stride) : CodePoint.Set :=
  CodePoint.Set.ofRanges (strides.flatMap Stride.ranges)

/-- The code points with some property. -/
structure Table where
  strides : List Stride
  set : CodePoint.Set := setOfStrides strides
  set_eq : set = setOfStrides strides := by rfl

namespace Table

/-- Membership, decided on the strides; negative numbers are no characters. -/
def contains (t : Table) (c : Int) : Bool := 0 ≤ c && t.strides.any (·.contains c.toNat)

/-- The table of the code points on some strides. -/
def ofStrides (strides : List Stride) : Table := { strides := strides }

end Table

end Backtrack.Unicode
