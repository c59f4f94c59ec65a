/-
# Closing a set under case variants

Simple case folding is a step `c ↦ next c` that runs through all case variants of a code
point and comes back to it.  The variants of `c` are the orbit of `c` under that step.

A set is folded by adding the orbits of the members of its *small* ranges; a range of more
than `0x400` steps is kept as it is.  The limit is on ranges of the canonical form, so it
depends on what stands next to what.  Numbers that are no characters have no variants.
-/
import Backtrack.CodePoint.Set
import Backtrack.Unicode.CaseFolding

namespace Backtrack.CodePoint

/-- The walk from `c` along `step` until it returns to `start`.  A permutation of the code
points returns before the fuel runs out. -/
def orbitFrom (step : Nat → Nat) (start : Nat) : Nat → Nat → List Nat
  | 0, _ => []
  | fuel + 1, c => if c = start then [] else c :: orbitFrom step start fuel (step c)

/-- The other members of the cycle of `c` under `step`. -/
def orbit (step : Nat → Nat) (c : Nat) : List Nat :=
  orbitFrom step c (maxCodePoint + 1) (step c)

namespace Set

/-- Ranges wider than this are not folded. -/
def foldLimit : Int := 0x400

/-- The characters of a range. -/
def members (r : Range) : List Nat :=
  (List.range (min r.hi maxCodePoint + 1 - max r.lo 0).toNat).map (r.lo.toNat + ·)

/-- The case variants of the members of the small ranges of `s`. -/
def variants (step : Nat → Nat) (s : Set) : List Nat :=
  (s.ranges.filter fun r => distance r.lo r.hi ≤ foldLimit).flatMap fun r =>
    (members r).flatMap (orbit step)

/-- Adds every variant of the members of the small ranges of `s`. -/
def foldWith (step : Nat → Nat) (s : Set) : Set :=
  match variants step s with
  | [] => s
  | extra => s.union (ofRanges (extra.map fun c : Nat => Range.single c))

/-- Adds every simple case variant of the members of the small ranges of `s`. -/
def fold (s : Set) : Set := foldWith Unicode.simpleFold s

end Set

end Backtrack.CodePoint
