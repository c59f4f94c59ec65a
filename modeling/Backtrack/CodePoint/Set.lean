/-
# Sets of code points

A set is a list of ranges in *canonical* form: every range is non-empty, the ranges are in
increasing order, and between two neighbours at least one code point is missing.  A set of
characters has exactly one canonical form, so equality of lists decides equality of sets.

* `Set.ofRanges` brings any list of ranges (unordered, overlapping, adjacent, inverted) into
  canonical form: sort by the lower end, then melt neighbours that touch.
* `Set.union`, `Set.intersect`, `Set.subtract` and `Set.complement` work on canonical sets by
  walking both lists from the left, and `Set.contains` halves the list until it meets the code
  point it looks for; all of them are right only because the lists are sorted.

Ends that lie 2³¹ or more apart compare the wrong way round (`precedes` goes by the wrapped
distance), so lists with such ends need not come out canonical.  Characters are never that far
apart: for them `precedes` is the order by the lower, then the upper end (`precedes_iff`).
-/
import Backtrack.CodePoint.Range

namespace Backtrack.CodePoint

/-- A set of code points, as ranges in increasing order that do not touch. -/
structure Set where
  ranges : List Range
deriving Repr, DecidableEq

namespace Set

/-- The set without members. -/
def empty : Set := ⟨[]⟩

/-! ## 1. Canonical form -/

/-- The range `r` ends at least two code points before `s` starts. -/
def Apart (r s : Range) : Prop := r.hi + 1 < s.lo

instance (r s : Range) : Decidable (Apart r s) := inferInstanceAs (Decidable (_ < _))

/-- Non-empty ranges in increasing order that neither overlap nor touch. -/
def Canonical (s : Set) : Prop :=
  (∀ r ∈ s.ranges, r.lo ≤ r.hi) ∧ s.ranges.Pairwise Apart

/-! ## 2. Sorting and melting -/

/-- The order in which ranges are melted: by the lower end, then by the upper end. -/
def precedes (r s : Range) : Bool :=
  if r.lo = s.lo then distance s.hi r.hi < 0 else distance s.lo r.lo < 0

theorem precedes_iff {r s : Range}
    (lo : -2147483648 ≤ r.lo - s.lo) (lo' : r.lo - s.lo ≤ 2147483647)
    (hi : -2147483648 ≤ r.hi - s.hi) (hi' : r.hi - s.hi ≤ 2147483647) :
    precedes r s = true ↔ r.lo < s.lo ∨ (r.lo = s.lo ∧ r.hi < s.hi) := by
  unfold precedes
  rw [distance_eq lo lo', distance_eq hi hi']
  split <;> simp only [decide_eq_true_eq] <;> omega

/-- Puts `r` into a decreasing list, before the first range that does not come after it. -/
def insertFalling (r : Range) : List Range → List Range
  | [] => [r]
  | s :: rest => if precedes r s then s :: insertFalling r rest else r :: s :: rest

/-- The ranges in increasing order, each put in its place from the right. -/
def sortByInsertion (ranges : List Range) : List Range :=
  (ranges.foldl (fun falling r => insertFalling r falling) []).reverse

/-- The order by the lower, then the upper end, without wrapping. -/
def notAfter (r s : Range) : Bool := r.lo < s.lo || (r.lo == s.lo && r.hi ≤ s.hi)

/-- The ranges in increasing order.  Insertion serves the short lists that patterns are made
of, merging the long ones of Unicode properties. -/
def sorted (ranges : List Range) : List Range :=
  if ranges.length ≤ 12 then sortByInsertion ranges else ranges.mergeSort notAfter

/-- Melts sorted ranges into `current` for as long as they touch it. -/
def melt (current : Range) : List Range → List Range
  | [] => [current]
  | r :: rest =>
    if r.lo ≤ next current.hi then melt ⟨current.lo, max current.hi r.hi⟩ rest
    else current :: melt r rest

/-- The set of all code points that lie in one of `ranges`. -/
def ofRanges (ranges : List Range) : Set :=
  match (sorted ranges).filter (!·.isInverted) with
  | [] => empty
  | r :: rest => ⟨melt r rest⟩

/-! ## 3. Questions -/

/-- Whether there is no member. -/
def isEmpty (s : Set) : Bool := s.ranges.isEmpty

/-- Looks for `c` in the middle one of some increasing ranges, then on one side of it. -/
def search (c : Int) (rs : List Range) : Bool :=
  match _h : rs.drop (rs.length / 2) with
  | [] => false
  | r :: right =>
    if r.contains c then true
    else if c < r.lo then search c (rs.take (rs.length / 2))
    else search c right
termination_by rs.length
decreasing_by
  all_goals
    have := congrArg List.length _h
    simp only [List.length_drop, List.length_cons, List.length_take] at this ⊢
    omega

/-- Membership. -/
def contains (s : Set) (c : Int) : Bool := search c s.ranges

/-- Whether every code point is a member. -/
def isUniverse (s : Set) : Bool := s.ranges == [⟨0, maxCodePoint⟩]

/-- The number of members. -/
def size (s : Set) : Int := s.ranges.foldl (fun n r => n + (r.hi - r.lo + 1)) 0

/-- The ranges written one after the other. -/
def text (s : Set) : String := String.join (s.ranges.map Range.text)

/-! ## 4. Operations -/

/-- The members of either set. -/
def union (s o : Set) : Set :=
  if o.isEmpty then s else if s.isEmpty then o else ofRanges (s.ranges ++ o.ranges)

/-- The overlaps of two increasing lists; the range that ends first is done with. -/
def overlaps : List Range → List Range → List Range
  | [], _ => []
  | _ :: _, [] => []
  | r :: rs, o :: os =>
    let rest := if r.hi < o.hi then overlaps rs (o :: os) else overlaps (r :: rs) os
    match r.intersect? o with
    | some shared => shared :: rest
    | none => rest
termination_by s o => s.length + o.length

/-- The members of both sets. -/
def intersect (s o : Set) : Set := ⟨overlaps s.ranges o.ranges⟩

/-- A range unless it is inverted. -/
def proper (r : Range) : List Range := if r.isInverted then [] else [r]

/-- What `r` keeps once increasing ranges are cut out of it, the first of which does not end
before `r` starts.  A range that is used up is left inverted, one past its upper end. -/
def cut (r : Range) : List Range → List Range
  | [] => proper r
  | o :: os =>
    if r.hi < o.lo then proper r
    else
      (if r.lo < o.lo then [⟨r.lo, o.lo - 1⟩] else []) ++
        if r.hi ≤ o.hi then proper ⟨next r.hi, r.hi⟩ else cut ⟨o.hi + 1, r.hi⟩ os

/-- What an increasing list keeps once another one is cut out of it. -/
def remains : List Range → List Range → List Range
  | [], _ => []
  | r :: rs, os =>
    let near := os.dropWhile (·.hi < r.lo)
    cut r near ++ remains rs near

/-- The members of `s` that are not in `o`. -/
def subtract (s o : Set) : Set := ⟨remains s.ranges o.ranges⟩

/-- Every code point that is not a member. -/
def complement (s : Set) : Set := subtract ⟨[⟨0, maxCodePoint⟩]⟩ s

end Set

end Backtrack.CodePoint
