/-
# Closed intervals of code points

Code points are counted in 32-bit signed numbers.  The characters are `0` to `maxCodePoint`, but
a range given from outside may have any two such numbers for its ends, negative ones too, and
may be inverted (`hi < lo`), in which case no code point lies in it.

Ranges are the raw material of `CodePoint.Set`; on their own they can be intersected, and one
can be cut out of another, which leaves at most two pieces.

Sums and differences of code points are taken modulo 2³².  This shows at the far ends of the
numbers only: among characters `wrap` does nothing (`wrap_eq_self`), so that `next` is the
successor (`next_eq`) and `distance` the difference (`distance_eq`).
-/
import Backtrack.Text.Ascii

namespace Backtrack.CodePoint

/-! ## 1. Counting code points -/

/-- The signed 32-bit number that differs from `n` by a multiple of 2³². -/
def wrap (n : Int) : Int := n.bmod 4294967296

/-- The code point after `c`; after the greatest one comes the least. -/
def next (c : Int) : Int := wrap (c + 1)

/-- How far `d` lies beyond `c`, negative if it lies before. -/
def distance (c d : Int) : Int := wrap (d - c)

theorem wrap_eq_self {n : Int} (least : -2147483648 ≤ n) (greatest : n ≤ 2147483647) :
    wrap n = n := by
  unfold wrap
  rw [Int.bmod_eq_of_le_mul_two] <;> omega

theorem next_eq {c : Int} (least : -2147483648 ≤ c) (greatest : c < 2147483647) :
    next c = c + 1 :=
  wrap_eq_self (by omega) (by omega)

theorem distance_eq {c d : Int} (least : -2147483648 ≤ d - c) (greatest : d - c ≤ 2147483647) :
    distance c d = d - c :=
  wrap_eq_self least greatest

/-! ## 2. Ranges -/

/-- The code points from `lo` to `hi`, both included. -/
structure Range where
  lo : Int
  hi : Int
deriving Repr, DecidableEq

namespace Range

/-- The range of one code point. -/
def single (c : Int) : Range := ⟨c, c⟩

/-- Whether no code point lies in the range. -/
def isInverted (r : Range) : Bool := r.hi < r.lo

/-- Membership. -/
def contains (r : Range) (c : Int) : Bool := r.lo ≤ c && c ≤ r.hi

/-- The shared part of two ranges, if they overlap. -/
def intersect? (r o : Range) : Option Range :=
  if max r.lo o.lo ≤ min r.hi o.hi then some ⟨max r.lo o.lo, min r.hi o.hi⟩ else none

/-- What is left of `r` once `o` is removed: no range, one or two. -/
def subtract (r o : Range) : List Range :=
  match r.intersect? o with
  | none => [r]
  | some shared =>
    (if r.lo < shared.lo then [⟨r.lo, shared.lo - 1⟩] else []) ++
      (if shared.hi < r.hi then [⟨shared.hi + 1, r.hi⟩] else [])

end Range

/-! ## 3. How a code point is written inside brackets

Printable ASCII stands for itself, five of its characters after a backslash, the three common
control characters by their letter; everything else is written by number.  A sign takes one of
the four places of a small number. -/

/-- The number of a code point in base sixteen, in four places or more. -/
def number (c : Int) : String :=
  if c < 0 then "-" ++ Ascii.upperHex 3 c.natAbs else Ascii.upperHex 4 c.natAbs

/-- The text of one code point. -/
def describe (c : Int) : String :=
  if c = 0x5C ∨ c = 0x5D ∨ c = 0x5B ∨ c = 0x2D ∨ c = 0x5E then
    String.ofList ['\\', Char.ofNat c.toNat]
  else if c = 0x0A then "\\n"
  else if c = 0x0D then "\\r"
  else if c = 0x09 then "\\t"
  else if 0x20 < c ∧ c ≤ 0x7E then String.singleton (Char.ofNat c.toNat)
  else if c ≤ 0xFFFF then "\\u" ++ number c
  else "\\u\x7b" ++ number c ++ "\x7d"

/-- The text of a range; two neighbouring code points are written side by side. -/
def Range.text (r : Range) : String :=
  if r.lo = r.hi then describe r.lo
  else if next r.lo = r.hi then describe r.lo ++ describe r.hi
  else describe r.lo ++ "-" ++ describe r.hi

end Backtrack.CodePoint
