/-
# Character requirements

What a single step of a match accepts is a set of code points, but it is seldom worth writing
out: most of it comes from a bracket expression that may be negated and may mention Unicode
properties.  A `Requirement` keeps that form.  A code point satisfies it when

    negated  differs from  (it lies in `ranges`, or in one of the `categories`).

`union`, `negate` and `intersect` stay in this form as long as they can and write properties
out as sets (`resolve`) only where they must.  Writing out fails for a property nobody knows,
so the operations that may have to do it can fail with `UnknownCategory`.
-/
import Backtrack.CodePoint.Folding
import Backtrack.Text.Quoted
import Backtrack.Unicode.Property

namespace Backtrack

open CodePoint (Range)

/-- A named property of code points, or its complement. -/
structure Category where
  name : String
  negated : Bool
deriving Repr, DecidableEq

/-- The property name that cannot be written out as a set. -/
structure UnknownCategory where
  name : String
deriving Repr, DecidableEq

/-- The wording of the failure. -/
def UnknownCategory.message (e : UnknownCategory) : String :=
  "charset: unknown category " ++ Quoted.text (Bytes.ofString e.name)

namespace Category

/-- Whether `c` has the property; nothing has a property nobody knows. -/
def contains (k : Category) (c : Int) : Bool :=
  ((Unicode.lookup? k.name).any fun t => t.contains c) != k.negated

/-- The code points with the property, written out. -/
def resolve (k : Category) : Except UnknownCategory CodePoint.Set :=
  match Unicode.lookup? k.name with
  | none => .error ⟨k.name⟩
  | some t => .ok (if k.negated then t.set.complement else t.set)

/-- The property as an escape. -/
def text (k : Category) : String :=
  (if k.negated then "\\P\x7b" else "\\p\x7b") ++ k.name ++ "\x7d"

/-- Categories are kept in the order of their names, a plain one before its complement. -/
def before (k l : Category) : Bool :=
  if k.name = l.name then !k.negated || l.negated else k.name < l.name

end Category

/-- The code points one consuming step accepts. -/
structure Requirement where
  negated : Bool
  ranges : CodePoint.Set
  categories : List Category
deriving Repr, DecidableEq

namespace Requirement

/-! ## 1. Basic requirements -/

/-- Nothing satisfies it. -/
def empty : Requirement := ⟨false, CodePoint.Set.empty, []⟩

/-- Every code point satisfies it. -/
def all : Requirement := ⟨true, CodePoint.Set.empty, []⟩

/-- The code points of some ranges. -/
def ofRanges (ranges : List Range) : Requirement := ⟨false, CodePoint.Set.ofRanges ranges, []⟩

/-- The decimal digits. -/
def digitSet : CodePoint.Set := CodePoint.Set.ofRanges [⟨0x30, 0x39⟩]

/-- Letters, digits and the underscore. -/
def wordSet : CodePoint.Set :=
  CodePoint.Set.ofRanges [⟨0x61, 0x7A⟩, ⟨0x41, 0x5A⟩, ⟨0x30, 0x39⟩, ⟨0x5F, 0x5F⟩]

/-- White space and line terminators. -/
def spaceSet : CodePoint.Set :=
  CodePoint.Set.ofRanges [⟨0x09, 0x0D⟩, ⟨0x20, 0x20⟩, ⟨0xA0, 0xA0⟩, ⟨0x1680, 0x1680⟩,
    ⟨0x2000, 0x200A⟩, ⟨0x2028, 0x2029⟩, ⟨0x202F, 0x202F⟩, ⟨0x205F, 0x205F⟩,
    ⟨0x3000, 0x3000⟩, ⟨0xFEFF, 0xFEFF⟩]

/-- What the wildcard rejects unless it is told to match everything. -/
def lineTerminators : CodePoint.Set :=
  CodePoint.Set.ofRanges [⟨0x0A, 0x0A⟩, ⟨0x0D, 0x0D⟩, ⟨0x2028, 0x2029⟩]

/-- Exactly `c`, or every case variant of `c`. -/
def literal (c : Int) (ignoreCase : Bool) : Requirement :=
  if ignoreCase then ⟨false, (CodePoint.Set.ofRanges [Range.single c]).fold, []⟩
  else ofRanges [Range.single c]

/-- Digits, or everything else. -/
def digit (negated : Bool) : Requirement := ⟨negated, digitSet, []⟩

/-- Word characters, or everything else. -/
def word (negated : Bool) : Requirement := ⟨negated, wordSet, []⟩

/-- White space, or everything else. -/
def space (negated : Bool) : Requirement := ⟨negated, spaceSet, []⟩

/-- The wildcard. -/
def wildcard (dotAll : Bool) : Requirement := if dotAll then all else ⟨true, lineTerminators, []⟩

/-! ## 2. Questions -/

/-- Whether the form alone shows that nothing satisfies the requirement. -/
def isEmpty (g : Requirement) : Bool :=
  !g.negated && g.ranges.isEmpty && g.categories.isEmpty

/-- Whether `c` satisfies the requirement. -/
def contains (g : Requirement) (c : Int) : Bool :=
  (g.ranges.contains c || g.categories.any (·.contains c)) != g.negated

/-- The categories of `ks` written out and added to `s`. -/
def resolveCategories (s : CodePoint.Set) : List Category → Except UnknownCategory CodePoint.Set
  | [] => .ok s
  | k :: ks =>
    match k.resolve with
    | .error e => .error e
    | .ok t => resolveCategories (s.union t) ks

/-- The code points that satisfy the requirement, written out as a set. -/
def resolve (g : Requirement) : Except UnknownCategory CodePoint.Set :=
  match resolveCategories g.ranges g.categories with
  | .error e => .error e
  | .ok s => .ok (if g.negated then s.complement else s)

/-- The requirement as a bracket expression; a lone character goes without brackets. -/
def text (g : Requirement) : String :=
  match g.negated, g.ranges.ranges, g.categories with
  | true, [], [] => "[^]"
  | false, [r], [] => if r.lo = r.hi then CodePoint.describe r.lo else "[" ++ r.text ++ "]"
  | negated, _, categories =>
    "[" ++ (if negated then "^" else "") ++ g.ranges.text ++
      String.join (categories.map Category.text) ++ "]"

/-! ## 3. Operations -/

/-- Everything else. -/
def negate (g : Requirement) : Requirement := { g with negated := !g.negated }

/-- The categories of both lists, each once, in order. -/
def mergeCategories (ks ls : List Category) : List Category :=
  (ls.foldl (fun out l => if out.contains l then out else out ++ [l]) ks).mergeSort
    Category.before

/-- Combines the written out sets of two requirements. -/
def combine (op : CodePoint.Set → CodePoint.Set → CodePoint.Set) (g o : Requirement) :
    Except UnknownCategory Requirement :=
  match g.resolve, o.resolve with
  | .error e, _ => .error e
  | .ok _, .error e => .error e
  | .ok s, .ok t => .ok ⟨false, op s t, []⟩

/-- What satisfies one of the two. -/
def union (g o : Requirement) : Except UnknownCategory Requirement :=
  if o.isEmpty then .ok g
  else if g.isEmpty then .ok o
  else if !g.negated && !o.negated then
    .ok ⟨false, g.ranges.union o.ranges, mergeCategories g.categories o.categories⟩
  else combine CodePoint.Set.union g o

/-- What satisfies both.  Requirements without categories are combined by De Morgan's laws and
never written out. -/
def intersect (g o : Requirement) : Except UnknownCategory Requirement :=
  if g = o then .ok g
  else if g.isEmpty || o.isEmpty then .ok empty
  else if !g.categories.isEmpty || !o.categories.isEmpty then
    combine CodePoint.Set.intersect g o
  else
    match g.negated, o.negated with
    | false, false => .ok ⟨false, g.ranges.intersect o.ranges, []⟩
    | true, false => .ok ⟨false, o.ranges.subtract g.ranges, []⟩
    | false, true => .ok ⟨false, g.ranges.subtract o.ranges, []⟩
    | true, true =>
      let union := g.ranges.union o.ranges
      .ok (if union.isUniverse then empty else ⟨true, union, []⟩)

end Requirement

end Backtrack
