/-
# Sides and trails

A trail shows that two derivations consume the same input.  For each character it has an entry:
which characters both accept, and where each of the two derivations stands, its *side*.  A side
is the leaf that consumes, the iterations around it, and the references it was repeated by.

Three views of a side are used, and they differ in what they leave out.

* `identity` tells positions of derivations apart: node, iterations and references by number.
* `key` is coarser and serves to detect cycles: all optional iterations of a quantifier are
  alike.
* `text` shows a side by its place in the source.
-/
import Backtrack.Derivation.Event
import Backtrack.Requirement

namespace Backtrack

/-- A piece of a source.  Given from outside it need not lie inside of any source. -/
structure Span where
  start : Int
  stop : Int
deriving Repr, DecidableEq

/-- The bytes of a node. -/
def Site.span (s : Site) : Span := ⟨s.start, s.stop⟩

/-- An iteration as a side records it.  Derivations count from zero; in a side given from
outside the number can be any. -/
structure Turn where
  quantifier : Quantifier
  index : Int
  optional : Bool
deriving Repr, DecidableEq

/-- The record of an iteration. -/
def Turn.ofIteration (i : Iteration) : Turn := ⟨i.quantifier, i.index, i.optional⟩

/-- Where one of two derivations stands. -/
structure Side where
  node : Nat
  span : Span
  iterations : List Turn
  via : List Reference
deriving Repr, DecidableEq

namespace Side

/-- The side of a leaf inside of some frames. -/
def ofAtom (fs : Frames) (a : Atom) (via : List Reference) : Side :=
  ⟨a.site.id, a.site.span, (Frames.iterations fs).map Turn.ofIteration, via⟩

/-! ## 1. Identity and key -/

/-- What tells a position of a derivation apart from all others. -/
structure Identity where
  node : Nat
  iterations : List (Nat × Int)
  via : List Nat
deriving Repr, DecidableEq

/-- The identity of a side. -/
def identity (s : Side) : Identity :=
  ⟨s.node, s.iterations.map fun i => (i.quantifier.site.id, i.index), s.via.map (·.site.id)⟩

/-- Whether two sides are the same position of the same derivation. -/
def same (s t : Side) : Bool := s.identity == t.identity

/-- What a side looks like when all optional iterations are alike. -/
structure Key where
  node : Nat
  iterations : List (Nat × Option Int)
  via : List Nat
deriving Repr, DecidableEq

/-- The key of a side. -/
def key (s : Side) : Key :=
  ⟨s.node,
    s.iterations.map fun i => (i.quantifier.site.id, if i.optional then none else some i.index),
    s.via.map (·.site.id)⟩

/-! ## 2. Texts -/

/-- Node, iterations and references by number, each after a separator of its own. -/
def Identity.text (x : Identity) : String :=
  toString x.node ++
    String.join (x.iterations.map fun i => "|" ++ toString i.1 ++ ":" ++ toString i.2) ++
    String.join (x.via.map fun r => "\\" ++ toString r)

/-- The same for keys, with a star for optional iterations. -/
def Key.text (x : Key) : String :=
  let index (i : Option Int) : String := (i.map toString).getD "*"
  toString x.node ++
    String.join (x.iterations.map fun i => "|" ++ toString i.1 ++ ":" ++ index i.2) ++
    String.join (x.via.map fun r => "\\" ++ toString r)

/-- The place of a side in the source. -/
def text (s : Side) : String :=
  toString s.span.start ++ "-" ++ toString s.span.stop ++
    String.join (s.iterations.map fun i =>
      " q@" ++ toString i.quantifier.site.start ++ "#" ++ toString i.index) ++
    String.join (s.via.map fun r => " via \\@" ++ toString r.site.start)

/-! ## 3. Quantifiers of a side -/

/-- The quantifiers in an optional iteration. -/
def optionalQuantifiers (s : Side) : List Quantifier :=
  (s.iterations.filter (·.optional)).map (·.quantifier)

/-- The quantifiers without an upper bound. -/
def unboundedQuantifiers (s : Side) : List Quantifier :=
  (s.iterations.filter (·.quantifier.count.isUnbounded)).map (·.quantifier)

end Side

/-- Whether two lists of quantifiers have one in common. -/
def sharesQuantifier (qs rs : List Quantifier) : Bool := qs.any rs.contains

/-- One character both derivations consume. -/
structure Entry where
  shared : Requirement
  left : Side
  right : Side
deriving Repr, DecidableEq

/-- The characters both derivations consume, the last one first, so that a trail and its
continuations share what they have in common. -/
structure Trail where
  latest : List Entry
deriving Repr, DecidableEq

namespace Trail

/-- Before anything is consumed. -/
def empty : Trail := ⟨[]⟩

/-- The trail with one more character. -/
def push (t : Trail) (e : Entry) : Trail := ⟨e :: t.latest⟩

/-- The entries in the order in which they are consumed. -/
def entries (t : Trail) : List Entry := t.latest.reverse

/-- The trail with these entries. -/
def ofEntries (es : List Entry) : Trail := ⟨es.reverse⟩

/-- The number of characters. -/
def length (t : Trail) : Nat := t.latest.length

/-- Whether two lists of entries are the same with left and right exchanged. -/
def swapped : List Entry → List Entry → Bool
  | [], [] => true
  | d :: ds, e :: es => d.left.same e.right && d.right.same e.left && swapped ds es
  | _, _ => false

/-- Whether one trail is the other one with left and right exchanged. -/
def isSwapOf (t u : Trail) : Bool := swapped t.latest u.latest

end Trail

end Backtrack
