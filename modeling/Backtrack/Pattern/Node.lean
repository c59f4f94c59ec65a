/-
# The syntax tree of a pattern

A node has a *site*: a number that no other node of the tree has, and the bytes of the source
it was read from.  Nodes are told apart by that number and never by what they look like, since
the same text may occur twice.

Groups, quantifiers and references are structures of their own (without the body), because the
analysis keeps carrying them around after it has left the tree: they become the frames of an
event and the entries of a trail.

* `Node.walk` lists a node and its descendants, parents first.
* `Node.matchesEmpty` and `Node.consumes` say whether a node can match without consuming and
  whether it can consume at all.
-/
import Backtrack.CodePoint.Range
import Backtrack.Pattern.Flags

namespace Backtrack

/-- Where a node stands: its number in the tree and its bytes `[start, stop)` in the source. -/
structure Site where
  id : Nat
  start : Nat
  stop : Nat
deriving Repr, DecidableEq

/-! ## 1. Leaves -/

/-- The three families of class escapes. -/
inductive EscapeKind where
  | digit
  | word
  | space
deriving Repr, DecidableEq

/-- One of `\d \D \w \W \s \S`. -/
structure ClassEscape where
  kind : EscapeKind
  negated : Bool
deriving Repr, DecidableEq

/-- A property escape. -/
structure PropertyEscape where
  name : String
  negated : Bool
deriving Repr, DecidableEq

/-- A bracket expression.  Its escapes and properties have sites of their own. -/
structure CharClass where
  negated : Bool
  ranges : List CodePoint.Range
  escapes : List (Site × ClassEscape)
  properties : List (Site × PropertyEscape)
deriving Repr, DecidableEq

/-- What a leaf that consumes one character looks like. -/
inductive Shape where
  | char (c : Nat)
  | dot
  | escape (e : ClassEscape)
  | property (p : PropertyEscape)
  | charClass (k : CharClass)
deriving Repr, DecidableEq

/-- A leaf that consumes one character. -/
structure Atom where
  site : Site
  shape : Shape
deriving Repr, DecidableEq

/-- The kinds of anchors. -/
inductive Anchor where
  | start
  | stop
  | wordBoundary
  | nonWordBoundary
deriving Repr, DecidableEq

/-- A reference to a capture group, by number or by name.  Number zero refers to no group. -/
structure Reference where
  site : Site
  index : Nat
  name : Bytes
deriving Repr, DecidableEq

/-! ## 2. Nodes with a body -/

/-- The kinds of groups. -/
inductive GroupKind where
  | capture
  | nonCapture
  | lookahead
  | negativeLookahead
  | lookbehind
  | negativeLookbehind
deriving Repr, DecidableEq

namespace GroupKind

/-- Lookarounds match without consuming. -/
def isLookaround : GroupKind → Bool
  | .capture | .nonCapture => false
  | _ => true

/-- Negative lookarounds match when their body does not. -/
def isNegative : GroupKind → Bool
  | .negativeLookahead | .negativeLookbehind => true
  | _ => false

/-- Lookbehinds can never be repeated. -/
def isLookbehind : GroupKind → Bool
  | .lookbehind | .negativeLookbehind => true
  | _ => false

end GroupKind

/-- A group without its body.  The index is zero unless it captures. -/
structure Group where
  site : Site
  kind : GroupKind
  index : Nat
  name : Bytes
deriving Repr, DecidableEq

/-- Whether the group records what it matches. -/
def Group.isCapture (g : Group) : Bool := g.kind == .capture

/-- Whether the group is a lookaround. -/
def Group.isLookaround (g : Group) : Bool := g.kind.isLookaround

/-- How often something repeats; without `max` there is no upper bound. -/
structure Count where
  min : Nat
  max : Option Nat
  lazy : Bool
deriving Repr, DecidableEq

/-- Whether the count has no upper bound. -/
def Count.isUnbounded (c : Count) : Bool := c.max.isNone

/-- Whether `n` repetitions exhaust the count. -/
def Count.isExhausted (c : Count) (n : Nat) : Bool := c.max.any (· ≤ n)

/-- A quantifier without its body. -/
structure Quantifier where
  site : Site
  count : Count
deriving Repr, DecidableEq

/-- A syntax tree. -/
inductive Node where
  | atom (a : Atom)
  | anchor (site : Site) (kind : Anchor)
  | reference (r : Reference)
  | group (g : Group) (body : Node)
  | quantifier (q : Quantifier) (body : Node)
  | sequence (site : Site) (elements : List Node)
  | alternation (site : Site) (alternatives : List Node)
deriving Repr

namespace Node

/-- Where the node stands. -/
def site : Node → Site
  | atom a => a.site
  | anchor s _ => s
  | reference r => r.site
  | group g _ => g.site
  | quantifier q _ => q.site
  | sequence s _ => s
  | alternation s _ => s

/-- The number of the node. -/
def id (n : Node) : Nat := n.site.id

/-! ## 3. Walks -/

mutual

/-- The node and its descendants, parents before children.  The escapes and properties of a
class follow it as leaves of their own. -/
def walk : Node → List Node
  | atom a =>
    match a.shape with
    | .charClass k =>
      atom a :: (k.escapes.map (fun e => atom ⟨e.1, .escape e.2⟩) ++
        k.properties.map (fun p => atom ⟨p.1, .property p.2⟩))
    | _ => [atom a]
  | anchor s k => [anchor s k]
  | reference r => [reference r]
  | group g body => group g body :: body.walk
  | quantifier q body => quantifier q body :: body.walk
  | sequence s ns => sequence s ns :: walkAll ns
  | alternation s ns => alternation s ns :: walkAll ns

/-- The walks of several nodes, one after the other. -/
def walkAll : List Node → List Node
  | [] => []
  | n :: ns => n.walk ++ walkAll ns

end

mutual

/-- The number of nodes, members of classes not counted. -/
def size : Node → Nat
  | atom _ => 1
  | anchor _ _ => 1
  | reference _ => 1
  | group _ body => body.size + 1
  | quantifier _ body => body.size + 1
  | sequence _ ns => sizeAll ns + 1
  | alternation _ ns => sizeAll ns + 1

/-- The number of nodes of several trees. -/
def sizeAll : List Node → Nat
  | [] => 0
  | n :: ns => n.size + sizeAll ns

end

/-! ## 4. Matching empty, consuming -/

mutual

/-- Whether the node can match without consuming a character.  A reference may turn out empty. -/
def matchesEmpty : Node → Bool
  | atom _ => false
  | anchor _ _ => true
  | reference _ => true
  | group g body => g.isLookaround || body.matchesEmpty
  | quantifier q body => q.count.min == 0 || body.matchesEmpty
  | sequence _ ns => allMatchEmpty ns
  | alternation _ ns => someMatchesEmpty ns

/-- Whether all of several nodes can match without consuming. -/
def allMatchEmpty : List Node → Bool
  | [] => true
  | n :: ns => n.matchesEmpty && allMatchEmpty ns

/-- Whether one of several nodes can match without consuming. -/
def someMatchesEmpty : List Node → Bool
  | [] => false
  | n :: ns => n.matchesEmpty || someMatchesEmpty ns

end

mutual

/-- Whether the node can consume a character, lookarounds and references aside. -/
def consumes : Node → Bool
  | atom _ => true
  | anchor _ _ => false
  | reference _ => false
  | group g body => !g.isLookaround && body.consumes
  | quantifier q body => q.count.max != some 0 && body.consumes
  | sequence _ ns => someConsumes ns
  | alternation _ ns => someConsumes ns

/-- Whether one of several nodes can consume a character. -/
def someConsumes : List Node → Bool
  | [] => false
  | n :: ns => n.consumes || someConsumes ns

end

/-- Whether a quantifier without an upper bound occurs in the node. -/
def repeatsWithoutBound (n : Node) : Bool :=
  n.walk.any fun
    | quantifier q _ => q.count.isUnbounded
    | _ => false

end Node

/-- A parsed pattern. -/
structure Pattern where
  source : Bytes
  flags : Flags
  root : Node
  captures : Nat
deriving Repr

end Backtrack
