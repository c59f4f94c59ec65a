/-
# Looking nodes up

A pattern is asked over and over which nodes enclose a node.  The index lists the nodes of the
tree in walk order, each with its *enclosing* nodes from the inside out; members of classes are
no nodes of their own here.  Parents, containment and lookarounds are all read off that list.
-/
import Backtrack.Pattern.Node

namespace Backtrack

/-- A node with the nodes that enclose it, innermost first. -/
structure Placed where
  node : Node
  enclosing : List Node
deriving Repr

namespace Node

mutual

/-- The nodes of a tree that stands inside of `enclosing`, parents before children. -/
def placed (enclosing : List Node) : Node → List Placed
  | atom a => [⟨atom a, enclosing⟩]
  | anchor s k => [⟨anchor s k, enclosing⟩]
  | reference r => [⟨reference r, enclosing⟩]
  | group g body => ⟨group g body, enclosing⟩ :: placed (group g body :: enclosing) body
  | quantifier q body =>
    ⟨quantifier q body, enclosing⟩ :: placed (quantifier q body :: enclosing) body
  | sequence s ns => ⟨sequence s ns, enclosing⟩ :: placedAll (sequence s ns :: enclosing) ns
  | alternation s ns =>
    ⟨alternation s ns, enclosing⟩ :: placedAll (alternation s ns :: enclosing) ns

/-- The nodes of several trees inside of `enclosing`. -/
def placedAll (enclosing : List Node) : List Node → List Placed
  | [] => []
  | n :: ns => placed enclosing n ++ placedAll enclosing ns

end

end Node

/-- The nodes of a pattern with what encloses them. -/
structure Index where
  nodes : List Placed
deriving Repr

namespace Index

/-- The index of a tree. -/
def ofNode (root : Node) : Index := ⟨root.placed []⟩

/-- The entry of the node with a number. -/
def find? (x : Index) (id : Nat) : Option Placed := x.nodes.find? (·.node.id == id)

/-- The nodes that enclose a node, innermost first. -/
def enclosing (x : Index) (id : Nat) : List Node := ((x.find? id).map (·.enclosing)).getD []

/-- The node right above a node. -/
def parent? (x : Index) (id : Nat) : Option Node := (x.enclosing id).head?

/-- The lookarounds that enclose a node, outermost first. -/
def lookarounds (x : Index) (id : Nat) : List Group :=
  ((x.enclosing id).filterMap fun
    | .group g _ => if g.isLookaround then some g else none
    | _ => none).reverse

/-- Whether the node `inner` lies in the subtree of `outer`. -/
def contains (x : Index) (outer inner : Nat) : Bool :=
  outer == inner || (x.enclosing inner).any (·.id == outer)

/-- The capture group with a number, and its body. -/
def group? (x : Index) (index : Nat) : Option (Group × Node) :=
  x.nodes.findSome? fun p =>
    match p.node with
    | .group g body => if g.isCapture && g.index == index then some (g, body) else none
    | _ => none

/-- The group that starts at a byte of the source. -/
def groupAt? (x : Index) (start : Nat) : Option Group :=
  x.nodes.findSome? fun p =>
    match p.node with
    | .group g _ => if g.site.start == start then some g else none
    | _ => none

end Index

end Backtrack
