/-
# What a leaf accepts

The requirement of a leaf depends on its shape and the flags alone.  A class adds up its
ranges, folded when case is ignored, its escapes and its properties, and negates the sum last.
-/
import Backtrack.Pattern.Node
import Backtrack.Requirement

namespace Backtrack

/-- The requirement of a class escape. -/
def ClassEscape.requirement (e : ClassEscape) : Requirement :=
  match e.kind with
  | .digit => Requirement.digit e.negated
  | .word => Requirement.word e.negated
  | .space => Requirement.space e.negated

/-- The requirement of a property escape. -/
def PropertyEscape.requirement (p : PropertyEscape) : Requirement :=
  ⟨false, CodePoint.Set.empty, [⟨p.name, p.negated⟩]⟩

/-- Adds several requirements to one. -/
def Requirement.addAll (g : Requirement) : List Requirement → Except UnknownCategory Requirement
  | [] => .ok g
  | r :: rs =>
    match g.union r with
    | .error e => .error e
    | .ok g => g.addAll rs

/-- The requirement of a class. -/
def CharClass.requirement (k : CharClass) (ignoreCase : Bool) :
    Except UnknownCategory Requirement :=
  let written := CodePoint.Set.ofRanges k.ranges
  let set := if ignoreCase then written.fold else written
  let parts := k.escapes.map (·.2.requirement) ++ k.properties.map (·.2.requirement)
  match (⟨false, set, []⟩ : Requirement).addAll parts with
  | .error e => .error e
  | .ok g => .ok (if k.negated then g.negate else g)

/-- The requirement of a leaf. -/
def Shape.requirement (flags : Flags) : Shape → Except UnknownCategory Requirement
  | .char c => .ok (Requirement.literal c flags.ignoreCase)
  | .dot => .ok (Requirement.wildcard flags.dotAll)
  | .escape e => .ok e.requirement
  | .property p => .ok p.requirement
  | .charClass k => k.requirement flags.ignoreCase

/-- The requirement of a leaf. -/
def Atom.requirement (flags : Flags) (a : Atom) : Except UnknownCategory Requirement :=
  a.shape.requirement flags

end Backtrack
