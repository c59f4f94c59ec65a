/-
# Atomic groups

What an atomic group consumed is never given back.  Two derivations that share their input can
therefore not be inside the group and already past it at the same time.  Each side of a search
remembers which atomic groups it has been in; comparing the two tells whether they are in step.
-/

namespace Backtrack

/-- How a side stands to an atomic group it has met. -/
inductive Presence where
  | present
  | wasPresent
deriving Repr, DecidableEq

/-- Groups with how a side stands to them. -/
abbrev Presences := List (Nat × Presence)

/-- The atomic groups a side has been in, by the numbers of their nodes. -/
structure Atomics where
  entered : List Nat
deriving Repr, DecidableEq

namespace Atomics

/-- At the start of a path. -/
def none : Atomics := ⟨[]⟩

/-- The groups of `atomic` among those that are open. -/
def openIn (atomic opened : List Nat) : List Nat := (opened.filter atomic.contains).eraseDups

/-- The history once some groups are open. -/
def enter (a : Atomics) (atomic opened : List Nat) : Atomics :=
  ⟨a.entered ++ (openIn atomic opened).filter fun g => !a.entered.contains g⟩

/-- How the side stands to every group it has met, once some groups are open. -/
def presences (a : Atomics) (atomic opened : List Nat) : Presences :=
  let now := openIn atomic opened
  if atomic.isEmpty then []
  else
    now.map (fun g => (g, .present)) ++
      (a.entered.filter fun g => !now.contains g).map fun g => (g, .wasPresent)

end Atomics

namespace Presence

/-- Whether one side is still inside a group the other has left. -/
def conflicts : Presence → Presence → Bool
  | .present, .wasPresent => true
  | .wasPresent, .present => true
  | _, _ => false

/-- Having left a group outweighs never having met it, and so does being inside. -/
def merge (p : Presence) : Option Presence → Presence
  | some .wasPresent => .wasPresent
  | _ => p

end Presence

/-- The merged presences of two sides, unless they are out of step. -/
def Presences.sync (left right : Presences) : Option Presences :=
  if left.any fun l => (right.lookup l.1).any (l.2.conflicts ·) then none
  else
    some (left.map (fun l => (l.1, l.2.merge (right.lookup l.1))) ++
      right.filter fun r => (left.lookup r.1).isNone)

end Backtrack
