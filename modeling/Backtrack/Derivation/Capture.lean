/-
# What capture groups hold

While a walk goes on, every character consumed inside a capture group is recorded for it, and a
reference to the group later repeats the record.  Two things spoil a record.

* A record made in one iteration of a quantifier is *stale* once the quantifier around the group
  is in another iteration.
* A record that ran through a quantifier without an upper bound stands for matches of any
  length.  It is marked `infinite` and cannot be repeated.
-/
import Backtrack.Derivation.Event

namespace Backtrack

/-- One recorded character, with the references that repeated it before. -/
structure Replay where
  atom : Atom
  via : List Reference
deriving Repr, DecidableEq

/-- What a group matched last, and the iterations around the group at that time. -/
structure Capture where
  entries : List Replay
  infinite : Bool
  iterations : List Iteration
deriving Repr, DecidableEq

/-- The contents of groups by their numbers. -/
abbrev Captures := List (Nat × Capture)

namespace Captures

/-- What the group with a number holds. -/
def get? (cs : Captures) (index : Nat) : Option Capture := cs.lookup index

/-- Changes what one group holds. -/
def set (cs : Captures) (index : Nat) (c : Capture) : Captures :=
  (index, c) :: cs.filter fun e => e.1 != index

end Captures

/-- The iteration a quantifier is in.  If it encloses itself, the outermost one counts. -/
def currentIteration? (current : List Iteration) (q : Quantifier) : Option Nat :=
  ((current.filter (·.quantifier == q)).getLast?).map (·.index)

/-- Whether one of the quantifiers around the group has moved on. -/
def Capture.isStale (c : Capture) (current : List Iteration) : Bool :=
  c.iterations.any fun i => (currentIteration? current i.quantifier).any (· != i.index)

namespace Captures

/-- Drops what is stale inside of some frames. -/
def invalidate (cs : Captures) (fs : Frames) : Captures :=
  cs.filter fun e => !e.2.isStale (Frames.iterations fs)

/-- Adds an entry to one group, which is inside of `outer`. -/
def extend (cs : Captures) (index : Nat) (outer : Frames) (entry : Replay) (infinite : Bool) :
    Captures :=
  let iterations := Frames.iterations outer
  match cs.get? index with
  | some old => cs.set index ⟨old.entries ++ [entry], old.infinite || infinite, iterations⟩
  | none => cs.set index ⟨[entry], infinite, iterations⟩

/-- Adds an entry to every capture group among the frames, from the inside out.  `unbounded`
tells whether a quantifier without an upper bound was met on the way. -/
def recordIn (entry : Replay) (unbounded : Bool) : Frames → Captures → Captures
  | [], cs => cs
  | .iteration i :: outer, cs =>
    recordIn entry (unbounded || i.quantifier.count.isUnbounded) outer cs
  | .group g :: outer, cs =>
    let cs := if g.isCapture then cs.extend g.index outer entry unbounded else cs
    recordIn entry unbounded outer cs

/-- Records a consumed character for every capture group around it. -/
def record (cs : Captures) (fs : Frames) (entry : Replay) : Captures := recordIn entry false fs cs

end Captures

end Backtrack
