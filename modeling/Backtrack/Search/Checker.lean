/-
# The search for two derivations of the same input

The search runs two derivations of a pattern next to each other and looks for input that both
can consume although they stand at different places.  It is a depth-first search over *work*:
a position in each of the two derivations, the trail they have left, and what is needed to cut
paths off.  One step takes the work on top of the stack.

* If one of the derivations comes to a split, the work is replaced by two, the one that stops
  short of the branch on top.  The left derivation is asked first.
* Otherwise both consume, or one of them ends, and `compare` decides: the path is dropped, the
  search ends with an infinite loop, or the path goes on with one more entry in its trail.

A trail is found whenever its sides have differed somewhere.  It is left out if it was
found before with left and right exchanged.

A search is bounded by its steps and by the height of its stack.  It can also be interrupted
from the outside, because it has been called off or takes too long.  The search asks about that
before each of its steps, and the answer may be another one every time: what was found up to
then is the result.
-/
import Backtrack.Derivation.Resolver
import Backtrack.Pattern.Compile
import Backtrack.Search.Atomics
import Backtrack.Search.History
import Backtrack.Search.Side
import Backtrack.Search.Status

namespace Backtrack.Search

/-! ## 1. What a search works on -/

/-- Why a search cannot be finished. -/
inductive Failure where
  | unsupported (u : Unsupported)
  | unknownCategory (e : UnknownCategory)
deriving Repr, DecidableEq

/-- The wording of a failure. -/
def Failure.message : Failure → String
  | .unsupported u => u.message
  | .unknownCategory e => e.message

/-- What stays the same throughout a search. -/
structure Context where
  subject : Subject
  /-- What a leaf accepts. -/
  requirement : Atom → Except UnknownCategory Requirement
  /-- The nodes of the atomic groups. -/
  atomic : List Nat
  maxStack : Nat
  /-- Whether the search is found to be interrupted after so many steps. -/
  interrupted : Nat → Bool

/-- One of the two derivations: its position, how often it required the start of the input,
and the atomic groups it has been in. -/
structure Half where
  position : Resolver
  starts : Nat
  seen : Atomics
deriving Repr

/-- Two derivations that have consumed the same input. -/
structure Work where
  left : Half
  right : Half
  trail : Trail
  /-- The pairs of keys since the last position without an optional iteration, latest first. -/
  history : List (Side.Key × Side.Key)
  /-- Whether the sides have been the same so far. -/
  equal : Bool
deriving Repr

/-- Two derivations at the start. -/
def Work.initial (start : Resolver) : Work :=
  ⟨⟨start, 0, Atomics.none⟩, ⟨start, 0, Atomics.none⟩, Trail.empty, [], true⟩

/-! ## 2. Comparing two consuming events -/

/-- A leaf about to consume: what it is, where it stands, and what follows. -/
structure Candidate where
  frames : Frames
  atom : Atom
  via : List Reference
  starts : Nat
  seen : Atomics
  rest : Resolver
deriving Repr

/-- The side of a candidate. -/
def Candidate.side (c : Candidate) : Side := Side.ofAtom c.frames c.atom c.via

/-- What becomes of a path. -/
inductive Verdict where
  | drop
  | infiniteLoop
  | proceed (w : Work)
deriving Repr

/-- Whether both sides repeat in quantifiers without an upper bound and share none of those:
then they only disagree on where one loop hands over to the next. -/
def consecutiveLoops (l r : Side) : Bool :=
  !l.unboundedQuantifiers.isEmpty && !r.unboundedQuantifiers.isEmpty &&
    !sharesQuantifier l.unboundedQuantifiers r.unboundedQuantifiers

/-- The history after one more pair of sides; it starts over where no iteration is optional. -/
def historyAfter (history : List (Side.Key × Side.Key)) (l r : Side) :
    List (Side.Key × Side.Key) :=
  let kept := if l.optionalQuantifiers.isEmpty && r.optionalQuantifiers.isEmpty then []
    else history
  (l.key, r.key) :: kept

/-- What both leaves accept. -/
def Context.shared (x : Context) (l r : Atom) : Except UnknownCategory Requirement :=
  match x.requirement l, x.requirement r with
  | .error e, _ => .error e
  | .ok _, .error e => .error e
  | .ok g, .ok o => g.intersect o

/-- Half of a path after its leaf has consumed. -/
def Candidate.after (x : Context) (c : Candidate) : Half :=
  ⟨c.rest, c.starts, c.seen.enter x.atomic (Frames.openGroups c.frames)⟩

/-- How a candidate stands to the atomic groups. -/
def Candidate.presences (x : Context) (c : Candidate) : Presences :=
  c.seen.presences x.atomic (Frames.openGroups c.frames)

/-- Whether a pair of sides is not worth following before its characters are looked at.

* The derivations have to agree on the start of the input and on the lookarounds around them.
* As long as the sides are the same, they are not to be in an optional iteration of the same
  quantifier.
* Once they differ: if the match could end here for both, nothing before is ever tried again;
  and loops that only hand over at different points are not two derivations. -/
def isPointless (x : Context) (w : Work) (l r : Candidate) : Bool :=
  l.starts != r.starts ||
    Frames.lookarounds l.frames != Frames.lookarounds r.frames ||
    (w.equal && sharesQuantifier l.side.optionalQuantifiers r.side.optionalQuantifiers) ||
    (!(w.equal && l.side.same r.side) &&
      ((l.rest.endsUnbounded x.subject && r.rest.endsUnbounded x.subject) ||
        (w.equal && consecutiveLoops l.side r.side)))

/-- Compares two leaves that are about to consume. -/
def compare (x : Context) (w : Work) (l r : Candidate) : Except UnknownCategory Verdict :=
  if isPointless x w l r then .ok .drop
  else
    let history := historyAfter w.history l.side r.side
    if History.endsInSquare history then
      .ok (if l.side.node = r.side.node ∧ l.side.key ≠ r.side.key then .infiniteLoop else .drop)
    else
      match x.shared l.atom r.atom with
      | .error e => .error e
      | .ok shared =>
        if shared.isEmpty then .ok .drop
        else if ((l.presences x).sync (r.presences x)).isNone then .ok .drop
        else
          .ok (.proceed
            { left := l.after x
              right := r.after x
              trail := w.trail.push ⟨shared, l.side, r.side⟩
              history := history
              equal := w.equal && l.side.same r.side })

/-! ## 3. One step -/

/-- What a derivation does next. -/
inductive Move where
  | ends
  | splits (stay enter : Half)
  | consumes (c : Candidate)
deriving Repr

/-- What one half of a path does next. -/
def Half.move (x : Context) (h : Half) : Except Unsupported Move :=
  match h.position.fetch x.subject h.starts with
  | .error u => .error u
  | .ok (starts, .consume fs a via, rest) => .ok (.consumes ⟨fs, a, via, starts, h.seen, rest⟩)
  | .ok (starts, .split _ branch, rest) =>
    .ok (.splits ⟨rest, starts, h.seen⟩ ⟨branch, starts, h.seen⟩)
  | .ok _ => .ok .ends

/-- What becomes of the work on top of the stack. -/
inductive Expansion where
  | stop (s : Status)
  | replace (work : List Work) (found : Option Trail)
deriving Repr

/-- Whether a trail was found before with left and right exchanged. -/
def isDuplicate (found : List Trail) (t : Trail) : Bool := found.any (t.isSwapOf ·)

/-- The work two consuming leaves lead to. -/
def expandPair (x : Context) (found : List Trail) (w : Work) (l r : Candidate) :
    Except Failure Expansion :=
  match compare x w l r with
  | .error e => .error (.unknownCategory e)
  | .ok .drop => .ok (.replace [] none)
  | .ok .infiniteLoop => .ok (.stop .infiniteLoop)
  | .ok (.proceed w') =>
    let isNew := !w'.equal && !isDuplicate found w'.trail
    .ok (.replace [w'] (if isNew then some w'.trail else none))

/-- What becomes of one piece of work. -/
def expand (x : Context) (found : List Trail) (w : Work) : Except Failure Expansion :=
  match w.left.move x with
  | .error u => .error (.unsupported u)
  | .ok (.splits stay enter) =>
    .ok (.replace [{ w with left := stay }, { w with left := enter }] none)
  | .ok left =>
    match w.right.move x with
    | .error u => .error (.unsupported u)
    | .ok (.splits stay enter) =>
      .ok (.replace [{ w with right := stay }, { w with right := enter }] none)
    | .ok right =>
      match left, right with
      | .consumes l, .consumes r => expandPair x found w l r
      | _, _ => .ok (.replace [] none)

/-! ## 4. All steps -/

/-- The state of a search: its stack, the steps taken, the trails found, latest first. -/
structure State where
  stack : List Work
  steps : Nat
  found : List Trail
deriving Repr

/-- What a search found, and how it ended.  The trails are all there are only if it is `ok`. -/
structure Result where
  trails : List Trail
  status : Status
  steps : Nat
deriving Repr

/-- A search that cannot be finished, and the steps it took. -/
structure Stuck where
  failure : Failure
  steps : Nat
deriving Repr

/-- Ends a search. -/
def State.finish (s : State) (status : Status) : Result := ⟨s.found.reverse, status, s.steps⟩

/-- Searches on for at most `budget` steps. -/
def run (x : Context) : (budget : Nat) → State → Except Stuck Result
  | budget, s =>
    match s.stack with
    | [] => .ok (s.finish .ok)
    | w :: rest =>
      match budget with
      | 0 => .ok (s.finish .hitMaxSteps)
      | budget + 1 =>
        if x.interrupted s.steps then .ok (s.finish .timedOut)
        else if x.maxStack < rest.length + w.trail.length then .ok (s.finish .stackOverflow)
        else
          match expand x s.found w with
          | .error f => .error ⟨f, s.steps + 1⟩
          | .ok (.stop status) => .ok ({ s with steps := s.steps + 1 }.finish status)
          | .ok (.replace work found) =>
            run x budget ⟨work ++ rest, s.steps + 1, found.toList ++ s.found⟩

end Backtrack.Search
