/-
# A search that checks everything it relies on

Some of what a search does is meant for part of what it could be given.  Two events are compared as
events of leaves that consume; whether the match can end behind a leaf is asked of a question that
was put there for it; what a leaf accepts is worked out for a leaf, from properties that are known.
In `Search.expand` nothing can go wrong where such an expectation fails: an event of some other kind
counts as an end, the question is put where it is asked, and a leaf is a leaf by its type.

Here is the same search with all of that checked where it is relied on.  A position is a `Cursor`
and need not attach questions; an event is compared as it was fetched, whatever it is; what a leaf
accepts is worked out for the node that has its number, whatever that is.  Where a check fails the
search comes to a `Panic`.  That it never does is shown in the next module.
-/
import Backtrack.Proofs.Search.Sides

namespace Backtrack

namespace Search

/-- What a search must not come to. -/
inductive Panic where
  /-- Neither of two events ends its walk, and one of them does not consume. -/
  | comparing (left right : Event Unit)
  /-- A leaf was fetched without a question. -/
  | unasked
  /-- A number is not that of a leaf. -/
  | notConsuming (n : Option Node)
  /-- A property is to be written out that is not known. -/
  | unknownCategory (e : UnknownCategory)
deriving Repr

/-- Why a search that checks everything cannot be finished. -/
inductive Trouble where
  | unsupported (u : Unsupported)
  | panic (p : Panic)
deriving Repr

namespace Guarded

/-- The surroundings of a search, with the nodes of the pattern. -/
structure Surroundings extends Context where
  nodes : List Node

/-- The surroundings of a search of a pattern. -/
def around (p : Pattern) (o : Options) : Surroundings := ⟨contextOf p o, p.root.walk⟩

theorem toContext_around (p : Pattern) (o : Options) :
    (around p o).toContext = contextOf p o := rfl

/-! ## 1. Positions

A cursor is a resolver with a layer on top or without it.  Everything it does is done by the
resolver, and the layer only puts something beside each event. -/

/-- A position in a derivation; if it `asks`, with the layer that attaches a question to every
leaf. -/
structure Cursor where
  resolver : Resolver
  asks : Bool
deriving Repr

/-- An event with what its leaf accepts, and the position to ask whether the match can end behind
the leaf. -/
structure Notice where
  event : Event Cursor
  accepted : Requirement
  question : Option Cursor
deriving Repr

/-- The event of a position.  The layer that attaches questions is there on the branch of a split as
well, and not where the question is asked. -/
def Notice.of (asks : Bool) (e : Event Resolver) (accepted : Requirement) (rest : Resolver) :
    Notice :=
  ⟨e.mapBranch (⟨·, asks⟩), accepted,
    if asks then e.consumed?.map fun _ => ⟨rest, false⟩ else none⟩

variable (x : Surroundings)

/-- What the node with a number accepts. -/
def compile (id : Nat) : Except Panic Requirement :=
  match x.nodes.find? (·.id == id) with
  | some (.atom a) =>
    match x.requirement a with
    | .error e => .error (.unknownCategory e)
    | .ok g => .ok g
  | n => .error (.notConsuming n)

/-- What the leaf of an event accepts; no other event accepts anything. -/
def acceptedBy : Event Resolver → Except Panic Requirement
  | .consume _ a _ => compile x a.site.id
  | _ => .ok Requirement.empty

namespace Cursor

/-- The next event and the position after it. -/
def next (c : Cursor) : Except Trouble (Notice × Cursor) :=
  match c.resolver.next x.subject with
  | .error u => .error (.unsupported u)
  | .ok (e, r) =>
    match acceptedBy x e with
    | .error p => .error (.panic p)
    | .ok g => .ok (Notice.of c.asks e g r, ⟨r, c.asks⟩)

variable {x} in
theorem next_cases {c c' : Cursor} {n : Notice} (h : c.next x = .ok (n, c')) :
    ∃ e g, c.resolver.next x.subject = .ok (e, c'.resolver) ∧
      n = Notice.of c.asks e g c'.resolver := by
  unfold next at h
  split at h
  · cases h
  rename_i e r hn
  split at h
  · cases h
  rename_i g _
  obtain ⟨rfl, rfl⟩ := Prod.mk.inj (Except.ok.inj h)
  exact ⟨e, g, hn, rfl⟩

variable {x} in
theorem weight_next_lt {c c' : Cursor} {n : Notice} {fs : Frames} (h : c.next x = .ok (n, c'))
    (passes : n.event = .skip fs ∨ n.event = .start fs) :
    c'.resolver.feed.weight < c.resolver.feed.weight := by
  obtain ⟨e, g, hn, rfl⟩ := next_cases h
  refine Resolver.weight_next_lt hn ?_
  cases e <;> simp [Notice.of, Event.mapBranch] at passes <;> rfl

/-- The next event that does more than let the walk pass, with the number of times the start of the
input has been required up to it. -/
def fetch (starts : Nat) (c : Cursor) : Except Trouble (Nat × Notice × Cursor) :=
  match _h : c.next x with
  | .error t => .error t
  | .ok (⟨.skip _, _, _⟩, c') => fetch starts c'
  | .ok (⟨.start _, _, _⟩, c') => fetch (starts + 1) c'
  | .ok (n, c') => .ok (starts, n, c')
termination_by c.resolver.feed.weight
decreasing_by
  · exact weight_next_lt _h (.inl rfl)
  · exact weight_next_lt _h (.inr rfl)

variable {x} in
theorem fetch_of_error {c : Cursor} {t : Trouble} (h : c.next x = .error t) (starts : Nat) :
    c.fetch x starts = .error t := by
  rw [fetch]
  split <;> simp_all

variable {x} in
theorem fetch_of_ok {c c' : Cursor} {n : Notice} (h : c.next x = .ok (n, c')) (starts : Nat) :
    c.fetch x starts =
      match n.event with
      | .skip _ => c'.fetch x starts
      | .start _ => c'.fetch x (starts + 1)
      | _ => .ok (starts, n, c') := by
  rw [fetch]
  split <;> rename_i hn <;> rw [h] at hn
  · simp at hn
  · obtain ⟨rfl, rfl⟩ := Prod.mk.inj (Except.ok.inj hn)
    rfl
  · obtain ⟨rfl, rfl⟩ := Prod.mk.inj (Except.ok.inj hn)
    rfl
  · rename_i skip start
    obtain ⟨rfl, rfl⟩ := Prod.mk.inj (Except.ok.inj hn)
    obtain ⟨e, g, q⟩ := n
    cases e with
    | skip fs => exact (skip fs g q rfl).elim
    | start fs => exact (start fs g q rfl).elim
    | _ => rfl

/-- Whether the walk can end here, as far as so many events show. -/
def endsWithin : Nat → Cursor → Except Panic Bool
  | 0, _ => .ok false
  | k + 1, c =>
    match c.next x with
    | .error (.unsupported _) => .ok false
    | .error (.panic p) => .error p
    | .ok (⟨.split _ _, _, _⟩, c') => endsWithin k c'
    | .ok (⟨.skip _, _, _⟩, c') => endsWithin k c'
    | .ok (⟨.start _, _, _⟩, c') => endsWithin k c'
    | .ok (⟨.stop _ bounded, _, _⟩, _) => .ok (!bounded)
    | .ok _ => .ok false

end Cursor

/-! ## 2. Steps

The order of the checks is that in which things are relied on: a leaf is asked for what it accepts
before it is compared, and for its question only if the comparison comes to that. -/

/-- One of the two derivations. -/
structure Half where
  position : Cursor
  starts : Nat
  seen : Atomics
deriving Repr

/-- Two derivations that have consumed the same input. -/
structure Work where
  left : Half
  right : Half
  trail : Trail
  history : List (Side.Key × Side.Key)
  equal : Bool
deriving Repr

/-- A leaf about to consume, with what it accepts and its question. -/
structure Leaf where
  frames : Frames
  atom : Atom
  via : List Reference
  starts : Nat
  seen : Atomics
  accepted : Requirement
  question : Cursor
  rest : Cursor
deriving Repr

/-- The side of a leaf. -/
def Leaf.side (l : Leaf) : Side := Side.ofAtom l.frames l.atom l.via

/-- Whether the match can end behind the leaf. -/
def Leaf.answer (l : Leaf) : Except Panic Bool := l.question.endsWithin x Resolver.unboundedLimit

/-- How a leaf stands to the atomic groups. -/
def Leaf.presences (l : Leaf) : Presences :=
  l.seen.presences x.atomic (Frames.openGroups l.frames)

/-- Half of a path after its leaf has consumed. -/
def Leaf.after (l : Leaf) : Half :=
  ⟨l.rest, l.starts, l.seen.enter x.atomic (Frames.openGroups l.frames)⟩

/-- What a derivation does next, as it was fetched. -/
inductive Move where
  | consumes (l : Leaf)
  | splits (fs : Frames) (stay enter : Half)
  | other (e : Event Unit)
deriving Repr

/-- The event of a move. -/
def Move.event : Move → Event Unit
  | consumes l => .consume l.frames l.atom l.via
  | splits fs _ _ => .split fs ()
  | other e => e

/-- What becomes of the work on top of the stack. -/
inductive Expansion where
  | stop (s : Status)
  | replace (work : List Work) (found : Option Trail)
deriving Repr

/-- What one half of a path does next.  A leaf is to come with its question. -/
def Half.move (h : Half) : Except Trouble Move :=
  match h.position.fetch x h.starts with
  | .error t => .error t
  | .ok (starts, ⟨.consume fs a via, accepted, question⟩, rest) =>
    match question with
    | none => .error (.panic .unasked)
    | some q => .ok (.consumes ⟨fs, a, via, starts, h.seen, accepted, q, rest⟩)
  | .ok (starts, ⟨.split fs branch, _, _⟩, rest) =>
    .ok (.splits fs ⟨rest, starts, h.seen⟩ ⟨branch, starts, h.seen⟩)
  | .ok (_, n, _) => .ok (.other n.event.plain)

/-- Whether the match can end behind both leaves.  The right one is asked only where it matters. -/
def bothEnd (l r : Leaf) : Except Panic Bool :=
  match l.answer x with
  | .error p => .error p
  | .ok false => .ok false
  | .ok true => r.answer x

/-- Whether a pair of leaves is not worth following.  The questions are asked last. -/
def isPointless (w : Work) (l r : Leaf) : Except Panic Bool :=
  if l.starts != r.starts || Frames.lookarounds l.frames != Frames.lookarounds r.frames ||
      (w.equal && sharesQuantifier l.side.optionalQuantifiers r.side.optionalQuantifiers) then
    .ok true
  else if w.equal && l.side.same r.side then .ok false
  else
    match bothEnd x l r with
    | .error p => .error p
    | .ok ends => .ok (ends || (w.equal && consecutiveLoops l.side r.side))

/-- Compares two leaves. -/
def compare (found : List Trail) (w : Work) (l r : Leaf) : Except Panic Expansion :=
  match isPointless x w l r with
  | .error p => .error p
  | .ok true => .ok (.replace [] none)
  | .ok false =>
    let history := historyAfter w.history l.side r.side
    if History.endsInSquare history then
      .ok (if l.side.node = r.side.node ∧ l.side.key ≠ r.side.key then .stop .infiniteLoop
        else .replace [] none)
    else
      match l.accepted.intersect r.accepted with
      | .error e => .error (.unknownCategory e)
      | .ok shared =>
        if shared.isEmpty || ((l.presences x).sync (r.presences x)).isNone then
          .ok (.replace [] none)
        else
          let w' : Work :=
            ⟨l.after x, r.after x, w.trail.push ⟨shared, l.side, r.side⟩, history,
              w.equal && l.side.same r.side⟩
          let isNew := !w'.equal && !isDuplicate found w'.trail
          .ok (.replace [w'] (if isNew then some w'.trail else none))

/-- Compares two moves.  Unless one of them ends its walk, both are to consume. -/
def meet (found : List Trail) (w : Work) (left right : Move) : Except Panic Expansion :=
  if left.event.isTerminal || right.event.isTerminal then .ok (.replace [] none)
  else
    match left, right with
    | .consumes l, .consumes r => compare x found w l r
    | _, _ => .error (.comparing left.event right.event)

/-- What becomes of one piece of work. -/
def expand (found : List Trail) (w : Work) : Except Trouble Expansion :=
  match w.left.move x with
  | .error t => .error t
  | .ok (.splits _ stay enter) =>
    .ok (.replace [{ w with left := stay }, { w with left := enter }] none)
  | .ok left =>
    match w.right.move x with
    | .error t => .error t
    | .ok (.splits _ stay enter) =>
      .ok (.replace [{ w with right := stay }, { w with right := enter }] none)
    | .ok right =>
      match meet x found w left right with
      | .error p => .error (.panic p)
      | .ok e => .ok e

/-! ## 3. Searches

The loop is the same, with a result of three kinds: it can be finished, it cannot for want of
support, or it has come to a panic. -/

/-- The state of a search. -/
structure State where
  stack : List Work
  steps : Nat
  found : List Trail
deriving Repr

/-- Ends a search. -/
def State.finish (s : State) (status : Status) : Result := ⟨s.found.reverse, status, s.steps⟩

/-- Searches on for at most `budget` steps.  If the search cannot be finished, the steps it took go
with the trouble. -/
def run : (budget : Nat) → State → Except (Trouble × Nat) Result
  | budget, s =>
    match s.stack with
    | [] => .ok (s.finish .ok)
    | w :: rest =>
      match budget with
      | 0 => .ok (s.finish .hitMaxSteps)
      | budget + 1 =>
        if x.interrupted s.steps then .ok (s.finish .timedOut)
        else if x.maxStack < rest.length + w.trail.length then .ok (s.finish .stackOverflow)
        else
          match expand x s.found w with
          | .error t => .error (t, s.steps + 1)
          | .ok (.stop status) => .ok ({ s with steps := s.steps + 1 }.finish status)
          | .ok (.replace work found) =>
            run budget ⟨work ++ rest, s.steps + 1, found.toList ++ s.found⟩

/-- Two derivations at the start, both with questions. -/
def Work.initial (start : Resolver) : Work :=
  ⟨⟨⟨start, true⟩, 0, Atomics.none⟩, ⟨⟨start, true⟩, 0, Atomics.none⟩, Trail.empty, [], true⟩

/-- Searches a pattern. -/
def outcome (p : Pattern) (o : Options) : Except (Trouble × Nat) Result :=
  run (around p o) (limit o.maxSteps defaultMaxSteps)
    ⟨[Work.initial (Resolver.ofPattern p)], 0, []⟩

end Guarded

end Search

end Backtrack
