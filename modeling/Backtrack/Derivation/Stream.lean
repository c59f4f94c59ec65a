/-
# The walks of a tree

A stream is a position in the walks of a tree, given by the tasks that are left to do, the next
one first.  `Stream.next` does tasks until one of them gives an event.

* An alternation offers its alternatives one after the other: the next one is the branch of a
  split, the ones after it follow.
* A quantifier first does the iterations it needs and then offers each further one as the
  branch of a split; what follows the split leaves the quantifier.
* A lookaround is the branch of a split that ends on its own.

**Empty iterations.**  A body that consumed nothing in two iterations running will keep doing
so, and the quantifier is left, whether or not it had all the iterations it needs.

**Why `next` ends.**  Every task has a weight, and what a task leaves behind weighs less than
the task.  The weight of a quantifier counts only the iterations it needs, since the others are
on a branch.  So a walk that never takes a branch always ends (`weight_next_lt`), for counts of
any size.
-/
import Backtrack.Derivation.Event

namespace Backtrack

/-! ## 1. Tasks and their weights -/

/-- A pending piece of work. -/
inductive Task where
  | visit (n : Node) (fs : Frames)
  | choose (ns : List Node) (fs : Frames)
  /-- Decides about iteration `index`, after `idle` iterations running that consumed nothing. -/
  | iterate (q : Quantifier) (body : Node) (fs : Frames) (index idle : Nat)
  | enter (q : Quantifier) (body : Node) (fs : Frames) (index idle : Nat)
  /-- Ends iteration `index`, before which `mark` events had consumed. -/
  | leave (q : Quantifier) (body : Node) (fs : Frames) (index mark idle : Nat)
  | finish (fs : Frames)
deriving Repr

mutual

/-- How much work a node is to a walk that takes no branch. -/
def Node.weight : Node → Nat
  | .atom _ => 1
  | .anchor _ _ => 1
  | .reference _ => 1
  | .group _ body => body.weight + 1
  | .quantifier q body => q.count.min * (body.weight + 3) + 2
  | .sequence _ ns => Node.weightAll ns + 1
  | .alternation _ ns => Node.weightAll ns + 2

/-- The weight of several nodes. -/
def Node.weightAll : List Node → Nat
  | [] => 0
  | n :: ns => n.weight + Node.weightAll ns

end

theorem Node.weight_pos (n : Node) : 0 < n.weight := by
  cases n <;> simp [Node.weight]

/-- How much work a task is to a walk that takes no branch. -/
def Task.weight : Task → Nat
  | visit n _ => n.weight
  | choose ns _ => Node.weightAll ns + 1
  | iterate q body _ i _ => (q.count.min - i) * (body.weight + 3) + 1
  | enter q body _ i _ => (q.count.min - (i + 1)) * (body.weight + 3) + body.weight + 3
  | leave q body _ i _ _ => (q.count.min - (i + 1)) * (body.weight + 3) + 2
  | finish _ => 1

/-- How much work several tasks are. -/
def Task.weightAll : List Task → Nat
  | [] => 0
  | t :: ts => t.weight + Task.weightAll ts

theorem Task.weightAll_append (ts us : List Task) :
    Task.weightAll (ts ++ us) = Task.weightAll ts + Task.weightAll us := by
  induction ts with
  | nil => simp [Task.weightAll]
  | cons t ts ih => simp [Task.weightAll, ih, Nat.add_assoc]

/-- Visits to several nodes, in order. -/
def Task.visits (ns : List Node) (fs : Frames) : List Task := ns.map fun n => .visit n fs

/-- Visiting several nodes is as much work as the nodes are. -/
theorem Task.weightAll_visits (ns : List Node) (fs : Frames) :
    Task.weightAll (Task.visits ns fs) = Node.weightAll ns := by
  induction ns with
  | nil => rfl
  | cons n ns ih =>
    simp only [Task.visits] at ih
    simp [Task.visits, Task.weightAll, Task.weight, Node.weightAll, ih]

/-- An iteration that is needed, with all that come after it, weighs less than a decision about
them all.  Here `a` iterations are needed, `i` are behind, and the body weighs `b`. -/
theorem Task.enter_lt_iterate {a i b : Nat} (r : Nat) (h : i < a) :
    (a - (i + 1)) * (b + 3) + b + 3 + r < (a - i) * (b + 3) + 1 + r := by
  have : a - i = a - (i + 1) + 1 := by omega
  rw [this, Nat.add_mul, Nat.one_mul]
  omega

/-! ## 2. Streams -/

/-- A position in the walks of a tree: what is left to do, and how many events have consumed. -/
structure Stream where
  todo : List Task
  consumed : Nat
deriving Repr

namespace Stream

/-- Nothing left to do. -/
def ended : Stream := ⟨[], 0⟩

/-- The walks of a whole tree. -/
def ofNode (root : Node) : Stream := ⟨[.visit root [], .finish []], 0⟩

/-- The walks of a part of a tree inside of some frames; they just run out. -/
def ofBody (body : Node) (fs : Frames) : Stream := ⟨[.visit body fs], 0⟩

/-- How much work is left to a walk that takes no branch. -/
def weight (s : Stream) : Nat := Task.weightAll s.todo

/-- The frame of an iteration. -/
def iterationFrame (q : Quantifier) (i : Nat) : Frame :=
  .iteration ⟨q, i, q.count.min ≤ i && 1 ≤ i⟩

/-- The next event and what follows it, given how many events have consumed and what is left
to do.  With `multiline` the line anchors may hold anywhere. -/
def nextFrom (multiline : Bool) (consumed : Nat) : List Task → Event Stream × Stream
  | [] => (.done, ended)
  | .visit (.atom a) fs :: rest => (.consume fs a [], ⟨rest, consumed + 1⟩)
  | .visit (.reference r) fs :: rest => (.refer fs r, ⟨rest, consumed + 1⟩)
  | .visit (.anchor _ k) fs :: rest =>
    match k, multiline with
    | .start, false => (.start fs, ⟨rest, consumed⟩)
    | .stop, false => (.stop fs true, ended)
    | _, _ => (.skip fs, ⟨rest, consumed⟩)
  | .visit (.group g body) fs :: rest =>
    let inner := Frame.group g :: fs
    if g.isLookaround then
      (.split fs ⟨[.visit body inner, .finish inner], consumed⟩, ⟨rest, consumed⟩)
    else nextFrom multiline consumed (.visit body inner :: rest)
  | .visit (.quantifier q body) fs :: rest =>
    (.skip fs, ⟨.iterate q body fs 0 0 :: rest, consumed⟩)
  | .visit (.sequence _ ns) fs :: rest =>
    nextFrom multiline consumed (Task.visits ns fs ++ rest)
  | .visit (.alternation _ ns) fs :: rest => nextFrom multiline consumed (.choose ns fs :: rest)
  | .choose [] _ :: rest => nextFrom multiline consumed rest
  | .choose [n] fs :: rest => nextFrom multiline consumed (.visit n fs :: rest)
  | .choose (n :: m :: ns) fs :: rest =>
    (.split fs ⟨.visit n fs :: rest, consumed⟩, ⟨.choose (m :: ns) fs :: rest, consumed⟩)
  | .iterate q body fs i idle :: rest =>
    if q.count.isExhausted i then nextFrom multiline consumed rest
    else if i < q.count.min then
      nextFrom multiline consumed (.enter q body fs i idle :: rest)
    else (.split fs ⟨.enter q body fs i idle :: rest, consumed⟩, ⟨rest, consumed⟩)
  | .enter q body fs i idle :: rest =>
    let inner := iterationFrame q i :: fs
    (.skip inner, ⟨.visit body inner :: .leave q body fs i consumed idle :: rest, consumed⟩)
  | .leave q body fs i mark idle :: rest =>
    let idle := if consumed = mark then idle + 1 else 0
    if 2 ≤ idle then nextFrom multiline consumed rest
    else nextFrom multiline consumed (.iterate q body fs (i + 1) idle :: rest)
  | .finish fs :: _ => (.stop fs false, ended)
termination_by todo => Task.weightAll todo
decreasing_by
  all_goals
    simp only [Task.weightAll, Task.weightAll_append, Task.weightAll_visits, Task.weight,
      Node.weight, Node.weightAll]
  all_goals first
    | omega
    | exact Task.enter_lt_iterate _ (by assumption)

/-- The next event and what follows it. -/
def next (multiline : Bool) (s : Stream) : Event Stream × Stream :=
  nextFrom multiline s.consumed s.todo

/-! ## 3. Progress -/

theorem weight_nextFrom (multiline : Bool) (consumed : Nat) (todo : List Task) :
    (nextFrom multiline consumed todo).1.isTerminal = false →
      (nextFrom multiline consumed todo).2.weight < Task.weightAll todo := by
  fun_induction nextFrom multiline consumed todo
  all_goals intro h
  all_goals first
    | (simp [Event.isTerminal] at h; done)
    | (rename_i ih; refine Nat.lt_trans (ih h) ?_)
    | skip
  all_goals
    simp only [weight, Task.weightAll, Task.weightAll_append, Task.weightAll_visits, Task.weight,
      Node.weight, Node.weightAll, Nat.sub_zero]
  case case14 n m ns fs rest =>
    have := n.weight_pos
    omega
  all_goals first
    | omega
    | exact Task.enter_lt_iterate _ (by assumption)

/-- An event that does not end the walk leaves less to do. -/
theorem weight_next_lt {multiline : Bool} {s : Stream}
    (h : (s.next multiline).1.isTerminal = false) : (s.next multiline).2.weight < s.weight :=
  weight_nextFrom multiline s.consumed s.todo h

end Stream

end Backtrack
