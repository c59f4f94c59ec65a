/-
# Progress

A walk can go on for a while without meeting a leaf or a reference: quantifiers begin iterations,
lookarounds and alternatives are offered, anchors are passed.  It cannot do so for ever, whichever
way it goes at the splits (`Stream.progresses`).

That a walk which takes no branch ends is no help here.  A body that consumes nothing may be
repeated without bound, and every single iteration lies on a branch.  What stops it is that a
quantifier is left after two iterations running that consumed nothing, whatever its count.  Each
iteration starts that count anew for the quantifiers in its body, so the *delay* of a node, the
events there may be before something is consumed, is twice that of the body and more
(`Node.delay`).  For a task it also depends on what has been consumed: an iteration that is about
to end starts the count anew if something was consumed in it.

Between two events a stream does tasks that give none.  `Stream.next` takes them all together;
`Stream.pass` does one of them, and `Stream.loop` repeats that for a number of times that is given
beforehand.  The weight of what is to be done is always enough (`Stream.loop_eq`).
-/
import Backtrack.Proofs.Derivation.Transparent

namespace Backtrack

/-! ## 1. Delays

The delay of a node counts the events inside of it, and that of a task those left to it.  There is
a lemma for each of the ways in which a task goes on, and what waits behind it is added on both
sides. -/

mutual

/-- How many events there may be inside of the node without anything consumed. -/
def Node.delay : Node → Nat
  | .atom _ => 0
  | .anchor _ _ => 1
  | .reference _ => 0
  | .group _ body => body.delay + 1
  | .quantifier _ body => 2 * (body.delay + 2) + 1
  | .sequence _ ns => Node.delayAll ns
  | .alternation _ ns => Node.delayAll ns + ns.length

/-- How many events there may be inside of several nodes, one after the other. -/
def Node.delayAll : List Node → Nat
  | [] => 0
  | n :: ns => n.delay + Node.delayAll ns

end

namespace Task

/-- How many iterations running there may be that consume nothing, after `idle` of them. -/
def spares (idle : Nat) : Nat := if idle = 0 then 2 else 1

/-- How many events there may be before the task is done, with nothing consumed in between. -/
def delay (consumed : Nat) : Task → Nat
  | visit n _ => n.delay
  | choose ns _ => Node.delayAll ns + ns.length
  | iterate _ body _ _ idle => spares idle * (body.delay + 2)
  | enter _ body _ _ idle => (spares idle - 1) * (body.delay + 2) + body.delay + 1
  | leave _ body _ _ mark idle =>
    (if consumed = mark then spares idle - 1 else 2) * (body.delay + 2)
  | finish _ => 0

/-- How many events there may be before several tasks are done. -/
def delayAll (consumed : Nat) : List Task → Nat
  | [] => 0
  | t :: ts => t.delay consumed + delayAll consumed ts

theorem delayAll_append (consumed : Nat) (ts us : List Task) :
    delayAll consumed (ts ++ us) = delayAll consumed ts + delayAll consumed us := by
  induction ts with
  | nil => simp [delayAll]
  | cons t ts ih => simp [delayAll, ih, Nat.add_assoc]

/-- Visiting several nodes delays as much as the nodes do. -/
theorem delayAll_visits (consumed : Nat) (ns : List Node) (fs : Frames) :
    delayAll consumed (visits ns fs) = Node.delayAll ns := by
  induction ns with
  | nil => rfl
  | cons n ns ih => rw [Node.delayAll, ← ih, visits, List.map_cons, delayAll, delay, visits]

variable {consumed : Nat} {q : Quantifier} {body : Node} {fs : Frames} {i mark idle : Nat}

/-- An iteration is one of those there may be. -/
theorem delay_enter : (enter q body fs i idle).delay consumed + 1 =
    (iterate q body fs i idle).delay consumed := by
  simp only [delay, spares]
  split <;> omega

/-- The decision about the next iteration delays no more than the end of the one before. -/
theorem delay_again (h : ¬ 2 ≤ idles consumed mark idle) :
    (iterate q body fs (i + 1) (idles consumed mark idle)).delay consumed ≤
      (leave q body fs i mark idle).delay consumed := by
  simp only [idles, delay, spares] at h ⊢
  split at h
  · obtain rfl : idle = 0 := by omega
    simp [*]
  · simp [*]

variable {multiline : Bool} {t : Task} {us bs : List Task} {e : Event Stream}

/-- Tasks that take the place of one delay no more than that one. -/
theorem Becomes.delay_le (h : t.Becomes consumed us) :
    delayAll consumed us ≤ t.delay consumed := by
  cases h with
  | sequence s ns fs => exact Nat.le_of_eq (delayAll_visits consumed ns fs)
  | needed body fs idle =>
    -- The iteration gives no event yet; that it is begun counts already.
    exact Nat.le_of_succ_le (Nat.le_of_eq delay_enter)
  | again q body fs i lively => exact delay_again lively
  | group | alternation | last => simp [delayAll, delay, Node.delay, Node.delayAll]
  | nothing | exhausted | tired => exact Nat.zero_le _

/-- An event that lets the walk pass takes one from the delay. -/
theorem Gives.delay_lt (h : t.Gives multiline consumed e us) :
    delayAll consumed us < t.delay consumed := by
  cases h with
  | start | skip => exact Nat.one_pos
  | quantifier => simp [delayAll, delay, spares, Node.delay]
  | enter =>
    simp only [delayAll, delay, if_true]
    omega

/-- So does a split, on either way. -/
theorem Splits.delay_lt (h : t.Splits fs bs us) :
    delayAll consumed bs < t.delay consumed ∧ delayAll consumed us < t.delay consumed := by
  cases h with
  | choose =>
    simp only [delayAll, delay, Node.delayAll, List.length_cons]
    omega
  | offer =>
    rw [← delay_enter]
    simp only [delayAll]
    omega

/-- The walk into a lookaround has less before it, though it leaves all that waits behind. -/
theorem Looks.delay_lt (h : t.Looks fs bs) : delayAll consumed bs < t.delay consumed := by
  cases h with
  | lookaround => simp [delayAll, delay, Node.delay]

end Task

namespace Stream

/-- How many events there may be before something is consumed or the walk ends. -/
def delay (s : Stream) : Nat := Task.delayAll s.consumed s.todo

/-- Tasks that delay less than the one whose place they take leave less delay, whatever waits behind
them. -/
theorem delay_replaced_lt {consumed : Nat} {t : Task} {us : List Task} (rest : List Task)
    (less : Task.delayAll consumed us < t.delay consumed) :
    delay ⟨us ++ rest, consumed⟩ < Task.delayAll consumed (t :: rest) := by
  rw [delay, Task.delayAll_append, Task.delayAll]
  exact Nat.add_lt_add_right less _

/-- **An event that is about no leaf and no reference leaves less delay**, on either way.  Tasks
that give no event have no more delay behind them than before, and the event itself takes one from
it. -/
theorem delay_nextFrom (multiline : Bool) (consumed : Nat) (todo : List Task) (choice : Bool) :
    (nextFrom multiline consumed todo).1.isTerminal = false →
      (nextFrom multiline consumed todo).1.letter? = none →
        (onward choice (nextFrom multiline consumed todo)).delay <
          Task.delayAll consumed todo := by
  intro goes silent
  induction todo using nextFrom_induction multiline consumed with
  | done step =>
    rw [step] at goes
    cases goes
  | becomes task step ih =>
    rw [step] at goes silent ⊢
    refine Nat.lt_of_lt_of_le (ih goes silent) ?_
    rw [Task.delayAll_append, Task.delayAll]
    exact Nat.add_le_add_right task.delay_le _
  | meets task step =>
    rw [step] at silent
    cases task <;> cases silent
  | @gives t e us rest task step =>
    have passes : onward choice (e, ⟨us ++ rest, consumed⟩) = ⟨us ++ rest, consumed⟩ := by
      cases task <;> rfl
    rw [step, passes]
    exact delay_replaced_lt rest task.delay_lt
  | @splits t fs bs us rest task step =>
    rw [step]
    cases choice with
    | true => exact delay_replaced_lt rest task.delay_lt.1
    | false => exact delay_replaced_lt rest task.delay_lt.2
  | @looks t fs bs rest task step =>
    have less : Task.delayAll consumed bs < t.delay consumed := task.delay_lt
    rw [step, Task.delayAll]
    cases choice with
    | true => exact Nat.lt_add_right _ less
    | false => exact Nat.lt_add_of_pos_left (Nat.zero_lt_of_lt less)
  | ends task step =>
    rw [step] at goes
    cases task <;> cases goes

end Stream

/-! ## 2. Events that tell something -/

/-- Whether the event is about a leaf or a reference, or ends the walk. -/
def Event.isTelling {κ : Type} (e : Event κ) : Bool := e.letter?.isSome || e.isTerminal

theorem Event.isTelling_plain {κ : Type} (e : Event κ) : e.plain.isTelling = e.isTelling := by
  cases e <;> rfl

theorem Event.isTelling_eq_false {κ : Type} {e : Event κ} :
    e.isTelling = false ↔ e.letter? = none ∧ e.isTerminal = false := by
  rw [isTelling, Bool.or_eq_false_iff, Option.isSome_eq_false_iff, Option.isNone_iff_eq_none]

namespace Stream

/-- **No walk is delayed for longer than it can be.**  The induction is on the delay. -/
theorem exists_telling (multiline : Bool) {d : Nat} : ∀ {s : Stream} (choose : Nat → Bool),
    s.delay ≤ d → ∃ k ≤ d, ∃ e, eventAt (step multiline) k choose s = some e ∧
      e.isTelling = true := by
  induction d using Nat.strongRecOn with
  | ind d ih =>
    intro s choose hd
    cases telling : (s.next multiline).1.isTelling with
    | true =>
      exact ⟨0, Nat.zero_le d, _, rfl, (Event.isTelling_plain _).trans telling⟩
    | false =>
      obtain ⟨silent, goes⟩ := Event.isTelling_eq_false.mp telling
      have lt := Nat.lt_of_lt_of_le
        (delay_nextFrom multiline s.consumed s.todo (choose 0) goes silent) hd
      obtain ⟨k, hk, e, he, telling⟩ := ih _ lt (fun k => choose (k + 1)) (Nat.le_refl _)
      exact ⟨k + 1, Nat.le_trans (Nat.succ_le_succ hk) lt, e, he, telling⟩

/-! ## 3. One event

The other half is about the tasks between two events.  They are counted by their weight, which
every task that gives no event makes smaller. -/

/-- Does one task: what is left to do if it gives no event, or else the event and what follows. -/
def pass (multiline : Bool) (consumed : Nat) : List Task → List Task ⊕ (Event Stream × Stream)
  | [] => .inr (.done, ended)
  | .visit (.atom a) fs :: rest => .inr (.consume fs a [], ⟨rest, consumed + 1⟩)
  | .visit (.reference r) fs :: rest => .inr (.refer fs r, ⟨rest, consumed + 1⟩)
  | .visit (.anchor _ k) fs :: rest =>
    match k, multiline with
    | .start, false => .inr (.start fs, ⟨rest, consumed⟩)
    | .stop, false => .inr (.stop fs true, ended)
    | _, _ => .inr (.skip fs, ⟨rest, consumed⟩)
  | .visit (.group g body) fs :: rest =>
    if g.isLookaround then
      .inr (.split fs ⟨[.visit body (.group g :: fs), .finish (.group g :: fs)], consumed⟩,
        ⟨rest, consumed⟩)
    else .inl (.visit body (.group g :: fs) :: rest)
  | .visit (.quantifier q body) fs :: rest =>
    .inr (.skip fs, ⟨.iterate q body fs 0 0 :: rest, consumed⟩)
  | .visit (.sequence _ ns) fs :: rest => .inl (Task.visits ns fs ++ rest)
  | .visit (.alternation _ ns) fs :: rest => .inl (.choose ns fs :: rest)
  | .choose [] _ :: rest => .inl rest
  | .choose [n] fs :: rest => .inl (.visit n fs :: rest)
  | .choose (n :: m :: ns) fs :: rest =>
    .inr (.split fs ⟨.visit n fs :: rest, consumed⟩, ⟨.choose (m :: ns) fs :: rest, consumed⟩)
  | .iterate q body fs i idle :: rest =>
    if q.count.isExhausted i then .inl rest
    else if i < q.count.min then .inl (.enter q body fs i idle :: rest)
    else .inr (.split fs ⟨.enter q body fs i idle :: rest, consumed⟩, ⟨rest, consumed⟩)
  | .enter q body fs i idle :: rest =>
    .inr (.skip (iterationFrame q i :: fs),
      ⟨.visit body (iterationFrame q i :: fs) :: .leave q body fs i consumed idle :: rest,
        consumed⟩)
  | .leave q body fs i mark idle :: rest =>
    let idle := if consumed = mark then idle + 1 else 0
    .inl (if 2 ≤ idle then rest else .iterate q body fs (i + 1) idle :: rest)
  | .finish fs :: _ => .inr (.stop fs false, ended)

/-- A pass changes nothing about the next event, or gives it. -/
theorem nextFrom_eq_pass (multiline : Bool) (consumed : Nat) (todo : List Task) :
    nextFrom multiline consumed todo =
      (pass multiline consumed todo).elim (nextFrom multiline consumed) id := by
  fun_cases pass multiline consumed todo
  case case6 => rw [nextFrom, Sum.elim_inr, id] <;> assumption
  case case19 => rw [nextFrom, Sum.elim_inl, apply_ite (nextFrom multiline consumed)]
  all_goals (rw [nextFrom]; simp [*])

/-- A task that gives no event leaves less to do. -/
theorem weightAll_pass_lt {multiline : Bool} {consumed : Nat} {todo todo' : List Task} :
    pass multiline consumed todo = .inl todo' → Task.weightAll todo' < Task.weightAll todo := by
  fun_cases pass multiline consumed todo
  all_goals intro h; cases h
  all_goals
    simp only [Task.weightAll, Task.weightAll_append, Task.weightAll_visits, Task.weight,
      Node.weight, Node.weightAll]
  case case16 needed => exact Task.enter_lt_iterate _ needed
  case case19 =>
    split
    · omega
    · simp only [Task.weightAll, Task.weight]
      omega
  all_goals omega

/-- **Does task after task until one gives an event**, at most `n` of them. -/
def loop (multiline : Bool) (consumed : Nat) : Nat → List Task → Option (Event Stream × Stream)
  | 0, _ => none
  | n + 1, todo =>
    match pass multiline consumed todo with
    | .inl todo' => loop multiline consumed n todo'
    | .inr r => some r

/-- **A number of tasks above their weight is enough for the next event.**  Each task that gives
no event leaves less weight, so the tasks before an event are fewer than the weight. -/
theorem loop_eq {multiline : Bool} {consumed n : Nat} {todo : List Task}
    (h : Task.weightAll todo < n) :
    loop multiline consumed n todo = some (nextFrom multiline consumed todo) := by
  induction n generalizing todo with
  | zero => omega
  | succ n ih =>
    rw [loop, nextFrom_eq_pass]
    cases hp : pass multiline consumed todo with
    | inl todo' =>
      have lt := weightAll_pass_lt hp
      exact ih (by omega)
    | inr r => rfl

/-! ## 4. Progress -/

/-- **A stream makes progress**: whichever way it goes, it has met a leaf or a reference or has
ended after a number of events that does not depend on the way; and a number of tasks is enough for
each event.  Nothing is asked of the stream, so this is true of those of any tree and of all they
lead to. -/
theorem progresses (multiline : Bool) (s : Stream) :
    (∃ bound, ∀ choose : Nat → Bool, ∃ k < bound, ∃ e,
      eventAt (step multiline) k choose s = some e ∧ e.isTelling = true) ∧
    ∃ n, loop multiline s.consumed n s.todo = some (s.next multiline) := by
  constructor
  · refine ⟨s.delay + 1, fun choose => ?_⟩
    obtain ⟨k, hk, telling⟩ := exists_telling multiline choose (Nat.le_refl s.delay)
    exact ⟨k, Nat.lt_succ_of_le hk, telling⟩
  · exact ⟨s.weight + 1, loop_eq (Nat.lt_succ_self s.weight)⟩

end Stream

end Backtrack
