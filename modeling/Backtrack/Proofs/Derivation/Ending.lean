/-
# Whether a pattern can end

After a character a search asks whether the pattern can end right there, with nothing that bounds
the match: whether some walk gets to an unbounded end before it consumes (`Resolver.CanEnd`).
`endsUnbounded` does not try them all.  It follows the one walk that takes no branch, and that walk
need not be the decisive one (`endAfterFirst_missed`).  Where it is, the answer is right unless a
reference is in its way or it is too long: `endsUnbounded_iff_canEnd`.

Both sides come to a property of what is left to do, that all of it can be passed without consuming
(`Node.canPass`).  If some walk comes to an end, this is read off from the end backwards, whatever
branches the walk took (`Recedes`).  And if it is so, the walk without branches passes one task
after another (`Proceeds`).

A quantifier is left early after two iterations that consumed nothing.  This does not help a task
that waits when a character is consumed, since its iteration has consumed then
(`Task.MarkedBelow`).
-/
import Backtrack.Proofs.Derivation.Origin

namespace Backtrack

/-! ## 1. What can be passed without consuming

Whether a node can be passed is computed on the tree, for walks with any branches.  The walk
without branches takes the last of several alternatives, so it can pass only where that one can be
passed.  `LastPasses` asks just this of every choice, and it is the condition of the main
result. -/

/-- Whether iteration `i` is needed. -/
def Quantifier.needs (q : Quantifier) (i : Nat) : Bool :=
  !q.count.isExhausted i && decide (i < q.count.min)

namespace Node

mutual

/-- Whether a walk can pass the node without consuming, if its references stand for nothing. -/
def canPass (multiline : Bool) : Node → Bool
  | atom _ => false
  | anchor _ k => k != .stop || multiline
  | reference _ => true
  | group g body => g.isLookaround || body.canPass multiline
  | quantifier q body => !q.needs 0 || body.canPass multiline
  | sequence _ ns => canPassAll multiline ns
  | alternation _ ns => canPassOne multiline ns

/-- Whether a walk can pass several nodes. -/
def canPassAll (multiline : Bool) : List Node → Bool
  | [] => true
  | n :: ns => n.canPass multiline && canPassAll multiline ns

/-- Whether a walk can pass one of several nodes. -/
def canPassOne (multiline : Bool) : List Node → Bool
  | [] => true
  | [n] => n.canPass multiline
  | n :: m :: ns => n.canPass multiline || canPassOne multiline (m :: ns)

end

/-- If one of the nodes can be passed, so can the last one. -/
def LastPasses (multiline : Bool) (ns : List Node) : Prop :=
  ∀ n ∈ ns, n.canPass multiline = true → ns.getLast?.any (·.canPass multiline) = true

instance (multiline : Bool) (ns : List Node) : Decidable (LastPasses multiline ns) :=
  inferInstanceAs (Decidable (∀ n ∈ ns, _ → _))

/-- The walk that takes no branch is the decisive one: it takes the last of several alternatives,
and it passes by all lookarounds. -/
structure IsDecided (multiline : Bool) (root : Node) : Prop where
  alternatives : ∀ s ns, .alternation s ns ∈ root.walk → LastPasses multiline ns
  lookarounds : ∀ g body, .group g body ∈ root.walk → g.isLookaround = true →
    body.canPass multiline = false

variable {multiline : Bool}

theorem canPassAll_iff {ns : List Node} :
    canPassAll multiline ns = true ↔ ∀ n ∈ ns, n.canPass multiline = true := by
  induction ns with
  | nil => simp [canPassAll]
  | cons n ns ih => simp [canPassAll, ih]

theorem LastPasses.tail {n m : Node} {ns : List Node} (h : LastPasses multiline (n :: m :: ns)) :
    LastPasses multiline (m :: ns) := by
  intro k hk passes
  simpa using h k (List.mem_cons_of_mem _ hk) passes

theorem canPassOne_of_mem : ∀ {ns : List Node} {n : Node}, n ∈ ns →
    n.canPass multiline = true → canPassOne multiline ns = true
  | [m], n, hn, h => by
    obtain rfl := List.mem_singleton.mp hn
    exact h
  | m :: k :: ns, n, hn, h => by
    rw [canPassOne, Bool.or_eq_true]
    rcases List.mem_cons.mp hn with rfl | hn
    · exact .inl h
    · exact .inr (canPassOne_of_mem hn h)

/-- Without the first of several nodes one can still pass, as the last one can be passed. -/
theorem LastPasses.canPassOne {n m : Node} {ns : List Node}
    (h : LastPasses multiline (n :: m :: ns))
    (passes : canPassOne multiline (n :: m :: ns) = true) :
    canPassOne multiline (m :: ns) = true := by
  rw [Node.canPassOne, Bool.or_eq_true] at passes
  rcases passes with first | others
  · obtain ⟨k, hk, hp⟩ := Option.any_eq_true _ _ |>.mp (h n List.mem_cons_self first)
    rw [List.getLast?_cons_cons] at hk
    exact canPassOne_of_mem (List.mem_of_getLast? hk) hp
  · exact others

end Node

namespace Task

/-- Whether the task can be passed without consuming. -/
def canPass (multiline : Bool) : Task → Bool
  | visit n _ => n.canPass multiline
  | choose ns _ => Node.canPassOne multiline ns
  | iterate q body _ i _ => !q.needs i || body.canPass multiline
  | enter _ body _ _ _ => body.canPass multiline
  | leave q body _ i _ _ => !q.needs (i + 1) || body.canPass multiline
  | finish _ => true

/-- The task leaves a quantifier early, as it has consumed nothing twice running. -/
def Quits (consumed : Nat) : Task → Prop
  | leave _ _ _ _ mark idle => consumed = mark ∧ 1 ≤ idle
  | _ => False

/-- The task can be passed, or it leaves a quantifier early. -/
def Passes (multiline : Bool) (consumed : Nat) (t : Task) : Prop :=
  t.canPass multiline = true ∨ t.Quits consumed

/-- An iteration that the task ends began when less than `c` events had consumed. -/
def MarkedBelow (c : Nat) : Task → Prop
  | leave _ _ _ _ mark _ => mark < c
  | _ => True

/-- What is left to do comes to an end of the pattern by tasks with the property, or runs out, if
that is good as well. -/
inductive Clears (P : Task → Prop) (last : Prop) : List Task → Prop
  | last (h : last) : Clears P last []
  | finish (fs : Frames) (ts : List Task) : Clears P last (.finish fs :: ts)
  | cons {t : Task} {ts : List Task} (h : P t) (rest : Clears P last ts) : Clears P last (t :: ts)

variable {P Q : Task → Prop} {last last' : Prop} {t : Task} {ts us bs : List Task} {fs : Frames}
  {e : Event Stream} {multiline : Bool} {c : Nat} {root : Node}

theorem MarkedBelow.mono {d : Nat} (h : t.MarkedBelow c) (le : c ≤ d) : t.MarkedBelow d := by
  cases t with
  | leave => exact Nat.lt_of_lt_of_le h le
  | _ => trivial

theorem MarkedBelow.not_quits (h : t.MarkedBelow c) : ¬ t.Quits c := by
  cases t with
  | leave _ _ _ _ mark => exact fun quits => Nat.lt_irrefl _ (quits.1 ▸ h)
  | _ => exact id

theorem Clears.mono (h : Clears P last ts) (sub : ∀ t ∈ ts, P t → Q t) (imp : last → last') :
    Clears Q last' ts := by
  induction h with
  | last h => exact .last (imp h)
  | finish fs ts => exact .finish fs ts
  | cons h _ ih =>
    obtain ⟨head, tail⟩ := List.forall_mem_cons.mp sub
    exact .cons (head h) (ih tail)

/-- Tasks that do not end the walk are passed one after the other. -/
theorem clears_append (unfinished : ∀ fs, finish fs ∉ us) :
    Clears P last (us ++ ts) ↔ (∀ u ∈ us, P u) ∧ Clears P last ts := by
  induction us with
  | nil => simp
  | cons u us ih =>
    have behind : ∀ fs, finish fs ∉ us := fun fs hu => unfinished fs (List.mem_cons_of_mem u hu)
    rw [List.forall_mem_cons, and_assoc, ← ih behind]
    constructor
    · intro h
      cases h with
      | finish fs => exact absurd List.mem_cons_self (unfinished fs)
      | cons h rest => exact ⟨h, rest⟩
    · exact fun h => .cons h.1 h.2

theorem Clears.uncons (h : Clears P last (t :: ts))
    (unfinished : ∀ fs, t ≠ .finish fs := by simp) : P t ∧ Clears P last ts := by
  have single : ∀ fs, Task.finish fs ∉ [t] := by
    intro fs hf
    exact unfinished fs (List.mem_singleton.mp hf).symm
  obtain ⟨head, rest⟩ := (clears_append single).mp h
  exact ⟨head t List.mem_cons_self, rest⟩

/-! What takes the place of a task can be passed if the task can, and the other way round.  The
walk that takes no branch needs the one (`canPass`), and a walk that is followed from its end
backwards needs the other (`passes`).  Only in the latter a quantifier may be left early. -/

theorem quits_of_tired (q : Quantifier) (body : Node) (fs : Frames) (i : Nat) {mark idle : Nat}
    (tired : 2 ≤ idles c mark idle) : (leave q body fs i mark idle).Quits c := by
  rw [idles] at tired
  split at tired
  · rename_i same
    exact ⟨same, Nat.le_of_succ_le_succ tired⟩
  · omega

theorem Becomes.passes (h : t.Becomes c us) (passes : ∀ u ∈ us, u.Passes multiline c) :
    t.Passes multiline c := by
  cases h with
  | group body fs =>
    have inside := (passes _ List.mem_cons_self).resolve_right id
    exact .inl ((Bool.or_eq_true _ _).mpr (.inr inside))
  | sequence s ns fs =>
    refine .inl (Node.canPassAll_iff.mpr fun n hn => ?_)
    exact (passes _ (List.mem_map_of_mem hn)).resolve_right id
  | alternation | last => exact .inl ((passes _ List.mem_cons_self).resolve_right id)
  | nothing => exact .inl rfl
  | exhausted body fs idle exhausted =>
    exact .inl (by simp [Task.canPass, Quantifier.needs, exhausted])
  | needed =>
    have inside := (passes _ List.mem_cons_self).resolve_right id
    exact .inl ((Bool.or_eq_true _ _).mpr (.inr inside))
  | tired q body fs i tired => exact .inr (quits_of_tired q body fs i tired)
  | again => exact .inl ((passes _ List.mem_cons_self).resolve_right id)

theorem Becomes.canPass (h : t.Becomes c us) (passes : t.canPass multiline = true) :
    ∀ u ∈ us, u.canPass multiline = true := by
  cases h with
  | group body fs plain =>
    rw [Task.canPass, Node.canPass, Bool.or_eq_true] at passes
    exact List.forall_mem_singleton.mpr (passes.resolve_left plain)
  | sequence s ns fs => exact List.forall_mem_map.mpr (Node.canPassAll_iff.mp passes)
  | needed body fs idle more needed =>
    rw [Task.canPass, Bool.or_eq_true] at passes
    refine List.forall_mem_singleton.mpr (passes.resolve_left ?_)
    simp [Quantifier.needs, more, needed]
  | alternation | last | again => exact List.forall_mem_singleton.mpr passes
  | nothing | exhausted | tired => exact List.forall_mem_nil _

theorem Gives.passes (h : t.Gives multiline c e us) (passes : ∀ u ∈ us, u.Passes multiline c) :
    t.canPass multiline = true := by
  cases h with
  | start => rfl
  | skip s fs goes =>
    rw [Task.canPass, Node.canPass, Bool.or_eq_true, bne_iff_ne]
    exact Decidable.not_or_of_imp goes
  | quantifier | enter => exact (passes _ List.mem_cons_self).resolve_right id

theorem Gives.canPass (h : t.Gives multiline c e us) (passes : t.canPass multiline = true) :
    ∀ u ∈ us, u.canPass multiline = true := by
  cases h with
  | start | skip => exact List.forall_mem_nil _
  | quantifier => exact List.forall_mem_singleton.mpr passes
  | enter =>
    refine List.forall_mem_cons.mpr ⟨passes, List.forall_mem_singleton.mpr ?_⟩
    rw [Task.canPass, Bool.or_eq_true]
    exact .inr passes

theorem Splits.passes (h : t.Splits fs bs us)
    (passes : (∀ u ∈ bs, u.Passes multiline c) ∨ ∀ u ∈ us, u.Passes multiline c) :
    t.canPass multiline = true := by
  cases h with
  | choose n m ns =>
    rw [Task.canPass, Node.canPassOne, Bool.or_eq_true]
    refine passes.imp (fun first => ?_) (fun others => ?_)
    · exact (first _ List.mem_cons_self).resolve_right id
    · exact (others _ List.mem_cons_self).resolve_right id
  | offer _ _ _ _ optional => simp [Task.canPass, Quantifier.needs, optional]

theorem Looks.canPass (h : t.Looks fs bs) : t.canPass multiline = true := by
  cases h with
  | lookaround body _ look => simp [Task.canPass, Node.canPass, look]

/-- A choice of the task is decided by the last alternative. -/
def IsDecided (multiline : Bool) : Task → Prop
  | choose ns _ => Node.LastPasses multiline ns
  | _ => True

/-- The task is about nodes below the root, and decided. -/
structure Sound (multiline : Bool) (root : Node) (t : Task) : Prop where
  below : t.From root
  decided : t.IsDecided multiline

theorem lasting_sound (decided : root.IsDecided multiline) : Lasting (Sound multiline root) := by
  intro _ t u unfolds h
  refine ⟨lasting_from root unfolds h.below, ?_⟩
  cases unfolds with
  | choose s ns fs => exact decided.alternatives s ns h.below.mem
  | others n m ns fs => exact Node.LastPasses.tail h.decided
  | _ => trivial

/-- The walk that goes on past a split can be passed as well, since the last of several
alternatives decides. -/
theorem Splits.canPass (h : t.Splits fs bs us) (decided : t.IsDecided multiline)
    (passes : t.canPass multiline = true) : ∀ u ∈ us, u.canPass multiline = true := by
  cases h with
  | choose n m ns =>
    have last : Node.LastPasses multiline (n :: m :: ns) := decided
    exact List.forall_mem_singleton.mpr (last.canPassOne passes)
  | offer => exact List.forall_mem_nil _

/-- The body of a lookaround does not come to an end without consuming. -/
theorem Looks.not_clears (h : t.Looks fs bs) (decided : root.IsDecided multiline)
    (below : t.From root) : ¬ Clears (Passes multiline c) last bs := by
  cases h with
  | @lookaround g body _ look =>
    intro clears
    have blocked := decided.lookarounds g body (Node.Below.mem below) look
    have passes := clears.uncons.1.resolve_right id
    exact absurd (blocked.symm.trans passes) Bool.false_ne_true

/-- An iteration that begins is marked with what has been consumed. -/
theorem lastingAt_markedBelow : LastingAt c (MarkedBelow (c + 1)) := by
  intro t u unfolds _
  cases unfolds with
  | leave => exact Nat.lt_succ_self c
  | _ => trivial

/-! None of these tasks ends the walk. -/

theorem Becomes.unfinished (h : t.Becomes c us) (fs : Frames) : t ≠ finish fs ∧ finish fs ∉ us := by
  cases h <;> simp [visits]

theorem Gives.unfinished (h : t.Gives multiline c e us) (fs : Frames) :
    t ≠ finish fs ∧ finish fs ∉ us := by
  cases h <;> simp

theorem Splits.unfinished {place : Frames} (h : t.Splits place bs us) (fs : Frames) :
    t ≠ finish fs ∧ finish fs ∉ bs ∧ finish fs ∉ us := by
  cases h <;> simp

end Task

/-! ## 2. Streams

A step is looked at in both directions.  Backwards, all walks count, so the step may be any;
forwards, only the walk without branches does, and it has to be told where that walk comes to an
end.  Marks are needed backwards only: they rule out that a task that was waiting when a character
was consumed leaves its quantifier early. -/

/-- A number of iterations is at most what has been consumed; `slack` is `1` or, right after
something has been consumed, `0`. -/
def Stream.Marked (slack : Nat) (s : Stream) : Prop :=
  ∀ t ∈ s.todo, t.MarkedBelow (s.consumed + slack)

/-- What becomes of the marks in a step. -/
structure KeepsMarks {κ : Type} (marked : Nat → κ → Prop) (r : Event κ × κ) : Prop where
  onward : marked 1 r.2
  aside : ∀ {fs b}, r.1 = .split fs b → marked 1 b
  consume : ∀ {fs a via}, r.1 = .consume fs a via → marked 0 r.2
  refer : ∀ {fs ref}, r.1 = .refer fs ref → marked 0 r.2

/-- From where a step leads to, the end can be reached only if it could before. -/
structure Recedes {κ : Type} (clears : κ → Prop) (last before : Prop) (r : Event κ × κ) : Prop where
  stop : ∀ {fs}, r.1 = .stop fs false → before
  done : r.1 = .done → last → before
  onward : r.1.isTerminal = false → (∀ fs a via, r.1 ≠ .consume fs a via) → clears r.2 → before
  aside : ∀ {fs b}, r.1 = .split fs b → clears b → before

/-- A step without a branch passes on, or it ends the walk, and nothing bounds the end. -/
structure Proceeds {κ : Type} (clears : κ → Prop) (last : Prop) (r : Event κ × κ) : Prop where
  unfed : ∀ fs a via, r.1 ≠ .consume fs a via
  stop : ∀ {fs b}, r.1 = .stop fs b → b = false
  abort : ∀ fs, r.1 ≠ .abort fs
  done : r.1 = .done → last
  onward : r.1.isTerminal = false → clears r.2

theorem Recedes.imp {κ : Type} {clears : κ → Prop} {last before before' : Prop} {r : Event κ × κ}
    (h : Recedes clears last before r) (imp : before → before') : Recedes clears last before' r :=
  ⟨fun he => imp (h.stop he), fun he hl => imp (h.done he hl),
    fun he hu hc => imp (h.onward he hu hc), fun he hb => imp (h.aside he hb)⟩

namespace Stream

variable {multiline : Bool} {c : Nat} {todo : List Task} {last : Prop} {root : Node}

/-- **One step of a stream keeps the marks.**  An iteration is marked with what has been consumed
when it begins, which never gets less. -/
theorem marks_nextFrom (multiline : Bool) (c : Nat) (h : ∀ t ∈ todo, t.MarkedBelow (c + 1)) :
    KeepsMarks Marked (nextFrom multiline c todo) := by
  have shows := shows_nextFrom multiline c Task.lastingAt_markedBelow h
  have counts := counts_nextFrom multiline c todo
  refine ⟨?_, fun he t ht => ?_, fun he t ht => ?_, fun he t ht => ?_⟩
  · rcases counts.grows with ended | le
    · rw [ended]
      exact List.forall_mem_nil _
    · exact fun t ht => (shows.onward t ht).mono (Nat.succ_le_succ le)
  · rw [counts.aside he]
    exact shows.aside he t ht
  · rw [counts.consume he]
    exact shows.onward t ht
  · rw [counts.refer he]
    exact shows.onward t ht

/-- Whether what a stream has left to do comes to an end of the pattern. -/
def Clears (P : Nat → Task → Prop) (last : Prop) (s : Stream) : Prop :=
  Task.Clears (P s.consumed) last s.todo

/-- **One step of a stream, from its end backwards.**  Whatever the step puts in the place of a
task, if that can be passed, the task could be. -/
theorem recedes_nextFrom (last : Prop) (decided : root.IsDecided multiline)
    (h : ∀ t ∈ todo, t.MarkedBelow (c + 1) ∧ t.From root) :
    Recedes (Clears (Task.Passes multiline) last) last
      (Task.Clears (Task.Passes multiline c) last todo) (nextFrom multiline c todo) := by
  induction todo using nextFrom_induction multiline c with
  | done step =>
    rw [step]
    exact ⟨by simp, fun _ => .last, by simp [Event.isTerminal], by simp⟩
  | becomes task step ih =>
    obtain ⟨here, behind⟩ := List.forall_mem_cons.mp h
    have left := List.forall_mem_append.mpr ⟨fun u hu =>
      ⟨Task.lastingAt_markedBelow (task.unfolds u hu) here.1,
        Task.lasting_from root (task.unfolds u hu) here.2⟩, behind⟩
    rw [step]
    refine (ih left).imp fun clears => ?_
    obtain ⟨passes, rest⟩ := (Task.clears_append fun fs => (task.unfinished fs).2).mp clears
    exact .cons (task.passes passes) rest
  | meets task step =>
    rw [step]
    cases task with
    | atom => exact ⟨by simp, by simp, fun _ unfed => absurd rfl (unfed _ _ _), by simp⟩
    | reference =>
      refine ⟨by simp, by simp, fun _ _ clears => .cons (.inl rfl) (clears.mono ?_ id), by simp⟩
      -- Nothing leaves a quantifier early after a reference.
      rintro t ht (passes | quits)
      · exact .inl passes
      · exact absurd quits ((List.forall_mem_cons.mp h).2 t ht).1.not_quits
  | @gives t e us rest task step =>
    have onward : Task.Clears (Task.Passes multiline c) last (us ++ rest) →
        Task.Clears (Task.Passes multiline c) last (t :: rest) := by
      intro clears
      obtain ⟨passes, rest⟩ := (Task.clears_append fun fs => (task.unfinished fs).2).mp clears
      exact .cons (.inl (task.passes passes)) rest
    rw [step]
    cases task <;> exact ⟨by simp, by simp, fun _ _ => onward, by simp⟩
  | splits task step =>
    rw [step]
    refine ⟨by simp, by simp, fun _ _ clears => ?_, ?_⟩
    · obtain ⟨passes, rest⟩ := (Task.clears_append fun fs => (task.unfinished fs).2.2).mp clears
      exact .cons (.inl (task.passes (.inr passes))) rest
    · rintro _ _ ⟨⟩ clears
      obtain ⟨passes, rest⟩ := (Task.clears_append fun fs => (task.unfinished fs).2.1).mp clears
      exact .cons (.inl (task.passes (.inl passes))) rest
  | looks task step =>
    rw [step]
    refine ⟨by simp, by simp, fun _ _ => .cons (.inl task.canPass), ?_⟩
    rintro _ _ ⟨⟩ clears
    exact absurd clears (task.not_clears decided (List.forall_mem_cons.mp h).1.2)
  | ends task step =>
    rw [step]
    cases task with
    | stop => exact ⟨by simp, by simp, by simp [Event.isTerminal], by simp⟩
    | finish fs => exact ⟨fun _ => .finish fs _, by simp, by simp [Event.isTerminal], by simp⟩

/-- **One step of a stream without a branch**, if all that is left to do can be passed.  Here the
converse is needed, and it holds for the alternative that is taken last only if the tree is
decided. -/
theorem proceeds_nextFrom (decided : root.IsDecided multiline)
    (h : ∀ t ∈ todo, t.Sound multiline root)
    (clears : Task.Clears (fun t => t.canPass multiline = true) last todo) :
    Proceeds (Clears (fun _ t => t.canPass multiline = true) last) last
      (nextFrom multiline c todo) := by
  induction todo using nextFrom_induction multiline c with
  | done step =>
    rw [step]
    cases clears with
    | last h => exact ⟨by simp, by simp, by simp, fun _ => h, by simp [Event.isTerminal]⟩
  | becomes task step ih =>
    obtain ⟨here, behind⟩ := List.forall_mem_cons.mp h
    obtain ⟨passes, rest⟩ := clears.uncons fun fs => (task.unfinished fs).1
    rw [step]
    refine ih (List.forall_mem_append.mpr ⟨fun u hu => ?_, behind⟩)
      ((Task.clears_append fun fs => (task.unfinished fs).2).mpr ⟨task.canPass passes, rest⟩)
    exact Task.lasting_sound decided (task.unfolds u hu) here
  | meets task step =>
    rw [step]
    cases task with
    | atom => exact absurd (clears.uncons).1 Bool.false_ne_true
    | reference => exact ⟨by simp, by simp, by simp, by simp, fun _ => (clears.uncons).2⟩
  | gives task step =>
    obtain ⟨passes, rest⟩ := clears.uncons fun fs => (task.unfinished fs).1
    have left := (Task.clears_append fun fs => (task.unfinished fs).2).mpr
      ⟨task.canPass passes, rest⟩
    rw [step]
    cases task <;> exact ⟨by simp, by simp, by simp, by simp, fun _ => left⟩
  | splits task step =>
    obtain ⟨passes, rest⟩ := clears.uncons fun fs => (task.unfinished fs).1
    have passes := task.canPass (List.forall_mem_cons.mp h).1.decided passes
    rw [step]
    exact ⟨by simp, by simp, by simp, by simp,
      fun _ => (Task.clears_append fun fs => (task.unfinished fs).2.2).mpr ⟨passes, rest⟩⟩
  | looks task step =>
    rw [step]
    cases task
    exact ⟨by simp, by simp, by simp, by simp, fun _ => (clears.uncons).2⟩
  | ends task step =>
    rw [step]
    cases task with
    | stop s fs single =>
      subst single
      exact absurd (clears.uncons).1 Bool.false_ne_true
    | finish =>
      refine ⟨by simp, ?_, by simp, by simp, by simp [Event.isTerminal]⟩
      rintro _ _ ⟨⟩
      rfl

end Stream

/-! ## 3. Feeds

A body that is matched again comes before the rest of the walk, so the rest has to be passed as
well.  The streams that wait have counted a reference since their marks were made, as if it had
been consumed, and none of them leaves a quantifier early. -/

namespace Feed

/-- The marks of all streams of a feed.  A stream that waits for the walk of a body has come to a
reference since. -/
def Marked (slack : Nat) : Feed → Prop
  | plain s => s.Marked slack
  | rematch s _ rest => s.Marked slack ∧ rest.Marked 0

/-- Whether what a feed has left to do comes to an end of the pattern. -/
def Clears (P : Nat → Task → Prop) : Feed → Prop
  | plain s => s.Clears P False
  | rematch s _ rest => s.Clears P (rest.Clears P)

variable {multiline : Bool} {root : Node}

theorem Marked.mono : ∀ {f : Feed}, f.Marked 0 → f.Marked 1
  | plain _, h => fun t ht => (h t ht).mono (Nat.le_succ _)
  | rematch _ _ _, h => ⟨fun t ht => (h.1 t ht).mono (Nat.le_succ _), h.2⟩

/-- Right after something has been consumed no quantifier is left early. -/
theorem Clears.canPass : ∀ {f : Feed}, f.Marked 0 → f.Clears (Task.Passes multiline) →
    f.Clears fun _ t => t.canPass multiline = true
  | plain _, marked, h =>
    h.mono (fun t ht passes => passes.resolve_right (marked t ht).not_quits) id
  | rematch _ _ _, marked, h =>
    h.mono (fun t ht passes => passes.resolve_right (marked.1 t ht).not_quits)
      (Clears.canPass marked.2)

theorem marks_next (multiline : Bool) : ∀ {f : Feed}, f.Marked 1 →
    KeepsMarks Marked (f.next multiline)
  | plain s, h => by
    have hs := Stream.marks_nextFrom multiline s.consumed h
    rw [next, Stream.next]
    refine ⟨hs.onward, fun he => ?_, fun he => ?_, fun he => ?_⟩
    · obtain ⟨b, hb, rfl⟩ := Event.mapBranch_eq_split.mp he
      exact hs.aside hb
    · exact hs.consume (Event.mapBranch_eq_consume.mp he)
    · exact hs.refer (Event.mapBranch_eq_refer.mp he)
  | rematch s via rest, h => by
    have hs := Stream.marks_nextFrom multiline s.consumed h.1
    rw [next, Stream.next]
    rcases hn : Stream.nextFrom multiline s.consumed s.todo with ⟨e, t⟩
    rw [hn] at hs
    cases e with
    | done => exact marks_next multiline h.2.mono
    | stop | abort => exact ⟨hs.onward, by simp, by simp, by simp⟩
    | consume => exact ⟨⟨hs.onward, h.2⟩, by simp, fun _ => ⟨hs.consume rfl, h.2⟩, by simp⟩
    | split =>
      refine ⟨⟨hs.onward, h.2⟩, ?_, by simp, by simp⟩
      rintro _ _ ⟨⟩
      exact ⟨hs.aside rfl, h.2⟩
    | refer => exact ⟨⟨hs.onward, h.2⟩, by simp, by simp, fun _ => ⟨hs.refer rfl, h.2⟩⟩
    | start | skip => exact ⟨⟨hs.onward, h.2⟩, by simp, by simp, by simp⟩

/-- **One step of a feed, from its end backwards.** -/
theorem recedes_next (decided : root.IsDecided multiline) : ∀ {f : Feed}, f.Marked 1 →
    (∀ t ∈ f.tasks, t.From root) →
    Recedes (Clears (Task.Passes multiline)) False (f.Clears (Task.Passes multiline))
      (f.next multiline)
  | plain s, marked, below => by
    have hs := Stream.recedes_nextFrom False decided fun t ht => ⟨marked t ht, below t ht⟩
    rw [next, Stream.next]
    refine ⟨fun he => ?_, by simp, fun go unfed => ?_, fun he clears => ?_⟩
    · exact hs.stop (Event.mapBranch_eq_stop.mp he)
    · rw [Event.isTerminal_mapBranch] at go
      exact hs.onward go fun fs a via he => unfed fs a via (Event.mapBranch_eq_consume.mpr he)
    · obtain ⟨b, hb, rfl⟩ := Event.mapBranch_eq_split.mp he
      exact hs.aside hb clears
  | rematch s via rest, marked, below => by
    obtain ⟨here, behind⟩ := List.forall_mem_append.mp below
    have hs := Stream.recedes_nextFrom (rest.Clears (Task.Passes multiline)) decided
      fun t ht => ⟨marked.1 t ht, here t ht⟩
    rw [next, Stream.next]
    rcases hn : Stream.nextFrom multiline s.consumed s.todo with ⟨e, t⟩
    rw [hn] at hs
    cases e with
    | done => exact (recedes_next decided marked.2.mono behind).imp (hs.done rfl)
    | stop =>
      refine ⟨?_, by simp, by simp [Event.isTerminal], by simp⟩
      rintro _ ⟨⟩
      exact hs.stop rfl
    | abort => exact ⟨by simp, by simp, by simp [Event.isTerminal], by simp⟩
    | consume => exact ⟨by simp, by simp, fun _ unfed => absurd rfl (unfed _ _ _), by simp⟩
    | split =>
      refine ⟨by simp, by simp, fun _ _ => hs.onward rfl (by simp), ?_⟩
      rintro _ _ ⟨⟩
      exact hs.aside rfl
    | refer | start | skip =>
      exact ⟨by simp, by simp, fun _ _ => hs.onward rfl (by simp), by simp⟩

/-- **One step of a feed without a branch**, if all that is left to do can be passed. -/
theorem proceeds_next (decided : root.IsDecided multiline) : ∀ {f : Feed},
    (∀ t ∈ f.tasks, t.Sound multiline root) →
    f.Clears (fun _ t => t.canPass multiline = true) →
    Proceeds (Clears fun _ t => t.canPass multiline = true) False (f.next multiline)
  | plain s, sound, clears => by
    have hs := Stream.proceeds_nextFrom (c := s.consumed) decided sound clears
    rw [next, Stream.next]
    refine ⟨fun fs a via he => ?_, fun he => ?_, fun fs he => ?_, fun he => ?_, fun go => ?_⟩
    · exact hs.unfed fs a via (Event.mapBranch_eq_consume.mp he)
    · exact hs.stop (Event.mapBranch_eq_stop.mp he)
    · exact hs.abort fs (Event.mapBranch_eq_abort.mp he)
    · exact hs.done (Event.mapBranch_eq_done.mp he)
    · rw [Event.isTerminal_mapBranch] at go
      exact hs.onward go
  | rematch s via rest, sound, clears => by
    obtain ⟨here, behind⟩ := List.forall_mem_append.mp sound
    have hs := Stream.proceeds_nextFrom (c := s.consumed) decided here clears
    rw [next, Stream.next]
    rcases hn : Stream.nextFrom multiline s.consumed s.todo with ⟨e, t⟩
    rw [hn] at hs
    cases e with
    | done => exact proceeds_next decided behind (hs.done rfl)
    | stop =>
      refine ⟨by simp, ?_, by simp, by simp, by simp [Event.isTerminal]⟩
      rintro _ _ ⟨⟩
      exact hs.stop rfl
    | abort => exact absurd rfl (hs.abort _)
    | consume => exact absurd rfl (hs.unfed _ _ _)
    | split | refer | start | skip =>
      exact ⟨by simp, by simp, by simp, by simp, fun _ => hs.onward rfl⟩

end Feed

/-! ## 4. Resolvers

References are where a resolver differs from its feed.  One that stands for nothing is passed over
and does no harm.  All others bar the walk (`IsBarred`): they consume something, or they cannot be
followed. -/

namespace Resolver

/-- An unbounded end can be reached without consuming. -/
def CanEnd (x : Subject) (r : Resolver) : Prop :=
  ∃ es t fs t', Run (step x) r es t ∧ entries es = [] ∧ t.next x = .ok (.stop fs false, t')

/-- A reference is in the way: it cannot be followed, it has come around again, or it repeats
something. -/
def IsBarred (x : Subject) (r : Resolver) : Prop :=
  (∃ u, r.next x = .error u) ∨ (∃ fs r', r.next x = .ok (.abort fs, r')) ∨
    ∃ fs ref first rest, Repeats x r fs ref first rest

/-- The walk that takes no branch and consumes nothing gets to a place in `n` events. -/
inductive Drifts (x : Subject) : Nat → Resolver → Resolver → Prop
  | here (r : Resolver) : Drifts x 0 r r
  | onward {n : Nat} {r r' t : Resolver} {e : Event Resolver} (h : r.next x = .ok (e, r'))
    (he : e.isTerminal = false) (unfed : ∀ fs a via, e ≠ .consume fs a via)
    (rest : Drifts x n r' t) : Drifts x (n + 1) r t

theorem CanEnd.cons {x : Subject} {r r' : Resolver} {e : Event Resolver} (h : r'.CanEnd x)
    (hs : Step (step x) r e r') (unfed : ∀ fs a via, e ≠ .consume fs a via) : r.CanEnd x := by
  obtain ⟨es, t, fs, t', run, silent, stop⟩ := h
  refine ⟨_, t, fs, t', .cons hs run, ?_, stop⟩
  exact entries_eq_nil.mpr (List.forall_mem_cons.mpr ⟨unfed, entries_eq_nil.mp silent⟩)

/-- **If the walk that takes no branch ends, the pattern can end.**  The walk itself is the run
that is asked for. -/
theorem canEnd_of_endsUnboundedWithin {x : Subject} {n : Nat} {r : Resolver}
    (h : r.endsUnboundedWithin x n = true) : r.CanEnd x := by
  fun_induction endsUnboundedWithin x n r with
  | case1 => cases h
  | case2 n r fs b r' hn ih | case3 n r fs r' hn ih | case4 n r fs r' hn ih =>
    exact (ih h).cons (.onward (step_eq_some.mpr hn) rfl) (by simp)
  | case5 n r fs bounded r' hn =>
    obtain rfl : bounded = false := by simpa using h
    exact ⟨[], r, fs, r', .nil r, rfl, hn⟩
  | case6 => cases h

/-- What is known of a place on a run. -/
structure Settled (multiline : Bool) (root : Node) (r : Resolver) : Prop where
  sound : ∀ t ∈ r.feed.tasks, t.Sound multiline root
  marked : r.feed.Marked 1
  pending : r.pending ≠ [] → r.feed.Marked 0

section Places

variable {multiline : Bool} {root : Node} {r r' : Resolver} {e : Event Resolver}

theorem settled_ofPattern (p : Pattern) : (ofPattern p).Settled p.flags.multiline p.root := by
  refine ⟨?_, ?_, fun wait => absurd rfl wait⟩
  · exact List.forall_mem_cons.mpr ⟨⟨Node.Below.refl p.root, trivial⟩,
      List.forall_mem_singleton.mpr ⟨trivial, trivial⟩⟩
  · exact List.forall_mem_cons.mpr ⟨trivial, List.forall_mem_singleton.mpr trivial⟩

theorem settled_ended (multiline : Bool) (root : Node) : ended.Settled multiline root :=
  ⟨List.forall_mem_nil _, List.forall_mem_nil _, fun wait => absurd rfl wait⟩

/-- What follows a step of the feed is settled as long as there is nothing to repeat. -/
theorem Settled.feed (decided : root.IsDecided multiline) (h : r.Settled multiline root)
    {e : Event Feed} (hf : r.feed.next multiline = (e, r'.feed)) (hp : r'.pending = []) :
    r'.Settled multiline root := by
  have shows := Feed.shows_next (Task.lasting_sound decided) multiline h.sound
  have marks := Feed.marks_next multiline h.marked
  rw [hf] at shows marks
  exact ⟨shows.onward, marks.onward, fun wait => absurd hp wait⟩

/-- **One step of a resolver settles what follows.** -/
theorem Settled.next (decided : root.IsDecided multiline) (h : r.Settled multiline root)
    (hn : r.next ⟨Index.ofNode root, multiline⟩ = .ok (e, r')) :
    r'.Settled multiline root ∧ (∀ fs a via, e = .consume fs a via → r'.feed.Marked 0) ∧
      ∀ fs b, e = .split fs b → b.Settled multiline root := by
  have advance : ∀ {r : Resolver} {e : Event Feed} {feed : Feed}, r.Settled multiline root →
      r.feed.next multiline = (e, feed) →
        Shows (Task.Sound multiline root) Feed.tasks (e, feed) ∧
          KeepsMarks Feed.Marked (e, feed) := by
    intro r e feed h hf
    exact hf ▸ ⟨Feed.shows_next (Task.lasting_sound decided) multiline h.sound,
      Feed.marks_next multiline h.marked⟩
  replace hn := advances_of_next hn
  induction hn with
  | resume waits =>
    have spent := h.pending (by simp [waits])
    exact ⟨⟨h.sound, h.marked, fun _ => spent⟩, fun _ _ _ _ => spent, by simp⟩
  | consume _ hf =>
    obtain ⟨shows, marks⟩ := advance h hf
    have spent := marks.consume rfl
    exact ⟨⟨shows.onward, marks.onward, fun _ => spent⟩, fun _ _ _ _ => spent, by simp⟩
  | split hp hf =>
    obtain ⟨shows, marks⟩ := advance h hf
    refine ⟨h.feed decided hf hp, by simp, ?_⟩
    rintro _ _ ⟨⟩
    exact ⟨shows.aside rfl, marks.aside rfl, fun wait => absurd hp wait⟩
  | start hp hf | skip hp hf | stop hp hf | abort hp hf | done hp hf =>
    exact ⟨h.feed decided hf hp, by simp, by simp⟩
  | replay _ hf =>
    obtain ⟨shows, marks⟩ := advance h hf
    have spent := marks.refer rfl
    exact ⟨⟨shows.onward, marks.onward, fun _ => spent⟩, fun _ _ _ _ => spent, by simp⟩
  | around => exact ⟨settled_ended multiline root, by simp, by simp⟩
  | rematch hp hf hr =>
    obtain ⟨shows, marks⟩ := advance h hf
    refine ⟨h.feed decided hf hp, by simp, ?_⟩
    rintro _ _ ⟨⟩
    refine ⟨?_, ?_, fun wait => absurd hp wait⟩
    · exact List.forall_mem_cons.mpr ⟨⟨below_of_resolve_rematch hr, trivial⟩, shows.onward⟩
    · exact ⟨List.forall_mem_singleton.mpr trivial, marks.refer rfl⟩
  | nothing hp hf _ _ _ ih => exact ih (h.feed decided hf hp)

/-- **One step of a resolver, from its end backwards.** -/
theorem recedes_next (decided : root.IsDecided multiline) (h : r.Settled multiline root)
    (hn : r.next ⟨Index.ofNode root, multiline⟩ = .ok (e, r')) :
    Recedes (fun r => r.feed.Clears (Task.Passes multiline)) False
      (r.pending = [] ∧ r.feed.Clears (Task.Passes multiline)) (e, r') := by
  have advance : ∀ {r : Resolver} {e : Event Feed} {feed : Feed}, r.Settled multiline root →
      r.feed.next multiline = (e, feed) →
        Recedes (Feed.Clears (Task.Passes multiline)) False
          (r.feed.Clears (Task.Passes multiline)) (e, feed) := by
    intro r e feed h hf
    exact hf ▸ Feed.recedes_next decided h.marked fun t ht => (h.sound t ht).below
  replace hn := advances_of_next hn
  induction hn with
  | resume | consume | replay =>
    exact ⟨by simp, by simp, fun _ unfed => absurd rfl (unfed _ _ _), by simp⟩
  | split hp hf =>
    have hs := advance h hf
    refine ⟨by simp, by simp, fun _ _ clears => ⟨hp, hs.onward rfl (by simp) clears⟩, ?_⟩
    rintro _ _ ⟨⟩ clears
    exact ⟨hp, hs.aside rfl clears⟩
  | start hp hf | skip hp hf =>
    exact ⟨by simp, by simp, fun _ _ clears => ⟨hp, (advance h hf).onward rfl (by simp) clears⟩,
      by simp⟩
  | stop hp hf =>
    refine ⟨?_, by simp, by simp [Event.isTerminal], by simp⟩
    rintro _ ⟨⟩
    exact ⟨hp, (advance h hf).stop rfl⟩
  | abort | done | around => exact ⟨by simp, by simp, by simp [Event.isTerminal], by simp⟩
  | rematch hp hf =>
    have hs := advance h hf
    refine ⟨by simp, by simp, fun _ _ clears => ⟨hp, hs.onward rfl (by simp) clears⟩, ?_⟩
    rintro _ _ ⟨⟩ clears
    -- The end is reached behind the body that is matched again, too.
    obtain ⟨-, behind⟩ := Task.Clears.uncons clears
    cases behind with
    | last clears => exact ⟨hp, hs.onward rfl (by simp) clears⟩
  | nothing hp hf _ _ _ ih =>
    refine (ih (h.feed decided hf hp)).imp fun after => ?_
    exact ⟨hp, (advance h hf).onward rfl (by simp) after.2⟩

/-- **One step of a resolver without a branch**, if all that is left to do can be passed. -/
theorem proceeds_next (decided : root.IsDecided multiline) (h : r.Settled multiline root)
    (hp : r.pending = []) (clears : r.feed.Clears fun _ t => t.canPass multiline = true)
    (hn : r.next ⟨Index.ofNode root, multiline⟩ = .ok (e, r')) (going : ∀ fs, e ≠ .abort fs)
    (fresh : ∀ fs ref first rest, ¬ Repeats ⟨Index.ofNode root, multiline⟩ r fs ref first rest) :
    Proceeds (fun r => r.pending = [] ∧ r.feed.Clears fun _ t => t.canPass multiline = true) False
      (e, r') := by
  have advance : ∀ {r : Resolver} {e : Event Feed} {feed : Feed}, r.Settled multiline root →
      r.feed.Clears (fun _ t => t.canPass multiline = true) →
      r.feed.next multiline = (e, feed) →
        Proceeds (Feed.Clears fun _ t => t.canPass multiline = true) False (e, feed) := by
    intro r e feed h clears hf
    exact hf ▸ Feed.proceeds_next decided h.sound clears
  replace hn := advances_of_next hn
  induction hn with
  | resume waits =>
    rw [hp] at waits
    cases waits
  | consume _ hf => exact absurd rfl ((advance h clears hf).unfed _ _ _)
  | split _ hf | start _ hf | skip _ hf =>
    exact ⟨by simp, by simp, by simp, by simp, fun _ => ⟨hp, (advance h clears hf).onward rfl⟩⟩
  | stop _ hf =>
    refine ⟨by simp, ?_, by simp, by simp, by simp [Event.isTerminal]⟩
    rintro _ _ ⟨⟩
    exact (advance h clears hf).stop rfl
  | abort | around => exact absurd rfl (going _)
  | done _ hf => exact ((advance h clears hf).done rfl).elim
  | replay _ hf hr => exact absurd (.here hp hf hr) (fresh _ _ _ _)
  | rematch _ hf =>
    exact ⟨by simp, by simp, by simp, by simp, fun _ => ⟨hp, (advance h clears hf).onward rfl⟩⟩
  | nothing _ hf hr once _ ih =>
    refine ih (h.feed decided hf hp) hp ((advance h clears hf).onward rfl) going ?_
    exact fun fs' ref' first rest later => fresh fs' ref' first rest (.later hp hf hr once later)

/-! ## 5. Runs

Backwards the induction is on the run to the end, and forwards on the number of steps the walk
without branches may take.  Both are about `Clears`, and put together they give the exact
answer. -/

theorem Settled.step (decided : root.IsDecided multiline) (h : r.Settled multiline root)
    (hs : Step (step ⟨Index.ofNode root, multiline⟩) r e r') : r'.Settled multiline root := by
  cases hs with
  | onward hn _ => exact (h.next decided (step_eq_some.mp hn)).1
  | aside hn => exact (h.next decided (step_eq_some.mp hn)).2.2 _ _ rfl

/-- **If the pattern can end at a place, all that is left to do can be passed there**, whatever
branches it took.  The induction is on the run: at its end nothing is left to pass, and each event
before it takes this one step back. -/
theorem clears_of_canEnd (decided : root.IsDecided multiline) (h : r.Settled multiline root)
    (ends : r.CanEnd ⟨Index.ofNode root, multiline⟩) :
    r.pending = [] ∧ r.feed.Clears (Task.Passes multiline) := by
  obtain ⟨es, t, fs, t', run, silent, stop⟩ := ends
  rw [entries_eq_nil] at silent
  induction run with
  | nil r => exact (recedes_next decided h stop).stop rfl
  | cons hs _ ih =>
    obtain ⟨unfed, silent⟩ := List.forall_mem_cons.mp silent
    have after := ih (h.step decided hs) silent stop
    cases hs with
    | onward hn go => exact (recedes_next decided h (step_eq_some.mp hn)).onward go unfed after.2
    | aside hn => exact (recedes_next decided h (step_eq_some.mp hn)).aside rfl after.2

/-- **If all that is left to do can be passed, the walk that takes no branch ends**, unless a
reference is in the way or the walk is too long.  The induction is on the number of steps that are
allowed; that they are enough is part of what is assumed of the walk (`Drifts`). -/
theorem endsUnboundedWithin_of_clears (decided : root.IsDecided multiline) : ∀ {n : Nat}
    {r : Resolver}, r.Settled multiline root → r.pending = [] →
      r.feed.Clears (fun _ t => t.canPass multiline = true) →
      (∀ m t, Drifts ⟨Index.ofNode root, multiline⟩ m r t →
        m < n ∧ ¬ t.IsBarred ⟨Index.ofNode root, multiline⟩) →
      r.endsUnboundedWithin ⟨Index.ofNode root, multiline⟩ n = true
  | 0, r, _, _, _, drifts => absurd (drifts 0 r (.here r)).1 (Nat.lt_irrefl 0)
  | n + 1, r, h, hp, clears, drifts => by
    have unbarred := (drifts 0 r (.here r)).2
    cases hn : r.next ⟨Index.ofNode root, multiline⟩ with
    | error u => exact absurd (.inl ⟨u, hn⟩) unbarred
    | ok er =>
      obtain ⟨e, r'⟩ := er
      have going : ∀ fs, e ≠ .abort fs := by
        rintro fs rfl
        exact unbarred (.inr (.inl ⟨fs, r', hn⟩))
      have proceeds := proceeds_next decided h hp clears hn going
        fun fs ref first rest repeats => unbarred (.inr (.inr ⟨fs, ref, first, rest, repeats⟩))
      have later : e.isTerminal = false → (∀ fs a via, e ≠ .consume fs a via) →
          r'.endsUnboundedWithin ⟨Index.ofNode root, multiline⟩ n = true := by
        intro go unfed
        obtain ⟨hp', clears'⟩ := proceeds.onward go
        refine endsUnboundedWithin_of_clears decided (h.next decided hn).1 hp' clears' ?_
        intro m t drift
        obtain ⟨short, unbarred⟩ := drifts (m + 1) t (.onward hn go unfed drift)
        exact ⟨Nat.lt_of_succ_lt_succ short, unbarred⟩
      rw [endsUnboundedWithin, hn]
      cases e with
      | split | skip | start => exact later rfl (by simp)
      | stop fs b =>
        obtain rfl := proceeds.stop rfl
        rfl
      | consume => exact absurd rfl (proceeds.unfed _ _ _)
      | abort => exact absurd rfl (going _)
      | done => exact (proceeds.done rfl).elim
      | refer => exact absurd rfl (next_ne_refer hn _ _)

end Places

/-- Nothing is in the way of a walk that goes on without consuming. -/
theorem not_isBarred {x : Subject} {r r' : Resolver} {e : Event Resolver}
    (hn : r.next x = .ok (e, r')) (going : ∀ fs, e ≠ .abort fs)
    (unfed : ∀ fs a via, e ≠ .consume fs a via) : ¬ r.IsBarred x := by
  rintro (⟨u, hu⟩ | ⟨fs, t, ha⟩ | ⟨fs, ref, first, rest, repeats⟩)
  · cases hn.symm.trans hu
  · exact going fs (Prod.mk.inj (Except.ok.inj (hn.symm.trans ha))).1
  · obtain ⟨t, hc, -⟩ := next_of_repeats repeats
    exact unfed _ _ _ (Prod.mk.inj (Except.ok.inj (hn.symm.trans hc))).1

/-- A walk that is seen to end is short, and nothing is in its way. -/
theorem drifts_of_endsUnboundedWithin {x : Subject} {n : Nat} {r : Resolver}
    (h : r.endsUnboundedWithin x n = true) {m : Nat} {t : Resolver} (drift : Drifts x m r t) :
    m < n ∧ ¬ t.IsBarred x := by
  fun_induction endsUnboundedWithin x n r generalizing m with
  | case1 | case6 => cases h
  | case2 n r fs b r' hn ih | case3 n r fs r' hn ih | case4 n r fs r' hn ih =>
    cases drift with
    | here => exact ⟨Nat.succ_pos n, not_isBarred hn (by simp) (by simp)⟩
    | onward hn' _ _ rest =>
      obtain ⟨-, rfl⟩ := Prod.mk.inj (Except.ok.inj (hn.symm.trans hn'))
      obtain ⟨short, unbarred⟩ := ih h rest
      exact ⟨Nat.succ_lt_succ short, unbarred⟩
  | case5 n r fs bounded r' hn =>
    cases drift with
    | here => exact ⟨Nat.succ_pos n, not_isBarred hn (by simp) (by simp)⟩
    | onward hn' go =>
      obtain ⟨rfl, -⟩ := Prod.mk.inj (Except.ok.inj (hn.symm.trans hn'))
      cases go

/-- **Whether a pattern can end right after a character.**  If `endsUnbounded` says so, there is a
walk that gets to an unbounded end before it consumes.  In a pattern in which the last of several
alternatives can be passed without consuming if any of them can, and the body of a lookaround
cannot, it says so if and only if there is such a walk, no reference is in the way of the walk that
takes no branch, and that walk is not too long. -/
theorem endsUnbounded_iff_canEnd {p : Pattern} {es : Trace} {s r : Resolver} {fs : Frames}
    {a : Atom} {via : List Reference} (run : Run (step (Subject.ofPattern p)) (ofPattern p) es s)
    (event : s.next (Subject.ofPattern p) = .ok (.consume fs a via, r)) :
    (r.endsUnbounded (Subject.ofPattern p) = true → r.CanEnd (Subject.ofPattern p)) ∧
    (p.root.IsDecided p.flags.multiline →
      (r.endsUnbounded (Subject.ofPattern p) = true ↔ r.CanEnd (Subject.ofPattern p) ∧
        ∀ n t, Drifts (Subject.ofPattern p) n r t →
          n < unboundedLimit ∧ ¬ t.IsBarred (Subject.ofPattern p))) := by
  refine ⟨canEnd_of_endsUnboundedWithin, fun decided => ⟨fun h => ?_, ?_⟩⟩
  · exact ⟨canEnd_of_endsUnboundedWithin h, fun n t => drifts_of_endsUnboundedWithin h⟩
  rintro ⟨ends, drifts⟩
  have settled := (run.invariant (P := Settled p.flags.multiline p.root) (Q := fun _ => True)
    (fun h hs => ⟨trivial, h.step decided hs⟩) (settled_ofPattern p)).2
  obtain ⟨after, spent, -⟩ := settled.next decided event
  obtain ⟨hp, clears⟩ := clears_of_canEnd decided after ends
  exact endsUnboundedWithin_of_clears decided after hp (clears.canPass (spent _ _ _ rfl)) drifts

/-- A walk can consume a character, and then get to an unbounded end before it consumes once more.
What is `seen` of this there is the answer of `endsUnbounded`. -/
def EndAfterFirst (source : String) (seen : Bool) : Prop :=
  ∃ p es s r fs a via, Pattern.parse (Bytes.ofString source) {} = .ok p ∧
    Run (step (Subject.ofPattern p)) (ofPattern p) es s ∧ entries es = [] ∧
    s.next (Subject.ofPattern p) = .ok (.consume fs a via, r) ∧
    r.endsUnbounded (Subject.ofPattern p) = seen ∧ r.CanEnd (Subject.ofPattern p)

/-- Checks this for the choices before and after the character. -/
def endsAfterFirst (x : Subject) (r : Resolver) (before after : List Bool) (seen : Bool) : Bool :=
  (follow (step x) before r).any fun p =>
    (entries p.1).isEmpty &&
      match p.2.next x with
      | .ok (.consume _ _ _, r') =>
        r'.endsUnbounded x == seen && (follow (step x) after r').any fun q =>
          (entries q.1).isEmpty &&
            match q.2.next x with
            | .ok (.stop _ b, _) => !b
            | _ => false
      | _ => false

theorem endAfterFirst_of_check {source : String} {p : Pattern} {before after : List Bool}
    {seen : Bool} (parsed : Pattern.parse (Bytes.ofString source) {} = .ok p)
    (h : endsAfterFirst (Subject.ofPattern p) (ofPattern p) before after seen = true) :
    EndAfterFirst source seen := by
  obtain ⟨⟨es, s⟩, hs, h⟩ := (Option.any_eq_true _ _).mp h
  obtain ⟨silent, h⟩ := (Bool.and_eq_true _ _).mp h
  split at h
  · rename_i fs a via r event
    obtain ⟨seen, h⟩ := (Bool.and_eq_true _ _).mp h
    obtain ⟨⟨es', t⟩, ht, h⟩ := (Option.any_eq_true _ _).mp h
    obtain ⟨silent', h⟩ := (Bool.and_eq_true _ _).mp h
    split at h
    · rename_i fs' b t' stop
      obtain rfl : b = false := by simpa using h
      refine ⟨p, es, s, r, fs, a, via, parsed, run_of_follow hs, List.isEmpty_iff.mp silent, event,
        beq_iff_eq.mp seen, ?_⟩
      exact ⟨es', t, fs', t', run_of_follow ht, List.isEmpty_iff.mp silent', stop⟩
    · cases h
  · cases h

/-- In `a(?:bc|(?:d|\1)+)(e)?` the pattern can end after `a`, past a reference to a group that has
not been set. -/
theorem endsUnbounded_past_reference : ∃ p es s r fs a via,
    Pattern.parse (Bytes.ofString "a(?:bc|(?:d|\\1)+)(e)?") {} = .ok p ∧
      Run (step (Subject.ofPattern p)) (ofPattern p) es s ∧
      s.next (Subject.ofPattern p) = .ok (.consume fs a via, r) ∧
      p.root.IsDecided p.flags.multiline ∧ r.endsUnbounded (Subject.ofPattern p) = true ∧
      r.CanEnd (Subject.ofPattern p) ∧ ∀ n t, Drifts (Subject.ofPattern p) n r t →
        n < unboundedLimit ∧ ¬ t.IsBarred (Subject.ofPattern p) := by
  let a : Atom := ⟨⟨1, 0, 1⟩, .char 97⟩
  let inner : Node := .alternation ⟨7, 10, 14⟩
    [.atom ⟨⟨5, 10, 11⟩, .char 100⟩, .reference ⟨⟨6, 12, 14⟩, 1, []⟩]
  let outer : Node := .alternation ⟨10, 4, 16⟩
    [.sequence ⟨4, 4, 6⟩ [.atom ⟨⟨2, 4, 5⟩, .char 98⟩, .atom ⟨⟨3, 5, 6⟩, .char 99⟩],
      .quantifier ⟨⟨9, 7, 16⟩, ⟨1, none, false⟩⟩ (.group ⟨⟨8, 7, 15⟩, .nonCapture, 0, []⟩ inner)]
  let p : Pattern :=
    { source := Bytes.ofString "a(?:bc|(?:d|\\1)+)(e)?"
      flags := {}
      root := .sequence ⟨15, 0, 21⟩ [.atom a, .group ⟨⟨11, 1, 17⟩, .nonCapture, 0, []⟩ outer,
        .quantifier ⟨⟨14, 17, 21⟩, ⟨0, some 1, false⟩⟩
          (.group ⟨⟨13, 17, 20⟩, .capture, 1, []⟩ (.atom ⟨⟨12, 18, 19⟩, .char 101⟩))]
      captures := 1 }
  have parsed : Pattern.parse (Bytes.ofString "a(?:bc|(?:d|\\1)+)(e)?") {} = .ok p := by
    with_unfolding_all rfl
  have decided : p.root.IsDecided p.flags.multiline := by
    refine ⟨fun s ns h => ?_, fun g body h look => ?_⟩
    · simp [p, inner, outer, Node.walk, Node.walkAll] at h
      rcases h with ⟨rfl, rfl⟩ | ⟨rfl, rfl⟩ <;> decide
    · simp [p, inner, outer, Node.walk, Node.walkAll] at h
      rcases h with ⟨rfl, -⟩ | ⟨rfl, -⟩ | ⟨rfl, -⟩ <;> cases look
  have check : endsAfterFirst (Subject.ofPattern p) (ofPattern p) []
      [false, false, false, false, false, false, false] true = true := by
    decide +kernel
  obtain ⟨q, es, s, r, fs, a, via, parsed', run, -, event, seen, -⟩ :=
    endAfterFirst_of_check parsed check
  obtain rfl : p = q := Except.ok.inj (parsed.symm.trans parsed')
  exact ⟨_, es, s, r, fs, a, via, parsed, run, event, decided, seen,
    ((endsUnbounded_iff_canEnd run event).2 decided).mp seen⟩

/-- **An end is missed** if another alternative than the last one leads to it, or the body of a
lookaround, or an iteration that makes a reference stand for nothing.  So the answer depends on the
order in which alternatives are written. -/
theorem endAfterFirst_missed : EndAfterFirst "a(?:|b)" false ∧ EndAfterFirst "a(?:b|)" true ∧
    EndAfterFirst "a(?=b?)c" false ∧ EndAfterFirst "(?:(a)|b?)*\\1" false := by
  let other : Group := ⟨⟨5, 1, 7⟩, .nonCapture, 0, []⟩
  let first : Node := .atom ⟨⟨1, 0, 1⟩, .char 97⟩
  let early : Pattern :=
    { source := Bytes.ofString "a(?:|b)"
      flags := {}
      root := .sequence ⟨6, 0, 7⟩ [first, .group other (.alternation ⟨4, 4, 6⟩
        [.sequence ⟨2, 4, 4⟩ [], .atom ⟨⟨3, 5, 6⟩, .char 98⟩])]
      captures := 0 }
  let late : Pattern :=
    { source := Bytes.ofString "a(?:b|)"
      flags := {}
      root := .sequence ⟨6, 0, 7⟩ [first, .group other (.alternation ⟨4, 4, 6⟩
        [.atom ⟨⟨2, 4, 5⟩, .char 98⟩, .sequence ⟨3, 6, 6⟩ []])]
      captures := 0 }
  let ahead : Pattern :=
    { source := Bytes.ofString "a(?=b?)c"
      flags := {}
      root := .sequence ⟨6, 0, 8⟩ [first, .group ⟨⟨4, 1, 7⟩, .lookahead, 0, []⟩
          (.quantifier ⟨⟨3, 4, 6⟩, ⟨0, some 1, false⟩⟩ (.atom ⟨⟨2, 4, 5⟩, .char 98⟩)),
        .atom ⟨⟨5, 7, 8⟩, .char 99⟩]
      captures := 0 }
  let again : Pattern :=
    { source := Bytes.ofString "(?:(a)|b?)*\\1"
      flags := {}
      root := .sequence ⟨9, 0, 13⟩ [.quantifier ⟨⟨7, 0, 11⟩, ⟨0, none, false⟩⟩
          (.group ⟨⟨6, 0, 10⟩, .nonCapture, 0, []⟩ (.alternation ⟨5, 3, 9⟩
            [.group ⟨⟨2, 3, 6⟩, .capture, 1, []⟩ (.atom ⟨⟨1, 4, 5⟩, .char 97⟩),
              .quantifier ⟨⟨4, 7, 9⟩, ⟨0, some 1, false⟩⟩ (.atom ⟨⟨3, 7, 8⟩, .char 98⟩)])),
        .reference ⟨⟨8, 11, 13⟩, 1, []⟩]
      captures := 1 }
  refine ⟨?_, ?_, ?_, ?_⟩
  · have parsed : Pattern.parse (Bytes.ofString "a(?:|b)") {} = .ok early := by
      with_unfolding_all rfl
    have check : endsAfterFirst (Subject.ofPattern early) (ofPattern early) [] [true] false =
        true := by decide +kernel
    exact endAfterFirst_of_check parsed check
  · have parsed : Pattern.parse (Bytes.ofString "a(?:b|)") {} = .ok late := by
      with_unfolding_all rfl
    have check : endsAfterFirst (Subject.ofPattern late) (ofPattern late) [] [false] true =
        true := by decide +kernel
    exact endAfterFirst_of_check parsed check
  · have parsed : Pattern.parse (Bytes.ofString "a(?=b?)c") {} = .ok ahead := by
      with_unfolding_all rfl
    have check : endsAfterFirst (Subject.ofPattern ahead) (ofPattern ahead) []
        [true, false, false] false = true := by decide +kernel
    exact endAfterFirst_of_check parsed check
  · have parsed : Pattern.parse (Bytes.ofString "(?:(a)|b?)*\\1") {} = .ok again := by
      with_unfolding_all rfl
    have check : endsAfterFirst (Subject.ofPattern again) (ofPattern again)
        [false, true, false, true] [true, false, false, false, false, false] false = true := by
      decide +kernel
    exact endAfterFirst_of_check parsed check

end Resolver

end Backtrack
