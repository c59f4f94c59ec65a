/-
# What tasks leave behind

A stream takes the first of its tasks and puts others in its place: the body of a group, the
elements of a sequence, one more iteration of a quantifier.  `Task.Unfolds` lists what a task can
leave behind, kind by kind.  So a property of tasks that is handed down along it (`Lasting`) holds
of all that is ever to be done, and of the leaves and references that are met
(`Stream.shows_nextFrom`, `Feed.shows_next`).

Some facts are not about one task at a time: how those that wait stand to each other, or how much
there is to do.  For them it matters what a single task does to the list: it makes way for others
(`Task.Becomes`), or it gives an event, in one of five ways.  `Stream.nextFrom_induction` goes along
the tasks done up to the next event; it is the only place that follows the equations of
`Stream.nextFrom` one by one.
-/
import Backtrack.Derivation.Resolver

namespace Backtrack

namespace Task

/-! ## 1. Tasks and the tasks they leave

Being left behind is a relation between two tasks, with no list of tasks around them.  Most
invariants are about one task at a time and need no more than this. -/

/-- The frames a task works in. -/
def frames : Task → Frames
  | .visit _ fs => fs
  | .choose _ fs => fs
  | .iterate _ _ fs _ _ => fs
  | .enter _ _ fs _ _ => fs
  | .leave _ _ fs _ _ _ => fs
  | .finish fs => fs

/-- How many iterations running have consumed nothing at the end of one, `idle` of them before. -/
def idles (consumed mark idle : Nat) : Nat := if consumed = mark then idle + 1 else 0

/-- The one task, done when `consumed` events have consumed, may leave the other one behind, among
others. -/
inductive Unfolds (consumed : Nat) : Task → Task → Prop
  | inside (g : Group) (body : Node) (fs : Frames) :
    Unfolds consumed (.visit (.group g body) fs) (.visit body (.group g :: fs))
  | finish (g : Group) (body : Node) (fs : Frames) :
    Unfolds consumed (.visit (.group g body) fs) (.finish (.group g :: fs))
  | iterate (q : Quantifier) (body : Node) (fs : Frames) :
    Unfolds consumed (.visit (.quantifier q body) fs) (.iterate q body fs 0 0)
  | element {n : Node} {ns : List Node} (s : Site) (fs : Frames) (h : n ∈ ns) :
    Unfolds consumed (.visit (.sequence s ns) fs) (.visit n fs)
  | choose (s : Site) (ns : List Node) (fs : Frames) :
    Unfolds consumed (.visit (.alternation s ns) fs) (.choose ns fs)
  | first (n : Node) (ns : List Node) (fs : Frames) :
    Unfolds consumed (.choose (n :: ns) fs) (.visit n fs)
  | others (n m : Node) (ns : List Node) (fs : Frames) :
    Unfolds consumed (.choose (n :: m :: ns) fs) (.choose (m :: ns) fs)
  | enter (q : Quantifier) (body : Node) (fs : Frames) {i : Nat} (idle : Nat)
    (more : ¬ q.count.isExhausted i) :
    Unfolds consumed (.iterate q body fs i idle) (.enter q body fs i idle)
  | body (q : Quantifier) (body : Node) (fs : Frames) (i idle : Nat) :
    Unfolds consumed (.enter q body fs i idle) (.visit body (Stream.iterationFrame q i :: fs))
  | leave (q : Quantifier) (body : Node) (fs : Frames) (i idle : Nat) :
    Unfolds consumed (.enter q body fs i idle) (.leave q body fs i consumed idle)
  | again (q : Quantifier) (body : Node) (fs : Frames) (i : Nat) {mark idle : Nat}
    (lively : ¬ 2 ≤ idles consumed mark idle) :
    Unfolds consumed (.leave q body fs i mark idle)
      (.iterate q body fs (i + 1) (idles consumed mark idle))

/-! ## 2. What the next task does

The tasks that wait behind it are left as they are, except by the branch of a lookaround and by an
event that ends the walk. -/

/-- The task gives no event and makes way for some others. -/
inductive Becomes (consumed : Nat) : Task → List Task → Prop
  | group {g : Group} (body : Node) (fs : Frames) (plain : ¬ g.isLookaround) :
    Becomes consumed (.visit (.group g body) fs) [.visit body (.group g :: fs)]
  | sequence (s : Site) (ns : List Node) (fs : Frames) :
    Becomes consumed (.visit (.sequence s ns) fs) (visits ns fs)
  | alternation (s : Site) (ns : List Node) (fs : Frames) :
    Becomes consumed (.visit (.alternation s ns) fs) [.choose ns fs]
  | nothing (fs : Frames) : Becomes consumed (.choose [] fs) []
  | last (n : Node) (fs : Frames) : Becomes consumed (.choose [n] fs) [.visit n fs]
  | exhausted {q : Quantifier} (body : Node) (fs : Frames) {i : Nat} (idle : Nat)
    (exhausted : q.count.isExhausted i) : Becomes consumed (.iterate q body fs i idle) []
  | needed {q : Quantifier} (body : Node) (fs : Frames) {i : Nat} (idle : Nat)
    (more : ¬ q.count.isExhausted i) (needed : i < q.count.min) :
    Becomes consumed (.iterate q body fs i idle) [.enter q body fs i idle]
  | tired (q : Quantifier) (body : Node) (fs : Frames) (i : Nat) {mark idle : Nat}
    (tired : 2 ≤ idles consumed mark idle) : Becomes consumed (.leave q body fs i mark idle) []
  | again (q : Quantifier) (body : Node) (fs : Frames) (i : Nat) {mark idle : Nat}
    (lively : ¬ 2 ≤ idles consumed mark idle) :
    Becomes consumed (.leave q body fs i mark idle)
      [.iterate q body fs (i + 1) (idles consumed mark idle)]

/-- The event is about a leaf or a reference, and the task is done. -/
inductive Meets : Task → Event Stream → Prop
  | atom (a : Atom) (fs : Frames) : Meets (.visit (.atom a) fs) (.consume fs a [])
  | reference (r : Reference) (fs : Frames) : Meets (.visit (.reference r) fs) (.refer fs r)

/-- The event only lets the walk pass, and some tasks take the place of the one. -/
inductive Gives (multiline : Bool) (consumed : Nat) : Task → Event Stream → List Task → Prop
  | start (s : Site) (fs : Frames) (single : multiline = false) :
    Gives multiline consumed (.visit (.anchor s .start) fs) (.start fs) []
  | skip (s : Site) {k : Anchor} (fs : Frames) (passes : k = .stop → multiline = true) :
    Gives multiline consumed (.visit (.anchor s k) fs) (.skip fs) []
  | quantifier (q : Quantifier) (body : Node) (fs : Frames) :
    Gives multiline consumed (.visit (.quantifier q body) fs) (.skip fs) [.iterate q body fs 0 0]
  | enter (q : Quantifier) (body : Node) (fs : Frames) (i idle : Nat) :
    Gives multiline consumed (.enter q body fs i idle) (.skip (Stream.iterationFrame q i :: fs))
      [.visit body (Stream.iterationFrame q i :: fs), .leave q body fs i consumed idle]

/-- The walk splits, inside of some frames: some tasks take the place of the one in the branch, and
others in the walk that goes on. -/
inductive Splits : Task → Frames → List Task → List Task → Prop
  | choose (n m : Node) (ns : List Node) (fs : Frames) :
    Splits (.choose (n :: m :: ns) fs) fs [.visit n fs] [.choose (m :: ns) fs]
  | offer {q : Quantifier} (body : Node) (fs : Frames) {i : Nat} (idle : Nat)
    (more : ¬ q.count.isExhausted i) (optional : ¬ i < q.count.min) :
    Splits (.iterate q body fs i idle) fs [.enter q body fs i idle] []

/-- The walk splits, and the branch has only these tasks to do. -/
inductive Looks : Task → Frames → List Task → Prop
  | lookaround {g : Group} (body : Node) (fs : Frames) (look : g.isLookaround) :
    Looks (.visit (.group g body) fs) fs [.visit body (.group g :: fs), .finish (.group g :: fs)]

/-- The event ends the walk. -/
inductive Ends (multiline : Bool) : Task → Event Stream → Prop
  | stop (s : Site) (fs : Frames) (single : multiline = false) :
    Ends multiline (.visit (.anchor s .stop) fs) (.stop fs true)
  | finish (fs : Frames) : Ends multiline (.finish fs) (.stop fs false)

variable {multiline : Bool} {consumed : Nat} {t : Task} {fs : Frames} {us bs : List Task}
  {e : Event Stream}

theorem Becomes.unfolds (h : t.Becomes consumed us) : ∀ u ∈ us, t.Unfolds consumed u := by
  cases h with
  | group body fs _ => exact List.forall_mem_singleton.mpr (.inside _ body fs)
  | sequence s ns fs =>
    intro u hu
    obtain ⟨n, hn, rfl⟩ := List.mem_map.mp hu
    exact .element s fs hn
  | alternation s ns fs => exact List.forall_mem_singleton.mpr (.choose s ns fs)
  | last n fs => exact List.forall_mem_singleton.mpr (.first n [] fs)
  | needed body fs idle more _ => exact List.forall_mem_singleton.mpr (.enter _ body fs idle more)
  | again q body fs i lively => exact List.forall_mem_singleton.mpr (.again q body fs i lively)
  | nothing | exhausted | tired => exact List.forall_mem_nil _

theorem Gives.unfolds (h : t.Gives multiline consumed e us) : ∀ u ∈ us, t.Unfolds consumed u := by
  cases h with
  | start | skip => exact List.forall_mem_nil _
  | quantifier q body fs => exact List.forall_mem_singleton.mpr (.iterate q body fs)
  | enter q body fs i idle =>
    exact List.forall_mem_cons.mpr ⟨.body q body fs i idle,
      List.forall_mem_singleton.mpr (.leave q body fs i idle)⟩

theorem Splits.unfolds (consumed : Nat) (h : t.Splits fs bs us) :
    (∀ u ∈ bs, t.Unfolds consumed u) ∧ ∀ u ∈ us, t.Unfolds consumed u := by
  cases h with
  | choose n m ns =>
    exact ⟨List.forall_mem_singleton.mpr (.first n (m :: ns) fs),
      List.forall_mem_singleton.mpr (.others n m ns fs)⟩
  | offer body _ idle more =>
    exact ⟨List.forall_mem_singleton.mpr (.enter _ body fs idle more), List.forall_mem_nil _⟩

theorem Looks.unfolds (consumed : Nat) (h : t.Looks fs bs) : ∀ u ∈ bs, t.Unfolds consumed u := by
  cases h with
  | lookaround body =>
    exact List.forall_mem_cons.mpr ⟨.inside _ body fs,
      List.forall_mem_singleton.mpr (.finish _ body fs)⟩

end Task

/-- **Induction along the tasks up to the next event.**  Each case comes with what the next event
then is, and what is left to do after it.  Besides the five ways to give an event there is
`becomes`, where the induction goes on, and `done`, where no task is left. -/
theorem Stream.nextFrom_induction (multiline : Bool) (consumed : Nat) {motive : List Task → Prop}
    (done : nextFrom multiline consumed [] = (.done, ended) → motive [])
    (becomes : ∀ {t us rest}, t.Becomes consumed us →
      nextFrom multiline consumed (t :: rest) = nextFrom multiline consumed (us ++ rest) →
      motive (us ++ rest) → motive (t :: rest))
    (meets : ∀ {t e rest}, t.Meets e →
      nextFrom multiline consumed (t :: rest) = (e, ⟨rest, consumed + 1⟩) → motive (t :: rest))
    (gives : ∀ {t e us rest}, t.Gives multiline consumed e us →
      nextFrom multiline consumed (t :: rest) = (e, ⟨us ++ rest, consumed⟩) → motive (t :: rest))
    (splits : ∀ {t fs bs us rest}, t.Splits fs bs us →
      nextFrom multiline consumed (t :: rest) =
        (.split fs ⟨bs ++ rest, consumed⟩, ⟨us ++ rest, consumed⟩) → motive (t :: rest))
    (looks : ∀ {t fs bs rest}, t.Looks fs bs →
      nextFrom multiline consumed (t :: rest) = (.split fs ⟨bs, consumed⟩, ⟨rest, consumed⟩) →
      motive (t :: rest))
    (ends : ∀ {t e rest}, t.Ends multiline e →
      nextFrom multiline consumed (t :: rest) = (e, ended) → motive (t :: rest))
    (todo : List Task) : motive todo := by
  fun_induction nextFrom multiline consumed todo with
  | case1 => exact done (by rw [nextFrom])
  | case2 a fs => exact meets (.atom a fs) (by rw [nextFrom])
  | case3 r fs => exact meets (.reference r fs) (by rw [nextFrom])
  | case4 s fs rest single => exact gives (.start s fs single) (by rw [single, nextFrom]; rfl)
  | case5 s fs rest single => exact ends (.stop s fs single) (by rw [single, nextFrom])
  | case6 s k fs rest start stop =>
    have step : nextFrom multiline consumed (.visit (.anchor s k) fs :: rest) =
        (.skip fs, ⟨rest, consumed⟩) := by rw [nextFrom] <;> assumption
    exact gives (.skip s fs fun hk => Bool.of_not_eq_false (stop hk)) step
  | case7 g body fs rest inner look =>
    exact looks (.lookaround body fs look) (by rw [nextFrom, if_pos look])
  | case8 g body fs rest inner plain ih =>
    exact becomes (.group body fs plain) (by rw [nextFrom, if_neg plain]; rfl) ih
  | case9 q body fs => exact gives (.quantifier q body fs) (by rw [nextFrom]; rfl)
  | case10 s ns fs rest ih => exact becomes (.sequence s ns fs) (by rw [nextFrom]) ih
  | case11 s ns fs rest ih => exact becomes (.alternation s ns fs) (by rw [nextFrom]; rfl) ih
  | case12 fs rest ih => exact becomes (.nothing fs) (by rw [nextFrom]; rfl) ih
  | case13 n fs rest ih => exact becomes (.last n fs) (by rw [nextFrom]; rfl) ih
  | case14 n m ns fs => exact splits (.choose n m ns fs) (by rw [nextFrom]; rfl)
  | case15 q body fs i idle rest exhausted ih =>
    exact becomes (.exhausted body fs idle exhausted) (by rw [nextFrom, if_pos exhausted]; rfl) ih
  | case16 q body fs i idle rest more needed ih =>
    exact becomes (.needed body fs idle more needed)
      (by rw [nextFrom, if_neg more, if_pos needed]; rfl) ih
  | case17 q body fs i idle rest more optional =>
    exact splits (.offer body fs idle more optional)
      (by rw [nextFrom, if_neg more, if_neg optional]; rfl)
  | case18 q body fs i idle => exact gives (.enter q body fs i idle) (by rw [nextFrom]; rfl)
  | case19 q body fs i mark idle rest _ tired ih =>
    exact becomes (.tired q body fs i tired) (by rw [nextFrom]; exact if_pos tired) ih
  | case20 q body fs i mark idle rest _ lively ih =>
    exact becomes (.again q body fs i lively) (by rw [nextFrom]; exact if_neg lively) ih
  | case21 fs => exact ends (.finish fs) (by rw [nextFrom])

/-! ## 3. What lasts

For a property of single tasks the step of a stream is the same each time, whatever the property
is.  `Shows` is what comes of it: all that an event leaves has the property, and the leaf or the
reference it is about belongs to a task with the property. -/

/-- What a task leaves behind when so many events have consumed has the property if the task has
it. -/
def LastingAt (consumed : Nat) (P : Task → Prop) : Prop :=
  ∀ {t u : Task}, t.Unfolds consumed u → P t → P u

/-- What a task leaves behind has the property if the task has it. -/
def Lasting (P : Task → Prop) : Prop := ∀ {consumed : Nat}, LastingAt consumed P

/-- A property of tasks is found in all that an event leaves to be done, and in the leaf or the
reference the event is about.  The event happens where some task with the property is. -/
structure Shows {κ : Type} (P : Task → Prop) (tasks : κ → List Task) (r : Event κ × κ) : Prop where
  onward : ∀ t ∈ tasks r.2, P t
  aside : ∀ {fs b}, r.1 = .split fs b → ∀ t ∈ tasks b, P t
  consume : ∀ {fs a via}, r.1 = .consume fs a via → P (.visit (.atom a) fs)
  refer : ∀ {fs ref}, r.1 = .refer fs ref → P (.visit (.reference ref) fs)
  place : r.1 = .done ∨ ∃ t, P t ∧ r.1.frames = t.frames

/-- How an event and what it leaves to be done count what has been consumed, after `consumed`
events did. -/
structure Stream.Counts (consumed : Nat) (r : Event Stream × Stream) : Prop where
  onward : (∀ fs a via, r.1 ≠ .consume fs a via) → (∀ fs ref, r.1 ≠ .refer fs ref) →
    r.2 = ended ∨ r.2.consumed = consumed
  aside : ∀ {fs b}, r.1 = .split fs b → b.consumed = consumed
  consume : ∀ {fs a via}, r.1 = .consume fs a via → r.2.consumed = consumed + 1
  refer : ∀ {fs ref}, r.1 = .refer fs ref → r.2.consumed = consumed + 1

namespace Stream

variable {P : Task → Prop} {todo : List Task}

/-- What has been consumed is not forgotten before the walk has ended. -/
theorem Counts.grows {consumed : Nat} {r : Event Stream × Stream} (h : Counts consumed r) :
    r.2 = ended ∨ consumed ≤ r.2.consumed := by
  cases he : r.1 with
  | consume => exact .inr (h.consume he ▸ Nat.le_succ consumed)
  | refer => exact .inr (h.refer he ▸ Nat.le_succ consumed)
  | _ =>
    rcases h.onward (by simp [he]) (by simp [he]) with ended | same
    · exact .inl ended
    · exact .inr (Nat.le_of_eq same.symm)

/-- **One step of a stream shows what its tasks have in common.**  By induction along the tasks up
to the event: all of them have the property, as it lasts, and so has what the event leaves. -/
theorem shows_nextFrom (multiline : Bool) (consumed : Nat) (lasting : LastingAt consumed P)
    (h : ∀ t ∈ todo, P t) : Shows P Stream.todo (nextFrom multiline consumed todo) := by
  induction todo using nextFrom_induction multiline consumed with
  | done step =>
    rw [step]
    exact ⟨List.forall_mem_nil _, by simp, by simp, by simp, .inl rfl⟩
  | becomes task step ih =>
    obtain ⟨here, behind⟩ := List.forall_mem_cons.mp h
    rw [step]
    refine ih (List.forall_mem_append.mpr ⟨fun u hu => ?_, behind⟩)
    exact lasting (task.unfolds u hu) here
  | meets task step =>
    obtain ⟨here, behind⟩ := List.forall_mem_cons.mp h
    rw [step]
    cases task with
    | atom a fs =>
      refine ⟨behind, by simp, ?_, by simp, .inr ⟨_, here, rfl⟩⟩
      rintro _ _ _ ⟨⟩
      exact here
    | reference r fs =>
      refine ⟨behind, by simp, by simp, ?_, .inr ⟨_, here, rfl⟩⟩
      rintro _ _ ⟨⟩
      exact here
  | gives task step =>
    obtain ⟨here, behind⟩ := List.forall_mem_cons.mp h
    rw [step]
    have left := List.forall_mem_append.mpr
      ⟨fun u hu => lasting (task.unfolds u hu) here, behind⟩
    cases task with
    | start | skip | quantifier => exact ⟨left, by simp, by simp, by simp, .inr ⟨_, here, rfl⟩⟩
    | enter q body fs i idle =>
      exact ⟨left, by simp, by simp, by simp, .inr ⟨_, lasting (.body q body fs i idle) here, rfl⟩⟩
  | splits task step =>
    obtain ⟨here, behind⟩ := List.forall_mem_cons.mp h
    rw [step]
    refine ⟨List.forall_mem_append.mpr ⟨fun u hu => ?_, behind⟩, ?_, by simp, by simp, ?_⟩
    · exact lasting ((task.unfolds consumed).2 u hu) here
    · rintro _ _ ⟨⟩
      exact List.forall_mem_append.mpr ⟨fun u hu => lasting ((task.unfolds consumed).1 u hu) here, behind⟩
    · cases task <;> exact .inr ⟨_, here, rfl⟩
  | looks task step =>
    obtain ⟨here, behind⟩ := List.forall_mem_cons.mp h
    rw [step]
    refine ⟨behind, ?_, by simp, by simp, ?_⟩
    · rintro _ _ ⟨⟩
      exact fun u hu => lasting (task.unfolds consumed u hu) here
    · cases task
      exact .inr ⟨_, here, rfl⟩
  | ends task step =>
    rw [step]
    have here := (List.forall_mem_cons.mp h).1
    cases task <;> exact ⟨List.forall_mem_nil _, by simp, by simp, by simp, .inr ⟨_, here, rfl⟩⟩

/-- **One step of a stream counts** the leaf or the reference that it meets, and nothing else. -/
theorem counts_nextFrom (multiline : Bool) (consumed : Nat) (todo : List Task) :
    Counts consumed (nextFrom multiline consumed todo) := by
  induction todo using nextFrom_induction multiline consumed with
  | done step =>
    rw [step]
    exact ⟨fun _ _ => .inl rfl, by simp, by simp, by simp⟩
  | becomes _ step ih =>
    rw [step]
    exact ih
  | meets task step =>
    rw [step]
    cases task with
    | atom => exact ⟨fun unfed => absurd rfl (unfed _ _ _), by simp, fun _ => rfl, by simp⟩
    | reference => exact ⟨fun _ unmet => absurd rfl (unmet _ _), by simp, by simp, fun _ => rfl⟩
  | gives task step =>
    rw [step]
    cases task <;> exact ⟨fun _ _ => .inr rfl, by simp, by simp, by simp⟩
  | splits _ step | looks _ step =>
    rw [step]
    refine ⟨fun _ _ => .inr rfl, ?_, by simp, by simp⟩
    rintro _ _ ⟨⟩
    rfl
  | ends task step =>
    rw [step]
    cases task <;> exact ⟨fun _ _ => .inl rfl, by simp, by simp, by simp⟩

end Stream

namespace Feed

variable {P : Task → Prop}

/-- All that a feed has left to do, the next task first. -/
def tasks : Feed → List Task
  | plain s => s.todo
  | rematch s _ rest => s.todo ++ rest.tasks

/-- **One step of a feed shows what its tasks have in common.** -/
theorem shows_next (lasting : Lasting P) (multiline : Bool) : ∀ {f : Feed},
    (∀ t ∈ f.tasks, P t) → Shows P Feed.tasks (f.next multiline)
  | plain s, h => by
    have hs := Stream.shows_nextFrom multiline s.consumed lasting h
    rw [next, Stream.next]
    refine ⟨hs.onward, fun he => ?_, fun he => ?_, fun he => ?_, ?_⟩
    · obtain ⟨b, hb, rfl⟩ := Event.mapBranch_eq_split.mp he
      exact hs.aside hb
    · exact hs.consume (Event.mapBranch_eq_consume.mp he)
    · exact hs.refer (Event.mapBranch_eq_refer.mp he)
    · rw [Event.frames_mapBranch]
      exact hs.place.imp_left fun he => Event.mapBranch_eq_done.mpr he
  | rematch s via rest, h => by
    obtain ⟨here, behind⟩ := List.forall_mem_append.mp h
    have hs := Stream.shows_nextFrom multiline s.consumed lasting here
    rw [next, Stream.next]
    rcases hn : Stream.nextFrom multiline s.consumed s.todo with ⟨e, t⟩
    rw [hn] at hs
    cases e with
    | done => exact Feed.shows_next lasting multiline behind
    | stop | abort => exact ⟨hs.onward, by simp, by simp, by simp, hs.place.imp_left (by simp)⟩
    | consume fs a older =>
      have left := List.forall_mem_append.mpr ⟨hs.onward, behind⟩
      refine ⟨left, by simp, ?_, by simp, hs.place.imp_left (by simp)⟩
      rintro _ _ _ ⟨⟩
      exact hs.consume rfl
    | split fs branch =>
      have left := List.forall_mem_append.mpr ⟨hs.onward, behind⟩
      refine ⟨left, ?_, by simp, by simp, hs.place.imp_left (by simp)⟩
      rintro _ _ ⟨⟩
      exact List.forall_mem_append.mpr ⟨hs.aside rfl, behind⟩
    | refer fs r =>
      have left := List.forall_mem_append.mpr ⟨hs.onward, behind⟩
      refine ⟨left, by simp, by simp, ?_, hs.place.imp_left (by simp)⟩
      rintro _ _ ⟨⟩
      exact hs.refer rfl
    | start | skip =>
      have left := List.forall_mem_append.mpr ⟨hs.onward, behind⟩
      exact ⟨left, by simp, by simp, by simp, hs.place.imp_left (by simp)⟩

end Feed

end Backtrack
