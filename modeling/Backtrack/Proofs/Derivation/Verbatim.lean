/-
# Replays are verbatim

What a reference repeats was recorded while the walk went through its group.  Here it is shown to
be the record of one such passage, the last one, from entering the group to leaving it, with
nothing left out and nothing added (`exists_passage_of_repeats`).

The records are dropped by the number of an iteration, so this rests on how iterations are
numbered: before a group is entered again, one of the quantifiers around it begins another
iteration, and that is an event.  `Passage` says where the records of the group come from, and
that no task leads into the group but through such an iteration (`Task.Awaits`).

A body that is matched again for a reference is outside of this order.  Its iterations count from
zero, as do those of the walk itself, and the records of both can run together:
`repeats_two_passages`.  Paths on which such a body contains the group are left out.
-/
import Backtrack.Proofs.Derivation.Replays

namespace Backtrack

/-! ## 1. Inside of a group

Two suffixes are compared throughout: a place inside of a group has the frames of the group as a
suffix of its own, and so it is with the iterations.  Being `Within` says besides that the group
is not entered once more on the way. -/

namespace Frames

theorem opened_append (fs gs : Frames) : opened (fs ++ gs) = opened fs ++ opened gs :=
  List.filterMap_append

theorem iterations_append (fs gs : Frames) :
    iterations (fs ++ gs) = iterations fs ++ iterations gs := List.filterMap_append

theorem opened_suffix {fs gs : Frames} (h : fs <:+ gs) : opened fs <:+ opened gs := by
  obtain ⟨hs, rfl⟩ := h
  exact ⟨opened hs, (opened_append hs fs).symm⟩

theorem iterations_suffix {fs gs : Frames} (h : fs <:+ gs) : iterations fs <:+ iterations gs := by
  obtain ⟨hs, rfl⟩ := h
  exact ⟨iterations hs, (iterations_append hs fs).symm⟩

/-- Inside of the group, which is entered inside of `outer`, and no further inside of it. -/
def Within (fs : Frames) (g : Group) (outer : Frames) : Prop :=
  ∃ inner : Frames, fs = inner ++ .group g :: outer ∧ g.index ∉ opened inner

variable {g : Group} {outer fs : Frames}

theorem within_self (g : Group) (outer : Frames) : Within (.group g :: outer) g outer :=
  ⟨[], rfl, by simp [opened]⟩

theorem Within.append (h : fs.Within g outer) {gs : Frames} (hg : g.index ∉ opened gs) :
    Within (gs ++ fs) g outer := by
  obtain ⟨inner, rfl, hi⟩ := h
  refine ⟨gs ++ inner, (List.append_assoc ..).symm, ?_⟩
  rw [opened_append, List.mem_append, not_or]
  exact ⟨hg, hi⟩

/-- The iterations around the group are those around what is inside of it. -/
theorem Within.iterations_suffix (h : fs.Within g outer) : outer.iterations <:+ fs.iterations := by
  obtain ⟨inner, rfl, -⟩ := h
  exact Frames.iterations_suffix ((List.suffix_cons _ _).trans (List.suffix_append _ _))

end Frames

/-! ## 2. Records

What one event does to the records of a single group.  There are three cases: the event is inside
of the group and adds to its record, or it is outside and leaves the record alone, or it is in
another iteration and drops it. -/

/-- The outermost iterations count. -/
theorem currentIteration?_append (its its' : List Iteration) (q : Quantifier) :
    currentIteration? (its ++ its') q =
      (currentIteration? its' q).or (currentIteration? its q) := by
  simp only [currentIteration?, List.filter_append, List.getLast?_append]
  cases (its'.filter (·.quantifier == q)).getLast? <;> rfl

/-- A record is good inside of more iterations than those around its group, and of less. -/
theorem Capture.isStale_of_suffix {c : Capture} {its : List Iteration}
    (distinct : (c.iterations.map (·.quantifier)).Nodup)
    (h : c.iterations <:+ its ∨ its <:+ c.iterations) : c.isStale its = false := by
  rw [isStale, List.any_eq_false]
  intro k hk
  have recorded := currentIteration?_of_mem distinct hk
  cases hn : currentIteration? its k.quantifier with
  | none => simp
  | some j =>
    suffices j = k.index by simp [this]
    rcases h with ⟨more, h⟩ | ⟨more, h⟩
    · rw [← h, currentIteration?_append, recorded, Option.some_or] at hn
      exact (Option.some.inj hn).symm
    · rw [← h, currentIteration?_append, hn, Option.some_or] at recorded
      exact Option.some.inj recorded

namespace Captures

variable {cs : Captures} {i : Nat} {c : Capture} {fs outer : Frames} {entry : Replay} {g : Group}
  {w : List Replay}

theorem mem_of_get? (h : cs.get? i = some c) : (i, c) ∈ cs := by
  unfold get? at h
  induction cs with
  | nil => simp at h
  | cons d cs ih =>
    rw [List.lookup_cons] at h
    split at h
    · rename_i hi
      obtain rfl := Option.some.inj h
      rw [beq_iff_eq.mp hi]
      exact List.mem_cons_self
    · exact List.mem_cons_of_mem _ (ih h)

/-- What a group holds, if there is no doubt about its records. -/
theorem entries_held (record : ∀ c, (i, c) ∈ cs → c.entries = w)
    (recorded : (∃ c, (i, c) ∈ cs) ∨ w = []) : (cs.held i).entries = w := by
  rw [held]
  cases h : cs.get? i with
  | some c => exact record c (mem_of_get? h)
  | none =>
    refine (recorded.resolve_left ?_).symm
    rintro ⟨c, hc⟩
    have := List.lookup_eq_none_iff.mp h (i, c) hc
    simp at this

/-- The records of other groups stay. -/
theorem mem_extend_of_ne {j : Nat} {b : Bool} (hij : i ≠ j) :
    (i, c) ∈ cs.extend j outer entry b ↔ (i, c) ∈ cs := by
  simp [extend_eq, set, hij]

/-- Nothing is recorded for a group that is not open. -/
theorem mem_recordIn_of_closed : ∀ {fs : Frames} {b : Bool} {cs : Captures}, i ∉ fs.opened →
    ((i, c) ∈ recordIn entry b fs cs ↔ (i, c) ∈ cs)
  | [], _, _, _ => Iff.rfl
  | .iteration k :: outer, _, _, h => by
    rw [recordIn]
    exact mem_recordIn_of_closed h
  | .group g :: outer, b, cs, h => by
    rw [recordIn]
    cases hg : g.isCapture with
    | false =>
      rw [Frames.opened_of_not_capture hg] at h
      exact mem_recordIn_of_closed h
    | true =>
      rw [Frames.opened_capture hg, List.mem_cons, not_or] at h
      exact (mem_recordIn_of_closed h.2).trans (mem_extend_of_ne h.1)

/-- **What is recorded for the group that all is inside of.** -/
theorem mem_recordIn_of_within (capture : g.isCapture = true) (closed : g.index ∉ outer.opened) :
    ∀ {inner : Frames} {b : Bool} {cs : Captures}, g.index ∉ inner.opened →
      (∀ c, (g.index, c) ∈ recordIn entry b (inner ++ .group g :: outer) cs →
        c.entries = (cs.held g.index).entries ++ [entry] ∧ c.iterations = outer.iterations) ∧
      ∃ c, (g.index, c) ∈ recordIn entry b (inner ++ .group g :: outer) cs
  | [], b, cs, _ => by
    simp only [List.nil_append, recordIn, capture, if_true, mem_recordIn_of_closed closed,
      extend_eq, set, List.mem_cons]
    refine ⟨?_, ⟨_, .inl rfl⟩⟩
    rintro c (h | h)
    · obtain ⟨-, rfl⟩ := Prod.mk.inj h
      exact ⟨rfl, rfl⟩
    · simp at h
  | .iteration k :: inner, _, _, h => by
    rw [List.cons_append, recordIn]
    exact mem_recordIn_of_within capture closed h
  | .group g' :: inner, b, cs, h => by
    rw [List.cons_append, recordIn]
    cases hg : g'.isCapture with
    | false =>
      rw [Frames.opened_of_not_capture hg] at h
      exact mem_recordIn_of_within capture closed h
    | true =>
      rw [Frames.opened_capture hg, List.mem_cons, not_or] at h
      have held : (cs.extend g'.index (inner ++ .group g :: outer) entry b).held g.index =
          cs.held g.index := by
        rw [extend_eq, held_set, if_neg h.1]
      simp only [if_true]
      rw [← held]
      exact mem_recordIn_of_within capture closed h.2

theorem invalidate_invalidate (cs : Captures) (fs : Frames) :
    (cs.invalidate fs).invalidate fs = cs.invalidate fs := by
  simp [invalidate, List.filter_filter]

/-- The records after an event. -/
def after {κ : Type} (cs : Captures) (e : Event κ) : Captures :=
  match e.consumed? with
  | none => cs.invalidate e.frames
  | some entry => (cs.invalidate e.frames).record e.frames entry

variable {κ : Type} {e : Event κ}

/-- No event makes a record of a group that is not open. -/
theorem mem_of_mem_after (closed : i ∉ e.frames.opened) (h : (i, c) ∈ cs.after e) :
    (i, c) ∈ cs.invalidate e.frames := by
  unfold after at h
  split at h
  · exact h
  · exact (mem_recordIn_of_closed closed).mp h

/-- An event inside of a group adds what it consumes to the record, which is not dropped. -/
theorem after_of_within (capture : g.isCapture = true) (closed : g.index ∉ outer.opened)
    (distinct : outer.quantifiers.Nodup) (within : e.frames.Within g outer)
    (record : ∀ c, (g.index, c) ∈ cs → c.entries = w ∧ c.iterations = outer.iterations)
    (recorded : (∃ c, (g.index, c) ∈ cs) ∨ w = []) :
    (∀ c, (g.index, c) ∈ cs.after e →
      c.entries = w ++ e.consumed?.toList ∧ c.iterations = outer.iterations) ∧
    ((∃ c, (g.index, c) ∈ cs.after e) ∨ w ++ e.consumed?.toList = []) := by
  have kept : ∀ c, (g.index, c) ∈ cs.invalidate e.frames ↔ (g.index, c) ∈ cs := by
    refine fun c => ⟨fun h => (List.mem_filter.mp h).1, fun h => List.mem_filter.mpr ⟨h, ?_⟩⟩
    have its := (record c h).2
    rw [Capture.isStale_of_suffix (its ▸ distinct) (.inl (its ▸ within.iterations_suffix))]
    rfl
  have held : ((cs.invalidate e.frames).held g.index).entries = w :=
    entries_held (fun c h => (record c ((kept c).mp h)).1) (by simpa only [kept] using recorded)
  obtain ⟨inner, frames, hi⟩ := within
  unfold after
  split
  · rename_i nothing
    simp only [kept, nothing, Option.toList_none, List.append_nil]
    exact ⟨record, recorded⟩
  · rename_i entry consumed
    rw [consumed, Option.toList_some, ← held, frames]
    exact (mem_recordIn_of_within capture closed hi).imp_right .inl

end Captures

/-! ## 3. Tasks

The next question is which tasks can enter the group again.  Tasks are done from the first to the
last, and each is inside of what its successors are inside of (`Before`).  So an iteration around
the group lasts until the task that leaves it, and a task that is to enter the group again has to
wait for one of these (`Awaits`). -/

namespace Task

/-- The node a task is about, with all that is below it. -/
def walk : Task → List Node
  | visit n _ => n.walk
  | choose ns _ => Node.walkAll ns
  | iterate q body _ _ _ => (Node.quantifier q body).walk
  | enter q body _ _ _ => (Node.quantifier q body).walk
  | leave q body _ _ _ _ => (Node.quantifier q body).walk
  | finish _ => []

/-- A group with the number is part of what the task is about. -/
def Has (i : Nat) (t : Task) : Prop := i ∈ captureIndexes t.walk

/-- All that is to be done before the task is inside of these frames.  An iteration is left after
all that is inside of it. -/
def reach : Task → Frames
  | leave q _ fs k _ _ => fs.inIteration q k
  | t => t.frames

/-- Whether the task leaves an iteration. -/
def isLeave : Task → Bool
  | leave .. => true
  | _ => false

/-- The task does not lead into a group inside of these iterations before one of them is over. -/
def Awaits (its : List Iteration) : Task → Prop
  | iterate q _ _ k _ => ∃ it ∈ its, it.quantifier = q ∧ it.index ≠ k
  | enter q _ _ k _ => ∃ it ∈ its, it.quantifier = q ∧ it.index ≠ k
  | leave q _ _ k _ _ => ∃ it ∈ its, it.quantifier = q ∧ it.index = k
  | _ => False

/-- How a task stands to one that is to be done later. -/
structure Before (i : Nat) (t u : Task) : Prop where
  reach : u.reach <:+ t.frames
  /-- The group is in one of the tasks, or the later one only leaves an iteration it is in. -/
  once : t.Has i → u.Has i → u.isLeave = true

/-- A task may leave the other one behind, as far as the group is concerned. -/
structure Yields (root : Node) (i : Nat) (t u : Task) : Prop where
  sits : u.Has i → Sits root u.walk u.frames
  has : u.Has i → t.Has i
  frames : ∃ gs : Frames, u.frames = gs ++ t.frames ∧ i ∉ gs.opened
  awaits : u.Has i → ∀ its, t.Awaits its → u.Awaits its

variable {root : Node} {i : Nat} {t u : Task}

theorem frames_suffix_reach (t : Task) : t.frames <:+ t.reach := by
  cases t with
  | leave => exact List.suffix_cons _ _
  | _ => exact List.suffix_rfl

/-- What is to be done later is inside of no groups that a task is not inside of. -/
theorem Before.closed (h : Before i t u) (ht : i ∉ t.frames.opened) : i ∉ u.frames.opened :=
  fun hu => ht ((Frames.opened_suffix (u.frames_suffix_reach.trans h.reach)).subset hu)

theorem Before.iterations_suffix (h : Before i t u) : u.frames.iterations <:+ t.frames.iterations :=
  Frames.iterations_suffix (u.frames_suffix_reach.trans h.reach)

/-- A task that yields another one is before the same tasks. -/
theorem Yields.before {v : Task} (h : Yields root i t u) (hv : Before i t v) : Before i u v := by
  obtain ⟨gs, hf, -⟩ := h.frames
  exact ⟨hf ▸ hv.reach.trans (List.suffix_append _ _), fun hu => hv.once (h.has hu)⟩

theorem Yields.closed (h : Yields root i t u) (ht : i ∉ t.frames.opened) : i ∉ u.frames.opened := by
  obtain ⟨gs, hf, hg⟩ := h.frames
  rw [hf, Frames.opened_append, List.mem_append, not_or]
  exact ⟨hg, ht⟩

theorem Yields.within {g : Group} {outer : Frames} (h : Yields root g.index t u)
    (ht : t.frames.Within g outer) : u.frames.Within g outer := by
  obtain ⟨gs, hf, hg⟩ := h.frames
  exact hf ▸ ht.append hg

@[simp] theorem not_has_finish (fs : Frames) : ¬ (finish fs).Has i := by
  simp [Has, walk, captureIndexes]

@[simp] theorem not_awaits_visit (n : Node) (fs : Frames) (its : List Iteration) :
    ¬ (visit n fs).Awaits its := id

@[simp] theorem not_awaits_choose (ns : List Node) (fs : Frames) (its : List Iteration) :
    ¬ (choose ns fs).Awaits its := id

theorem not_has_atom (a : Atom) (fs : Frames) : ¬ (visit (.atom a) fs).Has i := by
  simp [Has, walk, Node.captureIndexes_atom]

/-- A task without the group in it is yielded by all tasks that are inside of the same frames. -/
theorem yields_of_not_has (hf : u.frames = t.frames) (hu : ¬ u.Has i) : Yields root i t u :=
  ⟨fun h => absurd h hu, fun h => absurd h hu, ⟨[], hf, by simp [Frames.opened]⟩,
    fun h => absurd h hu⟩

end Task

/-- Each of some nodes stands where all of them stand. -/
theorem Sits.element {root : Node} {fs : Frames} {n : Node} : ∀ {ns : List Node},
    Sits root (Node.walkAll ns) fs → n ∈ ns → Sits root n.walk fs
  | _ :: _, h, hn => by
    rw [Node.walkAll] at h
    rcases List.mem_cons.mp hn with rfl | hn
    · exact h.left
    · exact h.right.element hn

namespace Task

variable {root : Node} {i : Nat} {t u : Task}

/-- **What a task leaves behind**, unless it enters the group or begins an iteration with the
group in it.  So the order of tasks is kept, and no task that waits for an iteration to be over
has to wait for less. -/
theorem Unfolds.yields {consumed : Nat} (h : t.Unfolds consumed u)
    (ht : t.Has i → Sits root t.walk t.frames)
    (other : ∀ g body fs, t = .visit (.group g body) fs → g.isCapture = true → g.index ≠ i :=
      by simp)
    (begins : ∀ q body fs k idle, t = .enter q body fs k idle → ¬ t.Has i := by simp) :
    Yields root i t u := by
  have closed : i ∉ Frames.opened [] := by simp [Frames.opened]
  have entered : ∀ {g body fs}, t = .visit (.group g body) fs → i ∉ Frames.opened [.group g] := by
    intro g body fs ht hi
    cases hg : g.isCapture with
    | true =>
      have same : i = g.index := by simpa [Frames.opened, hg] using hi
      exact other g body fs ht hg same.symm
    | false => simp [Frames.opened, hg] at hi
  cases h with
  | inside g body fs =>
    have has : (Task.visit body (.group g :: fs)).Has i →
        (Task.visit (.group g body) fs).Has i := by
      simp only [Has, walk, Node.captureIndexes_group, List.mem_append]
      exact .inr
    refine ⟨fun hu => ?_, has, ⟨[.group g], rfl, entered rfl⟩, by simp⟩
    cases hg : g.isCapture with
    | true => exact (ht (has hu)).capture hg
    | false => exact (ht (has hu)).group hg
  | finish g body fs => exact ⟨by simp, by simp, ⟨[.group g], rfl, entered rfl⟩, by simp⟩
  | iterate q body fs => exact ⟨ht, id, ⟨[], rfl, closed⟩, by simp⟩
  | @element n ns s fs hn =>
    have has : (Task.visit n fs).Has i → (Task.visit (.sequence s ns) fs).Has i := by
      intro hu
      obtain ⟨g, body, hm, hg⟩ := mem_captureIndexes.mp hu
      exact mem_captureIndexes.mpr ⟨g, body, List.mem_cons_of_mem _ (Node.mem_walkAll.mpr
        ⟨n, hn, hm⟩), hg⟩
    exact ⟨fun hu => (ht (has hu)).tail.element hn, has, ⟨[], rfl, closed⟩, by simp⟩
  | choose s ns fs => exact ⟨fun hu => (ht hu).tail, id, ⟨[], rfl, closed⟩, by simp⟩
  | first n ns fs =>
    have has : (Task.visit n fs).Has i → (Task.choose (n :: ns) fs).Has i := by
      simp only [Has, walk, Node.captureIndexes_walkAll_cons, List.mem_append]
      exact .inl
    exact ⟨fun hu => (ht (has hu)).left, has, ⟨[], rfl, closed⟩, by simp⟩
  | others n m ns fs =>
    have has : (Task.choose (m :: ns) fs).Has i → (Task.choose (n :: m :: ns) fs).Has i := by
      simp only [Has, walk, Node.captureIndexes_walkAll_cons n, List.mem_append]
      exact .inr
    exact ⟨fun hu => (ht (has hu)).right, has, ⟨[], rfl, closed⟩, by simp⟩
  | enter => exact ⟨ht, id, ⟨[], rfl, closed⟩, fun _ _ => id⟩
  | body q body fs k idle =>
    have none : ¬ (Task.visit body (Stream.iterationFrame q k :: fs)).Has i :=
      begins q body fs k idle rfl
    exact ⟨fun hu => absurd hu none, fun hu => absurd hu none,
      ⟨[Stream.iterationFrame q k], rfl, closed⟩, fun hu => absurd hu none⟩
  | leave q body fs k idle =>
    have none : ¬ (Task.leave q body fs k consumed idle).Has i := begins q body fs k idle rfl
    exact ⟨fun hu => absurd hu none, fun hu => absurd hu none, ⟨[], rfl, closed⟩,
      fun hu => absurd hu none⟩
  | again q body fs k =>
    refine ⟨ht, id, ⟨[], rfl, closed⟩, fun _ its => ?_⟩
    rintro ⟨it, hit, hq, hk⟩
    exact ⟨it, hit, hq, by omega⟩

end Task

/-! ## 4. The last passage through a group

The events so far are split in three: before the group was entered the last time, inside of it,
and after it was left.  `Matched` says that the record is that of the middle part.  `Tracked`
survives each kind of change to the tasks.  In `enterGroup` the middle part begins anew, and in
`beginIteration` the record is dropped, as if the group had never been entered. -/

/-- The events of a walk are those before it has entered the group inside of `outer`, those inside
of the group, and those after it has left it; it does not enter the group after that. -/
structure Passage (root : Node) (g : Group) (outer : Frames)
    (earlier during later : Resolver.Trace) : Prop where
  mem : ∃ body, .group g body ∈ root.walk
  capture : g.isCapture = true
  closed : g.index ∉ outer.opened
  distinct : outer.quantifiers.Nodup
  entered : ∀ e, earlier.getLast? = some e → g.index ∉ e.1.frames.opened
  within : ∀ e ∈ during, e.1.frames.Within g outer
  left : ∀ e ∈ later, g.index ∉ e.1.frames.opened

/-- The records of a group that the walk has gone through, and how what is left to do stands to the
group.  Before anything happens outside of the group, the walk may still be in it. -/
structure Matched (g : Group) (outer : Frames) (during later : Resolver.Trace) (cs : Captures)
    (ts : List Task) : Prop where
  record : ∀ c, (g.index, c) ∈ cs →
    c.entries = Resolver.entries during ∧ c.iterations = outer.iterations
  recorded : later = [] → (∃ c, (g.index, c) ∈ cs) ∨ Resolver.entries during = []
  tasks : ∀ t ∈ ts, later = [] ∧ t.frames.Within g outer ∨
    g.index ∉ t.frames.opened ∧ (later = [] → t.frames.iterations <:+ outer.iterations)
  awaits : ∀ t ∈ ts, t.Has g.index → t.Awaits outer.iterations

/-- The group has no record, and nothing is left to do inside of it. -/
structure Unmatched (i : Nat) (es : Resolver.Trace) (cs : Captures) (ts : List Task) : Prop where
  record : ∀ c, (i, c) ∉ cs
  tasks : ∀ t ∈ ts, i ∉ t.frames.opened
  last : ∀ e, es.getLast? = some e → i ∉ e.1.frames.opened

/-- What is known of a group after the events `es`, with the records `cs` and the tasks `ts`. -/
structure Tracked (root : Node) (i : Nat) (es : Resolver.Trace) (cs : Captures)
    (ts : List Task) : Prop where
  sits : ∀ t ∈ ts, t.Has i → Sits root t.walk t.frames
  ordered : ts.Pairwise (Task.Before i)
  phase : Unmatched i es cs ts ∨ ∃ g outer earlier during later, g.index = i ∧
    es = earlier ++ during ++ later ∧ Passage root g outer earlier during later ∧
    Matched g outer during later cs ts

namespace Tracked

variable {root : Node} {i : Nat} {es : Resolver.Trace} {cs : Captures} {t : Task}
  {ts us : List Task}

/-- Tasks may be dropped. -/
theorem sublist (h : Tracked root i es cs ts) (sub : us.Sublist ts) : Tracked root i es cs us := by
  refine ⟨fun t ht => h.sits t (sub.subset ht), h.ordered.sublist sub, ?_⟩
  rcases h.phase with none | ⟨g, outer, earlier, during, later, hi, split, passage, matched⟩
  · exact .inl ⟨none.record, fun t ht => none.tasks t (sub.subset ht), none.last⟩
  · exact .inr ⟨g, outer, earlier, during, later, hi, split, passage,
      { matched with
        tasks := fun t ht => matched.tasks t (sub.subset ht)
        awaits := fun t ht => matched.awaits t (sub.subset ht) }⟩

theorem tail (h : Tracked root i es cs (t :: ts)) : Tracked root i es cs ts :=
  h.sublist (List.sublist_cons_self t ts)

theorem ordered_yields (h : Tracked root i es cs (t :: ts)) (yields : ∀ u ∈ us, t.Yields root i u)
    (ordered : us.Pairwise (Task.Before i)) : (us ++ ts).Pairwise (Task.Before i) := by
  obtain ⟨head, tail⟩ := List.pairwise_cons.mp h.ordered
  exact List.pairwise_append.mpr ⟨ordered, tail, fun u hu v hv => (yields u hu).before (head v hv)⟩

theorem sits_yields (h : Tracked root i es cs (t :: ts)) (yields : ∀ u ∈ us, t.Yields root i u) :
    ∀ u ∈ us ++ ts, u.Has i → Sits root u.walk u.frames :=
  List.forall_mem_append.mpr ⟨fun u hu => (yields u hu).sits, (List.forall_mem_cons.mp h.sits).2⟩

/-- **A task is replaced** without an event. -/
theorem unfold (h : Tracked root i es cs (t :: ts)) (yields : ∀ u ∈ us, t.Yields root i u)
    (still : ∀ u ∈ us, u.frames.iterations = t.frames.iterations)
    (ordered : us.Pairwise (Task.Before i)) : Tracked root i es cs (us ++ ts) := by
  refine ⟨h.sits_yields yields, h.ordered_yields yields ordered, ?_⟩
  rcases h.phase with none | ⟨g, outer, earlier, during, later, rfl, split, passage, matched⟩
  · obtain ⟨closed, others⟩ := List.forall_mem_cons.mp none.tasks
    refine .inl ⟨none.record, List.forall_mem_append.mpr ⟨fun u hu => ?_, others⟩, none.last⟩
    exact (yields u hu).closed closed
  · obtain ⟨place, places⟩ := List.forall_mem_cons.mp matched.tasks
    obtain ⟨await, awaits⟩ := List.forall_mem_cons.mp matched.awaits
    refine .inr ⟨g, outer, earlier, during, later, rfl, split, passage, matched.record,
      matched.recorded, List.forall_mem_append.mpr ⟨fun u hu => ?_, places⟩,
      List.forall_mem_append.mpr ⟨fun u hu has => ?_, awaits⟩⟩
    · rcases place with ⟨inside, within⟩ | ⟨closed, near⟩
      · exact .inl ⟨inside, (yields u hu).within within⟩
      · exact .inr ⟨(yields u hu).closed closed, fun inside => still u hu ▸ near inside⟩
    · exact (yields u hu).awaits has _ (await ((yields u hu).has has))

/-- **The walk enters the group.**  It has no record then, as no task leads into a group with a record
before another iteration begins. -/
theorem enterGroup {g : Group} {body : Node} {fs : Frames} (capture : g.isCapture = true)
    (h : Tracked root g.index es cs (.visit (.group g body) fs :: ts)) :
    Tracked root g.index es cs (.visit body (.group g :: fs) :: ts) := by
  obtain ⟨sits, others⟩ := List.forall_mem_cons.mp h.sits
  obtain ⟨head, tail⟩ := List.pairwise_cons.mp h.ordered
  have has : (Task.visit (.group g body) fs).Has g.index := by
    simp [Task.Has, Task.walk, Node.captureIndexes_group, capture]
  have stands : Sits root (.group g body :: body.walk) fs := sits has
  -- The group is not in its own body.
  have once : ¬ (Task.visit body (.group g :: fs)).Has g.index := by
    intro again
    exact (stands.capture capture).not_mem_opened again (by simp [Frames.opened_capture capture])
  refine ⟨List.forall_mem_cons.mpr ⟨fun again => absurd again once, others⟩,
    List.pairwise_cons.mpr ⟨fun v hv => ?_, tail⟩, .inr ?_⟩
  · exact ⟨(head v hv).reach.trans (List.suffix_cons _ _), fun again => absurd again once⟩
  rcases h.phase with none | ⟨g', outer, earlier, during, later, hi, -, -, matched⟩
  · obtain ⟨closed, others⟩ := List.forall_mem_cons.mp none.tasks
    refine ⟨g, fs, es, [], [], rfl, by simp, ?_, ?_⟩
    · exact ⟨⟨body, stands.mem _ List.mem_cons_self⟩, capture, closed, stands.nodup_quantifiers,
        none.last, by simp, by simp⟩
    · refine ⟨fun c hc => absurd hc (none.record c), fun _ => .inr rfl, ?_, ?_⟩
      · refine List.forall_mem_cons.mpr ⟨.inl ⟨rfl, Frames.within_self g fs⟩, fun v hv => .inr ?_⟩
        exact ⟨others v hv, fun _ => (head v hv).iterations_suffix⟩
      · refine List.forall_mem_cons.mpr ⟨fun again => absurd again once, fun v hv hasv => ?_⟩
        have leaves := (head v hv).once has hasv
        have reach := Frames.iterations_suffix (head v hv).reach
        cases v with
        | leave q body fs' k mark idle =>
          exact ⟨_, reach.subset List.mem_cons_self, rfl, rfl⟩
        | _ => cases leaves
  · -- Nothing leads into the group before another iteration begins.
    exact ((List.forall_mem_cons.mp matched.awaits).1 (hi ▸ has)).elim

/-- **An event happens** where the next task is, and the task is replaced. -/
theorem observe (h : Tracked root i es cs (t :: ts)) {e : Event Resolver × Resolver}
    {fs : Frames} (frames : e.1.frames = fs ++ t.frames) (hfs : i ∉ fs.opened)
    (yields : ∀ u ∈ us, t.Yields root i u) (ordered : us.Pairwise (Task.Before i)) :
    Tracked root i (es ++ [e]) (cs.after e.1) (us ++ ts) := by
  refine ⟨h.sits_yields yields, h.ordered_yields yields ordered, ?_⟩
  have outside : i ∉ t.frames.opened → i ∉ e.1.frames.opened := by
    intro closed
    rw [frames, Frames.opened_append, List.mem_append, not_or]
    exact ⟨hfs, closed⟩
  have later_closed : i ∉ t.frames.opened → ∀ u ∈ us ++ ts, i ∉ u.frames.opened := fun closed =>
    List.forall_mem_append.mpr ⟨fun u hu => (yields u hu).closed closed,
      fun v hv => ((List.pairwise_cons.mp h.ordered).1 v hv).closed closed⟩
  rcases h.phase with none | ⟨g, outer, earlier, during, later, rfl, split, passage, matched⟩
  · have closed := none.tasks t List.mem_cons_self
    refine .inl ⟨fun c hc => ?_, later_closed closed, ?_⟩
    · have := Captures.mem_of_mem_after (outside closed) hc
      exact none.record c (List.mem_filter.mp this).1
    · simpa using outside closed
  have awaits : ∀ u ∈ us ++ ts, u.Has g.index → u.Awaits outer.iterations := by
    obtain ⟨await, awaits⟩ := List.forall_mem_cons.mp matched.awaits
    refine List.forall_mem_append.mpr ⟨fun u hu has => ?_, awaits⟩
    exact (yields u hu).awaits has _ (await ((yields u hu).has has))
  obtain ⟨place, places⟩ := List.forall_mem_cons.mp matched.tasks
  rcases place with ⟨rfl, within⟩ | ⟨closed, -⟩
  · -- The walk is still in the group.
    have inside : e.1.frames.Within g outer := frames ▸ within.append hfs
    obtain ⟨record, recorded⟩ := Captures.after_of_within passage.capture passage.closed
      passage.distinct inside matched.record (matched.recorded rfl)
    refine .inr ⟨g, outer, earlier, during ++ [e], [], rfl, by simp [split], ?_, ?_⟩
    · exact { passage with
        within := List.forall_mem_append.mpr ⟨passage.within, by simpa using inside⟩ }
    · rw [← Resolver.entries_concat] at record recorded
      refine ⟨record, fun _ => recorded, List.forall_mem_append.mpr ⟨fun u hu => ?_, places⟩,
        awaits⟩
      exact .inl ⟨rfl, (yields u hu).within within⟩
  · -- The walk is out of the group.
    refine .inr ⟨g, outer, earlier, during, later ++ [e], rfl, by simp [split], ?_, ?_⟩
    · exact { passage with
        left := List.forall_mem_append.mpr ⟨passage.left, by simpa using outside closed⟩ }
    · refine ⟨fun c hc => ?_, by simp, fun u hu => .inr ⟨later_closed closed u hu, by simp⟩, awaits⟩
      have := Captures.mem_of_mem_after (outside closed) hc
      exact matched.record c (List.mem_filter.mp this).1

/-- A reference is passed over without an event. -/
theorem pass (h : Tracked root i es cs (t :: ts)) :
    Tracked root i es (cs.invalidate t.frames) (t :: ts) := by
  refine ⟨h.sits, h.ordered, ?_⟩
  rcases h.phase with none | ⟨g, outer, earlier, during, later, rfl, split, passage, matched⟩
  · exact .inl { none with record := fun c hc => none.record c (List.mem_filter.mp hc).1 }
  refine .inr ⟨g, outer, earlier, during, later, rfl, split, passage, { matched with
    record := fun c hc => matched.record c (List.mem_filter.mp hc).1
    recorded := fun inside => (matched.recorded inside).imp_left ?_ }⟩
  rintro ⟨c, hc⟩
  refine ⟨c, List.mem_filter.mpr ⟨hc, ?_⟩⟩
  have its := (matched.record c hc).2
  have near : c.iterations <:+ t.frames.iterations ∨ t.frames.iterations <:+ c.iterations := by
    rw [its]
    rcases matched.tasks t List.mem_cons_self with ⟨-, within⟩ | ⟨-, near⟩
    · exact .inl within.iterations_suffix
    · exact .inr (near inside)
  rw [Capture.isStale_of_suffix (its ▸ passage.distinct) near]
  rfl

/-- **An iteration begins** in which the group can be entered.  Records of the group were made in
another iteration of the quantifier, so they are dropped.  This is what the tasks that lead into
the group were waiting for. -/
theorem beginIteration {q : Quantifier} {body : Node} {fs : Frames} {k idle mark : Nat}
    (h : Tracked root i es cs (.enter q body fs k idle :: ts))
    (has : (Task.enter q body fs k idle).Has i) {e : Event Resolver × Resolver}
    (frames : e.1.frames = fs.inIteration q k) :
    Tracked root i (es ++ [e]) (cs.after e.1)
      (.visit body (fs.inIteration q k) :: .leave q body fs k mark idle :: ts) := by
  obtain ⟨sits, others⟩ := List.forall_mem_cons.mp h.sits
  obtain ⟨head, tail⟩ := List.pairwise_cons.mp h.ordered
  have stands : Sits root (.quantifier q body :: body.walk) fs := sits has
  have closed : i ∉ fs.opened := stands.not_mem_opened has
  have inner : Sits root body.walk (fs.inIteration q k) := stands.inIteration k
  refine ⟨?_, ?_, .inl ⟨fun c hc => ?_, ?_, ?_⟩⟩
  · exact List.forall_mem_cons.mpr ⟨fun _ => inner, List.forall_mem_cons.mpr ⟨sits, others⟩⟩
  · refine List.pairwise_cons.mpr ⟨List.forall_mem_cons.mpr ⟨⟨List.suffix_rfl, fun _ _ => rfl⟩,
      fun v hv => ?_⟩, List.pairwise_cons.mpr ⟨fun v hv => ?_, tail⟩⟩
    · exact ⟨(head v hv).reach.trans (List.suffix_cons _ _), fun _ => (head v hv).once has⟩
    · exact ⟨(head v hv).reach, fun _ => (head v hv).once has⟩
  · have hc := Captures.mem_of_mem_after (frames ▸ closed) hc
    obtain ⟨mem, good⟩ := List.mem_filter.mp hc
    rcases h.phase with none | ⟨g, outer, earlier, during, later, rfl, split, passage, matched⟩
    · exact none.record c mem
    obtain ⟨it, hit, rfl, other⟩ := matched.awaits _ List.mem_cons_self has
    have current : currentIteration? (fs.inIteration it.quantifier k).iterations it.quantifier =
        some k := currentIteration?_of_mem inner.nodup_quantifiers List.mem_cons_self
    have stale : c.isStale e.1.frames.iterations = true := by
      rw [Capture.isStale, List.any_eq_true]
      refine ⟨it, (matched.record c mem).2 ▸ hit, ?_⟩
      rw [frames, current]
      simpa using other.symm
    simp [stale] at good
  · exact List.forall_mem_cons.mpr ⟨closed, List.forall_mem_cons.mpr ⟨closed,
      fun v hv => (head v hv).closed closed⟩⟩
  · rintro e' he
    obtain rfl : e = e' := by simpa using he
    exact frames ▸ closed

end Tracked

/-! ## 5. Streams and feeds

One lemma for each way in which a task goes on, and then the step of a stream by its induction
principle.  The tasks of a feed are those of all its streams, one behind the other, so a feed adds
nothing but tasks that come later. -/

/-- What is known of a group after an event of a stream or of a feed.  What is consumed and what
becomes of a reference is left to the resolver. -/
structure Tracks {κ : Type} (root : Node) (i : Nat) (es : Resolver.Trace) (cs : Captures)
    (tasks : κ → List Task) (r : Event κ × κ) : Prop where
  consume : ∀ {fs a via}, r.1 = .consume fs a via →
    Tracked root i es cs (.visit (.atom a) fs :: tasks r.2)
  refer : ∀ {fs ref}, r.1 = .refer fs ref →
    Tracked root i es cs (.visit (.reference ref) fs :: tasks r.2)
  onward : r.1.isTerminal = false → (∀ fs a via, r.1 ≠ .consume fs a via) →
    (∀ fs ref, r.1 ≠ .refer fs ref) → ∀ e : Event Resolver × Resolver, e.1.frames = r.1.frames →
      Tracked root i (es ++ [e]) (cs.after e.1) (tasks r.2)
  aside : ∀ {fs b}, r.1 = .split fs b → ∀ e : Event Resolver × Resolver, e.1.frames = fs →
    Tracked root i (es ++ [e]) (cs.after e.1) (tasks b)

section Tracks

variable {root : Node} {i : Nat} {es : Resolver.Trace} {cs : Captures} {t u : Task}
  {ts us : List Task} {multiline : Bool} {consumed : Nat}

theorem Group.isLookaround_of_isCapture {g : Group} (h : g.isCapture = true) :
    g.isLookaround = false := by
  rw [isCapture, beq_iff_eq] at h
  rw [isLookaround, h]
  rfl

/-- Visits to several nodes are in order, as the group is in one of the nodes only. -/
theorem Task.pairwise_visits {fs : Frames} : ∀ {ns : List Node},
    (i ∈ captureIndexes (Node.walkAll ns) → (captureIndexes (Node.walkAll ns)).Nodup) →
      (Task.visits ns fs).Pairwise (Task.Before i)
  | [], _ => .nil
  | n :: ns, h => by
    rw [Node.captureIndexes_walkAll_cons] at h
    refine List.pairwise_cons.mpr ⟨?_, Task.pairwise_visits fun hi => ?_⟩
    · intro u hu
      obtain ⟨m, hm, rfl⟩ := List.mem_map.mp hu
      refine ⟨List.suffix_rfl, fun hn hm' => ?_⟩
      have later : i ∈ captureIndexes (Node.walkAll ns) := by
        obtain ⟨g, body, hw, hg⟩ := mem_captureIndexes.mp hm'
        exact mem_captureIndexes.mpr ⟨g, body, Node.mem_walkAll.mpr ⟨m, hm, hw⟩, hg⟩
      have nodup := h (List.mem_append_left _ hn)
      exact absurd rfl ((List.nodup_append.mp nodup).2.2 i hn i later)
    · exact (List.nodup_append.mp (h (List.mem_append_right _ hi))).2.1

namespace Tracked

theorem head (h : Tracked root i es cs (t :: ts)) : t.Has i → Sits root t.walk t.frames :=
  (List.forall_mem_cons.mp h.sits).1

/-- A task is replaced by one that it leaves behind. -/
theorem replace (h : Tracked root i es cs (t :: ts)) (yields : t.Yields root i u)
    (still : u.frames.iterations = t.frames.iterations) : Tracked root i es cs (u :: ts) := by
  have all : Tracked root i es cs ([u] ++ ts) :=
    h.unfold (by simpa using yields) (by simpa using still) (List.pairwise_singleton _ _)
  exact all

/-- An event happens where the next task is, and the task leaves others behind. -/
theorem observe_here (h : Tracked root i es cs (t :: ts))
    {e : Event Resolver × Resolver} (frames : e.1.frames = t.frames)
    (yields : ∀ u ∈ us, t.Yields root i u) (ordered : us.Pairwise (Task.Before i)) :
    Tracked root i (es ++ [e]) (cs.after e.1) (us ++ ts) := by
  have frames : e.1.frames = [] ++ t.frames := frames
  exact h.observe frames (by simp [Frames.opened]) yields ordered

/-- An event happens where the next task is, and the task is done. -/
theorem finish (h : Tracked root i es cs (t :: ts)) {e : Event Resolver × Resolver}
    (frames : e.1.frames = t.frames) : Tracked root i (es ++ [e]) (cs.after e.1) ts := by
  have all : Tracked root i (es ++ [e]) (cs.after e.1) ([] ++ ts) :=
    h.observe_here frames (by simp) .nil
  exact all

/-- An event happens where the next task is, and the task is replaced. -/
theorem observe_replace (h : Tracked root i es cs (t :: ts)) {e : Event Resolver × Resolver}
    (frames : e.1.frames = t.frames) (yields : t.Yields root i u) :
    Tracked root i (es ++ [e]) (cs.after e.1) (u :: ts) := by
  have all : Tracked root i (es ++ [e]) (cs.after e.1) ([u] ++ ts) :=
    h.observe_here frames (by simpa using yields) (List.pairwise_singleton _ _)
  exact all

/-- **A task makes way for others**: those of a sequence are in order, and a group is entered if it
is the group. -/
theorem becomes (h : Tracked root i es cs (t :: ts)) (task : t.Becomes consumed us) :
    Tracked root i es cs (us ++ ts) := by
  have unfolds := task.unfolds
  cases task with
  | @group g body fs =>
    by_cases enters : g.isCapture = true ∧ g.index = i
    · obtain ⟨capture, rfl⟩ := enters
      exact h.enterGroup capture
    · refine h.replace ((unfolds _ List.mem_cons_self).yields h.head ?_) rfl
      rintro _ _ _ ⟨⟩ capture hi
      exact enters ⟨capture, hi⟩
  | sequence s ns fs =>
    refine h.unfold (fun u hu => (unfolds u hu).yields h.head) ?_ (Task.pairwise_visits fun hi => ?_)
    · intro u hu
      obtain ⟨n, -, rfl⟩ := List.mem_map.mp hu
      rfl
    · exact (List.nodup_append.mp (h.head hi).groups).1
  | nothing | exhausted | tired => exact h.tail
  | alternation | last | needed | again =>
    exact h.replace ((unfolds _ List.mem_cons_self).yields h.head) rfl

/-- **An event lets the walk pass**, and it may begin an iteration, whether or not the group can be
entered in it. -/
theorem gives (h : Tracked root i es cs (t :: ts)) {ev : Event Stream}
    (task : t.Gives multiline consumed ev us) {e : Event Resolver × Resolver}
    (frames : e.1.frames = ev.frames) : Tracked root i (es ++ [e]) (cs.after e.1) (us ++ ts) := by
  have unfolds := task.unfolds
  cases task with
  | start | skip => exact h.finish frames
  | quantifier => exact h.observe_replace frames ((unfolds _ List.mem_cons_self).yields h.head)
  | enter q body fs k idle =>
    by_cases has : (Task.enter q body fs k idle).Has i
    · exact h.beginIteration has frames
    have frames : e.1.frames = [Stream.iterationFrame q k] ++ fs := frames
    refine h.observe frames (by simp [Frames.opened, Stream.iterationFrame]) (fun u hu => ?_) ?_
    · exact (unfolds u hu).yields h.head (by simp) fun _ _ _ _ _ _ => has
    · refine List.pairwise_cons.mpr ⟨?_, List.pairwise_singleton _ _⟩
      exact List.forall_mem_singleton.mpr ⟨List.suffix_rfl, fun _ _ => rfl⟩

/-- **The walk splits**, and either part keeps track of the group. -/
theorem splits (h : Tracked root i es cs (t :: ts)) {fs : Frames} {bs : List Task}
    (task : t.Splits fs bs us) {e : Event Resolver × Resolver} (frames : e.1.frames = fs) :
    Tracked root i (es ++ [e]) (cs.after e.1) (bs ++ ts) ∧
      Tracked root i (es ++ [e]) (cs.after e.1) (us ++ ts) := by
  obtain ⟨branch, onward⟩ := task.unfolds 0
  cases task with
  | choose =>
    exact ⟨h.observe_replace frames ((branch _ List.mem_cons_self).yields h.head),
      h.observe_replace frames ((onward _ List.mem_cons_self).yields h.head)⟩
  | offer =>
    exact ⟨h.observe_replace frames ((branch _ List.mem_cons_self).yields h.head),
      h.finish frames⟩

/-- **A lookaround is entered**, and its walk has an end of its own. -/
theorem looks (h : Tracked root i es cs (t :: ts)) {fs : Frames} {bs : List Task}
    (task : t.Looks fs bs) {e : Event Resolver × Resolver} (frames : e.1.frames = fs) :
    Tracked root i (es ++ [e]) (cs.after e.1) (bs ++ ts) := by
  have unfolds := task.unfolds 0
  cases task with
  | @lookaround g body _ look =>
    refine h.observe_here frames (fun u hu => (unfolds u hu).yields h.head ?_) ?_
    · rintro _ _ _ ⟨⟩ capture
      rw [Group.isLookaround_of_isCapture capture] at look
      cases look
    · refine List.pairwise_cons.mpr ⟨?_, List.pairwise_singleton _ _⟩
      exact List.forall_mem_singleton.mpr ⟨List.suffix_rfl, by simp⟩

end Tracked

/-- **One step of a stream** keeps track of a group. -/
theorem Stream.tracks_nextFrom (multiline : Bool) (consumed : Nat) {todo ctx : List Task}
    (h : Tracked root i es cs (todo ++ ctx)) :
    Tracks root i es cs (fun s : Stream => s.todo ++ ctx) (nextFrom multiline consumed todo) := by
  induction todo using nextFrom_induction multiline consumed with
  | done step =>
    rw [step]
    exact ⟨by simp, by simp, by simp [Event.isTerminal], by simp⟩
  | becomes task step ih =>
    rw [step]
    refine ih ?_
    rw [List.append_assoc]
    exact h.becomes task
  | meets task step =>
    rw [step]
    cases task with
    | atom =>
      refine ⟨?_, by simp, fun _ other => absurd rfl (other _ _ _), by simp⟩
      rintro _ _ _ ⟨⟩
      exact h
    | reference =>
      refine ⟨by simp, ?_, fun _ _ other => absurd rfl (other _ _), by simp⟩
      rintro _ _ ⟨⟩
      exact h
  | @gives t ev us rest task step =>
    have left : ∀ e : Event Resolver × Resolver, e.1.frames = ev.frames →
        Tracked root i (es ++ [e]) (cs.after e.1) (us ++ rest ++ ctx) := by
      intro e frames
      rw [List.append_assoc]
      exact h.gives task frames
    rw [step]
    cases task <;> exact ⟨by simp, by simp, fun _ _ _ => left, by simp⟩
  | @splits t fs bs us rest task step =>
    rw [step]
    refine ⟨by simp, by simp, fun _ _ _ e he => ?_, ?_⟩
    · change Tracked root i (es ++ [e]) (cs.after e.1) (us ++ rest ++ ctx)
      rw [List.append_assoc]
      exact (h.splits task he).2
    · rintro _ _ ⟨⟩ e he
      change Tracked root i (es ++ [e]) (cs.after e.1) (bs ++ rest ++ ctx)
      rw [List.append_assoc]
      exact (h.splits task he).1
  | @looks t fs bs rest task step =>
    rw [step]
    refine ⟨by simp, by simp, fun _ _ _ e he => ?_, ?_⟩
    · cases task
      exact h.finish he
    · rintro _ _ ⟨⟩ e he
      exact (h.looks task he).sublist
        ((List.Sublist.refl bs).append (List.sublist_append_right rest ctx))
  | ends task step =>
    rw [step]
    cases task <;> exact ⟨by simp, by simp, by simp [Event.isTerminal], by simp⟩

/-- **One step of a feed** keeps track of a group. -/
theorem Feed.tracks_next (multiline : Bool) : ∀ {f : Feed}, Tracked root i es cs f.tasks →
    Tracks root i es cs Feed.tasks (f.next multiline)
  | plain s, h => by
    have h : Tracked root i es cs (s.todo ++ []) := by simpa [tasks] using h
    have hs := Stream.tracks_nextFrom multiline s.consumed h
    simp only [List.append_nil] at hs
    rw [next, Stream.next]
    refine ⟨fun he => ?_, fun he => ?_, fun go unfed unmet => ?_, fun he => ?_⟩
    · exact hs.consume (Event.mapBranch_eq_consume.mp he)
    · exact hs.refer (Event.mapBranch_eq_refer.mp he)
    · simp only [Event.isTerminal_mapBranch, Event.frames_mapBranch, ne_eq,
        Event.mapBranch_eq_consume, Event.mapBranch_eq_refer] at go unfed unmet ⊢
      exact hs.onward go unfed unmet
    · obtain ⟨b, hb, rfl⟩ := Event.mapBranch_eq_split.mp he
      exact hs.aside hb
  | rematch s via rest, h => by
    have hs := Stream.tracks_nextFrom multiline s.consumed h
    rw [next, Stream.next]
    rcases hn : Stream.nextFrom multiline s.consumed s.todo with ⟨e, t⟩
    rw [hn] at hs
    cases e with
    | done => exact Feed.tracks_next multiline (h.sublist (List.sublist_append_right _ _))
    | stop | abort => exact ⟨by simp, by simp, by simp [Event.isTerminal], by simp⟩
    | consume =>
      refine ⟨?_, by simp, fun _ other => absurd rfl (other _ _ _), by simp⟩
      rintro _ _ _ ⟨⟩
      exact hs.consume rfl
    | split =>
      refine ⟨by simp, by simp, fun _ _ _ => hs.onward rfl (by simp) (by simp), ?_⟩
      rintro _ _ ⟨⟩
      exact hs.aside rfl
    | refer =>
      refine ⟨by simp, ?_, fun _ _ other => absurd rfl (other _ _), by simp⟩
      rintro _ _ ⟨⟩
      exact hs.refer rfl
    | start | skip =>
      exact ⟨by simp, by simp, fun _ _ _ => hs.onward rfl (by simp) (by simp), by simp⟩

end Tracks

/-! ## 6. Resolvers

What is still to be repeated is made into tasks as well, so that a resolver has one list of tasks
like a stream.  A body that is matched again would be a second stream with iterations counted from
zero, so paths on which it contains the group are left out (`Spares`). -/

/-- No body with the group in it is being matched again for a reference. -/
def Feed.Spares (x : Subject) (i : Nat) : Feed → Prop
  | plain _ => True
  | rematch _ via rest =>
    (∀ g body, x.index.group? via.index = some (g, body) → i ∉ captureIndexes body.walk) ∧
      rest.Spares x i

theorem Feed.spares_of_isPlain {x : Subject} {i : Nat} {f : Feed} (h : f.isPlain = true) :
    f.Spares x i := by
  cases f with
  | plain => trivial
  | rematch => cases h

namespace Resolver

/-- All that a resolver has left to do: what it still has to repeat, and then its feed. -/
def tasks (r : Resolver) : List Task :=
  r.pending.map (fun e => .visit (.atom e.atom) r.pendingFrames) ++ r.feed.tasks

theorem tasks_of_pending {r : Resolver} (hp : r.pending = []) : r.tasks = r.feed.tasks := by
  rw [tasks, hp]
  rfl

/-- Consuming drops what is stale once, however often that is done. -/
theorem captures_consume (r : Resolver) (cs : Captures) (fs : Frames) (entry : Replay)
    (h : r.captures.invalidate fs = cs.invalidate fs) :
    (r.consume fs entry).2.captures = cs.after (r.consume fs entry).1 :=
  congrArg (·.record fs entry) h

variable {root : Node} {x : Subject} {i : Nat} {es : Trace}

theorem tracked_of_eq {r : Resolver} {cs : Captures} {ts : List Task} (hc : r.captures = cs)
    (ht : r.tasks = ts) (h : Tracked root i es cs ts) : Tracked root i es r.captures r.tasks :=
  hc ▸ ht ▸ h

/-- **One step of a resolver** keeps track of a group, unless a body with the group in it is
matched again.  References are the only events with cases of their own: what they repeat is
consumed one after the other, and what stands for nothing is passed over. -/
theorem tracked_next {r r' : Resolver} {e : Event Resolver}
    (h : Tracked root i es r.captures r.tasks) (hn : r.next x = .ok (e, r')) :
    (e.isTerminal = false → Tracked root i (es ++ [(e, r')]) r'.captures r'.tasks) ∧
      ∀ fs b, e = .split fs b → b.feed.Spares x i →
        Tracked root i (es ++ [(e, b)]) b.captures b.tasks := by
  have advance : ∀ {r : Resolver} {e : Event Feed} {feed : Feed}, r.pending = [] →
      Tracked root i es r.captures r.tasks → r.feed.next x.multiline = (e, feed) →
        Tracks root i es r.captures Feed.tasks (e, feed) := by
    intro r e feed hp h hf
    rw [tasks, hp] at h
    exact hf ▸ Feed.tracks_next x.multiline h
  replace hn := advances_of_next hn
  induction hn with
  | resume waits =>
    rw [tasks, waits] at h
    exact ⟨fun _ => Tracked.finish h rfl, by simp⟩
  | @consume r g fs a via hp hf =>
    refine ⟨fun _ => tracked_of_eq ?_ (tasks_of_pending hp)
      (((advance hp h hf).consume rfl).finish rfl), by simp⟩
    exact captures_consume _ _ fs ⟨a, via⟩ (Captures.invalidate_invalidate _ fs)
  | split hp hf =>
    refine ⟨fun _ => tracked_of_eq rfl (tasks_of_pending hp)
      ((advance hp h hf).onward rfl (by simp) (by simp) _ rfl), ?_⟩
    rintro _ _ ⟨⟩ -
    exact tracked_of_eq rfl (tasks_of_pending hp) ((advance hp h hf).aside rfl _ rfl)
  | start hp hf | skip hp hf =>
    exact ⟨fun _ => tracked_of_eq rfl (tasks_of_pending hp)
      ((advance hp h hf).onward rfl (by simp) (by simp) _ rfl), by simp⟩
  | stop | abort | done | around => exact ⟨by simp [Event.isTerminal], by simp⟩
  | @replay r g fs ref first rest hp hf hr =>
    have all : ∀ r' : Resolver, Tracked root i (es ++ [(.consume fs first.atom first.via, r')])
        (r.captures.after (.consume fs first.atom first.via : Event Resolver))
        (rest.map (fun e => .visit (.atom e.atom) fs) ++ g.tasks) := by
      intro r'
      refine ((advance hp h hf).refer rfl).observe_here rfl ?_ ?_
      · intro u hu
        obtain ⟨entry, -, rfl⟩ := List.mem_map.mp hu
        exact Task.yields_of_not_has rfl (Task.not_has_atom entry.atom fs)
      · rw [List.pairwise_map]
        exact List.pairwise_of_forall fun entry entry' =>
          ⟨List.suffix_rfl, fun _ hv => absurd hv (Task.not_has_atom entry'.atom fs)⟩
    refine ⟨fun _ => tracked_of_eq ?_ rfl (all _), by simp⟩
    exact captures_consume _ _ fs first (Captures.invalidate_invalidate _ fs)
  | rematch hp hf hr =>
    have here := (advance hp h hf).refer rfl
    refine ⟨fun _ => tracked_of_eq rfl (tasks_of_pending hp) (here.finish rfl), ?_⟩
    rintro _ _ ⟨⟩ spares
    obtain ⟨-, -, g, hg⟩ := Subject.resolve_rematch hr
    exact tracked_of_eq rfl (tasks_of_pending hp)
      (here.observe_replace rfl (Task.yields_of_not_has rfl (spares.1 g _ hg)))
  | nothing hp hf _ _ _ ih =>
    refine ih (tracked_of_eq rfl (tasks_of_pending hp) ?_)
    exact ((advance hp h hf).refer rfl).pass.tail

theorem tracked_step {r r' : Resolver} {e : Event Resolver}
    (h : Tracked root i es r.captures r.tasks) (hs : Step (step x) r e r')
    (spares : r'.feed.Spares x i) : Tracked root i (es ++ [(e, r')]) r'.captures r'.tasks := by
  cases hs with
  | onward hn he => exact (tracked_next h (step_eq_some.mp hn)).1 he
  | aside hn => exact (tracked_next h (step_eq_some.mp hn)).2 _ _ rfl spares

/-- **A run keeps track of a group.**  The induction is on the run, with `tracked_next` for its
last step. -/
theorem tracked_run {r r' : Resolver} {es' : Trace} (run : Run (step x) r es' r') :
    ∀ {es : Trace}, Tracked root i es r.captures r.tasks → (∀ e ∈ es', e.2.feed.Spares x i) →
      Tracked root i (es ++ es') r'.captures r'.tasks := by
  induction run with
  | nil r =>
    intro es h _
    rwa [List.append_nil]
  | cons hs _ ih =>
    intro es h spares
    obtain ⟨here, later⟩ := List.forall_mem_cons.mp spares
    rw [List.append_cons]
    exact ih (tracked_step h hs here) later

/-- Nothing is known of any group at the start. -/
theorem tracked_ofPattern {p : Pattern} (wf : p.IsWellFormed) (i : Nat) :
    Tracked p.root i [] (ofPattern p).captures (ofPattern p).tasks := by
  have tasks : (ofPattern p).tasks = [.visit p.root [], .finish []] := rfl
  rw [tasks]
  refine ⟨?_, ?_, .inl ⟨by simp [ofPattern, ofStream], ?_, by simp⟩⟩
  · exact List.forall_mem_cons.mpr ⟨fun _ => sits_root wf, List.forall_mem_singleton.mpr (by simp)⟩
  · refine List.pairwise_cons.mpr ⟨?_, List.pairwise_singleton _ _⟩
    exact List.forall_mem_singleton.mpr ⟨List.suffix_rfl, by simp⟩
  · exact List.forall_mem_cons.mpr ⟨by simp [Task.frames, Frames.opened],
      List.forall_mem_singleton.mpr (by simp [Task.frames, Frames.opened])⟩

/-- What is repeated is the record of a passage. -/
theorem Repeats.exists_passage {r : Resolver} {fs : Frames} {ref : Reference} {first : Replay}
    {rest : List Replay} (h : Repeats x r fs ref first rest)
    (tracked : Tracked root ref.index es r.captures r.tasks) :
    ∃ g outer earlier during later, g.index = ref.index ∧ es = earlier ++ during ++ later ∧
      Passage root g outer earlier during later ∧
      first :: rest = (entries during).map fun e => ⟨e.atom, e.via ++ [ref]⟩ := by
  induction h with
  | here hp hf hr =>
    rename_i r g fs ref first rest
    obtain ⟨c, hc, repeated⟩ := exists_of_resolve_replay hr
    have mem := (List.mem_filter.mp (Captures.mem_of_get? hc)).1
    rcases tracked.phase with none | ⟨g, outer, earlier, during, later, hi, split, passage, matched⟩
    · exact absurd mem (none.record c)
    · refine ⟨g, outer, earlier, during, later, hi, split, passage, ?_⟩
      rw [repeated, (matched.record c (hi ▸ mem)).1]
  | later hp hf nothing fresh _ ih =>
    refine ih (tracked_of_eq rfl (tasks_of_pending hp) ?_)
    rw [tasks_of_pending hp] at tracked
    have here := Feed.tracks_next x.multiline tracked
    rw [hf] at here
    exact (here.refer rfl).pass.tail

/-- What is about to be repeated for the first reference that a resolver comes to. -/
def repeatsHere (x : Subject) (r : Resolver) :
    Option (Frames × Reference × Replay × List Replay) :=
  match r.pending, (r.feed.next x.multiline).1 with
  | [], .refer fs ref =>
    match x.resolve (r.captures.invalidate fs) fs ref with
    | .ok (.replay first rest) => some (fs, ref, first, rest)
    | _ => none
  | _, _ => none

theorem repeats_of_repeatsHere {r : Resolver} {fs : Frames} {ref : Reference} {first : Replay}
    {rest : List Replay} (h : r.repeatsHere x = some (fs, ref, first, rest)) :
    Repeats x r fs ref first rest := by
  unfold repeatsHere at h
  split at h
  · rename_i fs' ref' hp hf
    split at h
    · rename_i hr
      cases h
      exact .here hp (Prod.ext hf rfl) hr
    · cases h
  · cases h

/-- **What a reference repeats is the last passage through its group**, character by character, with
the reference added to those it was consumed on behalf of.  This is so on every path on which no
body that contains the group is matched again for a reference. -/
theorem exists_passage_of_repeats {source : Bytes} {flags : Flags} {p : Pattern}
    (parsed : Pattern.parse source flags = .ok p) {es : Trace} {r : Resolver}
    (run : Run (step (Subject.ofPattern p)) (ofPattern p) es r) {fs : Frames} {ref : Reference}
    {first : Replay} {rest : List Replay}
    (repeats : Repeats (Subject.ofPattern p) r fs ref first rest)
    (spares : ∀ e ∈ es, e.2.feed.Spares (Subject.ofPattern p) ref.index) :
    (∃ ts t, Run (step (Subject.ofPattern p)) r ts t ∧ t.pending = [] ∧
      ts.map (·.1.plain) = (first :: rest).map fun e => .consume fs e.atom e.via) ∧
    ∃ g outer earlier during later, g.index = ref.index ∧ es = earlier ++ during ++ later ∧
      Passage p.root g outer earlier during later ∧
      first :: rest = (entries during).map fun e => ⟨e.atom, e.via ++ [ref]⟩ := by
  have wf := Pattern.isWellFormed_of_parse parsed
  have tracked := tracked_run run (tracked_ofPattern wf ref.index) spares
  exact ⟨exists_run_of_repeats repeats, repeats.exists_passage tracked⟩

/-- In `(?:(a|bc)|d)+\1` the group matches `a` and then `bc`, which is repeated. -/
theorem exists_passage_of_repeats_in_loop : ∃ p es r ref first rest,
    Pattern.parse (Bytes.ofString "(?:(a|bc)|d)+\\1") {} = .ok p ∧
      Run (step (Subject.ofPattern p)) (ofPattern p) es r ∧
      Repeats (Subject.ofPattern p) r [] ref first [rest] ∧
      (∀ e ∈ es, e.2.feed.Spares (Subject.ofPattern p) ref.index) ∧ (entries es).length = 3 ∧
      ∃ g outer earlier during later, g.index = ref.index ∧ es = earlier ++ during ++ later ∧
        Passage p.root g outer earlier during later ∧
        [first, rest] = (entries during).map fun e => ⟨e.atom, e.via ++ [ref]⟩ := by
  let q : Quantifier := ⟨⟨10, 0, 13⟩, ⟨1, none, false⟩⟩
  let outer : Group := ⟨⟨9, 0, 12⟩, .nonCapture, 0, []⟩
  let inner : Group := ⟨⟨6, 3, 9⟩, .capture, 1, []⟩
  let ref : Reference := ⟨⟨11, 13, 15⟩, 1, []⟩
  let b : Atom := ⟨⟨2, 6, 7⟩, .char 98⟩
  let c : Atom := ⟨⟨3, 7, 8⟩, .char 99⟩
  let p : Pattern :=
    { source := Bytes.ofString "(?:(a|bc)|d)+\\1"
      flags := {}
      root := .sequence ⟨12, 0, 15⟩ [.quantifier q (.group outer (.alternation ⟨8, 3, 11⟩
        [.group inner (.alternation ⟨5, 4, 8⟩ [.atom ⟨⟨1, 4, 5⟩, .char 97⟩,
          .sequence ⟨4, 6, 8⟩ [.atom b, .atom c]]), .atom ⟨⟨7, 10, 11⟩, .char 100⟩])),
        .reference ref]
      captures := 1 }
  have parsed : Pattern.parse (Bytes.ofString "(?:(a|bc)|d)+\\1") {} = .ok p := by
    with_unfolding_all rfl
  have followed : ((follow (step (Subject.ofPattern p))
      [false, false, true, true, false, true, false, true, false, false, false, false]
      (ofPattern p)).any
        fun place => place.2.repeatsHere (Subject.ofPattern p) ==
            some ([], ref, ⟨b, [ref]⟩, [⟨c, [ref]⟩]) &&
          (entries place.1).length == 3 &&
          place.1.all fun e => e.2.feed.isPlain) = true := by
    decide +kernel
  obtain ⟨⟨es, r⟩, hf, followed⟩ := (Option.any_eq_true _ _).mp followed
  simp only [Bool.and_eq_true, beq_iff_eq, List.all_eq_true] at followed
  obtain ⟨⟨here, three⟩, spares⟩ := followed
  have run := run_of_follow hf
  have repeats := repeats_of_repeatsHere here
  have spares : ∀ e ∈ es, e.2.feed.Spares (Subject.ofPattern p) ref.index :=
    fun e he => Feed.spares_of_isPlain (spares e he)
  exact ⟨p, es, r, ref, _, _, parsed, run, repeats, spares, three,
    (exists_passage_of_repeats parsed run repeats spares).2⟩

/-- **Two passages can be repeated as one.**  In `\1((a)?)\2` the first reference may stand for
another match of the first group, and then what `(a)` matches there is recorded along with what it
matches when the walk gets to it: the numbers of the iterations are the same.  No part of the walk
inside of the group consumes both. -/
theorem repeats_two_passages : ∃ p es r ref first second,
    Pattern.parse (Bytes.ofString "\\1((a)?)\\2") {} = .ok p ∧
      Run (step (Subject.ofPattern p)) (ofPattern p) es r ∧
      Repeats (Subject.ofPattern p) r [] ref first [second] ∧
      ∀ earlier during later, es = earlier ++ during ++ later →
        (∀ e ∈ during, ref.index ∈ e.1.frames.opened) →
        [first, second] ≠ (entries during).map fun e => ⟨e.atom, e.via ++ [ref]⟩ := by
  let q : Quantifier := ⟨⟨4, 3, 7⟩, ⟨0, some 1, false⟩⟩
  let outer : Group := ⟨⟨5, 2, 8⟩, .capture, 1, []⟩
  let inner : Group := ⟨⟨3, 3, 6⟩, .capture, 2, []⟩
  let a : Atom := ⟨⟨2, 4, 5⟩, .char 97⟩
  let first : Reference := ⟨⟨1, 0, 2⟩, 1, []⟩
  let second : Reference := ⟨⟨6, 8, 10⟩, 2, []⟩
  let p : Pattern :=
    { source := Bytes.ofString "\\1((a)?)\\2"
      flags := {}
      root := .sequence ⟨7, 0, 10⟩ [.reference first,
        .group outer (.quantifier q (.group inner (.atom a))), .reference second]
      captures := 2 }
  have parsed : Pattern.parse (Bytes.ofString "\\1((a)?)\\2") {} = .ok p := by
    with_unfolding_all rfl
  have followed : ((follow (step (Subject.ofPattern p))
      [true, false, true, false, false, false, true, false, false] (ofPattern p)).any
        fun place => place.2.repeatsHere (Subject.ofPattern p) ==
            some ([], second, ⟨a, [first, second]⟩, [⟨a, [second]⟩]) &&
          (List.range (place.1.length + 1)).all fun m =>
            (List.range (place.1.length + 1)).all fun n =>
              let part := (place.1.drop m).take n
              part.any (fun e => !e.1.frames.opened.contains 2) || (entries part).length != 2) =
      true := by
    decide +kernel
  obtain ⟨⟨es, r⟩, hf, followed⟩ := (Option.any_eq_true _ _).mp followed
  simp only [Bool.and_eq_true, beq_iff_eq, List.all_eq_true, List.mem_range] at followed
  obtain ⟨here, apart⟩ := followed
  refine ⟨p, es, r, second, _, _, parsed, run_of_follow hf, repeats_of_repeatsHere here, ?_⟩
  rintro earlier during later rfl inside both
  have two : (entries during).length = 2 := by simpa using (congrArg List.length both).symm
  have length : (earlier ++ during ++ later).length =
      earlier.length + during.length + later.length := by
    rw [List.length_append, List.length_append]
  have := apart earlier.length (by omega) during.length (by omega)
  simp only [List.append_assoc, List.drop_left, List.take_left, two, bne_self_eq_false,
    Bool.or_false, List.any_eq_true] at this
  obtain ⟨e, he, outside⟩ := this
  have inside : e.1.frames.opened.contains 2 = true := List.contains_iff_mem.mpr (inside e he)
  rw [inside] at outside
  cases outside

end Resolver

end Backtrack
