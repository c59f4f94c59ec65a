/-
# Loops that consume nothing

Two guards are to keep a quantifier from going through iterations that consume nothing forever.
A stream leaves it after two iterations running in which it met no leaf and no reference.  A
resolver gives a walk up when a reference inside a quantifier stands for nothing, and did so
before with nothing consumed since.

The stream counts a reference as if it consumed, and the resolver remembers one reference only.
So two references that stand for nothing take turns, and nobody notices: `exists_idle_loop`.

`references_alternate` says that this is the only way.  If a walk goes through more and more
iterations of a quantifier without consuming anything, then it meets two different references in
them, again and again.

The proof (`not_idlesIn`) counts the iterations a walk can still begin while it meets a single
reference: two in which nothing happens, and as many before and after the one time that the
reference can stand for nothing (`rounds`). For this the tasks of a quantifier must not be
overtaken by what happens elsewhere: whatever is to be done before them happens inside of an
iteration of it (`Nested`).
-/
import Backtrack.Proofs.Derivation.Bounded
import Backtrack.Proofs.Derivation.Unfolding

namespace Backtrack

/-! ## 1. Tasks inside of loops

A count of iterations is no use if another task may begin one of the same quantifier in between.
It cannot, since whatever comes before a quantifier goes on is inside of an iteration of it
(`Nested`), and every step keeps this. -/

/-- The quantifier a task goes on with. -/
def Task.loop? : Task → Option Quantifier
  | iterate q _ _ _ _ => some q
  | enter q _ _ _ _ => some q
  | leave q _ _ _ _ _ => some q
  | _ => none

/-- The frames are inside of an iteration of the quantifier that the task goes on with. -/
def Task.Around (t : Task) (fs : Frames) : Prop := ∀ q, t.loop? = some q → q ∈ fs.quantifiers

theorem Task.Around.cons {t : Task} {fs : Frames} (h : t.Around fs) (f : Frame) :
    t.Around (f :: fs) := by
  intro q hq
  cases f with
  | group g => exact h q hq
  | iteration i => exact List.mem_cons_of_mem _ (h q hq)

/-- All that is to be done before a quantifier goes on is inside of an iteration of it. -/
def Nested (ts : List Task) : Prop := ts.Pairwise fun t u => u.Around t.frames

theorem Task.Around.unfold {v t u : Task} {consumed : Nat} (h : v.Around t.frames)
    (unfolds : t.Unfolds consumed u) : v.Around u.frames := by
  cases unfolds with
  | inside | finish | body => exact h.cons _
  | _ => exact h

namespace Nested

variable {t : Task} {ts us bs : List Task} {fs : Frames} {multiline : Bool} {consumed : Nat}
  {e : Event Stream}

theorem head (h : Nested (t :: ts)) : ∀ v ∈ ts, v.Around t.frames := (List.pairwise_cons.mp h).1

theorem tail (h : Nested (t :: ts)) : Nested ts := (List.pairwise_cons.mp h).2

theorem right (h : Nested (ts ++ us)) : Nested us := (List.pairwise_append.mp h).2.1

theorem nil : Nested [] := List.Pairwise.nil

theorem single (t : Task) : Nested [t] := List.pairwise_singleton _ t

/-- What does not go on with a quantifier may wait behind anything. -/
theorem pair (t : Task) {u : Task} (free : u.loop? = none) : Nested [t, u] := by
  refine List.pairwise_cons.mpr ⟨List.forall_mem_singleton.mpr fun q hq => ?_, single u⟩
  rw [free] at hq
  cases hq

theorem visits (ns : List Node) (fs : Frames) : Nested (Task.visits ns fs) := by
  refine List.pairwise_map.mpr (List.pairwise_of_forall fun n m q hq => ?_)
  cases hq

theorem of_becomes (h : t.Becomes consumed us) : Nested us := by
  cases h with
  | sequence s ns fs => exact visits ns fs
  | nothing | exhausted | tired => exact nil
  | group | alternation | last | needed | again => exact single _

theorem of_gives (h : t.Gives multiline consumed e us) : Nested us := by
  cases h with
  | start | skip => exact nil
  | quantifier => exact single _
  | enter q body fs i idle =>
    refine List.pairwise_cons.mpr ⟨List.forall_mem_singleton.mpr fun q' hq => ?_, single _⟩
    obtain rfl : q = q' := Option.some.inj hq
    exact List.mem_cons_self

theorem of_splits (h : t.Splits fs bs us) : Nested bs ∧ Nested us := by
  cases h with
  | choose => exact ⟨single _, single _⟩
  | offer => exact ⟨single _, nil⟩

theorem of_looks (h : t.Looks fs bs) : Nested bs := by
  cases h
  exact pair _ rfl

/-- A task may be replaced by some that it unfolds to, if they are nested among themselves. -/
theorem replace (h : Nested (t :: ts)) (unfolds : ∀ u ∈ us, t.Unfolds consumed u)
    (own : Nested us) : Nested (us ++ ts) :=
  List.pairwise_append.mpr ⟨own, h.tail, fun u hu v hv => (h.head v hv).unfold (unfolds u hu)⟩

end Nested

/-- An event leaves nested tasks behind, and a reference is inside of every loop that goes on
after it. -/
structure Nests {κ : Type} (tasks : κ → List Task) (r : Event κ × κ) : Prop where
  onward : Nested (tasks r.2)
  aside : ∀ fs b, r.1 = .split fs b → Nested (tasks b)
  refer : ∀ fs ref, r.1 = .refer fs ref → ∀ t ∈ tasks r.2, t.Around fs

theorem Stream.nests_nextFrom (multiline : Bool) (consumed : Nat) {todo ctx : List Task}
    (h : Nested (todo ++ ctx)) :
    Nests (fun s : Stream => s.todo ++ ctx) (nextFrom multiline consumed todo) := by
  induction todo using nextFrom_induction multiline consumed with
  | done step =>
    rw [step]
    exact ⟨h, by simp, by simp⟩
  | becomes task step ih =>
    rw [step]
    refine ih ?_
    rw [List.append_assoc]
    exact h.replace task.unfolds (.of_becomes task)
  | meets task step =>
    rw [step]
    cases task with
    | atom => exact ⟨h.tail, by simp, by simp⟩
    | reference =>
      refine ⟨h.tail, by simp, ?_⟩
      rintro _ _ ⟨⟩
      exact h.head
  | @gives t e us rest task step =>
    rw [step]
    have left : Nested (us ++ rest ++ ctx) := by
      rw [List.append_assoc]
      exact h.replace task.unfolds (.of_gives task)
    cases task <;> exact ⟨left, by simp, by simp⟩
  | @splits t fs bs us rest task step =>
    rw [step]
    refine ⟨?_, ?_, by simp⟩
    · change Nested (us ++ rest ++ ctx)
      rw [List.append_assoc]
      exact h.replace (task.unfolds consumed).2 (Nested.of_splits task).2
    · rintro _ _ ⟨⟩
      change Nested (bs ++ rest ++ ctx)
      rw [List.append_assoc]
      exact h.replace (task.unfolds consumed).1 (Nested.of_splits task).1
  | @looks t fs bs rest task step =>
    rw [step]
    refine ⟨h.tail, ?_, by simp⟩
    rintro _ _ ⟨⟩
    -- The branch has only its own tasks before those that wait behind the stream.
    have behind : Nested (t :: ctx) := h.sublist ((List.sublist_append_right rest ctx).cons_cons t)
    exact behind.replace (task.unfolds consumed) (.of_looks task)
  | ends task step =>
    rw [step]
    cases task <;> exact ⟨h.right, by simp, by simp⟩

theorem Feed.nests_next (multiline : Bool) : ∀ {f : Feed}, Nested f.tasks →
    Nests Feed.tasks (f.next multiline)
  | plain s, h => by
    have nested : Nested (s.todo ++ []) := by simpa [tasks] using h
    have hs := Stream.nests_nextFrom multiline s.consumed nested
    rw [next, Stream.next]
    refine ⟨by simpa [tasks] using hs.onward, ?_, ?_⟩
    · intro fs b he
      obtain ⟨b, hb, rfl⟩ := Event.mapBranch_eq_split.mp he
      simpa [tasks] using hs.aside fs b hb
    · intro fs r he
      simpa [tasks] using hs.refer fs r (Event.mapBranch_eq_refer.mp he)
  | rematch s via rest, h => by
    have hs := Stream.nests_nextFrom multiline s.consumed h
    rw [next, Stream.next]
    rcases hn : Stream.nextFrom multiline s.consumed s.todo with ⟨e, t⟩
    rw [hn] at hs
    cases e with
    | done => exact Feed.nests_next multiline h.right
    | stop | abort => exact ⟨(List.pairwise_append.mp hs.onward).1, by simp, by simp⟩
    | consume | start | skip => exact ⟨hs.onward, by simp, by simp⟩
    | split =>
      refine ⟨hs.onward, ?_, by simp⟩
      rintro _ _ ⟨rfl, rfl⟩
      exact hs.aside _ _ rfl
    | refer =>
      refine ⟨hs.onward, by simp, ?_⟩
      rintro _ _ ⟨rfl, rfl⟩
      exact hs.refer _ _ rfl

namespace Resolver

variable {x : Subject}

/-- What is left to do stays nested. -/
theorem nested_next {r r' : Resolver} {e : Event Resolver} (h : Nested r.feed.tasks)
    (hn : r.next x = .ok (e, r')) :
    Nested r'.feed.tasks ∧ ∀ fs b, e = .split fs b → Nested b.feed.tasks := by
  have advance : ∀ {r : Resolver} {e : Event Feed} {feed : Feed}, Nested r.feed.tasks →
      r.feed.next x.multiline = (e, feed) → Nests Feed.tasks (e, feed) :=
    fun h hf => hf ▸ Feed.nests_next x.multiline h
  replace hn := advances_of_next hn
  induction hn with
  | resume => exact ⟨h, by simp⟩
  | split _ hf =>
    refine ⟨(advance h hf).onward, ?_⟩
    rintro _ _ ⟨rfl, rfl⟩
    exact (advance h hf).aside _ _ rfl
  | consume _ hf | start _ hf | skip _ hf | stop _ hf | abort _ hf | done _ hf | replay _ hf =>
    exact ⟨(advance h hf).onward, by simp⟩
  | around => exact ⟨.nil, by simp⟩
  | rematch _ hf =>
    refine ⟨(advance h hf).onward, ?_⟩
    rintro _ _ ⟨rfl, rfl⟩
    exact List.pairwise_cons.mpr ⟨(advance h hf).refer _ _ rfl, (advance h hf).onward⟩
  | nothing _ hf _ _ _ ih => exact ih (advance h hf).onward

theorem nested_step {r r' : Resolver} {e : Event Resolver} (h : Nested r.feed.tasks)
    (hs : Step (step x) r e r') : Nested r'.feed.tasks := by
  cases hs with
  | onward hn _ => exact (nested_next h (step_eq_some.mp hn)).1
  | aside hn => exact (nested_next h (step_eq_some.mp hn)).2 _ _ rfl

end Resolver

/-! ## 2. How many iterations can still begin

The bound is a number `N` that the quantifier will not get to.  It is set once, from all tasks
that wait, and then kept.  An iteration that begins uses up one of the `rounds` that are left.  A
reference that stands for nothing sets the counter of idle iterations back, but it takes one from
`spare`, which is worth two rounds. -/

/-- How many iterations of a quantifier can still begin while nothing is consumed, if as many
references as `spare` can stand for nothing in them and the last `idle` iterations met none. -/
def rounds (spare idle : Nat) : Nat := 2 * spare + (1 - idle) + 1

/-- All iterations of the quantifier among the frames have numbers below `N`. -/
def Frames.Before (q : Quantifier) (N : Nat) (fs : Frames) : Prop :=
  ∀ i ∈ fs.iterations, i.quantifier = q → i.index < N

/-- The quantifier will not get to iteration `N`, as far as this task is concerned. -/
def Task.Stays (q : Quantifier) (N spare consumed : Nat) : Task → Prop
  | .iterate q' _ _ i idle => q' = q → i + rounds spare idle ≤ N
  | .enter q' _ _ i idle => q' = q → i + rounds spare idle ≤ N
  | .leave q' _ _ i mark idle =>
    q' = q → (if consumed = mark then i + rounds spare idle else i + 1 + rounds spare 0) ≤ N
  | _ => True

namespace Task

variable {q : Quantifier} {N spare consumed : Nat} {t : Task}

theorem Stays.mono (h : t.Stays q N (spare + 1) consumed) : t.Stays q N spare consumed := by
  cases t with
  | iterate _ _ _ i idle | enter _ _ _ i idle =>
    intro hq
    have := h hq
    simp only [rounds] at *
    omega
  | leave _ _ _ i mark idle =>
    intro hq
    have := h hq
    simp only [rounds] at *
    split at this <;> simp_all <;> omega
  | _ => trivial

/-- A reference counts as if it consumed, but there is one less to come. -/
theorem Stays.refer (h : t.Stays q N (spare + 1) consumed) :
    t.Stays q N spare (consumed + 1) := by
  cases t with
  | leave _ _ _ i mark idle =>
    intro hq
    have := h hq
    simp only [rounds] at *
    split at this <;> split <;> omega
  | iterate | enter => exact h.mono
  | _ => trivial

variable {q' : Quantifier} {body : Node} {fs : Frames} {i mark idle : Nat}

/-- An iteration that may be entered is one before iteration `N`. -/
theorem Stays.before (h : (enter q' body fs i idle).Stays q N spare consumed)
    (before : fs.Before q N) : Frames.Before q N (Stream.iterationFrame q' i :: fs) := by
  rintro j (_ | ⟨_, hj⟩) hq
  · have room := h hq
    simp only [rounds] at room
    change i < N
    omega
  · exact before j hj hq

/-- At the start of an iteration nothing has been consumed in it. -/
theorem Stays.leave (h : (enter q' body fs i idle).Stays q N spare consumed) :
    (leave q' body fs i consumed idle).Stays q N spare consumed := by
  intro hq
  rw [if_pos rfl]
  exact h hq

/-- After an iteration the next one may begin, unless the quantifier is left. -/
theorem Stays.again (lively : ¬ 2 ≤ idles consumed mark idle)
    (h : (Task.leave q' body fs i mark idle).Stays q N spare consumed) :
    (iterate q' body fs (i + 1) (idles consumed mark idle)).Stays q N spare consumed := by
  intro hq
  have left := h hq
  simp only [idles, rounds] at lively left ⊢
  split at left <;> rename_i hc
  · rw [if_pos hc] at lively ⊢
    omega
  · rw [if_neg hc]
    omega

/-- What a task leaves behind will not get to iteration `N` either. -/
theorem lastingAt_stays (hN : rounds spare 0 ≤ N) :
    LastingAt consumed fun t => t.frames.Before q N ∧ t.Stays q N spare consumed := by
  intro t u unfolds h
  obtain ⟨before, stays⟩ := h
  cases unfolds with
  | iterate => exact ⟨before, fun _ => by omega⟩
  | enter => exact ⟨before, stays⟩
  | body => exact ⟨stays.before before, trivial⟩
  | leave => exact ⟨before, stays.leave⟩
  | again _ _ _ _ lively => exact ⟨before, stays.again lively⟩
  | inside | finish | element | choose | first | others => exact ⟨before, trivial⟩

end Task

/-- The quantifier will not get to iteration `N` with what a stream has left to do. -/
def Stream.Stays (q : Quantifier) (N spare : Nat) (s : Stream) : Prop :=
  ∀ t ∈ s.todo, t.frames.Before q N ∧ t.Stays q N spare s.consumed

/-- After an event that does not consume, the quantifier still does not get to iteration `N`; a
reference takes one from those that may be met. -/
structure Keeps {κ : Type} (q : Quantifier) (N spare : Nat) (stays : Nat → κ → Prop)
    (tasks : κ → List Task) (r : Event κ × κ) : Prop where
  frames : r.1.frames.Before q N
  onward : (∀ fs a via, r.1 ≠ .consume fs a via) → (∀ fs ref, r.1 ≠ .refer fs ref) →
    stays spare r.2
  aside : ∀ fs b, r.1 = .split fs b → stays spare b
  refer : ∀ fs ref, r.1 = .refer fs ref →
    (∀ t ∈ tasks r.2, t.frames.Before q N) ∧ ∀ n, spare = n + 1 → stays n r.2

section Keeps

variable {q : Quantifier} {N spare : Nat}

theorem Frames.before_nil : Frames.Before q N [] := by simp [Frames.Before, Frames.iterations]

theorem Stream.stays_ended : ended.Stays q N spare := by simp [Stays, ended]

theorem Stream.keeps_nextFrom (multiline : Bool) {consumed : Nat} {todo : List Task}
    (hN : rounds spare 0 ≤ N)
    (h : ∀ t ∈ todo, t.frames.Before q N ∧ t.Stays q N spare consumed) :
    Keeps q N spare (Stream.Stays q N) Stream.todo (nextFrom multiline consumed todo) := by
  have shows := shows_nextFrom multiline consumed (Task.lastingAt_stays hN) h
  have counts := counts_nextFrom multiline consumed todo
  refine ⟨?_, fun unfed unmet => ?_, fun fs b he => ?_, fun fs r he => ⟨?_, ?_⟩⟩
  · rcases shows.place with done | ⟨t, ht, place⟩
    · rw [done]
      exact Frames.before_nil
    · exact place ▸ ht.1
  · rcases counts.onward unfed unmet with ended | same
    · rw [ended]
      exact stays_ended
    · rw [Stays, same]
      exact shows.onward
  · rw [Stays, counts.aside he]
    exact shows.aside he
  · exact fun t ht => (shows.onward t ht).1
  · rintro n rfl
    rw [Stays, counts.refer he]
    exact fun t ht => ⟨(shows.onward t ht).1, (shows.onward t ht).2.refer⟩

/-- The quantifier will not get to iteration `N` with what a feed has left to do. -/
def Feed.Stays (q : Quantifier) (N spare : Nat) : Feed → Prop
  | plain s => s.Stays q N spare
  | rematch s _ rest => s.Stays q N spare ∧ rest.Stays q N spare

theorem Feed.Stays.mono : ∀ {f : Feed}, f.Stays q N (spare + 1) → f.Stays q N spare
  | plain _, h => fun t ht => ⟨(h t ht).1, (h t ht).2.mono⟩
  | rematch _ _ _, h => ⟨fun t ht => ⟨(h.1 t ht).1, (h.1 t ht).2.mono⟩, Feed.Stays.mono h.2⟩

theorem Feed.Stays.before : ∀ {f : Feed}, f.Stays q N spare →
    ∀ t ∈ f.tasks, t.frames.Before q N
  | plain _, h => fun t ht => (h t ht).1
  | rematch _ _ _, h =>
    List.forall_mem_append.mpr ⟨fun t ht => (h.1 t ht).1, Feed.Stays.before h.2⟩

/-- If the quantifier is not to go on there is nothing to count. -/
theorem Feed.stays_of_free : ∀ {f : Feed}, (∀ t ∈ f.tasks, t.frames.Before q N) →
    (∀ t ∈ f.tasks, t.loop? ≠ some q) → f.Stays q N spare := by
  have free : ∀ {t : Task} {n : Nat}, t.loop? ≠ some q → t.Stays q N spare n := by
    intro t n ht
    cases t <;> simp_all [Task.loop?, Task.Stays]
  intro f
  induction f with
  | plain s => exact fun before none t ht => ⟨before t ht, free (none t ht)⟩
  | rematch s via rest ih =>
    intro before none
    obtain ⟨before, before'⟩ := List.forall_mem_append.mp before
    obtain ⟨none, none'⟩ := List.forall_mem_append.mp none
    exact ⟨fun t ht => ⟨before t ht, free (none t ht)⟩, ih before' none'⟩

theorem Feed.keeps_next (multiline : Bool) (hN : rounds spare 0 ≤ N) : ∀ {f : Feed},
    f.Stays q N spare → Keeps q N spare (Feed.Stays q N) Feed.tasks (f.next multiline)
  | plain s, h => by
    have hs := Stream.keeps_nextFrom multiline hN h
    rw [next, Stream.next]
    refine ⟨by simpa using hs.frames, fun unfed unmet => hs.onward ?_ ?_, ?_, ?_⟩
    · exact fun fs a via he => unfed fs a via (Event.mapBranch_eq_consume.mpr he)
    · exact fun fs r he => unmet fs r (Event.mapBranch_eq_refer.mpr he)
    · intro fs b he
      obtain ⟨b, hb, rfl⟩ := Event.mapBranch_eq_split.mp he
      exact hs.aside fs b hb
    · exact fun fs r he => hs.refer fs r (Event.mapBranch_eq_refer.mp he)
  | rematch s via rest, h => by
    have hs := Stream.keeps_nextFrom multiline hN h.1
    rw [next, Stream.next]
    rcases hn : Stream.nextFrom multiline s.consumed s.todo with ⟨e, t⟩
    rw [hn] at hs
    cases e with
    | done => exact Feed.keeps_next multiline hN h.2
    | stop | abort => exact ⟨hs.frames, fun _ _ => hs.onward (by simp) (by simp), by simp, by simp⟩
    | consume => exact ⟨hs.frames, by simp, by simp, by simp⟩
    | split =>
      refine ⟨hs.frames, fun _ _ => ⟨hs.onward (by simp) (by simp), h.2⟩, ?_, by simp⟩
      rintro _ _ ⟨rfl, rfl⟩
      exact ⟨hs.aside _ _ rfl, h.2⟩
    | refer =>
      refine ⟨hs.frames, by simp, by simp, ?_⟩
      rintro _ _ ⟨rfl, rfl⟩
      obtain ⟨before, less⟩ := hs.refer _ _ rfl
      refine ⟨List.forall_mem_append.mpr ⟨before, h.2.before⟩, ?_⟩
      rintro n rfl
      exact ⟨less n rfl, h.2.mono⟩
    | start | skip =>
      exact ⟨hs.frames, fun _ _ => ⟨hs.onward (by simp) (by simp), h.2⟩, by simp, by simp⟩

end Keeps

/-! ## 3. Resolvers that meet one reference

If all references met in the quantifier are the same one, it can stand for nothing at most once
more, for the resolver remembers it and gives up when it comes around.  So `spare` is one or zero,
and the bound of the last section applies. -/

/-- The references a resolver comes to before its next event, and where. -/
inductive Meets (x : Subject) : Resolver → Frames → Reference → Prop
  | here {r : Resolver} {g : Feed} {fs : Frames} {ref : Reference} (hp : r.pending = [])
    (h : r.feed.next x.multiline = (.refer fs ref, g)) : Meets x r fs ref
  /-- One that stands for nothing is passed over. -/
  | later {r : Resolver} {g : Feed} {fs fs' : Frames} {ref ref' : Reference} (hp : r.pending = [])
    (h : r.feed.next x.multiline = (.refer fs ref, g))
    (nothing : x.resolve (r.captures.invalidate fs) fs ref = .ok .nothing)
    (fresh : r.comesAround fs ref = false)
    (rest : Meets x (r.pass g fs ref) fs' ref') : Meets x r fs' ref'

namespace Resolver

variable {x : Subject} {q : Quantifier} {N : Nat} {ref : Reference}

/-- How often a reference in a quantifier can stand for nothing while nothing is consumed. -/
def spare (ref : Reference) (r : Resolver) : Nat :=
  if r.lastEmpty = some (ref, r.consumed) then 0 else 1

theorem rounds_spare_le (hN : rounds 1 0 ≤ N) (ref : Reference) (r : Resolver) :
    rounds (r.spare ref) 0 ≤ N := by
  unfold spare
  split <;> simp only [rounds] at * <;> omega

/-- What follows a reference that stands for nothing, if it is the only one that is met in the
quantifier. -/
theorem stays_pass (hN : rounds 1 0 ≤ N) {r : Resolver} {g : Feed} {fs : Frames}
    {ref' : Reference} (nested : Nested r.feed.tasks) (h : r.feed.Stays q N (r.spare ref))
    (hf : r.feed.next x.multiline = (.refer fs ref', g))
    (fresh : r.comesAround fs ref' = false)
    (one : q ∈ fs.quantifiers → ref' = ref) :
    g.Stays q N ((r.pass g fs ref').spare ref) := by
  have nests := hf ▸ Feed.nests_next x.multiline nested
  have keeps := hf ▸ Feed.keeps_next x.multiline (rounds_spare_le hN ref r) h
  obtain ⟨before, less⟩ := keeps.refer fs ref' rfl
  by_cases hq : q ∈ fs.quantifiers
  · obtain rfl := one hq
    have repeated : (Frames.iterations fs).isEmpty = false := by
      cases hi : Frames.iterations fs with
      | nil => simp [Frames.quantifiers, hi] at hq
      | cons => rfl
    have unspent : r.lastEmpty ≠ some (ref', r.consumed) := by
      simpa [comesAround, repeated] using fresh
    have spent : (r.pass g fs ref').spare ref' = 0 := by simp [spare, pass, repeated]
    rw [spent]
    exact less 0 (by simp [spare, unspent])
  · refine Feed.stays_of_free before fun t ht hl => hq ?_
    exact nests.refer fs ref' rfl t ht q hl

/-- **A step that consumes nothing does not bring the quantifier to iteration `N`.**  The feed
does not bring it there by itself, and what a reference is passed over for was counted in
`spare`. -/
theorem stays_next (hN : rounds 1 0 ≤ N) {r r' : Resolver} {e : Event Resolver}
    (nested : Nested r.feed.tasks) (h : r.feed.Stays q N (r.spare ref))
    (one : ∀ fs ref', Meets x r fs ref' → q ∈ fs.quantifiers → ref' = ref)
    (hn : r.next x = .ok (e, r')) (unfed : ∀ fs a via, e ≠ .consume fs a via)
    (live : e.isTerminal = false) :
    e.frames.Before q N ∧ r'.feed.Stays q N (r'.spare ref) ∧
      ∀ fs b, e = .split fs b → b.feed.Stays q N (b.spare ref) := by
  have keeps : ∀ {r : Resolver} {e : Event Feed} {g : Feed}, r.feed.Stays q N (r.spare ref) →
      r.feed.next x.multiline = (e, g) →
      Keeps q N (r.spare ref) (Feed.Stays q N) Feed.tasks (e, g) :=
    fun {r} _ _ h hf => hf ▸ Feed.keeps_next x.multiline (rounds_spare_le hN ref r) h
  replace hn := advances_of_next hn
  induction hn with
  | resume | consume | replay => exact absurd rfl (unfed _ _ _)
  | split _ hf =>
    have hk := keeps h hf
    refine ⟨hk.frames, hk.onward (by simp) (by simp), ?_⟩
    rintro _ _ ⟨rfl, rfl⟩
    exact hk.aside _ _ rfl
  | start _ hf | skip _ hf =>
    exact ⟨(keeps h hf).frames, (keeps h hf).onward (by simp) (by simp), by simp⟩
  | stop | abort | done | around => simp [Event.isTerminal] at live
  | rematch hp hf _ fresh =>
    have after := stays_pass hN nested h hf fresh (one _ _ (.here hp hf))
    refine ⟨(keeps h hf).frames, after, ?_⟩
    rintro _ _ ⟨rfl, rfl⟩
    refine ⟨?_, after⟩
    simp only [Stream.Stays, Stream.ofBody, List.mem_singleton, forall_eq]
    exact ⟨(keeps h hf).frames, trivial⟩
  | nothing hp hf hr fresh _ ih =>
    have nests := hf ▸ Feed.nests_next x.multiline nested
    refine ih nests.onward (stays_pass hN nested h hf fresh (one _ _ (.here hp hf))) ?_ unfed live
    exact fun fs' ref' meets => one fs' ref' (.later hp hf hr fresh meets)

end Resolver

/-! ## 4. Endless loops

An endless run that idles gets beyond any bound.  If it met a single reference from some time on,
it would have a bound from then on, so it meets another one, and again after that. -/

/-- A run that goes on forever. -/
structure EndlessRun {σ : Type} (next : σ → Option (Event σ × σ)) where
  place : Nat → σ
  event : Nat → Event σ
  step : ∀ k, Step next (place k) (event k) (place (k + 1))

/-- From some time on the run consumes nothing, and yet gets to iterations of the quantifier with
numbers as high as one likes. -/
def EndlessRun.IdlesIn {σ : Type} {next : σ → Option (Event σ × σ)} (run : EndlessRun next)
    (q : Quantifier) : Prop :=
  ∃ k₀, (∀ k ≥ k₀, ∀ fs a via, run.event k ≠ .consume fs a via) ∧
    ∀ N, ∃ k ≥ k₀, ∃ i ∈ Frames.iterations (run.event k).frames, i.quantifier = q ∧ N ≤ i.index

section Bounds

variable {q : Quantifier}

theorem Frames.exists_before (fs : Frames) : ∃ N, ∀ M ≥ N, fs.Before q M := by
  unfold Before
  induction fs.iterations with
  | nil => exact ⟨0, by simp⟩
  | cons i is ih =>
    obtain ⟨N, h⟩ := ih
    refine ⟨max N (i.index + 1), fun M hM => ?_⟩
    refine List.forall_mem_cons.mpr ⟨fun _ => by omega, h M (by omega)⟩

theorem Task.exists_stays (t : Task) (spare consumed : Nat) :
    ∃ N, ∀ M ≥ N, t.Stays q M spare consumed := by
  cases t with
  | iterate _ _ _ i idle | enter _ _ _ i idle =>
    exact ⟨i + rounds spare idle, fun M hM _ => hM⟩
  | leave _ _ _ i mark idle =>
    exact ⟨if consumed = mark then i + rounds spare idle else i + 1 + rounds spare 0,
      fun M hM _ => hM⟩
  | _ => exact ⟨0, fun _ _ => trivial⟩

theorem Stream.exists_stays (s : Stream) (spare : Nat) : ∃ N, ∀ M ≥ N, s.Stays q M spare := by
  unfold Stays
  induction s.todo with
  | nil => exact ⟨0, by simp⟩
  | cons t ts ih =>
    obtain ⟨L, hL⟩ := ih
    obtain ⟨M, hM⟩ := t.frames.exists_before (q := q)
    obtain ⟨N, hN⟩ := t.exists_stays (q := q) spare s.consumed
    refine ⟨max L (max M N), fun K hK => ?_⟩
    exact List.forall_mem_cons.mpr ⟨⟨hM K (by omega), hN K (by omega)⟩, hL K (by omega)⟩

theorem Feed.exists_stays (f : Feed) (spare : Nat) : ∃ N, ∀ M ≥ N, f.Stays q M spare := by
  induction f with
  | plain s => exact s.exists_stays spare
  | rematch s via rest ih =>
    obtain ⟨L, hL⟩ := ih
    obtain ⟨N, hN⟩ := s.exists_stays (q := q) spare
    exact ⟨max L N, fun M hM => ⟨hN M (by omega), hL M (by omega)⟩⟩

theorem EndlessRun.exists_before {σ : Type} {next : σ → Option (Event σ × σ)}
    (run : EndlessRun next) (m : Nat) : ∃ N, ∀ k < m, (run.event k).frames.Before q N := by
  induction m with
  | zero => exact ⟨0, by simp⟩
  | succ m ih =>
    obtain ⟨L, hL⟩ := ih
    obtain ⟨N, hN⟩ := (run.event m).frames.exists_before (q := q)
    refine ⟨max L N, fun k hk i hi hq => ?_⟩
    rcases Nat.lt_succ_iff_lt_or_eq.mp hk with hk | rfl
    · exact Nat.lt_of_lt_of_le (hL k hk i hi hq) (Nat.le_max_left L N)
    · exact Nat.lt_of_lt_of_le (hN N (Nat.le_refl N) i hi hq) (Nat.le_max_right L N)

end Bounds

namespace Resolver

theorem stays_step {x : Subject} {q : Quantifier} {N : Nat} {ref : Reference}
    (hN : rounds 1 0 ≤ N) {r r' : Resolver} {e : Event Resolver}
    (nested : Nested r.feed.tasks) (h : r.feed.Stays q N (r.spare ref))
    (one : ∀ fs ref', Meets x r fs ref' → q ∈ fs.quantifiers → ref' = ref)
    (hs : Step (step x) r e r') (unfed : ∀ fs a via, e ≠ .consume fs a via) :
    e.frames.Before q N ∧ r'.feed.Stays q N (r'.spare ref) := by
  cases hs with
  | onward hn he =>
    obtain ⟨frames, onward, -⟩ := stays_next hN nested h one (step_eq_some.mp hn) unfed he
    exact ⟨frames, onward⟩
  | aside hn =>
    obtain ⟨frames, -, aside⟩ := stays_next hN nested h one (step_eq_some.mp hn) unfed rfl
    exact ⟨frames, aside _ _ rfl⟩

/-- A run from the start keeps its tasks nested. -/
theorem nested_place {p : Pattern} {run : EndlessRun (step (Subject.ofPattern p))}
    (start : run.place 0 = ofPattern p) (k : Nat) : Nested (run.place k).feed.tasks := by
  induction k with
  | zero =>
    rw [start]
    simp [ofPattern, ofStream, Feed.tasks, Stream.ofNode, Nested, Task.Around, Task.loop?]
  | succ k ih => exact nested_step ih (run.step k)

/-- From `k` on the run meets no other reference than `ref` in iterations of the quantifier. -/
def MeetsOnly {x : Subject} (run : EndlessRun (step x)) (q : Quantifier) (ref : Reference)
    (k : Nat) : Prop :=
  ∀ j ≥ k, ∀ fs ref', Meets x (run.place j) fs ref' → q ∈ fs.quantifiers → ref' = ref

/-- While a run consumes nothing and meets a single reference in iterations of the quantifier, it
does not bring the quantifier to iteration `N`. -/
theorem stays_place {x : Subject} {run : EndlessRun (step x)} {q : Quantifier} {ref : Reference}
    {N k : Nat} (hN : rounds 1 0 ≤ N) (nested : ∀ j, Nested (run.place j).feed.tasks)
    (one : MeetsOnly run q ref k) (unfed : ∀ j ≥ k, ∀ fs a via, run.event j ≠ .consume fs a via)
    (h : (run.place k).feed.Stays q N ((run.place k).spare ref)) {j : Nat} (hj : k ≤ j) :
    (run.event j).frames.Before q N ∧ (run.place j).feed.Stays q N ((run.place j).spare ref) := by
  have step : ∀ {j}, k ≤ j → (run.place j).feed.Stays q N ((run.place j).spare ref) →
      (run.event j).frames.Before q N ∧
        (run.place (j + 1)).feed.Stays q N ((run.place (j + 1)).spare ref) :=
    fun hj hs => stays_step hN (nested _) hs (one _ hj) (run.step _) (unfed _ hj)
  have stays : (run.place j).feed.Stays q N ((run.place j).spare ref) := by
    induction j, hj using Nat.le_induction with
    | base => exact h
    | succ j hj ih => exact (step hj ih).2
  exact ⟨(step hj stays).1, stays⟩

/-- **A loop that meets a single reference ends**, unless something is consumed in it.  The bound
is set at the place from which on nothing is consumed, and `stays_place` keeps it ever after. -/
theorem not_idlesIn {p : Pattern} {run : EndlessRun (step (Subject.ofPattern p))}
    (start : run.place 0 = ofPattern p) {q : Quantifier} {ref : Reference} {k : Nat}
    (one : MeetsOnly run q ref k) : ¬ run.IdlesIn q := by
  rintro ⟨k₀, unfed, more⟩
  let m := max k k₀
  obtain ⟨L, low⟩ := run.exists_before (q := q) m
  obtain ⟨M, stays⟩ := (run.place m).feed.exists_stays (q := q) ((run.place m).spare ref)
  let N := max L (max M (rounds 1 0))
  obtain ⟨j, hj, i, hi, hq, hle⟩ := more N
  have before : i.index < N := by
    by_cases hjm : j < m
    · exact Nat.lt_of_lt_of_le (low j hjm i hi hq) (Nat.le_max_left _ _)
    · have here := stays_place (N := N) (by omega) (nested_place start)
        (fun j hj => one j (by omega)) (fun j hj => unfed j (by omega)) (stays N (by omega))
        (Nat.le_of_not_lt hjm)
      exact here.1 i hi hq
  exact Nat.not_le_of_lt before hle

/-- **References take turns in every loop without end.**  A run that goes through more and more
iterations of a quantifier without consuming anything meets two different references in them,
again and again. -/
theorem references_alternate {p : Pattern} (run : EndlessRun (step (Subject.ofPattern p)))
    (start : run.place 0 = ofPattern p) {q : Quantifier} (idles : run.IdlesIn q) (k : Nat) :
    ∃ j ≥ k, ∃ j' ≥ k, ∃ fs ref fs' ref', Meets (.ofPattern p) (run.place j) fs ref ∧
      q ∈ fs.quantifiers ∧ Meets (.ofPattern p) (run.place j') fs' ref' ∧ q ∈ fs'.quantifiers ∧
      ref ≠ ref' := by
  by_contra single
  obtain ⟨ref, one⟩ : ∃ ref, MeetsOnly run q ref k := by
    by_cases met : ∃ j ≥ k, ∃ fs ref, Meets (.ofPattern p) (run.place j) fs ref ∧
        q ∈ fs.quantifiers
    · obtain ⟨j, hj, fs, ref, hm, hq⟩ := met
      refine ⟨ref, fun j' hj' fs' ref' hm' hq' => ?_⟩
      by_contra ne
      exact single ⟨j', hj', j, hj, fs', ref', fs, ref, hm', hq', hm, hq, ne⟩
    · exact ⟨⟨⟨0, 0, 0⟩, 0, []⟩, fun j hj fs ref hm hq => absurd ⟨j, hj, fs, ref, hm, hq⟩ met⟩
  exact not_idlesIn start one idles

end Resolver

/-! ## 5. Two references that take turns

That the exception is real takes a run that never ends, and it is built by going to and fro
between two families of places, one for each half of an iteration. -/

namespace EndlessRun

variable {σ : Type} {next : σ → Option (Event σ × σ)}

/-- The run with a step before it. -/
def cons (run : EndlessRun next) {s : σ} {e : Event σ} (h : Step next s e (run.place 0)) :
    EndlessRun next where
  place
    | 0 => s
    | k + 1 => run.place k
  event
    | 0 => e
    | k + 1 => run.event k
  step k := by
    cases k with
    | zero => exact h
    | succ k => exact run.step k

/-- The run that goes to and fro between two sequences of places. -/
def alternating {s t : Nat → σ} {e f : Nat → Event σ} (fore : ∀ i, Step next (s i) (e i) (t i))
    (back : ∀ i, Step next (t i) (f i) (s (i + 1))) : EndlessRun next where
  place k := if k % 2 = 0 then s (k / 2) else t (k / 2)
  event k := if k % 2 = 0 then e (k / 2) else f (k / 2)
  step k := by
    rcases Nat.mod_two_eq_zero_or_one k with hk | hk
    · have : (k + 1) / 2 = k / 2 := by omega
      simpa [hk, show (k + 1) % 2 = 1 by omega, this] using fore (k / 2)
    · have : (k + 1) / 2 = k / 2 + 1 := by omega
      simpa [hk, show (k + 1) % 2 = 0 by omega, this] using back (k / 2)

end EndlessRun

/-- Two references next to each other. -/
def Node.pair (g : Group) (s : Site) (first second : Reference) : Node :=
  .group g (.sequence s [.reference first, .reference second])

namespace Resolver

variable {q : Quantifier} {g : Group} {s s' : Site} {first second : Reference}

/-- Before iteration `i` of a loop over references that stand for nothing, `last` the last. -/
def turn (q : Quantifier) (body : Node) (last : Reference) (rest : List Task) (i : Nat) :
    Resolver :=
  { ofFeed (.plain ⟨.enter q body [] i 0 :: rest, 2 * i⟩) with
    lastEmpty := if i = 0 then none else some (last, 0) }

/-- In iteration `i` of the loop. -/
def turning (q : Quantifier) (body : Node) (last : Reference) (rest : List Task) (i : Nat) :
    Resolver :=
  { ofFeed (.plain ⟨.visit body [Stream.iterationFrame q i] :: .leave q body [] i (2 * i) 0 :: rest,
      2 * i⟩) with
    lastEmpty := if i = 0 then none else some (last, 0) }

theorem step_turn (x : Subject) (q : Quantifier) (body : Node) (last : Reference)
    (rest : List Task) (i : Nat) :
    Step (step x) (turn q body last rest i) (.skip [Stream.iterationFrame q i])
      (turning q body last rest i) := by
  refine .onward (step_eq_some.mpr ?_) rfl
  exact next_of_feed (e := .skip [Stream.iterationFrame q i]) rfl
    (by simp [turn, ofFeed, Feed.next, Stream.next, Stream.nextFrom, Event.mapBranch])
    (by simp) (by simp)

/-- Both references are passed over, and the next iteration is offered. -/
theorem step_turning {x : Subject} (hmin : q.count.min = 0) (hmax : q.count.max = none)
    (hg : g.kind = .nonCapture) (ne : first ≠ second)
    (nothing : ∀ i, ∀ r ∈ [first, second],
      x.resolve [] [.group g, Stream.iterationFrame q i] r = .ok .nothing)
    (rest : List Task) (i : Nat) :
    Step (step x) (turning q (.pair g s first second) second rest i)
      (.split [] (turn q (.pair g s first second) second rest (i + 1)))
      (turn q (.pair g s first second) second rest (i + 1)) := by
  have look : g.isLookaround = false := by simp [Group.isLookaround, hg, GroupKind.isLookaround]
  let r := turning q (.pair g s first second) second rest i
  let fs : Frames := [.group g, Stream.iterationFrame q i]
  let leave : Task := .leave q (.pair g s first second) [] i (2 * i) 0
  let between : Feed := .plain ⟨.visit (.reference second) fs :: leave :: rest, 2 * i + 1⟩
  let behind : Feed := .plain ⟨leave :: rest, 2 * i + 2⟩
  have passed : r.next x = (r.pass between fs first).next x :=
    next_of_nothing rfl
      (by simp [r, turning, ofFeed, Feed.next, Stream.next, Stream.nextFrom, Event.mapBranch, look,
        Node.pair, Task.visits, fs, between, leave])
      (nothing i first (by simp)) (by simp [r, comesAround, turning, ofFeed, ne.symm])
  have passed' : (r.pass between fs first).next x =
      ((r.pass between fs first).pass behind fs second).next x :=
    next_of_nothing rfl
      (by simp [pass, between, behind, Feed.next, Stream.next, Stream.nextFrom, Event.mapBranch])
      (nothing i second (by simp))
      (by simp [comesAround, pass, fs, Stream.iterationFrame, Frames.iterations, ne])
  have offered := next_of_feed (x := x) (r := (r.pass between fs first).pass behind fs second)
    (e := .split [] (.plain ⟨.enter q (.pair g s first second) [] (i + 1) 0 :: rest,
      2 * (i + 1)⟩)) (g := .plain ⟨rest, 2 * (i + 1)⟩) rfl
    (by simp [pass, behind, Feed.next, Stream.next, Stream.nextFrom, Event.mapBranch, leave,
      Count.isExhausted, hmin, hmax, Nat.mul_add]) (by simp) (by simp)
  exact .aside (step_eq_some.mpr (passed.trans (passed'.trans offered)))

/-- A pattern that begins with a loop over two references that stand for nothing has a run that
stays in the loop forever. -/
theorem exists_endless_of_pair {p : Pattern} {ns : List Node}
    (root : p.root = .sequence s' (.quantifier q (.pair g s first second) :: ns))
    (hmin : q.count.min = 0) (hmax : q.count.max = none) (hg : g.kind = .nonCapture)
    (ne : first ≠ second) (nothing : ∀ i, ∀ r ∈ [first, second],
      (Subject.ofPattern p).resolve [] [.group g, Stream.iterationFrame q i] r = .ok .nothing) :
    ∃ run : EndlessRun (step (Subject.ofPattern p)), run.place 0 = ofPattern p ∧
      (∀ k fs a via, run.event k ≠ .consume fs a via) ∧
      ∀ i, ∃ k, run.event k = .skip [Stream.iterationFrame q i] := by
  let rest : List Task := Task.visits ns [] ++ [.finish []]
  let body : Node := .pair g s first second
  have enter : Step (step (Subject.ofPattern p)) (ofPattern p) (.skip [])
      (ofFeed (.plain ⟨.iterate q body [] 0 0 :: rest, 0⟩)) := by
    refine .onward (step_eq_some.mpr ?_) rfl
    exact next_of_feed (e := .skip []) rfl
      (by simp [ofPattern, ofStream, Stream.ofNode, root, Feed.next, Stream.next, Stream.nextFrom,
        Event.mapBranch, Task.visits, rest, body]) (by simp) (by simp)
  have offer : Step (step (Subject.ofPattern p))
      (ofFeed (.plain ⟨.iterate q body [] 0 0 :: rest, 0⟩))
      (.split [] (turn q body second rest 0)) (turn q body second rest 0) := by
    refine .aside (step_eq_some.mpr (next_of_feed
      (e := .split [] (.plain ⟨.enter q body [] 0 0 :: rest, 0⟩)) (g := .plain ⟨rest, 0⟩)
      rfl ?_ (by simp) (by simp)))
    simp [ofFeed, Feed.next, Stream.next, Stream.nextFrom, Event.mapBranch, Count.isExhausted,
      hmin, hmax]
  let loop := EndlessRun.alternating (step_turn (Subject.ofPattern p) q body second rest)
    (step_turning hmin hmax hg ne nothing rest)
  refine ⟨(loop.cons offer).cons enter, rfl, ?_, fun i => ⟨2 * i + 2, ?_⟩⟩
  · rintro (_ | _ | k) fs a via
    · simp [EndlessRun.cons]
    · simp [EndlessRun.cons]
    · simp only [EndlessRun.cons, EndlessRun.alternating, loop]
      split <;> simp
  · simp [EndlessRun.cons, EndlessRun.alternating, loop]

/-- **There are loops without end that consume nothing**: in `(?:\1\2)*(a)(b)` both references
stand for nothing, each of them makes the resolver forget the other one, and the stream takes
both for something. -/
theorem exists_idle_loop : ∃ p q, ∃ run : EndlessRun (step (Subject.ofPattern p)),
    Pattern.parse (Bytes.ofString "(?:\\1\\2)*(a)(b)") {} = .ok p ∧ run.place 0 = ofPattern p ∧
      (∀ k fs a via, run.event k ≠ .consume fs a via) ∧
      ∀ i, ∃ k, run.event k = .skip [Stream.iterationFrame q i] := by
  let q : Quantifier := ⟨⟨5, 0, 9⟩, ⟨0, none, false⟩⟩
  let g : Group := ⟨⟨4, 0, 8⟩, .nonCapture, 0, []⟩
  let first : Reference := ⟨⟨1, 3, 5⟩, 1, []⟩
  let second : Reference := ⟨⟨2, 5, 7⟩, 2, []⟩
  let p : Pattern :=
    { source := Bytes.ofString "(?:\\1\\2)*(a)(b)"
      flags := {}
      root := .sequence ⟨10, 0, 15⟩ [.quantifier q (.pair g ⟨3, 3, 7⟩ first second),
        .group ⟨⟨7, 9, 12⟩, .capture, 1, []⟩ (.atom ⟨⟨6, 10, 11⟩, .char 97⟩),
        .group ⟨⟨9, 12, 15⟩, .capture, 2, []⟩ (.atom ⟨⟨8, 13, 14⟩, .char 98⟩)]
      captures := 2 }
  have parsed : Pattern.parse (Bytes.ofString "(?:\\1\\2)*(a)(b)") {} = .ok p := by
    with_unfolding_all rfl
  have nothing : ∀ i, ∀ r ∈ [first, second], (Subject.ofPattern p).resolve []
      [.group g, Stream.iterationFrame q i] r = .ok .nothing := by
    intro i
    simp only [List.forall_mem_cons]
    exact ⟨rfl, rfl, by simp⟩
  obtain ⟨run, start, unfed, turns⟩ :=
    exists_endless_of_pair rfl rfl rfl rfl (by decide) nothing
  exact ⟨p, q, run, parsed, start, unfed, turns⟩

/-- In `(?:\2\1)*?(a)(b)` the two references take turns forever. -/
theorem references_alternate_in_pair : ∃ p q, ∃ run : EndlessRun (step (Subject.ofPattern p)),
    Pattern.parse (Bytes.ofString "(?:\\2\\1)*?(a)(b)") {} = .ok p ∧ run.place 0 = ofPattern p ∧
      run.IdlesIn q ∧ ∀ k, ∃ j ≥ k, ∃ j' ≥ k, ∃ fs ref fs' ref',
        Meets (.ofPattern p) (run.place j) fs ref ∧ q ∈ fs.quantifiers ∧
        Meets (.ofPattern p) (run.place j') fs' ref' ∧ q ∈ fs'.quantifiers ∧ ref ≠ ref' := by
  let q : Quantifier := ⟨⟨5, 0, 10⟩, ⟨0, none, true⟩⟩
  let g : Group := ⟨⟨4, 0, 8⟩, .nonCapture, 0, []⟩
  let first : Reference := ⟨⟨1, 3, 5⟩, 2, []⟩
  let second : Reference := ⟨⟨2, 5, 7⟩, 1, []⟩
  let p : Pattern :=
    { source := Bytes.ofString "(?:\\2\\1)*?(a)(b)"
      flags := {}
      root := .sequence ⟨10, 0, 16⟩ [.quantifier q (.pair g ⟨3, 3, 7⟩ first second),
        .group ⟨⟨7, 10, 13⟩, .capture, 1, []⟩ (.atom ⟨⟨6, 11, 12⟩, .char 97⟩),
        .group ⟨⟨9, 13, 16⟩, .capture, 2, []⟩ (.atom ⟨⟨8, 14, 15⟩, .char 98⟩)]
      captures := 2 }
  have parsed : Pattern.parse (Bytes.ofString "(?:\\2\\1)*?(a)(b)") {} = .ok p := by
    with_unfolding_all rfl
  have nothing : ∀ i, ∀ r ∈ [first, second], (Subject.ofPattern p).resolve []
      [.group g, Stream.iterationFrame q i] r = .ok .nothing := by
    intro i
    simp only [List.forall_mem_cons]
    exact ⟨rfl, rfl, by simp⟩
  obtain ⟨run, start, unfed, turns⟩ :=
    exists_endless_of_pair rfl rfl rfl rfl (by decide) nothing
  have idles : run.IdlesIn q := by
    refine ⟨0, fun k _ => unfed k, fun N => ?_⟩
    obtain ⟨k, hk⟩ := turns N
    refine ⟨k, Nat.zero_le k, ?_⟩
    rw [hk]
    exact ⟨_, List.mem_cons_self, rfl, Nat.le_refl N⟩
  exact ⟨p, q, run, parsed, start, idles, references_alternate run start idles⟩

end Resolver

end Backtrack
