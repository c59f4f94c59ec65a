/-
# What a run shows belongs to the tree

A character that a run consumes is shown with the leaf that consumes it, the frames around the leaf
and the references that it is repeated by.  All of that belongs to the tree of the pattern: leaf and
references are nodes of its index, and each frame is that of some node (`Resolver.Shown`).

Leaf and frames need not belong together.  What is matched again or repeated stands inside of the
frames of the reference, so the frames of a sighting are not those of the nodes above its leaf
(`Frames.Mirror` is about streams only), and each frame is looked at on its own here.

As in `Resolver.From`, the invariant is about all that waits: tasks, bodies that are matched again,
records and what is left of them.
-/
import Backtrack.Proofs.Derivation.Framing
import Backtrack.Proofs.Derivation.Transparent

namespace Backtrack

/-! ## 1. Tasks -/

/-- Each of the frames is that of some node of the tree. -/
def Frames.Rooted (root : Node) (fs : Frames) : Prop := ∀ f ∈ fs, ∃ n, root.Has n ∧ f.Mirrors n

theorem Frames.Rooted.cons {root n : Node} {f : Frame} {fs : Frames} (h : Frames.Rooted root fs)
    (hn : root.Has n) (hf : f.Mirrors n) : Frames.Rooted root (f :: fs) :=
  List.forall_mem_cons.mpr ⟨⟨n, hn, hf⟩, h⟩

/-- The task is about nodes of the tree, inside of frames of the tree. -/
def Task.Rooted (root : Node) : Task → Prop
  | .visit n fs => root.Has n ∧ fs.Rooted root
  | .choose ns fs => (∀ n ∈ ns, root.Has n) ∧ fs.Rooted root
  | .iterate q body fs _ _ => root.Has (.quantifier q body) ∧ fs.Rooted root
  | .enter q body fs i _ =>
    (root.Has (.quantifier q body) ∧ ¬ q.count.isExhausted i) ∧ fs.Rooted root
  | .leave q body fs _ _ _ => root.Has (.quantifier q body) ∧ fs.Rooted root
  | .finish _ => True

theorem Task.lasting_rooted (root : Node) : Lasting (Task.Rooted root) := by
  intro _ t u unfolds h
  cases unfolds with
  | inside g body fs =>
    exact ⟨h.1.child List.mem_cons_self, h.2.cons h.1 (.group g body)⟩
  | element s fs hn => exact ⟨h.1.child hn, h.2⟩
  | choose s ns fs => exact ⟨fun n hn => h.1.child hn, h.2⟩
  | first n ns fs => exact ⟨h.1 n List.mem_cons_self, h.2⟩
  | others n m ns fs => exact ⟨fun k hk => h.1 k (List.mem_cons_of_mem _ hk), h.2⟩
  | enter q body fs idle more => exact ⟨⟨h.1, more⟩, h.2⟩
  | body q body fs i idle =>
    exact ⟨h.1.1.child List.mem_cons_self,
      h.2.cons h.1.1 (Stream.isOf_iterationFrame h.1.2 body)⟩
  | leave => exact ⟨h.1.1, h.2⟩
  | iterate | again => exact h
  | finish => trivial

/-! ## 2. Feeds

A feed puts the references it works for on the events of its bodies.  None is taken up by a step,
so those that are shown are those of the feed. -/

/-- The references on whose behalf a feed matches bodies again. -/
def Feed.vias : Feed → List Reference
  | plain _ => []
  | rematch _ via rest => via :: rest.vias

/-- A step takes no reference up; those of a consuming event are among those of the feed. -/
structure Feed.KeepsVias (f : Feed) (r : Event Feed × Feed) : Prop where
  onward : r.2.vias ⊆ f.vias
  aside : ∀ {fs b}, r.1 = .split fs b → b.vias ⊆ f.vias
  consume : ∀ {fs a via}, r.1 = .consume fs a via → via ⊆ f.vias

theorem Feed.keepsVias_next (multiline : Bool) : ∀ f : Feed, f.KeepsVias (f.next multiline)
  | plain s => by
    rw [next]
    refine ⟨List.Subset.refl _, fun he => ?_, fun he => ?_⟩
    · obtain ⟨b, -, rfl⟩ := Event.mapBranch_eq_split.mp he
      exact List.Subset.refl _
    · rw [Stream.via_nextFrom (Event.mapBranch_eq_consume.mp he)]
      exact List.nil_subset _
  | rematch s via rest => by
    have behind := Feed.keepsVias_next multiline rest
    have more : rest.vias ⊆ (rematch s via rest).vias := List.subset_cons_self ..
    rw [next]
    split
    · exact ⟨fun r hr => more (behind.onward hr), fun he r hr => more (behind.aside he hr),
        fun he r hr => more (behind.consume he hr)⟩
    · exact ⟨List.nil_subset _, by simp, by simp⟩
    · exact ⟨List.nil_subset _, by simp, by simp⟩
    · rename_i fs a older after hn
      have none : older = [] := Stream.via_nextFrom (congrArg Prod.fst hn)
      refine ⟨List.Subset.refl _, by simp, ?_⟩
      rintro _ _ _ ⟨rfl, rfl, rfl⟩
      simp [none, vias]
    · refine ⟨List.Subset.refl _, ?_, by simp⟩
      rintro _ _ ⟨rfl, rfl⟩
      exact List.Subset.refl _
    · exact ⟨List.Subset.refl _, by simp, by simp⟩
    · exact ⟨List.Subset.refl _, by simp, by simp⟩
    · exact ⟨List.Subset.refl _, by simp, by simp⟩

/-- All references are nodes of the tree. -/
def Node.HasReferences (root : Node) (via : List Reference) : Prop :=
  ∀ r ∈ via, root.Has (.reference r)

/-- All that a feed has left to do is about the tree. -/
structure Feed.Rooted (root : Node) (f : Feed) : Prop where
  tasks : ∀ t ∈ f.tasks, t.Rooted root
  vias : root.HasReferences f.vias

/-- A consuming event shows what belongs to the tree, and so does one about a reference; the branch
of a split satisfies `B`. -/
def Event.Rooted {κ : Type} (root : Node) (B : κ → Prop) : Event κ → Prop
  | .consume fs a via => root.Has (.atom a) ∧ fs.Rooted root ∧ root.HasReferences via
  | .refer fs r => root.Has (.reference r) ∧ fs.Rooted root
  | .split _ branch => B branch
  | _ => True

theorem Feed.Rooted.next {root : Node} {f g : Feed} {e : Event Feed} {multiline : Bool}
    (h : f.Rooted root) (hn : f.next multiline = (e, g)) :
    e.Rooted root (Feed.Rooted root) ∧ g.Rooted root := by
  have shows := Feed.shows_next (Task.lasting_rooted root) multiline h.tasks
  have keeps := Feed.keepsVias_next multiline f
  rw [hn] at shows keeps
  refine ⟨?_, shows.onward, fun r hr => h.vias r (keeps.onward hr)⟩
  cases e with
  | consume fs a via =>
    obtain ⟨leaf, frames⟩ := shows.consume rfl
    exact ⟨leaf, frames, fun r hr => h.vias r (keeps.consume rfl hr)⟩
  | refer fs r => exact shows.refer rfl
  | split fs b => exact ⟨shows.aside rfl, fun r hr => h.vias r (keeps.aside rfl hr)⟩
  | _ => trivial

/-! ## 3. Resolvers

As for leaves alone, but a record keeps the references as well, and a repeated character gets one
more: the reference that repeats it, which has just been met in the tree. -/

/-- Leaf and references of a record belong to the tree. -/
def Replay.Rooted (root : Node) (e : Replay) : Prop :=
  root.Has (.atom e.atom) ∧ root.HasReferences e.via

/-- All that a resolver still has to do with belongs to the tree. -/
structure Resolver.Rooted (root : Node) (r : Resolver) : Prop where
  feed : r.feed.Rooted root
  captures : r.captures.All (Replay.Rooted root)
  pending : ∀ e ∈ r.pending, e.Rooted root
  frames : r.pendingFrames.Rooted root

namespace Resolver

variable {root : Node}

theorem rooted_ofPattern (p : Pattern) : (ofPattern p).Rooted p.root where
  feed := by
    refine ⟨List.forall_mem_cons.mpr ⟨⟨Node.has_root p.root, by simp [Frames.Rooted]⟩, ?_⟩,
      by simp [ofPattern, ofStream, Feed.vias, Node.HasReferences]⟩
    exact List.forall_mem_singleton.mpr trivial
  captures := by simp [ofPattern, ofStream, Captures.All]
  pending := by simp [ofPattern, ofStream]
  frames := by simp [ofPattern, ofStream, Frames.Rooted]

theorem rooted_ended (root : Node) : ended.Rooted root where
  feed := ⟨by simp [ended, ofStream, Stream.ended, Feed.tasks],
    by simp [ended, ofStream, Feed.vias, Node.HasReferences]⟩
  captures := by simp [ended, ofStream, Captures.All]
  pending := by simp [ended, ofStream]
  frames := by simp [ended, ofStream, Frames.Rooted]

theorem Rooted.consume {r : Resolver} (h : r.Rooted root) (fs : Frames) {entry : Replay}
    (he : entry.Rooted root) : (r.consume fs entry).2.Rooted root :=
  ⟨h.feed, Captures.All.recordIn he (h.captures.invalidate fs), h.pending, h.frames⟩

/-- What a reference repeats belongs to the tree, as the reference does. -/
theorem rooted_of_resolve_replay {x : Subject} {cs : Captures} {fs : Frames} {ref : Reference}
    {first : Replay} {rest : List Replay} (h : cs.All (Replay.Rooted root))
    (href : root.Has (.reference ref)) (hr : x.resolve cs fs ref = .ok (.replay first rest)) :
    ∀ e ∈ first :: rest, e.Rooted root := by
  obtain ⟨c, hc, entries⟩ := exists_of_resolve_replay hr
  rw [entries]
  intro e he
  obtain ⟨e₀, he₀, rfl⟩ := List.mem_map.mp he
  obtain ⟨leaf, via⟩ := h.get? hc e₀ he₀
  exact ⟨leaf, List.forall_mem_append.mpr ⟨via, List.forall_mem_singleton.mpr href⟩⟩

/-- What a reference matches again is the body of a group of the tree. -/
theorem has_of_resolve_rematch {multiline : Bool} {cs : Captures} {fs : Frames} {ref : Reference}
    {body : Node} (hr : Subject.resolve ⟨Index.ofNode root, multiline⟩ cs fs ref =
      .ok (.rematch body)) : root.Has body := by
  unfold Subject.resolve at hr
  split at hr
  · simp at hr
  split at hr
  · simp at hr
  rename_i g body' hg
  have group : root.Has (.group g body') :=
    Node.has_of_mem (Index.mem_of_group? hg).1 (by simp)
  dsimp only at hr
  split at hr
  · simp at hr
  split at hr
  · simp at hr
  split at hr
  · split at hr
    · obtain rfl : body' = body := by simpa using hr
      exact group.child List.mem_cons_self
    · simp at hr
  · split at hr <;> simp at hr

/-- **One step of a resolver shows what belongs to the tree.**  As for `From.next`, but frames and
references are followed as well as leaves. -/
theorem Rooted.next {multiline : Bool} {r r' : Resolver} {e : Event Resolver}
    (h : r.Rooted root) (hn : r.next ⟨Index.ofNode root, multiline⟩ = .ok (e, r')) :
    e.Rooted root (Resolver.Rooted root) ∧ r'.Rooted root := by
  replace hn := advances_of_next hn
  induction hn with
  | @resume r entry rest waits =>
    have pending := h.pending
    rw [waits, List.forall_mem_cons] at pending
    have left : Rooted root { r with pending := rest } :=
      ⟨h.feed, h.captures, pending.2, h.frames⟩
    exact ⟨⟨pending.1.1, h.frames, pending.1.2⟩, left.consume _ pending.1⟩
  | @consume r g fs a via _ hf =>
    obtain ⟨he, hg⟩ := h.feed.next hf
    have left : Rooted root (r.moved g fs) :=
      ⟨hg, h.captures.invalidate _, h.pending, h.frames⟩
    have leaf : Replay.Rooted root ⟨a, via⟩ := ⟨he.1, he.2.2⟩
    exact ⟨he, left.consume fs leaf⟩
  | split _ hf =>
    obtain ⟨he, hg⟩ := h.feed.next hf
    exact ⟨⟨he, h.captures.invalidate _, h.pending, h.frames⟩,
      hg, h.captures.invalidate _, h.pending, h.frames⟩
  | start _ hf | skip _ hf | stop _ hf | abort _ hf | done _ hf =>
    exact ⟨trivial, (h.feed.next hf).2, h.captures.invalidate _, h.pending, h.frames⟩
  | @replay r g fs ref first rest _ hf hr =>
    obtain ⟨⟨href, frames⟩, hg⟩ := h.feed.next hf
    obtain ⟨hfirst, hrest⟩ := List.forall_mem_cons.mp
      (rooted_of_resolve_replay (h.captures.invalidate fs) href hr)
    have left : Rooted root { r.moved g fs with pending := rest, pendingFrames := fs } :=
      ⟨hg, h.captures.invalidate _, hrest, frames⟩
    exact ⟨⟨hfirst.1, frames, hfirst.2⟩, left.consume fs hfirst⟩
  | around => exact ⟨trivial, rooted_ended root⟩
  | @rematch r g fs ref body _ hf hr =>
    obtain ⟨⟨href, frames⟩, hg⟩ := h.feed.next hf
    have again : Feed.Rooted root (.rematch (Stream.ofBody body fs) ref g) :=
      ⟨List.forall_mem_cons.mpr ⟨⟨has_of_resolve_rematch hr, frames⟩, hg.tasks⟩,
        List.forall_mem_cons.mpr ⟨href, hg.vias⟩⟩
    exact ⟨⟨again, h.captures.invalidate _, h.pending, h.frames⟩,
      hg, h.captures.invalidate _, h.pending, h.frames⟩
  | nothing _ hf _ _ _ ih =>
    exact ih ⟨(h.feed.next hf).2, h.captures.invalidate _, h.pending, h.frames⟩

/-! ## 4. Runs -/

/-- What a sighting shows belongs to the tree. -/
structure Shown (root : Node) (s : Sighting) : Prop where
  atom : root.Has (.atom s.atom)
  frames : s.frames.Rooted root
  via : root.HasReferences s.via

theorem shown_of_rooted {es : Trace} {starts : Nat}
    (h : ∀ e ∈ es, e.1.Rooted root (Resolver.Rooted root)) :
    ∀ s ∈ sightings starts es, Shown root s := by
  fun_induction sightings starts es with
  | case1 => simp
  | case2 starts fs a via r es ih =>
    obtain ⟨⟨leaf, frames, via⟩, later⟩ := List.forall_mem_cons.mp h
    exact List.forall_mem_cons.mpr ⟨⟨leaf, frames, via⟩, ih later⟩
  | case3 _ _ _ _ ih => exact ih (List.forall_mem_cons.mp h).2
  | case4 _ _ _ _ _ ih => exact ih (List.forall_mem_cons.mp h).2

/-- All that is met along a run, and all that waits at its end, belongs to the tree. -/
theorem rooted_of_run {p : Pattern} {es : Trace} {r : Resolver}
    (h : Run (step (Subject.ofPattern p)) (ofPattern p) es r) :
    (∀ e ∈ es, e.1.Rooted p.root (Rooted p.root)) ∧ r.Rooted p.root := by
  have along := h.invariant (P := Rooted p.root) (Q := Event.Rooted p.root (Rooted p.root))
    (fun {s e t} hs hstep => by
      cases hstep with
      | onward hn _ => exact hs.next (step_eq_some.mp hn)
      | aside hn =>
        obtain ⟨hb, -⟩ := hs.next (step_eq_some.mp hn)
        exact ⟨hb, hb⟩)
    (rooted_ofPattern p)
  exact ⟨fun e he => (along.1 e he).1, along.2⟩

/-- **All that a run shows of the characters it consumes belongs to the tree.** -/
theorem shown_of_run {p : Pattern} {es : Trace} {r : Resolver} {starts : Nat}
    (h : Run (step (Subject.ofPattern p)) (ofPattern p) es r) :
    ∀ s ∈ sightings starts es, Shown p.root s :=
  shown_of_rooted (rooted_of_run h).1

end Resolver

end Backtrack
