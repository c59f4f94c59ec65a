/-
# Where the characters of a run come from

Every character a run consumes is consumed by a leaf of the tree, no matter how it came to be
consumed: met on the way, recorded by a capture group and repeated by a reference, or matched
again on behalf of a reference.

The statement about runs, `mem_walk_of_mem_sightings`, follows from one about places: all nodes
that wait in the tasks of a stream, in the bodies that are matched again, and in the records of
the capture groups are `Below` the root.
-/
import Backtrack.Proofs.Derivation.Runs
import Backtrack.Proofs.Derivation.Unfolding
import Backtrack.Proofs.Pattern.Children

namespace Backtrack

/-! ## 1. Nodes below a root

Below means part of the tree with all that is below it, so that it is handed down to the children
without another look at the tree.  Bodies that are looked up by the number of their group are
found in the index, and they are below the root as well. -/

/-- All of the node is part of the tree. -/
def Node.Below (root n : Node) : Prop := ∀ m ∈ n.walk, m ∈ root.walk

namespace Node

variable {root : Node}

theorem Below.refl (root : Node) : root.Below root := fun _ h => h

theorem Below.mem {n : Node} (h : root.Below n) : n ∈ root.walk := h n n.mem_walk_self

/-- What is below the root has its children there. -/
theorem Below.child {n m : Node} (h : root.Below n) (hm : m ∈ n.children) : root.Below m :=
  fun k hk => h k (walk_subset_of_mem_children hm hk)

theorem Below.group {g : Group} {body : Node} (h : root.Below (.group g body)) :
    root.Below body := h.child List.mem_cons_self

theorem Below.quantifier {q : Quantifier} {body : Node} (h : root.Below (.quantifier q body)) :
    root.Below body := h.child List.mem_cons_self

theorem Below.sequence {s : Site} {ns : List Node} (h : root.Below (.sequence s ns)) :
    ∀ n ∈ ns, root.Below n := fun _ hn => h.child hn

theorem Below.alternation {s : Site} {ns : List Node} (h : root.Below (.alternation s ns)) :
    ∀ n ∈ ns, root.Below n := fun _ hn => h.child hn

/-- The nodes of the index are below the root. -/
theorem below_of_mem_placed {p : Placed} (n : Node) : ∀ {enclosing : List Node},
    root.Below n → p ∈ n.placed enclosing → root.Below p.node := by
  induction n using induction_children with
  | step n ih =>
    intro enclosing h hp
    rcases mem_placed.mp hp with rfl | ⟨m, hm, hp⟩
    · exact h
    · exact ih m hm (h.child hm) hp

/-- All of a node of the tree is part of the tree. -/
theorem below_of_mem {n : Node} (h : n ∈ root.walk) : root.Below n := by
  have hn := h
  rw [walk_eq_flatMap root [], List.mem_flatMap] at hn
  obtain ⟨p, hp, hn⟩ := hn
  rcases List.mem_cons.mp hn with rfl | member
  · exact below_of_mem_placed root (Below.refl root) hp
  · intro m hm
    rw [walk_of_mem_members member, List.mem_singleton] at hm
    exact hm ▸ h

end Node

/-- The body of a capture group that is looked up is below the root. -/
theorem Index.below_of_group? {root : Node} {i : Nat} {g : Group} {body : Node}
    (h : (Index.ofNode root).group? i = some (g, body)) : root.Below body := by
  obtain ⟨p, hp, hg⟩ := List.exists_of_findSome?_eq_some h
  have below := Node.below_of_mem_placed root (Node.Below.refl root) hp
  split at hg
  · rename_i g' body' hn
    rw [hn] at below
    split at hg
    · obtain ⟨rfl, rfl⟩ := Prod.mk.inj (Option.some.inj hg)
      exact below.group
    · simp at hg
  · simp at hg

/-! ## 2. Tasks and feeds

A task is only ever about parts of the node that the one before it was about. -/

/-- The nodes a task is about are below the root. -/
def Task.From (root : Node) : Task → Prop
  | .visit n _ => root.Below n
  | .choose ns _ => ∀ n ∈ ns, root.Below n
  | .iterate _ body _ _ _ => root.Below body
  | .enter _ body _ _ _ => root.Below body
  | .leave _ body _ _ _ _ => root.Below body
  | .finish _ => True

/-- The nodes that what is left to do is about are below the root. -/
def Feed.From (root : Node) (f : Feed) : Prop := ∀ t ∈ f.tasks, t.From root

/-- A consuming event has its leaf from the tree, and the branch of a split satisfies `B`. -/
def Event.From {κ : Type} (root : Node) (B : κ → Prop) : Event κ → Prop
  | .consume _ a _ => .atom a ∈ root.walk
  | .split _ branch => B branch
  | _ => True

/-- What a task leaves behind is about nodes below the node that the task is about. -/
theorem Task.lasting_from (root : Node) : Lasting (Task.From root) := by
  intro _ t u unfolds h
  cases unfolds with
  | inside g body fs => exact Node.Below.group h
  | iterate q body fs => exact Node.Below.quantifier h
  | element s fs hn => exact Node.Below.sequence h _ hn
  | choose s ns fs => exact Node.Below.alternation h
  | first n ns fs => exact h n List.mem_cons_self
  | others n m ns fs => exact fun k hk => h k (List.mem_cons_of_mem _ hk)
  | finish => trivial
  | enter | body | leave | again => exact h

/-- **One step of a feed consumes with leaves of the tree only.** -/
theorem Feed.from_next {root : Node} (multiline : Bool) {f : Feed} (h : f.From root) :
    (f.next multiline).1.From root (Feed.From root) ∧ (f.next multiline).2.From root := by
  have shows := Feed.shows_next (Task.lasting_from root) multiline h
  refine ⟨?_, shows.onward⟩
  cases he : (f.next multiline).1 with
  | consume fs a via => exact (shows.consume he).mem
  | split fs branch => exact shows.aside he
  | _ => trivial

/-! ## 3. Resolvers

Besides tasks a resolver keeps records.  They are made of characters that have been consumed, so
they come from the tree if all before them did, and what a reference repeats comes from them. -/

/-- All records of capture groups have a property. -/
def Captures.All (P : Replay → Prop) (cs : Captures) : Prop := ∀ c ∈ cs, ∀ e ∈ c.2.entries, P e

namespace Captures

variable {P : Replay → Prop} {cs : Captures}

theorem All.get? (h : cs.All P) {i : Nat} {c : Capture} (hc : cs.get? i = some c) :
    ∀ e ∈ c.entries, P e := by
  unfold Captures.get? at hc
  induction cs with
  | nil => simp at hc
  | cons d cs ih =>
    rw [List.lookup_cons] at hc
    obtain ⟨hd, hcs⟩ := List.forall_mem_cons.mp h
    split at hc
    · obtain rfl := Option.some.inj hc
      exact hd
    · exact ih hcs hc

theorem All.invalidate (h : cs.All P) (fs : Frames) : (cs.invalidate fs).All P :=
  fun c hc => h c (List.mem_filter.mp hc).1

theorem All.set (h : cs.All P) (i : Nat) {c : Capture} (hc : ∀ e ∈ c.entries, P e) :
    (cs.set i c).All P :=
  List.forall_mem_cons.mpr ⟨hc, fun d hd => h d (List.mem_filter.mp hd).1⟩

theorem All.extend (h : cs.All P) (i : Nat) (outer : Frames) {entry : Replay} (he : P entry)
    (infinite : Bool) : (cs.extend i outer entry infinite).All P := by
  unfold Captures.extend
  dsimp only
  split
  · rename_i old hold
    refine h.set i ?_
    intro e hm
    rcases List.mem_append.mp hm with hm | hm
    · exact h.get? hold e hm
    · rw [List.mem_singleton.mp hm]
      exact he
  · exact h.set i (by simpa using he)

theorem All.recordIn {entry : Replay} (he : P entry) :
    ∀ {fs : Frames} {unbounded : Bool} {cs : Captures}, cs.All P →
      (Captures.recordIn entry unbounded fs cs).All P
  | [], _, _, h => h
  | .iteration i :: outer, unbounded, cs, h => by
    rw [Captures.recordIn]
    exact All.recordIn he h
  | .group g :: outer, unbounded, cs, h => by
    rw [Captures.recordIn]
    refine All.recordIn he ?_
    split
    · exact h.extend g.index outer he unbounded
    · exact h

end Captures

/-- Recorded characters have their leaves from the tree. -/
def Replay.From (root : Node) (e : Replay) : Prop := .atom e.atom ∈ root.walk

/-- All records of capture groups are of leaves of the tree. -/
def Captures.From (root : Node) (cs : Captures) : Prop :=
  ∀ c ∈ cs, ∀ e ∈ c.2.entries, e.From root

theorem Captures.From.invalidate {root : Node} {cs : Captures} (h : cs.From root) (fs : Frames) :
    (cs.invalidate fs).From root :=
  All.invalidate h fs

/-- All leaves a resolver still has to do with are leaves of the tree. -/
structure Resolver.From (root : Node) (r : Resolver) : Prop where
  feed : r.feed.From root
  captures : r.captures.From root
  pending : ∀ e ∈ r.pending, e.From root

namespace Resolver

/-- At the start there is nothing but the root. -/
theorem from_ofPattern (p : Pattern) : (ofPattern p).From p.root where
  feed := by
    refine List.forall_mem_cons.mpr ⟨?_, List.forall_mem_singleton.mpr trivial⟩
    exact Node.Below.refl p.root
  captures := by simp [ofPattern, ofStream, Captures.From]
  pending := by simp [ofPattern, ofStream]

theorem from_ended (root : Node) : ended.From root where
  feed := List.forall_mem_nil _
  captures := by simp [ended, ofStream, Captures.From]
  pending := by simp [ended, ofStream]

theorem From.consume {root : Node} {r : Resolver} (h : r.From root) (fs : Frames)
    {entry : Replay} (he : entry.From root) : (r.consume fs entry).2.From root :=
  ⟨h.feed, Captures.All.recordIn he (h.captures.invalidate fs), h.pending⟩

/-- What a reference repeats has been recorded for its group. -/
theorem exists_of_resolve_replay {x : Subject} {cs : Captures} {fs : Frames} {ref : Reference}
    {first : Replay} {rest : List Replay} (hr : x.resolve cs fs ref = .ok (.replay first rest)) :
    ∃ c, cs.get? ref.index = some c ∧
      first :: rest = c.entries.map fun e => ⟨e.atom, e.via ++ [ref]⟩ := by
  unfold Subject.resolve at hr
  split at hr
  · simp at hr
  split at hr
  · simp at hr
  dsimp only at hr
  split at hr
  · simp at hr
  split at hr
  · simp at hr
  split at hr
  · split at hr <;> simp at hr
  rename_i hm
  split at hr
  · simp at hr
  obtain ⟨rfl, rfl⟩ : _ = first ∧ _ = rest := by simpa using hr
  cases hc : cs.get? ref.index with
  | none => simp [hc] at hm
  | some c => exact ⟨c, rfl, by simpa [hc] using hm.symm⟩

/-- What a reference repeats are leaves of the tree. -/
theorem from_of_resolve_replay {root : Node} {x : Subject} {cs : Captures} {fs : Frames}
    {ref : Reference} {first : Replay} {rest : List Replay} (h : cs.From root)
    (hr : x.resolve cs fs ref = .ok (.replay first rest)) :
    ∀ e ∈ first :: rest, e.From root := by
  obtain ⟨c, hc, entries⟩ := exists_of_resolve_replay hr
  rw [entries]
  intro e he
  obtain ⟨e₀, he₀, rfl⟩ := List.mem_map.mp he
  exact Captures.All.get? h hc e₀ he₀

/-- What a reference matches again is part of the tree. -/
theorem below_of_resolve_rematch {root : Node} {multiline : Bool} {cs : Captures} {fs : Frames}
    {ref : Reference} {body : Node}
    (hr : Subject.resolve ⟨Index.ofNode root, multiline⟩ cs fs ref = .ok (.rematch body)) :
    root.Below body := by
  unfold Subject.resolve at hr
  split at hr
  · simp at hr
  split at hr
  · simp at hr
  rename_i g body' hg
  dsimp only at hr
  split at hr
  · simp at hr
  split at hr
  · simp at hr
  split at hr
  · split at hr
    · obtain rfl : body' = body := by simpa using hr
      exact Index.below_of_group? hg
    · simp at hr
  · split at hr <;> simp at hr

/-- **One step of a resolver consumes with leaves of the tree only.**  A character is consumed by
the leaf of the feed, or it was recorded, and then its leaf was of the tree when it was. -/
theorem From.next {root : Node} {multiline : Bool} {r r' : Resolver} {e : Event Resolver}
    (h : r.From root) (hn : r.next ⟨Index.ofNode root, multiline⟩ = .ok (e, r')) :
    e.From root (Resolver.From root) ∧ r'.From root := by
  have advance : ∀ {r : Resolver} {e : Event Feed} {feed : Feed}, r.From root →
      r.feed.next multiline = (e, feed) → e.From root (Feed.From root) ∧ feed.From root := by
    intro r e feed hr hf
    have := Feed.from_next multiline hr.feed
    rwa [hf] at this
  replace hn := advances_of_next hn
  induction hn with
  | @resume r entry rest waits =>
    have pending := h.pending
    rw [waits, List.forall_mem_cons] at pending
    have rest : From root { r with pending := rest } := ⟨h.feed, h.captures, pending.2⟩
    exact ⟨pending.1, rest.consume _ pending.1⟩
  | @consume r g fs _ _ _ hf =>
    obtain ⟨he, hg⟩ := advance h hf
    have after : From root (r.moved g fs) := ⟨hg, h.captures.invalidate _, h.pending⟩
    exact ⟨he, after.consume fs he⟩
  | split _ hf =>
    obtain ⟨he, hg⟩ := advance h hf
    exact ⟨⟨he, h.captures.invalidate _, h.pending⟩, hg, h.captures.invalidate _, h.pending⟩
  | start _ hf | skip _ hf | stop _ hf | abort _ hf | done _ hf =>
    exact ⟨trivial, (advance h hf).2, h.captures.invalidate _, h.pending⟩
  | @replay r g fs ref first rest _ hf hr =>
    obtain ⟨hfirst, hrest⟩ := List.forall_mem_cons.mp
      (from_of_resolve_replay (h.captures.invalidate fs) hr)
    have after : From root { r.moved g fs with pending := rest, pendingFrames := fs } :=
      ⟨(advance h hf).2, h.captures.invalidate _, hrest⟩
    exact ⟨hfirst, after.consume fs hfirst⟩
  | around => exact ⟨trivial, from_ended root⟩
  | @rematch r g fs ref body _ hf hr =>
    have hg := (advance h hf).2
    have again : Feed.From root (.rematch (Stream.ofBody body fs) ref g) :=
      List.forall_mem_cons.mpr ⟨below_of_resolve_rematch hr, hg⟩
    exact ⟨⟨again, h.captures.invalidate _, h.pending⟩,
      hg, h.captures.invalidate _, h.pending⟩
  | nothing _ hf _ _ _ ih => exact ih ⟨(advance h hf).2, h.captures.invalidate _, h.pending⟩

/-! ## 4. Runs -/

theorem mem_walk_of_sighting {root : Node} {es : Trace} {starts : Nat}
    (h : ∀ e ∈ es, e.1.From root (Resolver.From root)) :
    ∀ s ∈ sightings starts es, .atom s.atom ∈ root.walk := by
  fun_induction sightings starts es with
  | case1 => simp
  | case2 starts fs a via r es ih =>
    obtain ⟨ha, hes⟩ := List.forall_mem_cons.mp h
    exact List.forall_mem_cons.mpr ⟨ha, ih hes⟩
  | case3 _ _ _ _ ih => exact ih (List.forall_mem_cons.mp h).2
  | case4 _ _ _ _ _ ih => exact ih (List.forall_mem_cons.mp h).2

/-- **Every character a run consumes is consumed by a leaf of the tree.**  This holds of the first
step, as there is nothing but the root, and every step keeps it. -/
theorem mem_walk_of_mem_sightings {p : Pattern} {es : Trace} {r : Resolver} {starts : Nat}
    (h : Run (step (Subject.ofPattern p)) (ofPattern p) es r) :
    ∀ s ∈ sightings starts es, .atom s.atom ∈ p.root.walk := by
  have along := h.invariant (P := From p.root) (Q := Event.From p.root (From p.root))
    (fun {s e t} hs hstep => by
      cases hstep with
      | onward hn _ => exact hs.next (step_eq_some.mp hn)
      | aside hn =>
        obtain ⟨hb, -⟩ := hs.next (step_eq_some.mp hn)
        exact ⟨hb, hb⟩)
    (from_ofPattern p)
  exact mem_walk_of_sighting fun e he => (along.1 e he).1

end Resolver

end Backtrack
