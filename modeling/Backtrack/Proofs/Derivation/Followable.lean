/-
# References that can be followed

A resolver gives up on a reference to a group that it has to look into a positive lookaround for, and
on one to a group whose match ran through a quantifier without an upper bound.  Neither happens in a
tree in which no group that is referred to repeats without bound or stands in a positive lookaround
(`Node.Followable`): every step of a resolver gives an event (`Resolver.Calm.exists_next`).

What carries this along a walk is that its frames are *calm*: no iteration of a quantifier without an
upper bound stands inside of a group that is referred to.  So no record of such a group is ever
marked as infinite.
-/
import Backtrack.Proofs.Derivation.Origin
import Backtrack.Proofs.Pattern.Places

namespace Backtrack

/-! ## 1. Trees

Whether a group repeats without bound is asked of the group as it stands in the tree, so a part of
it does not either. -/

/-- No group that is referred to repeats without bound or stands in a positive lookaround. -/
structure Node.Followable (root : Node) : Prop where
  bounded : ∀ r g body, .reference r ∈ root.walk → .group g body ∈ root.walk →
    g.isCapture = true → g.index = r.index → body.repeatsWithoutBound = false
  visible : ∀ r look body, .reference r ∈ root.walk → .group look body ∈ root.walk →
    look.isLookaround = true → look.kind.isNegative = false → r.index ∉ captureIndexes body.walk

namespace Node

theorem repeatsWithoutBound_group (g : Group) (body : Node) :
    (group g body).repeatsWithoutBound = body.repeatsWithoutBound := by
  rw [repeatsWithoutBound, walk, List.any_cons, Bool.false_or]
  rfl

theorem repeatsWithoutBound_quantifier (q : Quantifier) (body : Node) :
    (quantifier q body).repeatsWithoutBound =
      (q.count.isUnbounded || body.repeatsWithoutBound) := by
  rw [repeatsWithoutBound, walk, List.any_cons]
  rfl

/-- A part of a tree that repeats nothing without bound does not either. -/
theorem repeatsWithoutBound_of_below {n m : Node} (h : n.Below m)
    (hn : n.repeatsWithoutBound = false) : m.repeatsWithoutBound = false := by
  rw [repeatsWithoutBound, List.any_eq_false] at hn ⊢
  exact fun k hk => hn k (h k hk)

end Node

/-! ## 2. Frames

A record is marked as infinite by a quantifier that is met on the way out from the character to
the group.  So what matters is the order of frames: what stands outside of the group does no
harm. -/

variable {root : Node}

/-- A reference of the tree is to the group with a number. -/
def Node.Refers (root : Node) (index : Nat) : Prop := ∃ r, .reference r ∈ root.walk ∧ r.index = index

namespace Frames

/-- A group that is referred to is open. -/
def Watched (root : Node) (fs : Frames) : Prop :=
  ∃ g, .group g ∈ fs ∧ g.isCapture = true ∧ root.Refers g.index

/-- Inside of groups that are referred to, nothing is repeated without bound. -/
def Calm (root : Node) : Frames → Prop
  | [] => True
  | .group _ :: fs => Calm root fs
  | .iteration i :: fs => (Watched root fs → i.quantifier.count.isUnbounded = false) ∧ Calm root fs

theorem watched_iteration {i : Iteration} {fs : Frames} :
    Watched root (.iteration i :: fs) ↔ Watched root fs := by
  simp [Watched]

theorem watched_group {g : Group} {fs : Frames} :
    Watched root (.group g :: fs) ↔ (g.isCapture = true ∧ root.Refers g.index) ∨ Watched root fs := by
  simp [Watched, or_and_right, exists_or]

end Frames

/-! ## 3. Tasks and feeds

Frames grow on the way down, by a group or by an iteration.  That they stay calm depends on the
node the task is about (`Node.Admits`), and a node hands this down to its parts. -/

/-- A node of the tree may stand inside of some frames: if a group that is referred to is open, it
repeats nothing without bound. -/
structure Node.Admits (root n : Node) (fs : Frames) : Prop where
  below : root.Below n
  frames : fs.Calm root
  bounded : fs.Watched root → n.repeatsWithoutBound = false

namespace Node.Admits

variable {n m body : Node} {fs : Frames}

/-- So may its parts. -/
theorem part (h : root.Admits n fs) (hm : n.Below m) : root.Admits m fs :=
  ⟨fun k hk => h.below k (hm k hk), h.frames,
    fun hw => repeatsWithoutBound_of_below hm (h.bounded hw)⟩

theorem group (follow : root.Followable) {g : Group} (h : root.Admits (.group g body) fs) :
    root.Admits body (.group g :: fs) := by
  refine ⟨h.below.group, h.frames, fun hw => ?_⟩
  rcases Frames.watched_group.mp hw with ⟨hc, r, hr, hi⟩ | hw
  · exact follow.bounded r g body hr h.below.mem hc hi.symm
  · rw [← repeatsWithoutBound_group g body]
    exact h.bounded hw

/-- In an iteration nothing is repeated that is not repeated around it. -/
theorem iteration {q : Quantifier} (h : root.Admits (.quantifier q body) fs) (i : Nat) :
    root.Admits body (Stream.iterationFrame q i :: fs) := by
  have parts : fs.Watched root → q.count.isUnbounded = false ∧ body.repeatsWithoutBound = false := by
    intro hw
    have := h.bounded hw
    rwa [repeatsWithoutBound_quantifier, Bool.or_eq_false_iff] at this
  exact ⟨h.below.quantifier, ⟨fun hw => (parts hw).1, h.frames⟩,
    fun hw => (parts (Frames.watched_iteration.mp hw)).2⟩

end Node.Admits

/-- What a task is about may stand where the task is done. -/
def Task.Calm (root : Node) : Task → Prop
  | .visit n fs => root.Admits n fs
  | .choose ns fs => ∀ n ∈ ns, root.Admits n fs
  | .iterate q body fs _ _ => root.Admits (.quantifier q body) fs
  | .enter q body fs _ _ => root.Admits (.quantifier q body) fs
  | .leave q body fs _ _ _ => root.Admits (.quantifier q body) fs
  | .finish _ => True

/-- All tasks that are left are calm. -/
def Feed.Calm (root : Node) (f : Feed) : Prop := ∀ t ∈ f.tasks, t.Calm root

/-- Events are inside of calm frames, references are those of the tree, and the branch of a split
satisfies `B`. -/
def Event.Calm {κ : Type} (root : Node) (B : κ → Prop) : Event κ → Prop
  | .consume fs _ _ => fs.Calm root
  | .refer fs r => fs.Calm root ∧ .reference r ∈ root.walk
  | .split _ branch => B branch
  | _ => True

/-- What a calm task leaves behind is calm. -/
theorem Task.lasting_calm (follow : root.Followable) : Lasting (Task.Calm root) := by
  intro _ t u unfolds h
  cases unfolds with
  | inside g body fs => exact Node.Admits.group follow h
  | element s fs hn => exact h.part ((Node.Below.refl (.sequence s _)).sequence _ hn)
  | choose s ns fs =>
    exact fun n hn => h.part ((Node.Below.refl (.alternation s ns)).alternation n hn)
  | first n ns fs => exact h n List.mem_cons_self
  | others n m ns fs => exact fun k hk => h k (List.mem_cons_of_mem _ hk)
  | body q body fs i idle => exact Node.Admits.iteration h i
  | finish => trivial
  | iterate | enter | leave | again => exact h

/-- **One step of a feed stays calm.**  The tasks that are left behind are calm one by one, as
calm lasts. -/
theorem Feed.calm_next (follow : root.Followable) (multiline : Bool) {f : Feed} (h : f.Calm root) :
    (f.next multiline).1.Calm root (Feed.Calm root) ∧ (f.next multiline).2.Calm root := by
  have shows := Feed.shows_next (Task.lasting_calm follow) multiline h
  refine ⟨?_, shows.onward⟩
  cases he : (f.next multiline).1 with
  | consume fs a via => exact (shows.consume he).frames
  | refer fs r => exact ⟨(shows.refer he).frames, (shows.refer he).below.mem⟩
  | split fs branch => exact shows.aside he
  | _ => trivial

/-! ## 4. Records

A record is extended by each character inside of its group, and inside of calm frames this never
marks it.  To drop a record does no harm. -/

/-- No record of a group that is referred to is infinite. -/
def Captures.Calm (root : Node) (cs : Captures) : Prop :=
  ∀ c ∈ cs, root.Refers c.1 → c.2.infinite = false

namespace Captures

variable {cs : Captures}

theorem Calm.get? (h : cs.Calm root) {i : Nat} {c : Capture} (hc : cs.get? i = some c)
    (hi : root.Refers i) : c.infinite = false := by
  induction cs with
  | nil => simp [Captures.get?] at hc
  | cons d cs ih =>
    obtain ⟨hd, hcs⟩ := List.forall_mem_cons.mp h
    rw [Captures.get?, List.lookup_cons] at hc
    split at hc
    · rename_i hid
      obtain rfl := Option.some.inj hc
      exact hd (beq_iff_eq.mp hid ▸ hi)
    · exact ih hcs hc

theorem Calm.invalidate (h : cs.Calm root) (fs : Frames) : (cs.invalidate fs).Calm root :=
  fun c hc => h c (List.mem_filter.mp hc).1

theorem Calm.set (h : cs.Calm root) {i : Nat} {c : Capture}
    (hc : root.Refers i → c.infinite = false) : (cs.set i c).Calm root :=
  List.forall_mem_cons.mpr ⟨hc, fun d hd => h d (List.mem_filter.mp hd).1⟩

theorem Calm.extend (h : cs.Calm root) {i : Nat} {outer : Frames} {entry : Replay} {infinite : Bool}
    (hi : root.Refers i → infinite = false) : (cs.extend i outer entry infinite).Calm root := by
  unfold Captures.extend
  dsimp only
  split
  · rename_i old hold
    refine h.set fun hr => ?_
    rw [h.get? hold hr, hi hr]
    rfl
  · exact h.set hi

/-- A quantifier without an upper bound is met before a group only if nothing refers to the group. -/
theorem Calm.recordIn {entry : Replay} : ∀ {fs : Frames} {unbounded : Bool} {cs : Captures},
    fs.Calm root → (fs.Watched root → unbounded = false) → cs.Calm root →
      (Captures.recordIn entry unbounded fs cs).Calm root
  | [], _, _, _, _, h => h
  | .iteration i :: outer, unbounded, cs, hf, hu, h => by
    rw [Captures.recordIn]
    refine Calm.recordIn hf.2 (fun hw => ?_) h
    rw [hu (Frames.watched_iteration.mpr hw), hf.1 hw]
    rfl
  | .group g :: outer, unbounded, cs, hf, hu, h => by
    rw [Captures.recordIn]
    refine Calm.recordIn hf (fun hw => hu (Frames.watched_group.mpr (.inr hw))) ?_
    split
    · rename_i hc
      exact h.extend fun hr => hu (Frames.watched_group.mpr (.inl ⟨hc, hr⟩))
    · exact h

end Captures

/-! ## 5. Resolvers

Of all that can become of a reference two ways are excluded: that its record is infinite, and that
its group is in a positive lookaround.  The rest is to see that calm is kept, also by a body that
is matched again, which starts anew in the frames of the reference. -/

/-- **A reference can be followed.** -/
theorem Subject.exists_resolve (follow : root.Followable) (distinct : root.IsDistinct)
    {multiline : Bool} {cs : Captures} (calm : cs.Calm root) {fs : Frames} {r : Reference}
    (hr : .reference r ∈ root.walk) :
    ∃ res, Subject.resolve ⟨Index.ofNode root, multiline⟩ cs fs r = .ok res := by
  unfold Subject.resolve
  split
  · exact ⟨_, rfl⟩
  split
  · exact ⟨_, rfl⟩
  rename_i g body hg
  obtain ⟨hm, hc, hi⟩ := Index.mem_of_group? hg
  have negative : ∀ look ∈ (Index.ofNode root).lookarounds g.site.id, look.kind.isNegative = true := by
    intro look hl
    obtain ⟨hk, b, hb⟩ := Index.mem_lookarounds.mp hl
    obtain ⟨hlm, hgl⟩ := Index.mem_walk_of_mem_enclosing distinct hm (by simp) hb
    rw [← Bool.not_eq_false]
    intro hn
    have inner : Node.group g body ∈ b.walk := by
      refine (List.mem_cons.mp hgl).resolve_left fun he => ?_
      rw [Group.isCapture, beq_iff_eq] at hc
      rw [← (Node.group.inj he).1, Group.isLookaround, hc] at hk
      cases hk
    exact follow.visible r look b hr hlm hk hn (mem_captureIndexes.mpr ⟨g, body, inner, hc, hi⟩)
  have finite : ((cs.get? r.index).getD ⟨[], false, []⟩).infinite = false := by
    cases hget : cs.get? r.index with
    | none => rfl
    | some c => exact calm.get? hget ⟨r, hr, rfl⟩
  dsimp only
  split
  · exact ⟨_, rfl⟩
  split
  -- All lookarounds around the group are negative, so none of them is in the way.
  · rename_i any some
    rw [Bool.not_eq_true', List.isEmpty_eq_false_iff_exists_mem] at some
    obtain ⟨look, hl⟩ := some
    refine absurd (List.any_eq_true.mpr ⟨look, hl, ?_⟩) any
    exact negative look (List.mem_filter.mp hl).1
  split
  · exact ⟨_, rfl⟩
  · rw [finite]
    exact ⟨_, rfl⟩

/-- What is matched again on behalf of a reference may stand anywhere. -/
theorem Subject.admits_of_resolve (follow : root.Followable) {multiline : Bool} {cs : Captures}
    {fs : Frames} (hf : fs.Calm root) {r : Reference} (hr : .reference r ∈ root.walk) {body : Node}
    (h : Subject.resolve ⟨Index.ofNode root, multiline⟩ cs fs r = .ok (.rematch body)) :
    root.Admits body fs := by
  unfold Subject.resolve at h
  split at h
  · simp at h
  split at h
  · simp at h
  rename_i g body' hg
  dsimp only at h
  split at h
  · simp at h
  split at h
  · simp at h
  split at h
  · split at h
    · obtain rfl : body' = body := by simpa using h
      obtain ⟨hm, hc, hi⟩ := Index.mem_of_group? hg
      exact ⟨Index.below_of_group? hg, hf, fun _ => follow.bounded r g body' hr hm hc hi⟩
    · simp at h
  · split at h <;> simp at h

/-- Whatever a resolver still has to do is calm. -/
structure Resolver.Calm (root : Node) (r : Resolver) : Prop where
  feed : r.feed.Calm root
  captures : r.captures.Calm root
  frames : r.pendingFrames.Calm root

namespace Resolver

theorem calm_ofPattern (p : Pattern) : (ofPattern p).Calm p.root where
  feed := by
    refine List.forall_mem_cons.mpr ⟨?_, List.forall_mem_singleton.mpr trivial⟩
    exact ⟨Node.Below.refl p.root, trivial, by simp [Frames.Watched]⟩
  captures := by simp [ofPattern, ofStream, Captures.Calm]
  frames := trivial

theorem calm_ended (root : Node) : ended.Calm root where
  feed := List.forall_mem_nil _
  captures := by simp [ended, ofStream, Captures.Calm]
  frames := trivial

theorem Calm.consume {r : Resolver} (h : r.Calm root) {fs : Frames} (hf : fs.Calm root)
    (entry : Replay) : (r.consume fs entry).2.Calm root :=
  ⟨h.feed, Captures.Calm.recordIn hf (fun _ => rfl) (h.captures.invalidate fs), h.frames⟩

/-- One step of a feed stays calm. -/
theorem Calm.advance (follow : root.Followable) {multiline : Bool} {r : Resolver} {e : Event Feed}
    {g : Feed} (h : r.Calm root) (hf : r.feed.next multiline = (e, g)) :
    e.Calm root (Feed.Calm root) ∧ g.Calm root := by
  have calm := Feed.calm_next follow multiline h.feed
  rwa [hf] at calm

/-- **Every step of a resolver gives an event**: the references it comes to can be followed.  A
reference is the only thing that could keep a resolver from its next event. -/
theorem Calm.exists_next (follow : root.Followable) (distinct : root.IsDistinct) (multiline : Bool)
    {r : Resolver} (h : r.Calm root) :
    ∃ e, r.next ⟨Index.ofNode root, multiline⟩ = .ok e := by
  fun_induction Resolver.next ⟨Index.ofNode root, multiline⟩ r with
  | case9 r hp feed fs ref hf u _ _ hr =>
    obtain ⟨res, ok⟩ := Subject.exists_resolve follow distinct (h.captures.invalidate fs)
      (h.advance follow hf).1.2
    cases hr.symm.trans ok
  | case14 r hp feed fs ref hf _ _ _ _ _ _ ih =>
    exact ih ⟨(h.advance follow hf).2, h.captures.invalidate _, h.frames⟩
  | _ => exact ⟨_, rfl⟩

/-- **Every step of a resolver stays calm.** -/
theorem Calm.next (follow : root.Followable) {multiline : Bool} {r r' : Resolver}
    {e : Event Resolver} (h : r.Calm root)
    (hn : r.next ⟨Index.ofNode root, multiline⟩ = .ok (e, r')) :
    e.Calm root (Resolver.Calm root) ∧ r'.Calm root := by
  replace hn := advances_of_next hn
  induction hn with
  | @resume r entry rest =>
    have left : Calm root { r with pending := rest } := ⟨h.feed, h.captures, h.frames⟩
    exact ⟨h.frames, left.consume h.frames entry⟩
  | @consume r g fs a via _ hf =>
    obtain ⟨he, hg⟩ := h.advance follow hf
    have left : Calm root (r.moved g fs) := ⟨hg, h.captures.invalidate _, h.frames⟩
    exact ⟨he, left.consume he ⟨a, via⟩⟩
  | split _ hf =>
    obtain ⟨he, hg⟩ := h.advance follow hf
    exact ⟨⟨he, h.captures.invalidate _, h.frames⟩, hg, h.captures.invalidate _, h.frames⟩
  | start _ hf | skip _ hf | stop _ hf | abort _ hf | done _ hf =>
    exact ⟨trivial, (h.advance follow hf).2, h.captures.invalidate _, h.frames⟩
  | @replay r g fs ref first rest _ hf =>
    obtain ⟨⟨hfs, -⟩, hg⟩ := h.advance follow hf
    have left : Calm root { r.moved g fs with pending := rest, pendingFrames := fs } :=
      ⟨hg, h.captures.invalidate _, hfs⟩
    exact ⟨hfs, left.consume hfs first⟩
  | around => exact ⟨trivial, calm_ended root⟩
  | @rematch r g fs ref body _ hf hr =>
    obtain ⟨⟨hfs, href⟩, hg⟩ := h.advance follow hf
    have again : Feed.Calm root (.rematch (Stream.ofBody body fs) ref g) :=
      List.forall_mem_cons.mpr ⟨Subject.admits_of_resolve follow hfs href hr, hg⟩
    exact ⟨⟨again, h.captures.invalidate _, h.frames⟩, hg, h.captures.invalidate _, h.frames⟩
  | nothing _ hf _ _ _ ih => exact ih ⟨(h.advance follow hf).2, h.captures.invalidate _, h.frames⟩

theorem Calm.step (follow : root.Followable) {multiline : Bool} {r r' : Resolver}
    {e : Event Resolver} (h : r.Calm root)
    (hs : Step (step ⟨Index.ofNode root, multiline⟩) r e r') :
    e.Calm root (Resolver.Calm root) ∧ r'.Calm root := by
  cases hs with
  | onward hn _ => exact h.next follow (step_eq_some.mp hn)
  | aside hn =>
    have branch := (h.next follow (step_eq_some.mp hn)).1
    exact ⟨branch, branch⟩

/-- **Along no path of a pattern is there a reference that cannot be followed.**  Calm is kept
along the run, so this is so wherever the run is. -/
theorem exists_next_of_run {p : Pattern} (follow : p.root.Followable) (distinct : p.root.IsDistinct)
    {es : Trace} {r : Resolver} (run : Run (step (Subject.ofPattern p)) (ofPattern p) es r) :
    ∃ e, r.next (Subject.ofPattern p) = .ok e := by
  have calm : r.Calm p.root := (run.invariant (fun h hs => h.step follow hs) (calm_ofPattern p)).2
  exact calm.exists_next follow distinct p.flags.multiline

end Resolver

end Backtrack
