/-
# Frames and the nodes above

The frames of an event are put together on the way down: each task keeps the frames it was made in,
and a body is visited inside of one more.  Nothing ever looks up from a node.  So tasks that wait
for long, and those on branches of their own, must be right about their frames all by themselves.

They are: the frames are those of the groups and quantifiers above the node, innermost first
(`Frames.Mirror`), and for a quantifier the iteration is one that its count allows
(`Iteration.IsOf`).  A task hands that down to all it leaves behind (`Task.lasting_framed`), and
what lasts is found at every leaf and reference of a run (`Stream.forall_of_run`).

The index of the tree tells what is above a node without any run.  `Pattern.mirrored_of_run` is the
result: frames and index agree.
-/
import Backtrack.Proofs.Derivation.Traversal
import Backtrack.Proofs.Pattern.Ancestors

namespace Backtrack

/-! ## 1. What lasts along a run

A property of tasks that lasts is carried along by a run, and at each event it is found in the
task that the event is about. -/

section Lasting

variable {P : Task → Prop} {multiline : Bool} {s t : Stream}

/-- What lasts holds of the leaf or the reference that a step is about, and of all that it leaves to
be done. -/
theorem Stream.forall_of_step (lasting : Lasting P) {e : Event Stream} (h : ∀ u ∈ s.todo, P u)
    (hs : Step (step multiline) s e t) :
    (∀ n, e.letter? = some n → P (.visit n e.frames)) ∧ ∀ u ∈ t.todo, P u := by
  have shows := shows_nextFrom multiline s.consumed lasting h
  cases hs with
  | onward hn _ =>
    obtain hn := Option.some.inj hn
    rw [next] at hn
    rw [hn] at shows
    refine ⟨fun n hl => ?_, shows.onward⟩
    cases e with
    | consume fs a via => exact Option.some.inj hl ▸ shows.consume rfl
    | refer fs r => exact Option.some.inj hl ▸ shows.refer rfl
    | _ => cases hl
  | aside hn =>
    obtain hn := Option.some.inj hn
    rw [next] at hn
    rw [hn] at shows
    refine ⟨fun n hl => ?_, shows.aside rfl⟩
    cases hl

/-- **What lasts holds of every leaf and every reference that a run meets.**  The induction is on
the run, and each of its steps hands the property on to all that is left to do. -/
theorem Stream.forall_of_run (lasting : Lasting P) {es : List (Event Stream × Stream)}
    (run : Run (step multiline) s es t) (h : ∀ u ∈ s.todo, P u) :
    ∀ e ∈ es, ∀ n, e.1.letter? = some n → P (.visit n e.1.frames) :=
  fun e he => ((run.invariant (forall_of_step lasting) h).1 e he).1

end Lasting

/-! ## 2. Frames of ancestors

Only groups and quantifiers put a frame around what is below them, so of the nodes above a place
some leave no trace in its frames.  `Mirror` goes along both lists and skips these. -/

/-- Whether a node puts a frame around what is below it. -/
def Node.isFramed : Node → Bool
  | .group _ _ => true
  | .quantifier _ _ => true
  | _ => false

/-- The iteration is one that the count of a quantifier allows, and is optional if it is not the
first one and those before it were enough. -/
structure Iteration.IsOf (i : Iteration) (q : Quantifier) : Prop where
  quantifier : i.quantifier = q
  allowed : ∀ most, q.count.max = some most → i.index < most
  optional : i.optional = true ↔ q.count.min ≤ i.index ∧ 1 ≤ i.index

/-- The frame is that of a node: the group itself, or an iteration of the quantifier. -/
inductive Frame.Mirrors : Frame → Node → Prop
  | group (g : Group) (body : Node) : Mirrors (.group g) (.group g body)
  | iteration {i : Iteration} {q : Quantifier} (body : Node) (h : i.IsOf q) :
    Mirrors (.iteration i) (.quantifier q body)

namespace Frames

/-- **The frames are those of some nodes**, in the same order and without any gap. -/
def Mirror (fs : Frames) (as : List Node) : Prop :=
  List.Forall₂ Frame.Mirrors fs (as.filter Node.isFramed)

variable {fs : Frames} {as : List Node}

theorem mirror_cons_of_not_isFramed {n : Node} (h : n.isFramed = false) :
    fs.Mirror (n :: as) ↔ fs.Mirror as := by
  rw [Mirror, Mirror, List.filter_cons_of_neg (Bool.eq_false_iff.mp h)]

theorem Mirror.cons {f : Frame} {n : Node} (h : fs.Mirror as) (hf : f.Mirrors n) :
    Mirror (f :: fs) (n :: as) := by
  have framed : n.isFramed = true := by cases hf <;> rfl
  rw [Mirror, List.filter_cons_of_pos framed]
  exact .cons hf h

/-- The lookarounds among the frames are those among the nodes. -/
theorem Mirror.lookarounds (h : fs.Mirror as) :
    Frames.lookarounds fs = as.reverse.filterMap Node.lookaround? := by
  have framed : as.filterMap Node.lookaround? =
      (as.filter Node.isFramed).filterMap Node.lookaround? := by
    rw [List.filterMap_filter]
    exact List.filterMap_congr fun n _ => by cases n <;> rfl
  rw [Frames.lookarounds, List.filterMap_reverse, List.reverse_inj, framed]
  rw [Mirror] at h
  generalize as.filter Node.isFramed = ns at h
  induction h with
  | nil => rfl
  | cons hf _ ih =>
    rw [List.filterMap_cons, List.filterMap_cons, ih]
    cases hf <;> rfl

end Frames

/-! ## 3. Tasks

A node and its frames have to be right together: whoever visits a child either adds the frame of
the node, or the node has none. -/

section Tasks

variable {root : Node}

/-- The node stands in the tree, and the frames are those of the nodes above it. -/
def Frames.Enclose (root : Node) (fs : Frames) (n : Node) : Prop :=
  ∃ as, root.Ancestry as n ∧ fs.Mirror as

namespace Frames.Enclose

variable {fs : Frames} {n m : Node}

theorem inside {f : Frame} (h : Enclose root fs n) (hf : f.Mirrors n) (hm : m ∈ n.children) :
    Enclose root (f :: fs) m := by
  obtain ⟨as, above, mirror⟩ := h
  exact ⟨n :: as, above.child hm, mirror.cons hf⟩

theorem joint (h : Enclose root fs n) (hn : n.isFramed = false) (hm : m ∈ n.children) :
    Enclose root fs m := by
  obtain ⟨as, above, mirror⟩ := h
  exact ⟨n :: as, above.child hm, (Frames.mirror_cons_of_not_isFramed hn).mpr mirror⟩

end Frames.Enclose

/-- An iteration that is begun is one that the count allows. -/
theorem Stream.isOf_iterationFrame {q : Quantifier} {i : Nat} (more : ¬ q.count.isExhausted i)
    (body : Node) : (iterationFrame q i).Mirrors (.quantifier q body) := by
  refine .iteration body ⟨rfl, fun most hm => ?_, by simp⟩
  simpa [Count.isExhausted, hm] using more

/-- A task is done inside of the frames of the nodes above the one that it is about; and an
iteration is only begun if the count allows it. -/
def Task.Framed (root : Node) : Task → Prop
  | .visit n fs => fs.Enclose root n
  | .choose ns fs => ∀ n ∈ ns, fs.Enclose root n
  | .iterate q body fs _ _ => fs.Enclose root (.quantifier q body)
  | .enter q body fs i _ => fs.Enclose root (.quantifier q body) ∧ ¬ q.count.isExhausted i
  | .leave q body fs _ _ _ => fs.Enclose root (.quantifier q body)
  | .finish _ => True

/-- What a framed task leaves behind is framed. -/
theorem Task.lasting_framed (root : Node) : Lasting (Task.Framed root) := by
  intro _ t u unfolds h
  cases unfolds with
  | inside g body fs => exact Frames.Enclose.inside h (.group g body) List.mem_cons_self
  | element s fs hn => exact Frames.Enclose.joint h rfl hn
  | choose s ns fs => exact fun n hn => Frames.Enclose.joint h rfl hn
  | first n ns fs => exact h n List.mem_cons_self
  | others n m ns fs => exact fun k hk => h k (List.mem_cons_of_mem _ hk)
  | enter q body fs idle more => exact ⟨h, more⟩
  | body q body fs i idle =>
    exact h.1.inside (Stream.isOf_iterationFrame h.2 body) List.mem_cons_self
  | leave => exact h.1
  | iterate | again => exact h
  | finish => trivial

/-- All there is to do at the start is framed. -/
theorem Stream.framed_ofNode (root : Node) : ∀ t ∈ (ofNode root).todo, t.Framed root := by
  have start : Frames.Enclose root [] root := ⟨[], .root, .nil⟩
  rw [ofNode, List.forall_mem_cons]
  exact ⟨start, List.forall_mem_singleton.mpr trivial⟩

end Tasks

/-! ## 4. Parsed patterns

The index says which nodes are above another one, and in a parsed pattern it agrees with the tree,
as nodes have distinct numbers. -/

/-- **The frames of every event are those of the nodes above it**, and its lookarounds are those of
the index. -/
theorem Pattern.mirrored_of_run {source : Bytes} {flags : Flags} {p : Pattern}
    (h : parse source flags = .ok p) {multiline : Bool} {s : Stream}
    {es : List (Event Stream × Stream)}
    (run : Run (Stream.step multiline) (Stream.ofNode p.root) es s) :
    ∀ e ∈ es, ∀ n, e.1.letter? = some n → ∃ as, p.root.Ancestry as n ∧
      Frames.Mirror e.1.frames as ∧
      Frames.lookarounds e.1.frames = (Index.ofNode p.root).lookarounds n.id := by
  obtain ⟨-, distinct, -⟩ := isWellFormed_of_parse h
  intro e he n hn
  obtain ⟨as, above, mirror⟩ := Stream.forall_of_run (Task.lasting_framed p.root) run
    (Stream.framed_ofNode p.root) e he n hn
  exact ⟨as, above, mirror,
    mirror.lookarounds.trans (Index.lookarounds_of_ancestry distinct above).symm⟩

/-- In `(?:a|(?=b{1,3}))+` a walk goes into the lookahead and comes to its letter twice.  It is in
one iteration of each quantifier; the second time the inner one is optional. -/
theorem Pattern.mirrored_of_run_of_lookahead :
    ∃ p es s, parse (Bytes.ofString "(?:a|(?=b{1,3}))+") {} = .ok p ∧
      Run (Stream.step false) (Stream.ofNode p.root) es s ∧
      (es.filter fun e => e.1.letter?.isSome).map (fun e =>
        (Frames.iterations e.1.frames).map fun i => (i.index, i.optional)) =
          [[(0, false), (0, false)], [(1, true), (0, false)]] ∧
      ∀ e ∈ es, ∀ n, e.1.letter? = some n → ∃ as, p.root.Ancestry as n ∧
        Frames.Mirror e.1.frames as ∧
        Frames.lookarounds e.1.frames = (Index.ofNode p.root).lookarounds n.id := by
  let p : Pattern :=
    { source := Bytes.ofString "(?:a|(?=b{1,3}))+"
      flags := {}
      root := .quantifier ⟨⟨7, 0, 17⟩, ⟨1, none, false⟩⟩ (.group ⟨⟨6, 0, 16⟩, .nonCapture, 0, []⟩
        (.alternation ⟨5, 3, 15⟩
          [.atom ⟨⟨1, 3, 4⟩, .char 97⟩,
            .group ⟨⟨4, 5, 15⟩, .lookahead, 0, []⟩ (.quantifier ⟨⟨3, 8, 14⟩, ⟨1, some 3, false⟩⟩
              (.atom ⟨⟨2, 8, 9⟩, .char 98⟩))]))
      captures := 0 }
  have parsed : parse (Bytes.ofString "(?:a|(?=b{1,3}))+") {} = .ok p := by
    with_unfolding_all rfl
  have followed : (follow (Stream.step false)
      [false, false, false, true, false, false, false, true, false, false]
      (Stream.ofNode p.root)).any (fun place =>
        (place.1.filter fun e => e.1.letter?.isSome).map (fun e =>
          (Frames.iterations e.1.frames).map fun i => (i.index, i.optional)) ==
            [[(0, false), (0, false)], [(1, true), (0, false)]]) = true := by
    decide +kernel
  obtain ⟨⟨es, s⟩, hf, frames⟩ := (Option.any_eq_true _ _).mp followed
  have run := run_of_follow hf
  exact ⟨p, es, s, parsed, run, beq_iff_eq.mp frames, mirrored_of_run parsed run⟩

end Backtrack
