/-
# A resolver follows derivations only

The converse of `Replays.lean`.  A way through a node whose events are absorbed is a derivation
of the node, one that a stream can do and that does not stutter: the records tell which leaves a
reference stands for, and the resolver has not given up.

What is kept true on the way is the same, `Fits` before a node and `Leaves` after it.  Since the
memory after some events is determined by the memory before them (`Memory.Absorbs.unique`), what
`Replays.lean` shows of the memory a derivation leads to is true of the memory at hand.

Together the two directions tell exactly which derivations are followed
(`exists_path_iff_derives`).  They are not all: `loses_derivations`.
-/
import Backtrack.Proofs.Derivation.Replays

namespace Backtrack

/-! ## 1. Absorbed events

Events determine what is consumed and what is remembered.  So it is enough to find a derivation
and to replay it: the memory that it leads to can be none other than the one at hand. -/

namespace Memory.Absorbs

variable {x : Subject} {m m₁ m₂ : Memory}

/-- What is consumed and remembered is determined by the events. -/
theorem unique {es : List (Event Unit)} {w₁ : List Atom} (h₁ : Absorbs x m es w₁ m₁) :
    ∀ {w₂ : List Atom}, Absorbs x m es w₂ m₂ → w₁ = w₂ ∧ m₁ = m₂ := by
  induction h₁ with
  | nil m =>
    intro w₂ h₂
    cases h₂
    exact ⟨rfl, rfl⟩
  | cons h _ ih =>
    intro w₂ h₂
    cases h₂ with
    | cons h' rest' =>
      obtain ⟨rfl, rfl⟩ := Prod.mk.inj (Option.some.inj (h.symm.trans h'))
      exact (ih rest').imp_left (congrArg _)

/-- Events are absorbed one part after the other. -/
theorem exists_of_append : ∀ {es es' : List (Event Unit)} {m : Memory} {w : List Atom},
    Absorbs x m (es ++ es') w m₂ →
      ∃ w₁ w₂ m₁, w = w₁ ++ w₂ ∧ Absorbs x m es w₁ m₁ ∧ Absorbs x m₁ es' w₂ m₂
  | [], es', m, w, h => ⟨[], w, m, rfl, .nil m, h⟩
  | e :: es, es', m, _, h => by
    cases h with
    | cons h rest =>
      obtain ⟨w₁, w₂, m₁, rfl, h₁, h₂⟩ := exists_of_append rest
      exact ⟨_, w₂, m₁, (List.append_assoc ..).symm, .cons h h₁, h₂⟩

end Memory.Absorbs

/-- An event that only tells that the walk goes on leaves the memory as it is. -/
theorem Event.Idle.absorbs {e : Event Unit} {fs : Frames} (he : e.Idle fs) {x : Subject}
    {m m' : Memory} {es : List (Event Unit)} {w : List Atom} (steady : Steady fs m.captures)
    (h : Memory.Absorbs x m (e :: es) w m') : Memory.Absorbs x m es w m' := by
  cases h with
  | cons h rest =>
    obtain ⟨rfl, rfl⟩ := Prod.mk.inj (Option.some.inj ((he.absorb x steady).symm.trans h))
    exact rest

/-- One more thing that happens makes a derivation stutter only if it is the same reference that
was passed over last. -/
theorem stutters_concat {T : List Happening} {h : Happening} (hs : Stutters (T ++ [h])) :
    Stutters T ∨ ∃ r, h = .passed r ∧ T.getLast? = some (.passed r) := by
  obtain ⟨r, hr⟩ := hs
  rcases List.infix_concat_iff.mp hr with hr | hr
  · rcases List.suffix_concat_iff.mp hr with hr | ⟨t, ht, hs⟩
    · simp at hr
    · obtain ⟨rfl, rfl⟩ : t = [.passed r] ∧ h = .passed r := by
        have := List.append_inj' (show [.passed r] ++ [.passed r] = t ++ [h] from ht) rfl
        simpa [eq_comm] using this
      obtain ⟨T', rfl⟩ := hs
      exact .inr ⟨r, rfl, by simp⟩
  · exact .inl ⟨r, hr⟩

theorem not_stutters_consumed {T : List Happening} (h : ¬ Stutters T) (a : Atom) :
    ¬ Stutters (T ++ [.consumed a]) := by
  intro hs
  rcases stutters_concat hs with hs | ⟨r, hr, -⟩
  · exact h hs
  · simp at hr

theorem not_stutters_map_consumed : ∀ (w : List Atom) {T : List Happening}, ¬ Stutters T →
    ¬ Stutters (T ++ w.map .consumed)
  | [], T, h => by simpa using h
  | a :: w, T, h => by
    have := not_stutters_map_consumed w (not_stutters_consumed h a)
    simpa using this

/-! ## 2. Leaves

A reference is where events tell less than a derivation asks for.  That the memory has absorbed it
means that it was not passed over a second time running, and that what it repeats is of bounded
size. -/

section Leaf

variable {root : Node} {multiline : Bool} {ns : List Node} {fs : Frames} {E : Contents}
  {T : List Happening} {m m' : Memory} {w : List Atom}

/-- What was shown of the memory a derivation leads to is true of the memory at hand. -/
theorem Replays.memory {es : List (Event Unit)} {τ : List Happening} {u : Bool} {E' : Contents}
    {m₁ : Memory} (h : Replays root multiline ns fs T m τ u E' es m₁)
    (absorbs : Memory.Absorbs ⟨Index.ofNode root, multiline⟩ m es w m') :
    Replays root multiline ns fs T m τ u E' es m' := by
  obtain ⟨-, rfl⟩ := h.absorbs.unique absorbs
  exact h

/-- A reference that stands for nothing and was passed over does not make a derivation stutter. -/
theorem not_stutters_of_absorbs (plain : Plain root.walk) (fits : Fits root ns fs E T m)
    {r : Reference} (empty : E.recalled fs.opened r = [])
    (absorbs : Memory.Absorbs ⟨Index.ofNode root, multiline⟩ m [.refer fs r] w m')
    (steady : ¬ Stutters T) :
    ¬ Stutters (T ++ if !fs.iterations.isEmpty then [.passed r] else []) := by
  split
  · rename_i repeated
    intro hs
    obtain ⟨r', hr, last⟩ := (stutters_concat hs).resolve_left steady
    obtain rfl := Happening.passed.inj hr
    cases absorbs with
    | cons h _ =>
      rw [absorb_of_recalled_nil multiline plain fits empty, Memory.pass,
        fits.recent.last.mpr last] at h
      simp [repeated] at h
  · simpa using steady

/-- A reference that was replayed is to a group that held something of bounded size. -/
theorem bounded_of_absorbs (plain : Plain root.walk) (fits : Fits root ns fs E T m)
    {r : Reference} (full : E.recalled fs.opened r ≠ [])
    (absorbs : Memory.Absorbs ⟨Index.ofNode root, multiline⟩ m [.refer fs r] w m') :
    (E r.index).unbounded = false := by
  obtain ⟨entries, -, h⟩ := absorb_of_recalled_cons multiline plain fits full
  cases absorbs with
  | cons h' _ =>
    rw [h] at h'
    split at h'
    · simp at h'
    · rename_i bounded
      simpa using bounded

end Leaf

/-! ## 3. Iterations

As before the first iteration, and again before each one that comes after it, the groups of the
body are unset.  `Ready` was shown to be kept for derivations, and one iteration is a derivation
by the hypothesis for the body. -/

/-- Every way through a node whose events are absorbed is a derivation of the node. -/
def Retraces (root : Node) (multiline : Bool) (n : Node) : Prop :=
  ∀ ⦃fs : Frames⦄ ⦃E : Contents⦄ ⦃T : List Happening⦄ ⦃m m' : Memory⦄ ⦃es : List (Event Unit)⦄
    ⦃w : List Atom⦄, Sits root n.walk fs → Fits root n.walk fs E T m →
    n.Traverses multiline fs es false →
    Memory.Absorbs ⟨Index.ofNode root, multiline⟩ m es w m' → ¬ Stutters T →
    ∃ τ u E', n.Derives Node.Passing fs.opened (!fs.iterations.isEmpty) E τ u E' ∧
      ¬ Stutters (T ++ τ) ∧ Replays root multiline n.walk fs T m τ u E' es m'

section Iterations

variable {root body : Node} {multiline : Bool} {q : Quantifier} {fs : Frames} {i : Nat}
  {E : Contents} {T : List Happening} {m m' : Memory} {es : List (Event Unit)} {w : List Atom}

/-- **One iteration.** -/
theorem exists_derives_iteration (ih : Retraces root multiline body)
    (sits : Sits root (.quantifier q body :: body.walk) fs)
    (ready : Ready root q body fs i E T m)
    (ht : body.Traverses multiline (fs.inIteration q i) es false)
    (absorbs : Memory.Absorbs ⟨Index.ofNode root, multiline⟩ m
      (offer q fs i ++ .skip (fs.inIteration q i) :: es) w m') (steady : ¬ Stutters T) :
    ∃ τ u E', body.Derives Node.Passing fs.opened true (E.reset body.walk) τ u E' ∧
      ¬ Stutters (T ++ τ) ∧ (letters es = [] ↔ τ = []) ∧
      Ready root q body fs (i + 1) E' (T ++ τ) m' ∧
      Replays root multiline (.quantifier q body :: body.walk) fs T m τ
        (u || q.count.isUnbounded && !(word τ).isEmpty) E'
        (offer q fs i ++ .skip (fs.inIteration q i) :: es) m' := by
  have inside := sits.inIteration i
  have fits := ready.fits sits
  obtain ⟨w₁, w₂, m₁, -, offered, absorbs⟩ := absorbs.exists_of_append
  obtain ⟨-, rfl⟩ := (steady_offer ready.steady _ i).unique offered
  cases absorbs with
  | cons entered absorbs =>
    obtain ⟨rfl, rfl⟩ := Prod.mk.inj (Option.some.inj entered)
    obtain ⟨τ, u, E', h, steady', hr⟩ := ih inside fits ht absorbs steady
    refine ⟨τ, u, E', h, steady', hr.quiet (by simp [Frames.inIteration, Stream.iterationFrame]),
      ?_, replays_iteration sits ready hr⟩
    exact ready_succ sits ready hr.leaves (known_of_derives inside.mem h fits.known)

/-- **All iterations**, from iteration `i` on.  The induction is on the rounds of the way, and the
counter of idle iterations is that of what happens, as events tell. -/
theorem exists_passes_of_rounds (ih : Retraces root multiline body)
    (ordered : q.count.IsOrdered) (sits : Sits root (.quantifier q body :: body.walk) fs)
    {idle : Nat} {ended : Bool} (rounds : Rounds q fs (body.Traverses multiline) i idle es ended) :
    ended = false → ∀ {E : Contents} {T : List Happening} {m : Memory} {w : List Atom},
      Ready root q body fs i E T m →
      Memory.Absorbs ⟨Index.ofNode root, multiline⟩ m es w m' → ¬ Stutters T →
      ∃ τs v E', Passes q i idle τs ∧
        Iterated (body.Derives Node.Passing fs.opened true) (·.reset body.walk) τs E v E' ∧
        ¬ Stutters (T ++ τs.flatten) ∧
        Replays root multiline (.quantifier q body :: body.walk) fs T m τs.flatten
          (v || q.count.isUnbounded && !(word τs.flatten).isEmpty) E' es m' := by
  induction rounds with
  | @exhausted i idle hx =>
    intro _ E T m w ready absorbs steady
    obtain ⟨most, hm, hle⟩ := Count.exists_of_isExhausted hx
    have needs := ordered most hm
    have stays : Replays root multiline (.quantifier q body :: body.walk) fs T m [] false E [] m :=
      .nil ready.holds ready.recent
    refine ⟨[], false, E, .leave (by omega), .none E, by simpa using steady, ?_⟩
    simpa using stays.memory absorbs
  | @leave i idle hx hm =>
    intro _ E T m w ready absorbs steady
    have stays : Replays root multiline (.quantifier q body :: body.walk) fs T m [] false E [] m :=
      .nil ready.holds ready.recent
    refine ⟨[], false, E, .leave hm, .none E, by simpa using steady, ?_⟩
    simpa using (stays.event (.inr (.inr rfl)) ready.steady).memory absorbs
  | ends => simp
  | @idles i idle es hx hb quiet hi =>
    intro _ E T m w ready absorbs steady
    obtain ⟨τ, u, E', h, steady', silent, -, hr⟩ :=
      exists_derives_iteration ih sits ready hb absorbs steady
    obtain rfl := silent.mp quiet
    exact ⟨[[]], _, E', .idles hx hi, .more h (.none E'), by simpa using steady',
      by simpa using hr⟩
  | @next i idle idle' es es' ended hx hb hi lt _ ih' =>
    intro he E T m w ready absorbs steady
    have split : offer q fs i ++ .skip (fs.inIteration q i) :: (es ++ es') =
        (offer q fs i ++ .skip (fs.inIteration q i) :: es) ++ es' := by simp
    rw [split] at absorbs ⊢
    obtain ⟨w₁, w₂, m₁, -, first, later⟩ := absorbs.exists_of_append
    obtain ⟨τ, u, E₁, h, steady₁, silent, ready₁, hr⟩ :=
      exists_derives_iteration ih sits ready hb first steady
    obtain ⟨τs, v, E', passes, rest, steady', hr'⟩ := ih' he ready₁ later steady₁
    refine ⟨τ :: τs, u || v, E', .next hx ?_ lt passes, .more h rest, ?_, ?_⟩
    · rw [hi]
      simp only [silent]
    · rwa [List.flatten_cons, ← List.append_assoc]
    · rw [List.flatten_cons, ← unbounded_append]
      exact hr.trans hr'

end Iterations

/-! ## 4. Whole ways

One case for each kind of node, by recursion on the tree.  Sequences take the events apart where
one element ends, and the other kinds hand theirs on. -/

section Simulation

variable {root body : Node} {multiline : Bool}

theorem retraces_atom (root : Node) (multiline : Bool) (a : Atom) :
    Retraces root multiline (.atom a) := by
  intro fs E T m m' es w sits fits ht absorbs steady
  obtain ⟨rfl, -⟩ := ht
  exact ⟨_, _, E, ⟨rfl, rfl, rfl⟩, not_stutters_consumed steady a,
    (replays_atom sits fits a).memory absorbs⟩

/-- An anchor only lets the walk pass, as a plain tree has no end anchors. -/
theorem retraces_anchor (plain : Plain root.walk) (multiline : Bool) (s : Site) (k : Anchor) :
    Retraces root multiline (.anchor s k) := by
  intro fs E T m m' es w sits fits ht absorbs steady
  have stays : Replays root multiline (Node.anchor s k).walk fs T m [] false E [] m :=
    .nil fits.holds fits.recent
  have mem := sits.mem _ (Node.mem_walk_self _)
  refine ⟨[], false, E, ⟨rfl, rfl, rfl⟩, by simpa using steady, ?_⟩
  unfold Node.Traverses at ht
  split at ht
  · obtain ⟨rfl, -⟩ := ht
    exact (stays.event (.inr (.inl rfl)) fits.steady).memory absorbs
  · exact absurd (plain _ mem) (by simp [Node.isPlain])
  · obtain ⟨rfl, -⟩ := ht
    exact (stays.event (.inl rfl) fits.steady).memory absorbs

/-- A reference repeats what the group holds, or it stands for nothing. -/
theorem retraces_reference (plain : Plain root.walk) (multiline : Bool) (r : Reference) :
    Retraces root multiline (.reference r) := by
  intro fs E T m m' es w sits fits ht absorbs steady
  obtain ⟨rfl, -⟩ := ht
  by_cases empty : E.recalled fs.opened r = []
  · have steady' := not_stutters_of_absorbs plain fits empty absorbs steady
    obtain ⟨m₁, hr⟩ := exists_replays_nil multiline plain fits empty rfl steady'
    exact ⟨_, false, E, ⟨by rw [if_pos empty], fun full => absurd empty full, rfl, rfl⟩, steady',
      hr.memory absorbs⟩
  · have bounded := bounded_of_absorbs plain fits empty absorbs
    obtain ⟨m₁, hr⟩ := exists_replays_cons multiline plain sits fits empty bounded
    exact ⟨_, false, E, ⟨by rw [if_neg empty], fun _ => bounded, rfl, rfl⟩,
      not_stutters_map_consumed _ steady, hr.memory absorbs⟩

/-- A group is gone through as its body is, and a capture group records it. -/
theorem retraces_group (plain : Plain root.walk) {g : Group} (ih : Retraces root multiline body) :
    Retraces root multiline (.group g body) := by
  intro fs E T m m' es w sits fits ht absorbs steady
  have hl := plain.isLookaround (sits.mem _ (Node.mem_walk_self _))
  simp only [Node.Traverses, hl, Bool.false_eq_true, if_false] at ht
  rw [Node.walk] at sits fits ⊢
  cases hg : g.isCapture with
  | true =>
    obtain ⟨τ, u, E', h, steady', hr⟩ := ih (sits.capture hg) (fits.capture hg) ht absorbs steady
    rw [Frames.opened_capture hg] at h
    exact ⟨τ, u, _, Node.derives_capture hg h, steady', hr.capture sits fits hg⟩
  | false =>
    obtain ⟨τ, u, E', h, steady', hr⟩ := ih (sits.group hg) (fits.group hg) ht absorbs steady
    rw [Frames.opened_of_not_capture hg] at h
    exact ⟨τ, u, E', Node.derives_group hg h, steady', hr.group hg⟩

mutual

/-- **A way through a sound node whose events are absorbed is a derivation** that a stream can do
and that does not stutter.  It does not look at memories again, except by way of what the
derivation is known to leave. -/
theorem retraces (plain : Plain root.walk) : ∀ n : Node, (∀ k ∈ n.walk, k.IsSound) →
    Retraces root multiline n
  | .atom a, _ => retraces_atom root multiline a
  | .anchor s k, _ => retraces_anchor plain multiline s k
  | .reference r, _ => retraces_reference plain multiline r
  | .group g body, sound =>
    retraces_group plain (retraces plain body fun k hk => sound k (by simp [Node.walk, hk]))
  | .quantifier q body, sound => by
    intro fs E T m m' es w sits fits ht absorbs steady
    have inner : ∀ k ∈ body.walk, k.IsSound := fun k hk => sound k (by simp [Node.walk, hk])
    have ordered : q.count.IsOrdered := sound (.quantifier q body) (by simp [Node.walk])
    obtain ⟨es', rfl, rounds⟩ := ht
    have absorbs' := Event.Idle.absorbs (.inl rfl) fits.steady absorbs
    obtain ⟨τs, v, E', passes, h, steady', hr⟩ := exists_passes_of_rounds
      (retraces plain body inner) ordered sits rounds rfl fits.ready absorbs' steady
    exact ⟨_, _, E', ⟨τs, v, passes, h, rfl, rfl⟩, steady', hr.event (.inl rfl) fits.steady⟩
  | .sequence s ns, sound => by
    intro fs E T m m' es w sits fits ht absorbs steady
    obtain ⟨τ, u, E', h, steady', hr⟩ := retracesAll plain ns
      (fun k hk => sound k (by simp [Node.walk, hk])) sits.tail fits.tail ht absorbs steady
    exact ⟨τ, u, E', h, steady', hr.cons⟩
  | .alternation s ns, sound => by
    intro fs E T m m' es w sits fits ht absorbs steady
    have nonempty : ns ≠ [] := sound (.alternation s ns) (by simp [Node.walk])
    obtain ⟨τ, u, E', h, steady', hr⟩ := retracesOne plain ns nonempty
      (fun k hk => sound k (by simp [Node.walk, hk])) sits.tail fits.tail ht absorbs steady
    exact ⟨τ, u, E', h, steady', hr.cons⟩

theorem retracesAll (plain : Plain root.walk) : ∀ ns : List Node,
    (∀ k ∈ Node.walkAll ns, k.IsSound) → ∀ {fs : Frames} {E : Contents} {T : List Happening}
      {m m' : Memory} {es : List (Event Unit)} {w : List Atom},
      Sits root (Node.walkAll ns) fs → Fits root (Node.walkAll ns) fs E T m →
      Node.TraversesAll multiline ns fs es false →
      Memory.Absorbs ⟨Index.ofNode root, multiline⟩ m es w m' → ¬ Stutters T →
      ∃ τ u E', Node.DerivesAll Node.Passing ns fs.opened (!fs.iterations.isEmpty) E τ u E' ∧
        ¬ Stutters (T ++ τ) ∧ Replays root multiline (Node.walkAll ns) fs T m τ u E' es m'
  | [], _, fs, E, T, m, m', es, w, _, fits, ht, absorbs, steady => by
    obtain ⟨rfl, -⟩ := ht
    have stays : Replays root multiline (Node.walkAll []) fs T m [] false E [] m :=
      .nil fits.holds fits.recent
    exact ⟨[], false, E, ⟨rfl, rfl, rfl⟩, by simpa using steady, stays.memory absorbs⟩
  | n :: ns, sound, fs, E, T, m, m', es, w, sits, fits, ht, absorbs, steady => by
    obtain ⟨es₁, es₂, rfl, ht₁, ht₂⟩ := ht.resolve_left (by simp)
    rw [Node.walkAll] at sits fits ⊢
    obtain ⟨w₁, w₂, m₁, -, absorbs₁, absorbs₂⟩ := absorbs.exists_of_append
    obtain ⟨τ₁, u₁, E₁, h₁, steady₁, hr₁⟩ := retraces plain n
      (fun k hk => sound k (by simp [Node.walkAll, hk])) sits.left fits.left ht₁ absorbs₁ steady
    have fits₁ := hr₁.leaves.fits sits fits (known_of_derives sits.left.mem h₁ fits.known)
    obtain ⟨τ₂, u₂, E', h₂, steady₂, hr₂⟩ := retracesAll plain ns
      (fun k hk => sound k (by simp [Node.walkAll, hk])) sits.right fits₁ ht₂ absorbs₂ steady₁
    exact ⟨_, _, E', ⟨τ₁, τ₂, u₁, u₂, E₁, h₁, h₂, rfl, rfl⟩, by rwa [← List.append_assoc],
      hr₁.left.trans hr₂.right⟩

theorem retracesOne (plain : Plain root.walk) : ∀ ns : List Node, ns ≠ [] →
    (∀ k ∈ Node.walkAll ns, k.IsSound) → ∀ {fs : Frames} {E : Contents} {T : List Happening}
      {m m' : Memory} {es : List (Event Unit)} {w : List Atom},
      Sits root (Node.walkAll ns) fs → Fits root (Node.walkAll ns) fs E T m →
      Node.TraversesOne multiline ns fs es false →
      Memory.Absorbs ⟨Index.ofNode root, multiline⟩ m es w m' → ¬ Stutters T →
      ∃ τ u E', Node.DerivesOne Node.Passing ns fs.opened (!fs.iterations.isEmpty) E τ u E' ∧
        ¬ Stutters (T ++ τ) ∧ Replays root multiline (Node.walkAll ns) fs T m τ u E' es m'
  | [], hne, _, _, _, _, _, _, _, _, _, _, _, _, _ => absurd rfl hne
  | [n], _, sound, fs, E, T, m, m', es, w, sits, fits, ht, absorbs, steady => by
    rw [Node.walkAll] at sits fits ⊢
    obtain ⟨τ, u, E', h, steady', hr⟩ := retraces plain n
      (fun k hk => sound k (by simp [Node.walkAll, hk])) sits.left fits.left ht absorbs steady
    exact ⟨τ, u, E', .inl h, steady', hr.left⟩
  | n :: k :: ns, _, sound, fs, E, T, m, m', es, w, sits, fits, ht, absorbs, steady => by
    rw [Node.walkAll] at sits fits sound ⊢
    obtain ⟨es', rfl, ht⟩ := ht
    have absorbs' := Event.Idle.absorbs (.inr (.inr rfl)) fits.steady absorbs
    rcases ht with ht | ht
    · obtain ⟨τ, u, E', h, steady', hr⟩ := retraces plain n
        (fun k hk => sound k (List.mem_append_left _ hk)) sits.left fits.left ht absorbs' steady
      exact ⟨τ, u, E', .inl h, steady', hr.left.event (.inr (.inr rfl)) fits.steady⟩
    · obtain ⟨τ, u, E', h, steady', hr⟩ := retracesOne plain (k :: ns) (by simp)
        (fun k hk => sound k (List.mem_append_right _ hk)) sits.right fits.right ht absorbs' steady
      exact ⟨τ, u, E', .inr h, steady', hr.right.event (.inr (.inr rfl)) fits.steady⟩

end

end Simulation

/-! ## 5. Streams of a plain tree

Ways through a node are about paths outside of lookarounds.  In a plain tree there is nothing to
enter, which has to be seen along the walk, since a path does not know of the tree it comes
from. -/

/-- The task is about nodes below the root and outside of lookarounds. -/
def Task.Clear (root : Node) (t : Task) : Prop :=
  t.From root ∧ Frames.lookarounds t.frames = []

/-- In a plain tree nothing leads into a lookaround. -/
theorem Task.lasting_clear {root : Node} (plain : Plain root.walk) :
    Lasting (Task.Clear root) := by
  intro _ t u unfolds h
  refine ⟨lasting_from root unfolds h.1, ?_⟩
  cases unfolds with
  | inside g body fs =>
    exact (Stream.lookarounds_cons_group (plain.isLookaround h.1.mem) fs).trans h.2
  | finish g body fs =>
    exact (Stream.lookarounds_cons_group (plain.isLookaround h.1.mem) fs).trans h.2
  | _ => exact h.2

namespace Stream

variable {root : Node} {multiline : Bool}

/-- What is left to do is below the root and outside of lookarounds. -/
def Clear (root : Node) (todo : List Task) : Prop := ∀ t ∈ todo, t.Clear root

/-- **A stream of a plain tree stays outside of lookarounds.**  A lookaround would have to be in
the tree, and there is none. -/
theorem clear_next (plain : Plain root.walk) {s t : Stream} {e : Event Stream}
    (h : Clear root s.todo) (hn : step multiline s = some (e, t)) :
    Frames.lookarounds e.frames = [] ∧ Clear root t.todo ∧
      ∀ fs b, e = .split fs b → Clear root b.todo := by
  have hn : nextFrom multiline s.consumed s.todo = (e, t) := Option.some.inj hn
  have shows := shows_nextFrom multiline s.consumed (Task.lasting_clear plain) h
  rw [hn] at shows
  refine ⟨?_, shows.onward, fun fs b he => shows.aside he⟩
  rcases shows.place with rfl | ⟨u, clear, place⟩
  · rfl
  · exact place ▸ clear.2

/-- The paths of a plain tree stay outside of lookarounds. -/
theorem outside_of_plain (plain : Plain root.walk) {s : Stream} {es : List (Event Unit)}
    (hp : Path (step multiline) s es) : Clear root s.todo → Outside es := by
  induction hp with
  | stop hn =>
    intro h
    exact outside_single (clear_next plain h hn).1
  | @cons s t e es hs _ ih =>
    intro h
    have plain_frames : e.plain.frames = e.frames := by cases e <;> rfl
    refine outside_cons.mpr ?_
    rw [plain_frames]
    cases hs with
    | onward hn _ =>
      obtain ⟨frames, later, -⟩ := clear_next plain h hn
      exact ⟨frames, ih later⟩
    | aside hn =>
      obtain ⟨frames, -, aside⟩ := clear_next plain h hn
      exact ⟨frames, ih (aside _ _ rfl)⟩

end Stream

/-! ## 6. Paths of a pattern

The two directions are put together here.  A path of the resolver is made of absorbed events, the
events are a way through the tree, and the way is a derivation. -/

theorem not_ended_of_rounds {q : Quantifier} {fs : Frames}
    {B : Frames → List (Event Unit) → Bool → Prop} (hB : ∀ {fs es ended}, B fs es ended →
      ended = false) {i idle : Nat} {es : List (Event Unit)} {ended : Bool}
    (h : Rounds q fs B i idle es ended) : ended = false := by
  induction h with
  | exhausted => rfl
  | leave => rfl
  | ends _ hb => exact hB hb
  | idles => rfl
  | next _ _ _ _ _ ih => exact ih

mutual

/-- Without end anchors, no walk ends inside of a node. -/
theorem not_ended_of_plain {multiline : Bool} : ∀ n : Node, Plain n.walk → ∀ {fs : Frames}
    {es : List (Event Unit)} {ended : Bool}, n.Traverses multiline fs es ended → ended = false
  | .atom a, _, _, _, _, h => h.2
  | .reference r, _, _, _, _, h => h.2
  | .anchor s k, plain, fs, es, ended, h => by
    have := plain _ (Node.mem_walk_self _)
    unfold Node.Traverses at h
    split at h
    · exact h.2
    · simp [Node.isPlain] at this
    · exact h.2
  | .group g body, plain, fs, es, ended, h => by
    rw [Node.Traverses] at h
    split at h
    · exact h.2
    · exact not_ended_of_plain body (fun k hk => plain k (by simp [Node.walk, hk])) h
  | .quantifier q body, plain, fs, es, ended, h => by
    obtain ⟨es', -, h⟩ := h
    exact not_ended_of_rounds
      (not_ended_of_plain body fun k hk => plain k (by simp [Node.walk, hk])) h
  | .sequence s ns, plain, fs, es, ended, h =>
    not_endedAll_of_plain ns (fun k hk => plain k (by simp [Node.walk, hk])) h
  | .alternation s ns, plain, fs, es, ended, h =>
    not_endedOne_of_plain ns (fun k hk => plain k (by simp [Node.walk, hk])) h

theorem not_endedAll_of_plain {multiline : Bool} : ∀ ns : List Node, Plain (Node.walkAll ns) →
    ∀ {fs : Frames} {es : List (Event Unit)} {ended : Bool},
      Node.TraversesAll multiline ns fs es ended → ended = false
  | [], _, _, _, _, h => h.2
  | n :: ns, plain, fs, es, ended, h => by
    rcases h with ⟨-, h⟩ | ⟨es₁, es₂, -, -, h⟩
    · simpa using not_ended_of_plain n (fun k hk => plain k (by simp [Node.walkAll, hk])) h
    · exact not_endedAll_of_plain ns (fun k hk => plain k (by simp [Node.walkAll, hk])) h

theorem not_endedOne_of_plain {multiline : Bool} : ∀ ns : List Node, Plain (Node.walkAll ns) →
    ∀ {fs : Frames} {es : List (Event Unit)} {ended : Bool},
      Node.TraversesOne multiline ns fs es ended → ended = false
  | [], _, _, _, _, h => h.2
  | [n], plain, _, _, _, h =>
    not_ended_of_plain n (fun k hk => plain k (by simp [Node.walkAll, hk])) h
  | n :: m :: ns, plain, fs, es, ended, h => by
    rw [Node.walkAll] at plain
    obtain ⟨es', -, h | h⟩ := h
    · exact not_ended_of_plain n (fun k hk => plain k (List.mem_append_left _ hk)) h
    · exact not_endedOne_of_plain (m :: ns) (fun k hk => plain k (List.mem_append_right _ hk)) h

end

/-- **A path along which no group is matched anew comes from a derivation** that is spread and
does not stutter.  The path is taken apart into absorbed events, these are a way through the tree,
and the way is retraced. -/
theorem exists_derives_of_path {p : Pattern} (wf : p.IsWellFormed) (plain : Plain p.root.walk)
    {es : List (Event Unit)} (hp : Path (Resolver.faithful (.ofPattern p)) (.ofPattern p) es) :
    ∃ τ u E, p.root.Derives p.root.Spreads [] false .empty τ u E ∧ ¬ Stutters τ ∧
      letters es = (word τ).map .atom := by
  have start : Path (Resolver.faithful (.ofPattern p))
      { Memory.initial.resolver (Stream.ofNode p.root) [] with pending := [] } es := hp
  obtain ⟨es₁, w, m, hp₁, absorbs, hl⟩ := Memory.exists_absorbs [] start
  have clear : Stream.Clear p.root (Stream.ofNode p.root).todo := by
    simp [Stream.Clear, Stream.ofNode, Task.Clear, Task.From, Task.frames, Node.Below.refl,
      Frames.lookarounds]
  have outside := Stream.outside_of_plain plain hp₁ clear
  obtain ⟨es₀, ended, ht, rfl⟩ := Stream.path_ofNode_iff.mp ⟨hp₁, outside⟩
  obtain rfl := not_ended_of_plain p.root plain ht
  obtain ⟨w₁, w₂, m₁, rfl, first, last⟩ := absorbs.exists_of_append
  obtain ⟨rfl, -⟩ := last.unique (.single rfl)
  obtain ⟨τ, u, E, h, steady, hr⟩ := retraces plain p.root wf.sound (sits_root wf)
    (fits_initial p.root) ht first (by simp [Stutters])
  obtain ⟨rfl, -⟩ := hr.absorbs.unique first
  exact ⟨τ, u, E, Node.spreads_of_passing p.root wf.sound h, steady, by simpa using hl⟩

/-- **What a resolver follows are the derivations that are spread and do not stutter.**  For a
parsed pattern without lookarounds and without end anchors, the words of these derivations are
those of the paths that end, as long as a reference to a group that holds nothing stands for
nothing, and the group is not matched anew for it. -/
theorem exists_path_iff_derives {source : Bytes} {flags : Flags} {p : Pattern}
    (parsed : Pattern.parse source flags = .ok p) (plain : Plain p.root.walk) (w : List Atom) :
    (∃ es, Path (Resolver.step (.ofPattern p)) (.ofPattern p) es ∧
      Path (Resolver.faithful (.ofPattern p)) (.ofPattern p) es ∧ letters es = w.map .atom) ↔
    ∃ τ u E, p.root.Derives p.root.Spreads [] false .empty τ u E ∧ ¬ Stutters τ ∧ word τ = w := by
  have wf := Pattern.isWellFormed_of_parse parsed
  constructor
  · rintro ⟨es, -, hp, hl⟩
    obtain ⟨τ, u, E, h, steady, hl'⟩ := exists_derives_of_path wf plain hp
    refine ⟨τ, u, E, h, steady, ?_⟩
    exact List.map_inj_right (by simp) |>.mp (hl'.symm.trans hl)
  · rintro ⟨τ, u, E, h, steady, rfl⟩
    obtain ⟨es, hp, hl⟩ := exists_path_of_derives wf plain h steady
    exact ⟨es, hp.mono Resolver.step_of_faithful, hp, hl⟩

/-- In `(?:(a)|){2}\1` the first iteration may be idle.  The second one is then the first to
match, and the reference repeats its match. -/
theorem exists_path_after_idle_iteration :
    ∃ p a, Pattern.parse (Bytes.ofString "(?:(a)|)\x7b2\x7d\\1") {} = .ok p ∧ Plain p.root.walk ∧
      (∃ u E, p.root.Derives p.root.Spreads [] false .empty [.consumed a, .consumed a] u E) ∧
      ¬ Stutters [.consumed a, .consumed a] ∧
      ∃ es, Path (Resolver.step (.ofPattern p)) (.ofPattern p) es ∧
        Path (Resolver.faithful (.ofPattern p)) (.ofPattern p) es ∧
        letters es = [a, a].map .atom := by
  let a : Atom := ⟨⟨1, 4, 5⟩, .char 97⟩
  let q : Quantifier := ⟨⟨6, 0, 11⟩, ⟨2, some 2, false⟩⟩
  let body : Node := .group ⟨⟨5, 0, 8⟩, .nonCapture, 0, []⟩ (.alternation ⟨4, 3, 7⟩
    [.group ⟨⟨2, 3, 6⟩, .capture, 1, []⟩ (.atom a), .sequence ⟨3, 7, 7⟩ []])
  let p : Pattern :=
    { source := Bytes.ofString "(?:(a)|)\x7b2\x7d\\1"
      flags := {}
      root := .sequence ⟨8, 0, 13⟩ [.quantifier q body, .reference ⟨⟨7, 11, 13⟩, 1, []⟩]
      captures := 1 }
  have parsed : Pattern.parse (Bytes.ofString "(?:(a)|)\x7b2\x7d\\1") {} = .ok p := by
    with_unfolding_all rfl
  have plain : Plain p.root.walk := by decide
  have steady : ¬ Stutters [.consumed a, .consumed a] := by
    rintro ⟨r, h⟩
    simpa using h.subset List.mem_cons_self
  have idle : ∀ E, body.Derives p.root.Spreads [] true E [] false E := fun E =>
    Node.derives_group rfl (.inr (.inl ⟨rfl, rfl, rfl⟩))
  have busy : ∀ E, body.Derives p.root.Spreads [] true E [.consumed a] false
      (E.set 1 ⟨[a], false⟩) := fun E =>
    Node.derives_group rfl (.inl (Node.derives_capture rfl ⟨rfl, rfl, rfl⟩))
  have iterations : ∃ E, (Node.quantifier q body).Derives p.root.Spreads [] false .empty
      [.consumed a] false E ∧ E 1 = ⟨[a], false⟩ :=
    ⟨_, ⟨[[], [.consumed a]], _, ⟨⟨by decide, by simp [q]⟩, .inr (.inr (by decide))⟩,
      .more (idle _) (.more (busy _) (.none _)), rfl, rfl⟩, rfl⟩
  obtain ⟨E, iterations, holds⟩ := iterations
  have derives : p.root.Derives p.root.Spreads [] false .empty [.consumed a, .consumed a] false
      E := by
    refine ⟨_, _, _, _, E, iterations, ⟨[.consumed a], [], false, false, E, ?_, ⟨rfl, rfl, rfl⟩,
      rfl, rfl⟩, rfl, rfl⟩
    simp [Node.Derives, Contents.recalled, holds]
  exact ⟨p, a, parsed, plain, ⟨_, _, derives⟩, steady,
    (exists_path_iff_derives parsed plain [a, a]).mpr ⟨_, _, _, derives, steady, rfl⟩⟩

/-! ## 7. Derivations that are lost

Neither condition on derivations can be left out.  That there is no path for a word
is seen by listing the words of all paths. -/

section Endings

variable {σ : Type} {next : σ → Option (Event σ × σ)}

/-- The words of all paths, as numbers of nodes; nothing, if some path has more than `n` events. -/
def endings (next : σ → Option (Event σ × σ)) : Nat → σ → Option (List (List Nat))
  | 0, _ => none
  | n + 1, s =>
    match next s with
    | some (.stop _ _, _) => some [[]]
    | some (.split _ b, t) => do return (← endings next n t) ++ (← endings next n b)
    | some (e, t) =>
      if e.isTerminal then some []
      else (endings next n t).map (·.map ((letters [e.plain]).map Node.id ++ ·))
    | none => some []

/-- No path is left out. -/
theorem mem_endings : ∀ {n : Nat} {s : σ} {ws : List (List Nat)} {es : List (Event Unit)},
    endings next n s = some ws → Path next s es → (letters es).map Node.id ∈ ws
  | 0, _, _, _, h, _ => by simp [endings] at h
  | n + 1, s, ws, es, h, hp => by
    rw [endings] at h
    cases hp with
    | stop hn =>
      simp only [hn, Option.some.injEq] at h
      simp [← h]
    | @cons _ t e es hs hp =>
      rw [letters_cons, List.map_append]
      cases hs with
      | aside hn =>
        simp only [hn, Option.pure_def, Option.bind_eq_bind, Option.bind_eq_some_iff,
          Option.some.injEq] at h
        obtain ⟨vs, -, us, hb, rfl⟩ := h
        exact List.mem_append_right _ (mem_endings hb hp)
      | onward hn ht =>
        rw [hn] at h
        cases e with
        | split fs b =>
          simp only [Option.pure_def, Option.bind_eq_bind, Option.bind_eq_some_iff,
            Option.some.injEq] at h
          obtain ⟨vs, hv, us, -, rfl⟩ := h
          exact List.mem_append_left _ (mem_endings hv hp)
        | stop | abort | done => simp [Event.isTerminal] at ht
        | _ =>
          simp only [ht, Bool.false_eq_true, if_false] at h
          obtain ⟨vs, hv, rfl⟩ := Option.map_eq_some_iff.mp h
          exact List.mem_map_of_mem (mem_endings hv hp)

end Endings

/-- A parsed pattern has a derivation, but no path for it. -/
def LosesDerivation (source : Bytes) : Prop :=
  ∃ p τ u E, Pattern.parse source {} = .ok p ∧ Plain p.root.walk ∧
    p.root.Derives Node.Counted [] false .empty τ u E ∧
    ∀ es, Path (Resolver.step (.ofPattern p)) (.ofPattern p) es → letters es ≠ (word τ).map .atom

/-- Listing the words of all paths shows that a derivation is lost. -/
theorem losesDerivation_of_endings {source : Bytes} {p : Pattern} {τ : List Happening} {u : Bool}
    {E : Contents} (parsed : Pattern.parse source {} = .ok p) (plain : Plain p.root.walk)
    (h : p.root.Derives Node.Counted [] false .empty τ u E) (n : Nat)
    (missing : ((endings (Resolver.step (.ofPattern p)) n (.ofPattern p)).any fun ws =>
      !ws.contains ((word τ).map (·.site.id))) = true) : LosesDerivation source := by
  refine ⟨p, τ, u, E, parsed, plain, h, ?_⟩
  intro es hp heq
  obtain ⟨ws, hw, hne⟩ := (Option.any_eq_true _ _).mp missing
  have mem := mem_endings hw hp
  rw [heq, List.map_map] at mem
  simp only [Bool.not_eq_true', List.contains_eq_mem, decide_eq_false_iff_not] at hne
  exact hne mem

/-- In `(?:\1){2}(a)` the group is unset, and the reference comes around once.  The resolver takes
it for one that would do so forever. -/
theorem losesDerivation_of_stutter :
    LosesDerivation (Bytes.ofString "(?:\\1)\x7b2\x7d(a)") := by
  let a : Atom := ⟨⟨4, 10, 11⟩, .char 97⟩
  let r : Reference := ⟨⟨1, 3, 5⟩, 1, []⟩
  let p : Pattern :=
    { source := Bytes.ofString "(?:\\1)\x7b2\x7d(a)"
      flags := {}
      root := .sequence ⟨6, 0, 12⟩
        [.quantifier ⟨⟨3, 0, 9⟩, ⟨2, some 2, false⟩⟩
          (.group ⟨⟨2, 0, 6⟩, .nonCapture, 0, []⟩ (.reference r)),
        .group ⟨⟨5, 9, 12⟩, .capture, 1, []⟩ (.atom a)]
      captures := 1 }
  have parsed : Pattern.parse (Bytes.ofString "(?:\\1)\x7b2\x7d(a)") {} = .ok p := by
    with_unfolding_all rfl
  have passed : (Node.group ⟨⟨2, 0, 6⟩, .nonCapture, 0, []⟩ (.reference r)).Derives Node.Counted []
      true .empty [.passed r] false .empty :=
    Node.derives_group rfl ⟨rfl, fun h => absurd rfl h, rfl, rfl⟩
  have derives : p.root.Derives Node.Counted [] false .empty
      [.passed r, .passed r, .consumed a] false (Contents.empty.set 1 ⟨[a], false⟩) := by
    refine ⟨[.passed r, .passed r], [.consumed a], _, _, .empty,
      ⟨[[.passed r], [.passed r]], _, ⟨by decide, by simp⟩, .more passed (.more passed (.none _)),
        rfl, rfl⟩, ?_, rfl, rfl⟩
    exact ⟨[.consumed a], [], _, _, _, Node.derives_capture rfl ⟨rfl, rfl, rfl⟩, ⟨rfl, rfl, rfl⟩,
      rfl, rfl⟩
  exact losesDerivation_of_endings parsed (by decide) derives 10 (by decide +kernel)

/-- In `(?:(a)|){3}b\1` the last of three iterations may be the only one that matches.  A stream
leaves the quantifier before it, and an idle iteration after it would reset the group. -/
theorem losesDerivation_of_late_capture :
    LosesDerivation (Bytes.ofString "(?:(a)|)\x7b3\x7db\\1") := by
  let a : Atom := ⟨⟨1, 4, 5⟩, .char 97⟩
  let b : Atom := ⟨⟨7, 11, 12⟩, .char 98⟩
  let body : Node := .group ⟨⟨5, 0, 8⟩, .nonCapture, 0, []⟩ (.alternation ⟨4, 3, 7⟩
    [.group ⟨⟨2, 3, 6⟩, .capture, 1, []⟩ (.atom a), .sequence ⟨3, 7, 7⟩ []])
  let p : Pattern :=
    { source := Bytes.ofString "(?:(a)|)\x7b3\x7db\\1"
      flags := {}
      root := .sequence ⟨9, 0, 14⟩ [.quantifier ⟨⟨6, 0, 11⟩, ⟨3, some 3, false⟩⟩ body, .atom b,
        .reference ⟨⟨8, 12, 14⟩, 1, []⟩]
      captures := 1 }
  have parsed : Pattern.parse (Bytes.ofString "(?:(a)|)\x7b3\x7db\\1") {} = .ok p := by
    with_unfolding_all rfl
  have idle : ∀ E, body.Derives Node.Counted [] true E [] false E := fun E =>
    Node.derives_group rfl (.inr (.inl ⟨rfl, rfl, rfl⟩))
  have busy : ∀ E, body.Derives Node.Counted [] true E [.consumed a] false
      (E.set 1 ⟨[a], false⟩) := fun E =>
    Node.derives_group rfl (.inl (Node.derives_capture rfl ⟨rfl, rfl, rfl⟩))
  obtain ⟨E, iterations, holds⟩ : ∃ E, (Node.quantifier ⟨⟨6, 0, 11⟩, ⟨3, some 3, false⟩⟩
      body).Derives Node.Counted [] false .empty [.consumed a] false E ∧ E 1 = ⟨[a], false⟩ :=
    ⟨_, ⟨[[], [], [.consumed a]], _, ⟨by decide, by simp⟩,
      .more (idle _) (.more (idle _) (.more (busy _) (.none _))), rfl, rfl⟩, rfl⟩
  have derives : p.root.Derives Node.Counted [] false .empty
      [.consumed a, .consumed b, .consumed a] false E := by
    refine ⟨_, [.consumed b, .consumed a], _, _, E, iterations, ⟨_, [.consumed a], _, _, E,
      ⟨rfl, rfl, rfl⟩, ⟨[.consumed a], [], false, false, E, ?_, ⟨rfl, rfl, rfl⟩, rfl, rfl⟩,
      rfl, rfl⟩, rfl, rfl⟩
    simp [Node.Derives, Contents.recalled, holds]
  exact losesDerivation_of_endings parsed (by decide) derives 20 (by decide +kernel)

/-- **Some derivations are lost**: one that stutters, and one that is not spread. -/
theorem loses_derivations :
    LosesDerivation (Bytes.ofString "(?:\\1)\x7b2\x7d(a)") ∧
      LosesDerivation (Bytes.ofString "(?:(a)|)\x7b3\x7db\\1") :=
  ⟨losesDerivation_of_stutter, losesDerivation_of_late_capture⟩

end Backtrack
