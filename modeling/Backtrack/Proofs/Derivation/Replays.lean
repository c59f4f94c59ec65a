/-
# A resolver replays derivations

Here the derivations of `Recall.lean` meet the memory of `Memory.lean`.  A derivation that a
stream can do is followed node by node: there is a way through the node whose events the memory
of the resolver can absorb, and what is consumed on the way is what the derivation consumes.

Two things are kept true on the way.

* `Fits`: before a node, the records are those the derivation knows of, none of them is stale, and
  none belongs to a group of the node.
* `Leaves`: after it, new records belong to groups of the node, made in the iterations that are
  current, or to groups around it, whose records have grown.

The main result, `exists_path_of_derives`, puts conditions on a derivation: it must not stutter,
and its iterations must be spread.
-/
import Backtrack.Proofs.Derivation.Memory
import Backtrack.Proofs.Derivation.Recall
import Backtrack.Proofs.Pattern.Places

namespace Backtrack

/-! ## 1. Where a node stands

That records of different groups do not get mixed up depends on where a node is met: no quantifier
and no group in it may be among the frames already.  This holds at the root, where numbers are
given once, and it is passed down to each kind of child. -/

/-- Quantifiers are told apart by the numbers of their nodes. -/
theorem nodup_quantifiersIn {ns : List Node} (h : (ns.map Node.id).Nodup) :
    (quantifiersIn ns).Nodup :=
  List.Pairwise.of_map _ (fun _ _ hne heq => hne (heq ▸ rfl))
    (h.sublist (map_quantifiersIn_sublist ns))

/-- Into iteration `i` of a quantifier. -/
abbrev Frames.inIteration (fs : Frames) (q : Quantifier) (i : Nat) : Frames :=
  Stream.iterationFrame q i :: fs

/-- Some nodes of a tree stand inside of frames: no quantifier and no group among them is also one
of the frames, and none comes twice. -/
structure Sits (root : Node) (ns : List Node) (fs : Frames) : Prop where
  mem : ∀ n ∈ ns, n ∈ root.walk
  quantifiers : (quantifiersIn ns ++ fs.quantifiers).Nodup
  groups : (captureIndexes ns ++ fs.opened).Nodup

namespace Sits

variable {root : Node} {ns ms : List Node} {fs : Frames}

theorem left (h : Sits root (ns ++ ms) fs) : Sits root ns fs := by
  refine ⟨fun n hn => h.mem n (List.mem_append_left _ hn), ?_, ?_⟩
  · have := h.quantifiers
    rw [quantifiersIn_append] at this
    exact this.sublist ((List.sublist_append_left _ _).append_right _)
  · have := h.groups
    rw [captureIndexes_append] at this
    exact this.sublist ((List.sublist_append_left _ _).append_right _)

theorem right (h : Sits root (ns ++ ms) fs) : Sits root ms fs := by
  refine ⟨fun n hn => h.mem n (List.mem_append_right _ hn), ?_, ?_⟩
  · have := h.quantifiers
    rw [quantifiersIn_append] at this
    exact this.sublist ((List.sublist_append_right _ _).append_right _)
  · have := h.groups
    rw [captureIndexes_append] at this
    exact this.sublist ((List.sublist_append_right _ _).append_right _)

theorem tail {n : Node} (h : Sits root (n :: ns) fs) : Sits root ns fs :=
  right (show Sits root ([n] ++ ns) fs from h)

/-- Into a capture group. -/
theorem capture {g : Group} {body : Node} (h : Sits root (.group g body :: ns) fs)
    (hg : g.isCapture = true) : Sits root ns (.group g :: fs) := by
  refine ⟨h.tail.mem, h.tail.quantifiers, ?_⟩
  rw [Frames.opened_capture hg, List.perm_middle.nodup_iff, ← List.cons_append,
    ← captureIndexes_capture hg body]
  exact h.groups

/-- Into a group that does not capture. -/
theorem group {g : Group} {body : Node} (h : Sits root (.group g body :: ns) fs)
    (hg : g.isCapture = false) : Sits root ns (.group g :: fs) := by
  refine ⟨h.tail.mem, h.tail.quantifiers, ?_⟩
  rw [Frames.opened_of_not_capture hg]
  exact h.tail.groups

/-- Into an iteration. -/
theorem inIteration {q : Quantifier} {body : Node} (h : Sits root (.quantifier q body :: ns) fs)
    (i : Nat) : Sits root ns (fs.inIteration q i) := by
  refine ⟨h.tail.mem, ?_, h.tail.groups⟩
  rw [Frames.inIteration, Stream.iterationFrame, Frames.quantifiers_iteration,
    List.perm_middle.nodup_iff]
  exact h.quantifiers

theorem nodup_opened (h : Sits root ns fs) : fs.opened.Nodup := (List.nodup_append.mp h.groups).2.1

theorem nodup_quantifiers (h : Sits root ns fs) : (fs.iterations.map (·.quantifier)).Nodup :=
  (List.nodup_append.mp h.quantifiers).2.1

theorem not_mem_opened (h : Sits root ns fs) {i : Nat} (hi : i ∈ captureIndexes ns) :
    i ∉ fs.opened := fun ho => (List.nodup_append.mp h.groups).2.2 i hi i ho rfl

theorem not_mem_quantifiers (h : Sits root ns fs) {q : Quantifier} (hq : q ∈ quantifiersIn ns) :
    q ∉ fs.quantifiers := fun ho => (List.nodup_append.mp h.quantifiers).2.2 q hq q ho rfl

end Sits

/-! ## 2. Before a node and after it

What holds before a node is not what holds after it, as a node leaves records of its own groups
behind.  `Leaves` says where all new records come from, and `Leaves.fits` that this is enough to
meet what comes next: records of one node do not concern another one. -/

/-- The records of groups that are not open are what the derivation knows of. -/
def Holds (fs : Frames) (E : Contents) (cs : Captures) : Prop :=
  ∀ i, i ∉ fs.opened →
    (cs.held i).entries.map (·.atom) = (E i).word ∧ (cs.held i).infinite = (E i).unbounded

/-- Nothing was consumed since the last reference that stood for nothing if, and only if, passing
it over was the last thing that happened. -/
structure Recent (T : List Happening) (m : Memory) : Prop where
  le : ∀ {r k}, m.lastEmpty = some (r, k) → k ≤ m.consumed
  last : ∀ {r}, m.lastEmpty = some (r, m.consumed) ↔ T.getLast? = some (.passed r)

/-- No record is stale inside of the frames. -/
def Steady (fs : Frames) (cs : Captures) : Prop :=
  ∀ e ∈ cs, e.2.isStale fs.iterations = false

/-- What is known before some nodes, after `T` has happened. -/
structure Fits (root : Node) (ns : List Node) (fs : Frames) (E : Contents) (T : List Happening)
    (m : Memory) : Prop where
  steady : Steady fs m.captures
  foreign : ∀ e ∈ m.captures, e.1 ∉ captureIndexes ns ∧
    ∀ k ∈ e.2.iterations, k.quantifier ∉ quantifiersIn ns
  holds : Holds fs E m.captures
  known : ∀ i, (E i).word ≠ [] → i ∈ captureIndexes root.walk
  recent : Recent T m

/-- Where a record comes from: it is an old one, or belongs to an open group, or to one of the
nodes. -/
def Source (ns : List Node) (fs : Frames) (cs : Captures) (e : Nat × Capture) : Prop :=
  e ∈ cs ∨ (∃ b, fs.enclosed e.1 false = some (b, e.2.iterations)) ∨
    e.1 ∈ captureIndexes ns ∧ ∃ inner, e.2.iterations = inner ++ fs.iterations ∧
      ∀ k ∈ inner, k.quantifier ∈ quantifiersIn ns

/-- What is known after some nodes, where `τ` has happened. -/
structure Leaves (ns : List Node) (fs : Frames) (T : List Happening) (m : Memory)
    (τ : List Happening) (u : Bool) (E' : Contents) (m' : Memory) : Prop where
  source : ∀ e ∈ m'.captures, Source ns fs m.captures e
  grown : ∀ {i b its}, fs.enclosed i false = some (b, its) →
    (m'.captures.held i).entries.map (·.atom) =
      (m.captures.held i).entries.map (·.atom) ++ word τ ∧
    (m'.captures.held i).infinite =
      ((m.captures.held i).infinite || u || b && !(word τ).isEmpty)
  holds : Holds fs E' m'.captures
  recent : Recent (T ++ τ) m'

section Sources

variable {root : Node} {ns ms : List Node} {fs : Frames} {E : Contents} {T : List Happening}
  {m : Memory} {e : Nat × Capture}

/-- A record made in current iterations is not stale. -/
theorem isStale_of_current {c : Capture} {its : List Iteration} (inner : List Iteration)
    (distinct : (its.map (·.quantifier)).Nodup) (h : c.iterations <:+ inner ++ its)
    (other : ∀ k ∈ inner, k.quantifier ∉ its.map (·.quantifier)) : c.isStale its = false := by
  rw [Capture.isStale_eq_false_iff distinct]
  intro k hk it hit hq
  rcases List.mem_append.mp (h.subset hk) with hk | hk
  · exact absurd (hq ▸ List.mem_map_of_mem hit) (other k hk)
  · have hk' := currentIteration?_of_mem distinct hk
    rw [← hq, currentIteration?_of_mem distinct hit] at hk'
    exact Option.some.inj hk'

/-- Records with a source are not stale. -/
theorem Source.steady (sits : Sits root ns fs) (steady : Steady fs m.captures)
    (h : Source ns fs m.captures e) : e.2.isStale fs.iterations = false := by
  rcases h with h | ⟨b, h⟩ | ⟨-, inner, h, hin⟩
  · exact steady e h
  · exact isStale_of_current [] sits.nodup_quantifiers (Frames.iterations_of_enclosed h) (by simp)
  · exact isStale_of_current inner sits.nodup_quantifiers (h ▸ List.suffix_rfl)
      fun k hk => sits.not_mem_quantifiers (hin k hk)

/-- Records with a source among some nodes have nothing to do with other nodes. -/
theorem Source.foreign (sits : Sits root (ns ++ ms) fs)
    (foreign : ∀ e ∈ m.captures, e.1 ∉ captureIndexes ms ∧
      ∀ k ∈ e.2.iterations, k.quantifier ∉ quantifiersIn ms)
    (h : Source ns fs m.captures e) :
    e.1 ∉ captureIndexes ms ∧ ∀ k ∈ e.2.iterations, k.quantifier ∉ quantifiersIn ms := by
  have around : ∀ k ∈ fs.iterations, k.quantifier ∉ quantifiersIn ms := fun k hk hq =>
    sits.right.not_mem_quantifiers hq (List.mem_map_of_mem hk)
  rcases h with h | ⟨b, h⟩ | ⟨hi, inner, h, hin⟩
  · exact foreign e h
  · exact ⟨fun hi => sits.right.not_mem_opened hi (Frames.mem_opened_of_enclosed h),
      fun k hk => around k ((Frames.iterations_of_enclosed h).subset hk)⟩
  · have groups := sits.groups
    have quantifiers := sits.quantifiers
    rw [captureIndexes_append, List.append_assoc, List.nodup_append] at groups
    rw [quantifiersIn_append, List.append_assoc, List.nodup_append] at quantifiers
    refine ⟨fun hi' => groups.2.2 _ hi _ (List.mem_append_left _ hi') rfl, ?_⟩
    intro k hk
    rw [h] at hk
    rcases List.mem_append.mp hk with hk | hk
    · exact fun hq => quantifiers.2.2 _ (hin k hk) _ (List.mem_append_left _ hq) rfl
    · exact around k hk

end Sources

namespace Leaves

variable {root : Node} {ns ms : List Node} {fs : Frames} {E E' : Contents} {T τ : List Happening}
  {m m' : Memory} {u : Bool}

/-- Nothing happens. -/
theorem refl (holds : Holds fs E m.captures) (recent : Recent T m) :
    Leaves ns fs T m [] false E m :=
  ⟨fun _ he => .inl he, fun _ => ⟨by simp, by simp⟩, holds, by rwa [List.append_nil]⟩

/-- After nodes in front, those behind can be met. -/
theorem fits (h : Leaves ns fs T m τ u E' m') (sits : Sits root (ns ++ ms) fs)
    (before : Fits root (ns ++ ms) fs E T m)
    (known : ∀ i, (E' i).word ≠ [] → i ∈ captureIndexes root.walk) :
    Fits root ms fs E' (T ++ τ) m' := by
  refine ⟨fun e he => (h.source e he).steady sits.left before.steady, ?_, h.holds,
    known, h.recent⟩
  intro e he
  refine (h.source e he).foreign sits ?_
  intro e he
  have := before.foreign e he
  rw [captureIndexes_append, quantifiersIn_append] at this
  simp only [List.mem_append, not_or] at this
  exact ⟨this.1.2, fun k hk => (this.2 k hk).2⟩

/-- Some nodes are among others. -/
theorem mono (h : Leaves ns fs T m τ u E' m')
    (groups : ∀ i ∈ captureIndexes ns, i ∈ captureIndexes ms)
    (quantifiers : ∀ q ∈ quantifiersIn ns, q ∈ quantifiersIn ms) :
    Leaves ms fs T m τ u E' m' := by
  refine ⟨?_, h.grown, h.holds, h.recent⟩
  intro e he
  refine (h.source e he).imp_right (Or.imp_right ?_)
  rintro ⟨hi, inner, hk, hin⟩
  exact ⟨groups _ hi, inner, hk, fun k hk => quantifiers _ (hin k hk)⟩

theorem left (h : Leaves ns fs T m τ u E' m') : Leaves (ns ++ ms) fs T m τ u E' m' := by
  refine h.mono ?_ ?_
  · intro i hi
    rw [captureIndexes_append]
    exact List.mem_append_left _ hi
  · intro q hq
    rw [quantifiersIn_append]
    exact List.mem_append_left _ hq

theorem right (h : Leaves ms fs T m τ u E' m') : Leaves (ns ++ ms) fs T m τ u E' m' := by
  refine h.mono ?_ ?_
  · intro i hi
    rw [captureIndexes_append]
    exact List.mem_append_right _ hi
  · intro q hq
    rw [quantifiersIn_append]
    exact List.mem_append_right _ hq

theorem cons {n : Node} (h : Leaves ns fs T m τ u E' m') : Leaves (n :: ns) fs T m τ u E' m' :=
  (right h : Leaves ([n] ++ ns) fs T m τ u E' m')

/-- Some nodes, and then the same or others. -/
theorem trans {E₁ : Contents} {m₁ : Memory} {τ₁ : List Happening} {u₁ : Bool}
    (h₁ : Leaves ns fs T m τ₁ u₁ E₁ m₁) (h : Leaves ns fs (T ++ τ₁) m₁ τ u E' m') :
    Leaves ns fs T m (τ₁ ++ τ) (u₁ || u) E' m' := by
  refine ⟨fun e he => ?_, fun hb => ?_, h.holds, by rw [← List.append_assoc]; exact h.recent⟩
  · rcases h.source e he with he | he
    · exact h₁.source e he
    · exact .inr he
  · obtain ⟨entries₁, infinite₁⟩ := h₁.grown hb
    obtain ⟨entries, infinite⟩ := h.grown hb
    refine ⟨?_, ?_⟩
    · rw [entries, entries₁, word_append, List.append_assoc]
    · rw [infinite, infinite₁, word_append]
      cases word τ₁ <;> cases word τ <;> simp <;> grind

end Leaves

/-! ## 3. One event

Since no record is stale where a node is met, nothing is dropped when an event is absorbed.  What
is left is to see what the event adds, for one character and, by induction, for several. -/

section Events

variable {root : Node} {ns : List Node} {fs : Frames} {E : Contents} {T : List Happening}
  {m : Memory}

/-- Where no record is stale, none is dropped. -/
theorem invalidate_of_steady {cs : Captures} (h : Steady fs cs) : cs.invalidate fs = cs :=
  List.filter_eq_self.mpr fun e he => by simp [h e he]

theorem enter_of_steady (h : Steady fs m.captures) : m.enter fs = m := by
  rw [Memory.enter, invalidate_of_steady h]

/-- **One character is consumed**, and recorded for every open group. -/
theorem leaves_consume (sits : Sits root ns fs) (steady : Steady fs m.captures)
    (holds : Holds fs E m.captures) (recent : Recent T m) (entry : Replay) :
    Leaves ns fs T m [.consumed entry.atom] false E (m.consume fs entry) := by
  have captures : (m.consume fs entry).captures = Captures.recordIn entry false fs m.captures := by
    rw [Memory.consume, invalidate_of_steady steady, Captures.record]
  refine ⟨?_, ?_, ?_, ?_⟩
  · intro e he
    rw [captures] at he
    exact (Captures.mem_recordIn _ _ _ sits.nodup_opened he).imp_right .inl
  · intro i b its hb
    rw [captures, Captures.held_recordIn _ _ _ sits.nodup_opened, hb]
    exact ⟨by simp [word], by simp [word]⟩
  · intro i hi
    rw [captures, Captures.held_recordIn _ _ _ sits.nodup_opened, Frames.enclosed_of_not_mem _ hi]
    exact holds i hi
  · refine ⟨fun hl => Nat.le_succ_of_le (recent.le hl), fun {r} => ⟨?_, by simp⟩⟩
    intro hl
    exact absurd (recent.le hl) (Nat.not_succ_le_self _)

/-- **Recorded characters are consumed one after the other.**  By induction on the characters;
after each of them the records are such that the next one can follow. -/
theorem leaves_replay (sits : Sits root ns fs) :
    ∀ (entries : List Replay) {T : List Happening} {m : Memory}, Steady fs m.captures →
      Holds fs E m.captures → Recent T m →
      Leaves ns fs T m (entries.map (.consumed ·.atom)) false E (m.replay fs entries)
  | [], T, m, _, holds, recent => .refl holds recent
  | entry :: rest, T, m, steady, holds, recent => by
    have first := leaves_consume sits steady holds recent entry
    have steady' : Steady fs (m.consume fs entry).captures :=
      fun e he => (first.source e he).steady sits steady
    exact first.trans (leaves_replay sits rest steady' first.holds first.recent)

end Events

/-! ## 4. Ways through a node

`Replays` is about any events in some nodes, not only about the ways through a single one, so that
ways can be put together piece by piece.  The last field is about the counter of idle iterations:
the stream counts leaves and references, and a derivation what happens. -/

/-- Events that are absorbed in some nodes, so that `τ` happens. -/
structure Replays (root : Node) (multiline : Bool) (ns : List Node) (fs : Frames)
    (T : List Happening) (m : Memory) (τ : List Happening) (u : Bool) (E' : Contents)
    (es : List (Event Unit)) (m' : Memory) : Prop where
  absorbs : Memory.Absorbs ⟨Index.ofNode root, multiline⟩ m es (word τ) m'
  leaves : Leaves ns fs T m τ u E' m'
  /-- Inside of a quantifier, something happens for every leaf and every reference. -/
  quiet : fs.iterations ≠ [] → (letters es = [] ↔ τ = [])

/-- Whether an event only tells that the walk goes on. -/
def Event.Idle (e : Event Unit) (fs : Frames) : Prop :=
  e = .skip fs ∨ e = .start fs ∨ e = .split fs ()

theorem Event.Idle.absorb {e : Event Unit} {fs : Frames} (h : e.Idle fs) (x : Subject)
    {m : Memory} (steady : Steady fs m.captures) : m.absorb x e = some ([], m) := by
  rcases h with rfl | rfl | rfl <;>
    simp only [Memory.absorb, Event.frames, enter_of_steady steady]

theorem Event.Idle.letters {e : Event Unit} {fs : Frames} (h : e.Idle fs)
    (es : List (Event Unit)) : letters (e :: es) = Backtrack.letters es := by
  rcases h with rfl | rfl | rfl <;> simp

namespace Replays

variable {root : Node} {multiline : Bool} {ns : List Node} {fs : Frames} {T : List Happening}
  {m m' : Memory} {τ : List Happening} {u : Bool} {E E' : Contents} {es : List (Event Unit)}

theorem nil (holds : Holds fs E m.captures) (recent : Recent T m) :
    Replays root multiline ns fs T m [] false E [] m :=
  ⟨.nil m, .refl holds recent, fun _ => by simp⟩

/-- The walk goes on. -/
theorem event (h : Replays root multiline ns fs T m τ u E' es m') {e : Event Unit}
    (he : e.Idle fs) (steady : Steady fs m.captures) :
    Replays root multiline ns fs T m τ u E' (e :: es) m' := by
  refine ⟨.cons (w := []) (he.absorb _ steady) h.absorbs, h.leaves, ?_⟩
  rw [he.letters]
  exact h.quiet

theorem trans {E₁ : Contents} {m₁ : Memory} {τ₁ : List Happening} {u₁ : Bool}
    {es₁ : List (Event Unit)} (h₁ : Replays root multiline ns fs T m τ₁ u₁ E₁ es₁ m₁)
    (h : Replays root multiline ns fs (T ++ τ₁) m₁ τ u E' es m') :
    Replays root multiline ns fs T m (τ₁ ++ τ) (u₁ || u) E' (es₁ ++ es) m' := by
  refine ⟨?_, h₁.leaves.trans h.leaves, ?_⟩
  · rw [word_append]
    exact h₁.absorbs.append h.absorbs
  · intro hf
    rw [letters_append, List.append_eq_nil_iff, List.append_eq_nil_iff, h₁.quiet hf, h.quiet hf]

theorem cons {n : Node} (h : Replays root multiline ns fs T m τ u E' es m') :
    Replays root multiline (n :: ns) fs T m τ u E' es m' := ⟨h.absorbs, h.leaves.cons, h.quiet⟩

theorem left {ms : List Node} (h : Replays root multiline ns fs T m τ u E' es m') :
    Replays root multiline (ns ++ ms) fs T m τ u E' es m' := ⟨h.absorbs, h.leaves.left, h.quiet⟩

theorem right {ms : List Node} (h : Replays root multiline ms fs T m τ u E' es m') :
    Replays root multiline (ns ++ ms) fs T m τ u E' es m' := ⟨h.absorbs, h.leaves.right, h.quiet⟩

end Replays

theorem stutters_of_getLast? {T : List Happening} {r : Reference}
    (h : T.getLast? = some (.passed r)) : Stutters (T ++ [.passed r]) := by
  obtain ⟨T', rfl⟩ := List.getLast?_eq_some_iff.mp h
  exact ⟨r, T', [], by simp⟩

theorem Stutters.mono {τ τ' : List Happening} (h : Stutters τ) (sub : τ <:+: τ') :
    Stutters τ' := by
  obtain ⟨r, hr⟩ := h
  exact ⟨r, hr.trans sub⟩

section Leaf

variable {root : Node} {multiline : Bool} {ns : List Node} {fs : Frames} {T : List Happening}
  {m : Memory} {τ : List Happening} {E : Contents}

theorem replays_atom (sits : Sits root ns fs) (fits : Fits root ns fs E T m) (a : Atom) :
    Replays root multiline ns fs T m [.consumed a] false E [.consume fs a []]
      (m.consume fs ⟨a, []⟩) := by
  refine ⟨.single ?_, leaves_consume sits fits.steady fits.holds fits.recent ⟨a, []⟩, ?_⟩
  · rw [Memory.absorb, enter_of_steady fits.steady]
    rfl
  · simp [letters, Event.letter?]

/-- A reference that stands for nothing is passed over, unless it has come around again. -/
theorem absorb_of_recalled_nil (multiline : Bool) (plain : Plain root.walk)
    (fits : Fits root ns fs E T m) {r : Reference} (empty : E.recalled fs.opened r = []) :
    m.absorb ⟨Index.ofNode root, multiline⟩ (.refer fs r) =
      (m.pass fs r).map fun m' => ([], m') := by
  have unrecorded : r.index ∈ fs.opened ∨ (m.captures.held r.index).entries = [] := by
    by_cases hi : r.index ∈ fs.opened
    · exact .inl hi
    · rw [Contents.recalled, if_neg hi, ← (fits.holds _ hi).1, List.map_eq_nil_iff] at empty
      exact .inr empty
  obtain ⟨res, hr, hne⟩ := resolve_of_nil multiline plain unrecorded
  rw [Memory.absorb, enter_of_steady fits.steady, hr]
  cases res with
  | replay first rest => exact absurd rfl (hne first rest)
  | _ => rfl

/-- A reference that stands for nothing can be passed over, unless the derivation stutters. -/
theorem exists_replays_nil (multiline : Bool) (plain : Plain root.walk)
    (fits : Fits root ns fs E T m) {r : Reference} (empty : E.recalled fs.opened r = [])
    (hτ : τ = if !fs.iterations.isEmpty then [.passed r] else []) (steady : ¬ Stutters (T ++ τ)) :
    ∃ m', Replays root multiline ns fs T m τ false E [.refer fs r] m' := by
  have absorbs := absorb_of_recalled_nil multiline plain fits empty
  have goes_on : (!fs.iterations.isEmpty && m.lastEmpty = some (r, m.consumed)) = false := by
    refine Bool.eq_false_iff.mpr ?_
    intro h
    obtain ⟨repeated, last⟩ := Bool.and_eq_true_iff.mp h
    rw [hτ, if_pos repeated] at steady
    exact steady (stutters_of_getLast? (fits.recent.last.mp (of_decide_eq_true last)))
  have silent : word τ = [] := by
    rw [hτ]
    split <;> rfl
  rw [Memory.pass, goes_on] at absorbs
  refine ⟨_, ⟨by rw [silent]; exact .single absorbs, ?_, ?_⟩⟩
  · refine ⟨fun e he => .inl he, fun _ => ⟨by simp [silent], by simp [silent]⟩, fits.holds, ?_⟩
    rw [hτ]
    cases hf : fs.iterations.isEmpty with
    | true => simpa using ⟨fits.recent.le, fits.recent.last⟩
    | false => exact ⟨by simp, by simp⟩
  · intro hf
    have : fs.iterations.isEmpty = false := by simpa using hf
    simp [hτ, this, letters, Event.letter?]

/-- A reference to a group that holds something repeats it, unless it was of unbounded size. -/
theorem absorb_of_recalled_cons (multiline : Bool) (plain : Plain root.walk)
    (fits : Fits root ns fs E T m) {r : Reference} (full : E.recalled fs.opened r ≠ []) :
    ∃ entries : List Replay, entries.map (·.atom) = E.recalled fs.opened r ∧
      m.absorb ⟨Index.ofNode root, multiline⟩ (.refer fs r) =
        if (E r.index).unbounded then none
        else some (entries.map (·.atom), m.replay fs entries) := by
  have hi : r.index ∉ fs.opened := by
    intro hi
    rw [Contents.recalled, if_pos hi] at full
    exact full rfl
  rw [Contents.recalled, if_neg hi] at full ⊢
  obtain ⟨entries, infinite⟩ := fits.holds _ hi
  cases he : (m.captures.held r.index).entries with
  | nil =>
    rw [he] at entries
    exact absurd entries.symm full
  | cons first rest =>
    have hr := resolve_of_cons multiline plain hi (fits.known _ full) he
    rw [infinite] at hr
    refine ⟨(first :: rest).map fun e => ⟨e.atom, e.via ++ [r]⟩, ?_, ?_⟩
    · rw [← entries, he]
      simp [Function.comp_def]
    · rw [Memory.absorb, enter_of_steady fits.steady, hr]
      cases (E r.index).unbounded <;> rfl

/-- A reference to a group that holds something of bounded size repeats it. -/
theorem exists_replays_cons (multiline : Bool) (plain : Plain root.walk) (sits : Sits root ns fs)
    (fits : Fits root ns fs E T m) {r : Reference} (full : E.recalled fs.opened r ≠ [])
    (bounded : (E r.index).unbounded = false) :
    ∃ m', Replays root multiline ns fs T m ((E.recalled fs.opened r).map .consumed) false E
      [.refer fs r] m' := by
  obtain ⟨entries, atoms, absorbs⟩ := absorb_of_recalled_cons multiline plain fits full
  rw [bounded] at absorbs
  have happens : entries.map (.consumed ·.atom) =
      (E.recalled fs.opened r).map Happening.consumed := by
    rw [← atoms]
    simp [Function.comp_def]
  have leaves := leaves_replay sits entries fits.steady fits.holds fits.recent
  rw [happens] at leaves
  refine ⟨m.replay fs entries, .single ?_, leaves, fun _ => by simp [full, letters, Event.letter?]⟩
  rw [word_map_consumed, ← atoms]
  exact absorbs

end Leaf

/-! ## 5. Groups

The body is met inside of one more frame.  What the group holds afterwards is what was consumed in
between, as a record for it is extended by every character and dropped by none. -/

section Groups

variable {root body : Node} {multiline : Bool} {g : Group} {fs : Frames} {E E' : Contents}
  {T τ : List Happening} {m m' : Memory} {u : Bool} {es : List (Event Unit)}

theorem Fits.capture (fits : Fits root (.group g body :: body.walk) fs E T m)
    (hg : g.isCapture = true) : Fits root body.walk (.group g :: fs) E T m := by
  refine ⟨fits.steady, ?_, fun i hi => fits.holds i ?_, fits.known, fits.recent⟩
  · intro e he
    have := fits.foreign e he
    rw [captureIndexes_capture hg, List.mem_cons, not_or] at this
    exact ⟨this.1.2, this.2⟩
  · rw [Frames.opened_capture hg, List.mem_cons, not_or] at hi
    exact hi.2

theorem Fits.group (fits : Fits root (.group g body :: body.walk) fs E T m)
    (hg : g.isCapture = false) : Fits root body.walk (.group g :: fs) E T m := by
  refine ⟨fits.steady, ?_, fun i hi => fits.holds i ?_, fits.known, fits.recent⟩
  · intro e he
    have := fits.foreign e he
    rwa [captureIndexes_of_not_capture (by simp [hg])] at this
  · rwa [Frames.opened_of_not_capture hg] at hi

/-- **A capture group holds what was consumed in it.** -/
theorem Replays.capture (sits : Sits root (.group g body :: body.walk) fs)
    (fits : Fits root (.group g body :: body.walk) fs E T m) (hg : g.isCapture = true)
    (h : Replays root multiline body.walk (.group g :: fs) T m τ u E' es m') :
    Replays root multiline (.group g body :: body.walk) fs T m τ u
      (E'.set g.index ⟨word τ, u⟩) es m' := by
  have index_mem : g.index ∈ captureIndexes (.group g body :: body.walk) := by
    rw [captureIndexes_capture hg]
    exact List.mem_cons_self
  have encloses : ∀ i, Frames.enclosed i false (.group g :: fs) =
      if g.index = i then some (false, fs.iterations) else fs.enclosed i false := by
    intro i
    simp [Frames.enclosed, hg]
  refine ⟨h.absorbs, ⟨?_, ?_, ?_, h.leaves.recent⟩,
    h.quiet⟩
  · intro e he
    rcases h.leaves.source e he with he | ⟨b, hb⟩ | ⟨hi, inner, hk, hin⟩
    · exact .inl he
    · rw [encloses] at hb
      split at hb
      · rename_i hi
        obtain ⟨-, hk⟩ := Prod.mk.inj (Option.some.inj hb)
        exact .inr (.inr ⟨hi ▸ index_mem, [], hk.symm, by simp⟩)
      · exact .inr (.inl ⟨b, hb⟩)
    · refine .inr (.inr ⟨?_, inner, hk, hin⟩)
      rw [captureIndexes_capture hg]
      exact List.mem_cons_of_mem _ hi
  · intro i b its hb
    have hi : g.index ≠ i := fun hi =>
      sits.not_mem_opened index_mem (hi ▸ Frames.mem_opened_of_enclosed hb)
    have inside := encloses i
    rw [if_neg hi, hb] at inside
    exact h.leaves.grown inside
  · intro i hi
    by_cases hg' : i = g.index
    · -- The group had no record before, so all of it is from this time.
      subst hg'
      have unset : m.captures.held g.index = ⟨[], false, []⟩ :=
        Captures.held_eq_nil fun e he hi => (fits.foreign e he).1 (hi ▸ index_mem)
      obtain ⟨entries, infinite⟩ := h.leaves.grown (by rw [encloses, if_pos rfl])
      rw [unset] at entries infinite
      rw [Contents.set, if_pos rfl]
      exact ⟨entries, by simpa using infinite⟩
    · rw [Contents.set_of_ne hg']
      refine h.leaves.holds i ?_
      rw [Frames.opened_capture hg, List.mem_cons, not_or]
      exact ⟨hg', hi⟩

theorem Replays.group (hg : g.isCapture = false)
    (h : Replays root multiline body.walk (.group g :: fs) T m τ u E' es m') :
    Replays root multiline (.group g body :: body.walk) fs T m τ u E' es m' := by
  have encloses : ∀ i, Frames.enclosed i false (.group g :: fs) = fs.enclosed i false := by
    intro i
    simp [Frames.enclosed, hg]
  refine ⟨h.absorbs, .cons ⟨?_, ?_, ?_,
    h.leaves.recent⟩, h.quiet⟩
  · intro e he
    have := h.leaves.source e he
    rwa [Source, encloses] at this
  · intro i b its hb
    exact h.leaves.grown ((encloses i).trans hb)
  · intro i hi
    refine h.leaves.holds i ?_
    rwa [Frames.opened_of_not_capture hg]

end Groups

/-! ## 6. Iterations

The only place where records do become stale.  At the start of an iteration the groups of the body
are unset in a derivation, and their records are those of an earlier iteration, with another
number.  Others stay good, so exactly these are dropped, and the body can be met again. -/

/-- What is known before iteration `i`: a record has nothing to do with the quantifier, or it
belongs to the body and is left from an earlier iteration. -/
structure Ready (root : Node) (q : Quantifier) (body : Node) (fs : Frames) (i : Nat)
    (E : Contents) (T : List Happening) (m : Memory) : Prop where
  steady : Steady fs m.captures
  behind : ∀ e ∈ m.captures,
    (e.1 ∉ captureIndexes body.walk ∧
      ∀ k ∈ e.2.iterations, k.quantifier ≠ q ∧ k.quantifier ∉ quantifiersIn body.walk) ∨
    e.1 ∈ captureIndexes body.walk ∧ ∃ k ∈ e.2.iterations, k.quantifier = q ∧ k.index < i
  holds : Holds fs E m.captures
  known : ∀ i, (E i).word ≠ [] → i ∈ captureIndexes root.walk
  recent : Recent T m

section Iterations

variable {root body : Node} {multiline : Bool} {q : Quantifier} {fs : Frames} {i : Nat}
  {E E' : Contents} {T τ : List Happening} {m m' : Memory} {u : Bool} {es : List (Event Unit)}

theorem Fits.ready (fits : Fits root (.quantifier q body :: body.walk) fs E T m) :
    Ready root q body fs 0 E T m := by
  refine ⟨fits.steady, fun e he => .inl ?_, fits.holds, fits.known, fits.recent⟩
  obtain ⟨hi, hk⟩ := fits.foreign e he
  refine ⟨hi, ?_⟩
  intro k hk'
  have := hk k hk'
  rw [show quantifiersIn (.quantifier q body :: body.walk) = q :: quantifiersIn body.walk from rfl,
    List.mem_cons, not_or] at this
  exact this

/-- A record that has nothing to do with the quantifier stays good in any iteration. -/
theorem isStale_inIteration (sits : Sits root (.quantifier q body :: body.walk) fs) {c : Capture}
    (h : c.isStale fs.iterations = false) (other : ∀ k ∈ c.iterations, k.quantifier ≠ q) :
    c.isStale (fs.inIteration q i).iterations = false := by
  have distinct := (sits.inIteration i).nodup_quantifiers
  rw [Capture.isStale_eq_false_iff sits.nodup_quantifiers] at h
  refine (Capture.isStale_eq_false_iff distinct).mpr ?_
  intro k hk it hit hq
  rcases List.mem_cons.mp hit with rfl | hit
  · exact absurd hq.symm (other k hk)
  · exact h k hk it hit hq

/-- A record that is left from an earlier iteration is stale. -/
theorem isStale_of_behind (sits : Sits root (.quantifier q body :: body.walk) fs) {c : Capture}
    (h : ∃ k ∈ c.iterations, k.quantifier = q ∧ k.index < i) :
    c.isStale (fs.inIteration q i).iterations = true := by
  have distinct := (sits.inIteration i).nodup_quantifiers
  obtain ⟨k, hk, rfl, hlt⟩ := h
  refine Decidable.byContradiction ?_
  intro hs
  have := (Capture.isStale_eq_false_iff distinct).mp (Bool.eq_false_iff.mpr hs) k hk _
    List.mem_cons_self rfl
  exact absurd this (Nat.ne_of_gt hlt)

namespace Ready

theorem mem_enter (ready : Ready root q body fs i E T m)
    (sits : Sits root (.quantifier q body :: body.walk) fs) {e : Nat × Capture}
    (he : e ∈ (m.enter (fs.inIteration q i)).captures) :
    e ∈ m.captures ∧ e.1 ∉ captureIndexes body.walk ∧
      ∀ k ∈ e.2.iterations, k.quantifier ≠ q ∧ k.quantifier ∉ quantifiersIn body.walk := by
  obtain ⟨he, hs⟩ := List.mem_filter.mp he
  refine ⟨he, (ready.behind e he).resolve_right ?_⟩
  rintro ⟨-, hk⟩
  simp [isStale_of_behind sits hk] at hs

/-- Only what groups of the body held is forgotten. -/
theorem held_enter (ready : Ready root q body fs i E T m)
    (sits : Sits root (.quantifier q body :: body.walk) fs) {j : Nat}
    (hj : j ∉ captureIndexes body.walk) :
    (m.enter (fs.inIteration q i)).captures.held j = m.captures.held j := by
  refine congrArg (·.getD ⟨[], false, []⟩) (Captures.get?_filter_of_forall fun e he hi => ?_)
  rcases ready.behind e he with ⟨-, hk⟩ | ⟨hi', -⟩
  · simp [isStale_inIteration sits (ready.steady e he) fun k hk' => (hk k hk').1]
  · exact absurd (hi ▸ hi') hj

/-- **At the start of an iteration the groups of the body are unset.** -/
theorem fits (ready : Ready root q body fs i E T m)
    (sits : Sits root (.quantifier q body :: body.walk) fs) :
    Fits root body.walk (fs.inIteration q i) (E.reset body.walk) T
      (m.enter (fs.inIteration q i)) := by
  refine ⟨?_, ?_, ?_, ?_,
    ⟨ready.recent.le, ready.recent.last⟩⟩
  · intro e he
    simpa using (List.mem_filter.mp he).2
  · intro e he
    obtain ⟨-, hi, hk⟩ := ready.mem_enter sits he
    exact ⟨hi, fun k hk' => (hk k hk').2⟩
  · intro j hj
    by_cases hi : j ∈ captureIndexes body.walk
    · rw [Contents.reset_of_mem hi, Captures.held_eq_nil]
      · exact ⟨rfl, rfl⟩
      · intro e he hj'
        exact (ready.mem_enter sits he).2.1 (hj' ▸ hi)
    · rw [Contents.reset_of_not_mem hi, ready.held_enter sits hi]
      exact ready.holds j hj
  · intro j hj
    by_cases hi : j ∈ captureIndexes body.walk
    · rw [Contents.reset_of_mem hi] at hj
      exact absurd rfl hj
    · rw [Contents.reset_of_not_mem hi] at hj
      exact ready.known j hj

end Ready

theorem Frames.enclosed_inIteration {j : Nat} :
    (fs.inIteration q i).enclosed j false =
      (fs.enclosed j false).map fun r => (q.count.isUnbounded || r.1, r.2) := by
  rw [inIteration, Stream.iterationFrame, enclosed, Bool.false_or, enclosed_eq_map]

/-- What one iteration leaves, seen from outside of the quantifier. -/
theorem leaves_iteration (sits : Sits root (.quantifier q body :: body.walk) fs)
    (ready : Ready root q body fs i E T m)
    (h : Leaves body.walk (fs.inIteration q i) T (m.enter (fs.inIteration q i)) τ u E' m') :
    Leaves (.quantifier q body :: body.walk) fs T m τ
      (u || q.count.isUnbounded && !(word τ).isEmpty) E' m' := by
  refine ⟨?_, ?_, h.holds, h.recent⟩
  · intro e he
    rcases h.source e he with he | ⟨b, hb⟩ | ⟨hi, inner, hk, hin⟩
    · exact .inl (ready.mem_enter sits he).1
    · rw [Frames.enclosed_inIteration] at hb
      obtain ⟨⟨b', its⟩, hb', heq⟩ := Option.map_eq_some_iff.mp hb
      obtain ⟨-, rfl⟩ := Prod.mk.inj heq
      exact .inr (.inl ⟨b', hb'⟩)
    · refine .inr (.inr ⟨hi, inner ++ [⟨q, i, q.count.min ≤ i && 1 ≤ i⟩], ?_, ?_⟩)
      · rw [hk, List.append_assoc]
        rfl
      · intro k hk
        rcases List.mem_append.mp hk with hk | hk
        · exact List.mem_cons_of_mem _ (hin k hk)
        · rw [List.mem_singleton.mp hk]
          exact List.mem_cons_self
  · intro j b its hb
    have hj : j ∉ captureIndexes body.walk := fun hi =>
      sits.tail.not_mem_opened hi (Frames.mem_opened_of_enclosed hb)
    obtain ⟨entries, infinite⟩ := h.grown (i := j) (by rw [Frames.enclosed_inIteration, hb]; rfl)
    rw [ready.held_enter sits hj] at entries infinite
    refine ⟨entries, ?_⟩
    rw [infinite]
    grind

/-- **After an iteration the next one can begin.**  The records it has left belong to the body and
to an iteration that is over, so they are stale in the next one. -/
theorem ready_succ (sits : Sits root (.quantifier q body :: body.walk) fs)
    (ready : Ready root q body fs i E T m)
    (h : Leaves body.walk (fs.inIteration q i) T (m.enter (fs.inIteration q i)) τ u E' m')
    (known : ∀ i, (E' i).word ≠ [] → i ∈ captureIndexes root.walk) :
    Ready root q body fs (i + 1) E' (T ++ τ) m' := by
  have around : ∀ k ∈ fs.iterations,
      k.quantifier ≠ q ∧ k.quantifier ∉ quantifiersIn body.walk := by
    intro k hk
    have mem : k.quantifier ∈ fs.quantifiers := List.mem_map_of_mem hk
    refine ⟨?_, fun hq => sits.tail.not_mem_quantifiers hq mem⟩
    rintro rfl
    exact sits.not_mem_quantifiers (q := k.quantifier) List.mem_cons_self mem
  refine ⟨?_, ?_, h.holds, known, h.recent⟩
  · intro e he
    exact ((leaves_iteration sits ready h).source e he).steady sits ready.steady
  · intro e he
    rcases h.source e he with he | ⟨b, hb⟩ | ⟨hi, inner, hk, -⟩
    · exact .inl (ready.mem_enter sits he).2
    · rw [Frames.enclosed_inIteration] at hb
      obtain ⟨⟨b', its⟩, hb', heq⟩ := Option.map_eq_some_iff.mp hb
      obtain ⟨-, rfl⟩ := Prod.mk.inj heq
      refine .inl ⟨?_, ?_⟩
      · intro hi
        exact sits.tail.not_mem_opened hi (Frames.mem_opened_of_enclosed hb')
      · intro k hk
        exact around k ((Frames.iterations_of_enclosed hb').subset hk)
    · refine .inr ⟨hi, ⟨q, i, q.count.min ≤ i && 1 ≤ i⟩, ?_, rfl, Nat.lt_succ_self i⟩
      rw [hk]
      exact List.mem_append_right _ List.mem_cons_self

theorem steady_offer (steady : Steady fs m.captures) (x : Subject) (i : Nat) :
    Memory.Absorbs x m (offer q fs i) [] m := by
  unfold offer
  split
  · exact .nil m
  · exact .single (Event.Idle.absorb (.inr (.inr rfl)) x steady)

/-- The events of one iteration. -/
theorem replays_iteration (sits : Sits root (.quantifier q body :: body.walk) fs)
    (ready : Ready root q body fs i E T m)
    (h : Replays root multiline body.walk (fs.inIteration q i) T (m.enter (fs.inIteration q i)) τ
      u E' es m') :
    Replays root multiline (.quantifier q body :: body.walk) fs T m τ
      (u || q.count.isUnbounded && !(word τ).isEmpty) E'
      (offer q fs i ++ .skip (fs.inIteration q i) :: es) m' := by
  refine ⟨?_, leaves_iteration sits ready h.leaves, fun _ => ?_⟩
  · have entered : m.absorb ⟨Index.ofNode root, multiline⟩ (.skip (fs.inIteration q i)) =
        some ([], m.enter (fs.inIteration q i)) := rfl
    exact (steady_offer ready.steady _ i).append (.cons entered h.absorbs)
  · rw [letters_append, Stream.letters_offer, List.nil_append, letters_skip]
    exact h.quiet (by simp [Frames.inIteration, Stream.iterationFrame])

/-- Iterations run through a quantifier without an upper bound if one of them does. -/
theorem unbounded_append (c : Count) (u v : Bool) (τ τ' : List Happening) :
    ((u || c.isUnbounded && !(word τ).isEmpty) || (v || c.isUnbounded && !(word τ').isEmpty)) =
      ((u || v) || c.isUnbounded && !(word (τ ++ τ')).isEmpty) := by
  rw [word_append]
  cases word τ <;> cases u <;> cases v <;> cases c.isUnbounded <;> simp

/-- Every derivation of a body that a stream can do is replayed, inside of any frames. -/
def Simulates (root : Node) (multiline : Bool) (n : Node) : Prop :=
  ∀ ⦃fs : Frames⦄ ⦃E E' : Contents⦄ ⦃T τ : List Happening⦄ ⦃m : Memory⦄ ⦃u : Bool⦄,
    Sits root n.walk fs → Fits root n.walk fs E T m →
    n.Derives Node.Passing fs.opened (!fs.iterations.isEmpty) E τ u E' → ¬ Stutters (T ++ τ) →
    ∃ es m', n.Traverses multiline fs es false ∧
      Replays root multiline n.walk fs T m τ u E' es m'

/-- A derivation does not make a group known that is not in the tree. -/
theorem known_of_derives {allows : Quantifier → Node → List (List Happening) → Prop} {n : Node}
    {opened : List Nat} {repeated : Bool} (mem : ∀ k ∈ n.walk, k ∈ root.walk)
    (h : n.Derives allows opened repeated E τ u E')
    (known : ∀ i, (E i).word ≠ [] → i ∈ captureIndexes root.walk) (i : Nat)
    (hi : (E' i).word ≠ []) : i ∈ captureIndexes root.walk := by
  by_cases hn : i ∈ captureIndexes n.walk
  · obtain ⟨g, body, hm, hg⟩ := mem_captureIndexes.mp hn
    exact mem_captureIndexes.mpr ⟨g, body, mem _ hm, hg⟩
  · rw [Node.eq_of_derives n hn h] at hi
    exact known i hi

/-- **One iteration.**  It begins with the records of the last one dropped, and ends with those of
its own. -/
theorem exists_iteration (ih : Simulates root multiline body)
    (sits : Sits root (.quantifier q body :: body.walk) fs)
    (ready : Ready root q body fs i E T m)
    (h : body.Derives Node.Passing fs.opened true (E.reset body.walk) τ u E')
    (steady : ¬ Stutters (T ++ τ)) :
    ∃ es m', body.Traverses multiline (fs.inIteration q i) es false ∧
      (letters es = [] ↔ τ = []) ∧ Ready root q body fs (i + 1) E' (T ++ τ) m' ∧
      Replays root multiline (.quantifier q body :: body.walk) fs T m τ
        (u || q.count.isUnbounded && !(word τ).isEmpty) E'
        (offer q fs i ++ .skip (fs.inIteration q i) :: es) m' := by
  have inside := sits.inIteration i
  have fits := ready.fits sits
  obtain ⟨es, m', ht, hr⟩ := ih inside fits h steady
  refine ⟨es, m', ht, hr.quiet (by simp [Frames.inIteration, Stream.iterationFrame]), ?_,
    replays_iteration sits ready hr⟩
  exact ready_succ sits ready hr.leaves (known_of_derives inside.mem h fits.known)

/-- **All iterations**, from iteration `i` on.  The induction is on the iterations of the
derivation, each of which is replayed as it is. -/
theorem exists_rounds_of_passes (ih : Simulates root multiline body)
    (sits : Sits root (.quantifier q body :: body.walk) fs) {idle : Nat}
    {τs : List (List Happening)} (passes : Passes q i idle τs) :
    ∀ {E E' : Contents} {T : List Happening} {m : Memory} {v : Bool},
      Ready root q body fs i E T m →
      Iterated (body.Derives Node.Passing fs.opened true) (·.reset body.walk) τs E v E' →
      ¬ Stutters (T ++ τs.flatten) →
      ∃ es m', Rounds q fs (body.Traverses multiline) i idle es false ∧
        Replays root multiline (.quantifier q body :: body.walk) fs T m τs.flatten
          (v || q.count.isUnbounded && !(word τs.flatten).isEmpty) E' es m' := by
  induction passes with
  | @leave i idle hm =>
    intro E E' T m v ready h _
    cases h
    have stays : Replays root multiline (.quantifier q body :: body.walk) fs T m [] false E [] m :=
      .nil ready.holds ready.recent
    cases hx : q.count.isExhausted i with
    | true => exact ⟨[], m, .exhausted hx, by simpa using stays⟩
    | false =>
      refine ⟨[.split fs ()], m, .leave hx hm, ?_⟩
      simpa using stays.event (.inr (.inr rfl)) ready.steady
  | @idles i idle hx hi =>
    intro E E' T m v ready h steady
    cases h with
    | @more _ E₁ _ _ _ u v h rest =>
      cases rest
      obtain ⟨es, m', ht, quiet, -, hr⟩ := exists_iteration ih sits ready h (by simpa using steady)
      exact ⟨_, m', .idles hx ht (quiet.mpr rfl) hi, by simpa using hr⟩
  | @next i idle idle' τ τs hx hi lt _ ih' =>
    intro E E' T m v ready h steady
    cases h with
    | @more _ E₁ _ _ _ u v h rest =>
      rw [List.flatten_cons, ← List.append_assoc] at steady
      have first : ¬ Stutters (T ++ τ) := fun h => steady (h.mono ⟨[], τs.flatten, by simp⟩)
      obtain ⟨es, m₁, ht, quiet, ready', hr⟩ := exists_iteration ih sits ready h first
      obtain ⟨es', m', hrounds, hr'⟩ := ih' ready' rest steady
      refine ⟨_, m', .next hx ht ?_ lt hrounds, ?_⟩
      · rw [hi]
        simp only [quiet]
      · rw [List.flatten_cons, ← unbounded_append]
        simpa using hr.trans hr'

end Iterations

/-! ## 7. Whole derivations

One case for each kind of node, by recursion on the tree.  The leaves, references and groups are
done above and in the lemmas that come first; a quantifier goes by the number of iterations, and
sequences and alternatives by their members. -/

section Simulation

variable {root : Node} {multiline : Bool}

theorem Fits.left {ns ms : List Node} {fs : Frames} {E : Contents} {T : List Happening}
    {m : Memory} (fits : Fits root (ns ++ ms) fs E T m) : Fits root ns fs E T m := by
  refine ⟨fits.steady, ?_, fits.holds, fits.known, fits.recent⟩
  intro e he
  have := fits.foreign e he
  rw [captureIndexes_append, quantifiersIn_append] at this
  simp only [List.mem_append, not_or] at this
  exact ⟨this.1.1, fun k hk => (this.2 k hk).1⟩

theorem Fits.right {ns ms : List Node} {fs : Frames} {E : Contents} {T : List Happening}
    {m : Memory} (fits : Fits root (ns ++ ms) fs E T m) : Fits root ms fs E T m := by
  refine ⟨fits.steady, ?_, fits.holds, fits.known, fits.recent⟩
  intro e he
  have := fits.foreign e he
  rw [captureIndexes_append, quantifiersIn_append] at this
  simp only [List.mem_append, not_or] at this
  exact ⟨this.1.2, fun k hk => (this.2 k hk).2⟩

theorem Fits.tail {n : Node} {ns : List Node} {fs : Frames} {E : Contents} {T : List Happening}
    {m : Memory} (fits : Fits root (n :: ns) fs E T m) : Fits root ns fs E T m :=
  Fits.right (show Fits root ([n] ++ ns) fs E T m from fits)

theorem simulates_atom (root : Node) (multiline : Bool) (a : Atom) :
    Simulates root multiline (.atom a) := by
  intro fs E E' T τ m u sits fits h _
  obtain ⟨rfl, rfl, rfl⟩ := h
  exact ⟨_, _, ⟨rfl, rfl⟩, replays_atom sits fits a⟩

/-- An anchor only lets the walk pass, as a plain tree has no end anchors. -/
theorem simulates_anchor (plain : Plain root.walk) (multiline : Bool) (s : Site) (k : Anchor) :
    Simulates root multiline (.anchor s k) := by
  intro fs E E' T τ m u sits fits h _
  obtain ⟨rfl, rfl, rfl⟩ := h
  have stays : Replays root multiline (Node.anchor s k).walk fs T m [] false E' [] m :=
    .nil fits.holds fits.recent
  have mem := sits.mem _ (Node.mem_walk_self _)
  unfold Node.Traverses
  split
  · exact ⟨_, m, ⟨rfl, rfl⟩, stays.event (.inr (.inl rfl)) fits.steady⟩
  · exact absurd (plain _ mem) (by simp [Node.isPlain])
  · exact ⟨_, m, ⟨rfl, rfl⟩, stays.event (.inl rfl) fits.steady⟩

/-- A reference repeats what the group holds, or it stands for nothing. -/
theorem simulates_reference (plain : Plain root.walk) (multiline : Bool) (r : Reference) :
    Simulates root multiline (.reference r) := by
  intro fs E E' T τ m u sits fits h steady
  obtain ⟨hτ, bounded, rfl, rfl⟩ := h
  by_cases empty : E'.recalled fs.opened r = []
  · rw [if_pos empty] at hτ
    obtain ⟨m', hr⟩ := exists_replays_nil multiline plain fits empty hτ steady
    exact ⟨_, m', ⟨rfl, rfl⟩, hr⟩
  · rw [if_neg empty] at hτ
    obtain ⟨m', hr⟩ := exists_replays_cons multiline plain sits fits empty (bounded empty)
    exact ⟨_, m', ⟨rfl, rfl⟩, hτ ▸ hr⟩

/-- A group is gone through as its body is, and a capture group records it. -/
theorem simulates_group (plain : Plain root.walk) {g : Group} {body : Node}
    (ih : Simulates root multiline body) : Simulates root multiline (.group g body) := by
  intro fs E E' T τ m u sits fits h steady
  have hl := plain.isLookaround (sits.mem _ (Node.mem_walk_self _))
  rw [Node.Derives] at h
  simp only [Node.Traverses, hl, Bool.false_eq_true, if_false]
  rw [Node.walk] at sits fits ⊢
  cases hg : g.isCapture with
  | true =>
    rw [if_pos hg] at h
    obtain ⟨E₁, h, rfl⟩ := h
    rw [← Frames.opened_capture hg] at h
    obtain ⟨es, m', ht, hr⟩ := ih (sits.capture hg) (fits.capture hg) h steady
    exact ⟨es, m', ht, hr.capture sits fits hg⟩
  | false =>
    rw [if_neg (by simp [hg]), ← Frames.opened_of_not_capture hg] at h
    obtain ⟨es, m', ht, hr⟩ := ih (sits.group hg) (fits.group hg) h steady
    exact ⟨es, m', ht, hr.group hg⟩

mutual

/-- **A resolver replays every derivation that a stream can do**, unless it stutters.  That a
derivation does not stutter is needed at references that stand for nothing, and nowhere else. -/
theorem simulates (plain : Plain root.walk) :
    ∀ n : Node, Simulates root multiline n
  | .atom a => simulates_atom root multiline a
  | .anchor s k => simulates_anchor plain multiline s k
  | .reference r => simulates_reference plain multiline r
  | .group _ body => simulates_group plain (simulates plain body)
  | .quantifier q body => by
    intro fs E E' T τ m u sits fits h steady
    obtain ⟨τs, v, passes, h, rfl, rfl⟩ := h
    obtain ⟨es, m', hrounds, hr⟩ := exists_rounds_of_passes (simulates plain body) sits
      passes fits.ready h steady
    exact ⟨_, m', ⟨es, rfl, hrounds⟩, hr.event (.inl rfl) fits.steady⟩
  | .sequence s ns => by
    intro fs E E' T τ m u sits fits h steady
    obtain ⟨es, m', ht, hr⟩ := simulatesAll plain ns sits.tail fits.tail h steady
    exact ⟨es, m', ht, hr.cons⟩
  | .alternation s ns => by
    intro fs E E' T τ m u sits fits h steady
    obtain ⟨es, m', ht, hr⟩ := simulatesOne plain ns sits.tail fits.tail h steady
    exact ⟨es, m', ht, hr.cons⟩

theorem simulatesAll (plain : Plain root.walk) : ∀ (ns : List Node) {fs : Frames}
      {E E' : Contents} {T τ : List Happening} {m : Memory} {u : Bool},
      Sits root (Node.walkAll ns) fs → Fits root (Node.walkAll ns) fs E T m →
      Node.DerivesAll Node.Passing ns fs.opened (!fs.iterations.isEmpty) E τ u E' →
      ¬ Stutters (T ++ τ) →
      ∃ es m', Node.TraversesAll multiline ns fs es false ∧
        Replays root multiline (Node.walkAll ns) fs T m τ u E' es m'
  | [], fs, E, E', T, τ, m, u, _, fits, h, _ => by
    obtain ⟨rfl, rfl, rfl⟩ := h
    exact ⟨[], m, ⟨rfl, rfl⟩, .nil fits.holds fits.recent⟩
  | n :: ns, fs, E, E', T, τ, m, u, sits, fits, h, steady => by
    obtain ⟨τ₁, τ₂, u₁, u₂, E₁, h₁, h₂, rfl, rfl⟩ := h
    rw [Node.walkAll] at sits fits ⊢
    rw [← List.append_assoc] at steady
    have first : ¬ Stutters (T ++ τ₁) := fun h => steady (h.mono ⟨[], τ₂, by simp⟩)
    obtain ⟨es₁, m₁, ht₁, hr₁⟩ := simulates plain n sits.left fits.left h₁ first
    have fits₁ := hr₁.leaves.fits sits fits (known_of_derives sits.left.mem h₁ fits.known)
    obtain ⟨es₂, m', ht₂, hr₂⟩ := simulatesAll plain ns sits.right fits₁ h₂ steady
    exact ⟨_, m', .inr ⟨es₁, es₂, rfl, ht₁, ht₂⟩, hr₁.left.trans hr₂.right⟩

theorem simulatesOne (plain : Plain root.walk) : ∀ (ns : List Node) {fs : Frames}
      {E E' : Contents} {T τ : List Happening} {m : Memory} {u : Bool},
      Sits root (Node.walkAll ns) fs → Fits root (Node.walkAll ns) fs E T m →
      Node.DerivesOne Node.Passing ns fs.opened (!fs.iterations.isEmpty) E τ u E' →
      ¬ Stutters (T ++ τ) →
      ∃ es m', Node.TraversesOne multiline ns fs es false ∧
        Replays root multiline (Node.walkAll ns) fs T m τ u E' es m'
  | [], _, _, _, _, _, _, _, _, _, h, _ => h.elim
  | [n], fs, E, E', T, τ, m, u, sits, fits, h, steady => by
    rw [Node.walkAll] at sits fits ⊢
    obtain ⟨es, m', ht, hr⟩ := simulates plain n sits.left fits.left
      (h.resolve_right fun h => h) steady
    exact ⟨es, m', ht, hr.left⟩
  | n :: k :: ns, fs, E, E', T, τ, m, u, sits, fits, h, steady => by
    rw [Node.walkAll] at sits fits ⊢
    rcases h with h | h
    · obtain ⟨es, m', ht, hr⟩ := simulates plain n sits.left fits.left h steady
      exact ⟨_, m', ⟨es, rfl, .inl ht⟩, hr.left.event (.inr (.inr rfl)) fits.steady⟩
    · obtain ⟨es, m', ht, hr⟩ := simulatesOne plain (k :: ns) sits.right fits.right h steady
      exact ⟨_, m', ⟨es, rfl, .inr ht⟩, hr.right.event (.inr (.inr rfl)) fits.steady⟩

end

end Simulation

/-! ## 8. Paths of a pattern

At the start nothing is recorded, so everything fits.  A derivation that is spread is rearranged
into one a stream can do, which is then replayed. -/

theorem sits_root {p : Pattern} (wf : p.IsWellFormed) : Sits p.root p.root.walk [] := by
  refine ⟨fun n hn => hn, ?_, ?_⟩
  · simpa [Frames.quantifiers, Frames.iterations] using nodup_quantifiersIn wf.distinct
  · simpa [Frames.opened] using wf.captures

theorem fits_initial (root : Node) : Fits root root.walk [] .empty [] .initial :=
  ⟨by simp [Steady, Memory.initial], by simp [Memory.initial],
    fun i _ => ⟨rfl, rfl⟩,
    by simp [Contents.empty, Match.none], ⟨by simp [Memory.initial], by simp [Memory.initial]⟩⟩

/-- **A resolver loses no derivation that is spread and does not stutter.**  There is a path that
ends, along which the leaves that the derivation consumes are consumed, those repeated by
references included. -/
theorem exists_path_of_derives {p : Pattern} (wf : p.IsWellFormed) (plain : Plain p.root.walk)
    {τ : List Happening} {u : Bool} {E : Contents}
    (h : p.root.Derives p.root.Spreads [] false .empty τ u E) (steady : ¬ Stutters τ) :
    ∃ es, Path (Resolver.faithful (.ofPattern p)) (.ofPattern p) es ∧
      letters es = (word τ).map .atom := by
  have stands : Stands p.root [] p.root.walk :=
    ⟨fun n hn => hn, List.Pairwise.of_map _ (fun a b hne heq => hne (heq ▸ rfl)) wf.distinct,
      by simp⟩
  obtain ⟨F, -, h⟩ := Node.exists_passing p.root stands h (F := .empty) fun _ _ => rfl
  have simulated : Simulates p.root p.flags.multiline p.root := simulates plain p.root
  obtain ⟨es, m, ht, hr⟩ := simulated (sits_root wf) (fits_initial p.root) h steady
  obtain ⟨hp, -⟩ := Stream.path_ofNode_iff.mpr ⟨es, false, ht, rfl⟩
  have last : Memory.Absorbs (Subject.ofPattern p) m [.stop [] false] [] (m.enter []) := .single rfl
  have absorbs := hr.absorbs.append last
  rw [List.append_nil] at absorbs
  exact Memory.exists_path hp [] absorbs

end Backtrack
