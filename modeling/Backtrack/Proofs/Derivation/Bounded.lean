/-
# Derivations without unbounded quantifiers

If every quantifier of a pattern has an upper bound, one expects its derivations to be bounded,
too.  For the events of a stream that is so; what a resolver adds are the bodies of groups that
it matches again on behalf of references.  Such a body is walked inside the frames of the
reference, without a frame of its own group.  A reference inside the body to that very group
is then not known to be open, and the body is matched again for it, and again:
`exists_endless_rematch` has a pattern with the quantifier `?` only.

`exists_endsWithin` is what does hold: the walks are bounded if no reference, by the bodies that
are matched again for it, leads back to itself.  References here come with the capture groups
that are open where they are met (`Meeting`), as a reference to an open group stands for nothing
and leads nowhere.

No measure is made of all this.  That no walk goes on forever is shown node by node, for any
feed around the node (`Feed.Halts`): by recursion on the node, for the iterations of a quantifier
by induction on those that are left, and for the references by induction along the bodies that
are matched again.  The bound comes at the end, since a place has two continuations at most
(`exists_endsWithin_of_halts`).
-/
import Backtrack.Proofs.Derivation.Origin
import Backtrack.Proofs.Pattern.Places
import Mathlib.Data.Finite.Prod
import Mathlib.Data.Finset.Powerset
import Mathlib.Data.Fintype.Card

namespace Backtrack

/-! ## 1. Walks that end

That no walk goes on forever is an accessibility statement, without any number in it, and so it
can be proved piece by piece.  A number for all walks at once is had from it in the end, as each
place leads to two others at most. -/

section Ends

variable {σ : Type}

/-- Every walk from a place reaches an event that ends it, or a reference that cannot be
followed, within `n` events. -/
inductive EndsWithin (next : σ → Option (Event σ × σ)) : Nat → σ → Prop
  | error {n : Nat} {s : σ} (h : next s = none) : EndsWithin next n s
  /-- There is no step from an event that ends the walk. -/
  | event {n : Nat} {s : σ} (h : ∀ e t, Step next s e t → EndsWithin next n t) :
    EndsWithin next (n + 1) s

/-- No walk from a place goes on forever. -/
def Halts (next : σ → Option (Event σ × σ)) (s : σ) : Prop :=
  Acc (fun t s => ∃ e, Step next s e t) s

variable {next : σ → Option (Event σ × σ)} {s s' t u : σ} {e : Event σ} {m n : Nat}

theorem EndsWithin.mono (h : EndsWithin next m s) (le : m ≤ n) : EndsWithin next n s := by
  induction h generalizing n with
  | error h => exact .error h
  | event _ ih =>
    obtain ⟨k, rfl⟩ := Nat.exists_eq_add_of_le le
    rw [Nat.succ_add]
    exact .event fun e t step => ih e t step (Nat.le_add_right _ k)

/-- A step leaves one event less. -/
theorem EndsWithin.step (h : EndsWithin next n s) (step : Step next s e t) :
    ∃ m < n, EndsWithin next m t := by
  cases h with
  | error hn => cases step <;> simp_all
  | event h => exact ⟨_, Nat.lt_succ_self _, h e t step⟩

/-- A step goes on behind the next event, or with its branch. -/
theorem Step.eq_or_eq {e' : Event σ} (step : Step next s e' u) (h : next s = some (e, t)) :
    (e.isTerminal = false ∧ u = t) ∨ ∃ fs, e = .split fs u := by
  cases step with
  | onward hn he =>
    obtain ⟨rfl, rfl⟩ := Prod.mk.inj (Option.some.inj (h.symm.trans hn))
    exact .inl ⟨he, rfl⟩
  | aside hn =>
    obtain ⟨rfl, rfl⟩ := Prod.mk.inj (Option.some.inj (h.symm.trans hn))
    exact .inr ⟨_, rfl⟩

theorem Halts.step (h : Halts next s) (step : Step next s e t) : Halts next t := h.inv ⟨e, step⟩

theorem Halts.congr (h : Halts next s) (hn : next s' = next s) : Halts next s' :=
  Acc.intro s' fun _ ⟨_, step⟩ => h.step (step.congr hn)

theorem halts_of_none (h : next s = none) : Halts next s :=
  Acc.intro s fun t ⟨e, step⟩ => by cases step <;> simp_all

theorem halts_of_next (h : next s = some (e, t)) (onward : e.isTerminal = false → Halts next t)
    (aside : ∀ fs b, e = .split fs b → Halts next b) : Halts next s := by
  refine Acc.intro s ?_
  rintro u ⟨e', step⟩
  rcases step.eq_or_eq h with ⟨he, rfl⟩ | ⟨fs, he⟩
  · exact onward he
  · exact aside fs u he

/-- **If no walk goes on forever there is a bound on all of them.**  The bound is the larger one
of those behind the event and on its branch, and one more for the event. -/
theorem exists_endsWithin_of_halts (h : Halts next s) : ∃ n, EndsWithin next n s := by
  induction h with
  | intro s _ ih =>
    cases hn : next s with
    | none => exact ⟨0, .error hn⟩
    | some r =>
      obtain ⟨e, t⟩ := r
      have onward : ∃ n, e.isTerminal = false → EndsWithin next n t := by
        by_cases he : e.isTerminal = false
        · obtain ⟨n, hends⟩ := ih t ⟨e, .onward hn he⟩
          exact ⟨n, fun _ => hends⟩
        · exact ⟨0, fun h => absurd h he⟩
      have aside : ∃ n, ∀ fs b, e = .split fs b → EndsWithin next n b := by
        by_cases he : ∃ fs b, e = .split fs b
        · obtain ⟨fs, b, rfl⟩ := he
          obtain ⟨n, hends⟩ := ih b ⟨_, .aside hn⟩
          exact ⟨n, by rintro _ _ ⟨rfl, rfl⟩; exact hends⟩
        · exact ⟨0, fun fs b hb => absurd ⟨fs, b, hb⟩ he⟩
      obtain ⟨m, onward⟩ := onward
      obtain ⟨n, aside⟩ := aside
      refine ⟨max m n + 1, .event ?_⟩
      intro e' u step
      rcases step.eq_or_eq hn with ⟨he, rfl⟩ | ⟨fs, he⟩
      · exact (onward he).mono (Nat.le_max_left m n)
      · exact (aside fs u he).mono (Nat.le_max_right m n)

end Ends

/-! ## 2. Feeds whose walks end

What a reference stands for depends on the records, and they on the whole walk before.  So nothing
is assumed of them: a feed halts if it does so whatever its references stand for.  Recorded
characters are finitely many, and that is all there is to say of resolvers. -/

variable {x : Subject}

/-- No walk goes on with the feed forever, whatever its references stand for. -/
inductive Feed.Halts (x : Subject) : Feed → Prop
  | intro {f g : Feed} {e : Event Feed} (h : f.next x.multiline = (e, g))
    (onward : e.isTerminal = false → g.Halts x)
    (aside : ∀ fs b, e = .split fs b → b.Halts x)
    (again : ∀ fs r cs body, e = .refer fs r → x.resolve cs fs r = .ok (.rematch body) →
      (Feed.rematch (Stream.ofBody body fs) r g).Halts x) : f.Halts x

namespace Feed.Halts

theorem congr {f g : Feed} (h : g.Halts x) (hn : f.next x.multiline = g.next x.multiline) :
    f.Halts x := by
  cases h with
  | intro h onward aside again => exact .intro (hn.trans h) onward aside again

/-- Recorded characters that are still to be repeated come to an end. -/
theorem pending {f : Feed}
    (h : ∀ cs fs n last, Backtrack.Halts (Resolver.step x) ⟨f, cs, [], fs, n, last⟩)
    (cs : Captures) (pending : List Replay) (fs : Frames) (n : Nat)
    (last : Option (Reference × Nat)) :
    Backtrack.Halts (Resolver.step x) ⟨f, cs, pending, fs, n, last⟩ := by
  induction pending generalizing cs n with
  | nil => exact h cs fs n last
  | cons entry rest ih =>
    refine halts_of_next (Resolver.step_eq_some.mpr (by rw [Resolver.next])) ?_ ?_
    · intro _
      exact ih _ _
    · simp [Resolver.consume]

/-- **No walk of a resolver goes on forever if its feed halts.** -/
theorem resolver {f : Feed} (h : f.Halts x) (cs : Captures) (pending : List Replay) (fs : Frames)
    (n : Nat) (last : Option (Reference × Nat)) :
    Backtrack.Halts (Resolver.step x) ⟨f, cs, pending, fs, n, last⟩ := by
  induction h generalizing cs pending fs n last with
  | @intro f g e h _ _ _ onward aside again =>
  refine Halts.pending ?_ cs pending fs n last
  intro cs fs n last
  generalize hr : (⟨f, cs, [], fs, n, last⟩ : Resolver) = r
  obtain ⟨rfl, hp⟩ : f = r.feed ∧ r.pending = [] := by simp [← hr]
  have step : r.step x = (r.next x).toOption := rfl
  revert step
  fun_cases Resolver.next x r with
  | case1 _ _ hp' => simp [hp] at hp'
  | case2 _ _ _ _ _ hf | case4 _ _ _ hf | case5 _ _ _ _ hf | case6 _ _ _ hf | case7 _ _ _ hf
  | case8 _ _ hf =>
    obtain ⟨rfl, rfl⟩ := Prod.mk.inj (hf.symm.trans h)
    intro step
    exact halts_of_next step (fun he => onward he _ _ _ _ _) (by simp)
  | case3 _ feed fs branch hf =>
    obtain ⟨rfl, rfl⟩ := Prod.mk.inj (hf.symm.trans h)
    intro step
    refine halts_of_next step (fun _ => onward rfl _ _ _ _ _) ?_
    rintro _ _ ⟨rfl, rfl⟩
    exact aside fs branch rfl _ _ _ _ _
  | case9 => exact halts_of_none
  | case10 _ _ _ _ hf =>
    obtain ⟨rfl, rfl⟩ := Prod.mk.inj (hf.symm.trans h)
    intro step
    exact halts_of_next step (fun _ => onward rfl _ _ _ _ _) (by simp)
  | case11 | case13 =>
    intro step
    exact halts_of_next step (by simp [Event.isTerminal]) (by simp)
  | case12 _ feed fs ref hf _ body _ _ _ _ hr =>
    obtain ⟨rfl, rfl⟩ := Prod.mk.inj (hf.symm.trans h)
    intro step
    refine halts_of_next step (fun _ => onward rfl _ _ _ _ _) ?_
    rintro _ _ ⟨rfl, rfl⟩
    exact again fs ref _ body rfl hr _ _ _ _ _
  | case14 _ _ _ _ hf =>
    obtain ⟨rfl, rfl⟩ := Prod.mk.inj (hf.symm.trans h)
    intro step
    exact (onward rfl _ _ _ _ _).congr step

end Feed.Halts

/-! ## 3. Tasks whose walks end

One lemma for each kind of task: some tasks halt if those do that the first one leaves behind.
Two kinds need more.  A quantifier goes by the iterations left to its bound, and a reference by
whatever body is matched again for it. -/

/-- A stream as a feed, either on its own or matched again on behalf of a reference, with what
goes on after it. -/
def Feed.within : Option (Reference × Feed) → Stream → Feed
  | none, s => .plain s
  | some (via, rest), s => .rematch s via rest

/-- No walk from some tasks goes on forever, whatever has been consumed before. -/
def Task.Halt (x : Subject) (outer : Option (Reference × Feed)) (todo : List Task) : Prop :=
  ∀ consumed, (Feed.within outer ⟨todo, consumed⟩).Halts x

/-- What goes on after a body that is matched again comes to an end. -/
def Settled (x : Subject) (outer : Option (Reference × Feed)) : Prop :=
  ∀ via rest, outer = some (via, rest) → rest.Halts x

section Tasks

variable {outer : Option (Reference × Feed)} {todo todo' rest : List Task} {fs : Frames}

/-- The walks of a stream inside of a feed end if those do that its next event leads to. -/
theorem Feed.halts_within {s t : Stream} {e : Event Stream} (settled : Settled x outer)
    (h : s.next x.multiline = (e, t))
    (onward : e.isTerminal = false → (within outer t).Halts x)
    (aside : ∀ fs b, e = .split fs b → (within outer b).Halts x)
    (again : ∀ fs r cs body, e = .refer fs r → x.resolve cs fs r = .ok (.rematch body) →
      (rematch (Stream.ofBody body fs) r (within outer t)).Halts x) :
    (within outer s).Halts x := by
  match outer with
  | none =>
    have hn : (plain s).next x.multiline = (e.mapBranch plain, plain t) := by rw [next, h]
    refine .intro hn (fun he => onward (by simpa using he)) ?_ ?_
    · intro fs b he
      obtain ⟨b, hb, rfl⟩ := Event.mapBranch_eq_split.mp he
      exact aside fs b hb
    · intro fs r cs body he
      exact again fs r cs body (Event.mapBranch_eq_refer.mp he)
  | some (via, rest) =>
    cases e with
    | done => exact (settled via rest rfl).congr (by rw [within, next, h])
    | stop | abort =>
      exact .intro (by rw [within, next, h]) (by simp [Event.isTerminal]) (by simp) (by simp)
    | consume | start | skip =>
      exact .intro (by rw [within, next, h]; rfl) (fun _ => onward rfl) (by simp) (by simp)
    | split fs b =>
      refine .intro (by rw [within, next, h]; rfl) (fun _ => onward rfl) ?_ (by simp)
      rintro _ _ ⟨rfl, rfl⟩
      exact aside fs b rfl
    | refer fs r =>
      refine .intro (by rw [within, next, h]; rfl) (fun _ => onward rfl) (by simp) ?_
      rintro _ _ cs body ⟨rfl, rfl⟩
      exact again fs r cs body rfl

/-- Streams with the same next event are the same inside of a feed. -/
theorem Feed.halts_within_congr {s t : Stream} (h : (within outer t).Halts x)
    (hn : s.next x.multiline = t.next x.multiline) : (within outer s).Halts x :=
  h.congr (by cases outer <;> simp only [within, next, hn])

namespace Task

theorem halt_congr (h : Halt x outer todo')
    (hn : ∀ c, Stream.nextFrom x.multiline c todo = Stream.nextFrom x.multiline c todo') :
    Halt x outer todo := fun c => Feed.halts_within_congr (h c) (hn c)

theorem halt_nil (settled : Settled x outer) : Halt x outer [] := fun c =>
  Feed.halts_within (e := .done) settled (by rw [Stream.next, Stream.nextFrom])
    (by simp [Event.isTerminal]) (by simp) (by simp)

theorem halt_finish (settled : Settled x outer) : Halt x outer (.finish fs :: rest) := fun c =>
  Feed.halts_within (e := .stop fs false) settled (by rw [Stream.next, Stream.nextFrom])
    (by simp [Event.isTerminal]) (by simp) (by simp)

theorem halt_atom (settled : Settled x outer) {a : Atom} (h : Halt x outer rest) :
    Halt x outer (.visit (.atom a) fs :: rest) := fun c =>
  Feed.halts_within (e := .consume fs a []) settled (by rw [Stream.next, Stream.nextFrom])
    (fun _ => h _) (by simp) (by simp)

theorem halt_anchor (settled : Settled x outer) {s : Site} {k : Anchor} (h : Halt x outer rest) :
    Halt x outer (.visit (.anchor s k) fs :: rest) := by
  intro c
  match k, hm : x.multiline with
  | .start, false =>
    exact Feed.halts_within (e := .start fs) settled
      (by rw [Stream.next, hm, Stream.nextFrom]) (fun _ => h c) (by simp) (by simp)
  | .stop, false =>
    exact Feed.halts_within (e := .stop fs true) settled
      (by rw [Stream.next, hm, Stream.nextFrom]) (by simp [Event.isTerminal]) (by simp) (by simp)
  | .start, true | .stop, true | .wordBoundary, _ | .nonWordBoundary, _ =>
    exact Feed.halts_within (e := .skip fs) settled
      (by rw [Stream.next, hm, Stream.nextFrom] <;> simp) (fun _ => h c) (by simp) (by simp)

theorem halt_reference (settled : Settled x outer) {r : Reference} (h : Halt x outer rest)
    (again : ∀ cs body, x.resolve cs fs r = .ok (.rematch body) →
      ∀ outer, Settled x outer → Halt x outer [.visit body fs]) :
    Halt x outer (.visit (.reference r) fs :: rest) := by
  intro c
  refine Feed.halts_within (e := .refer fs r) settled (by rw [Stream.next, Stream.nextFrom])
    (fun _ => h _) (by simp) ?_
  rintro _ _ cs body ⟨rfl, rfl⟩ hr
  refine again cs body hr (some (r, Feed.within outer ⟨rest, c + 1⟩)) ?_ 0
  rintro _ _ ⟨rfl, rfl⟩
  exact h _

theorem halt_group {g : Group} {body : Node} (hg : g.isLookaround = false)
    (h : Halt x outer (.visit body (.group g :: fs) :: rest)) :
    Halt x outer (.visit (.group g body) fs :: rest) :=
  halt_congr h fun c => by
    rw [Stream.nextFrom]
    simp [hg]

theorem halt_lookaround (settled : Settled x outer) {g : Group} {body : Node}
    (hg : g.isLookaround = true)
    (hb : Halt x outer [.visit body (.group g :: fs), .finish (.group g :: fs)])
    (h : Halt x outer rest) : Halt x outer (.visit (.group g body) fs :: rest) := by
  intro c
  refine Feed.halts_within (e := .split fs _) settled
    (by rw [Stream.next, Stream.nextFrom]; simp [hg]; rfl) (fun _ => h c) ?_ (by simp)
  rintro _ _ ⟨rfl, rfl⟩
  exact hb c

theorem halt_choose (settled : Settled x outer) {n m : Node} {ns : List Node}
    (hn : Halt x outer (.visit n fs :: rest)) (h : Halt x outer (.choose (m :: ns) fs :: rest)) :
    Halt x outer (.choose (n :: m :: ns) fs :: rest) := by
  intro c
  refine Feed.halts_within (e := .split fs _) settled
    (by rw [Stream.next, Stream.nextFrom]) (fun _ => h c) ?_ (by simp)
  rintro _ _ ⟨rfl, rfl⟩
  exact hn c

section Quantifiers

variable {q : Quantifier} {body : Node} {i idle mark : Nat}

theorem halt_quantifier (settled : Settled x outer)
    (h : Halt x outer (.iterate q body fs 0 0 :: rest)) :
    Halt x outer (.visit (.quantifier q body) fs :: rest) := fun c =>
  Feed.halts_within (e := .skip fs) settled (by rw [Stream.next, Stream.nextFrom])
    (fun _ => h c) (by simp) (by simp)

theorem halt_iterate (settled : Settled x outer) (h : Halt x outer rest)
    (he : q.count.isExhausted i = false → Halt x outer (.enter q body fs i idle :: rest)) :
    Halt x outer (.iterate q body fs i idle :: rest) := by
  by_cases hi : q.count.isExhausted i = true
  · exact halt_congr h fun c => by
      rw [Stream.nextFrom]
      simp [hi]
  have enter := he (by simpa using hi)
  by_cases hm : i < q.count.min
  · exact halt_congr enter fun c => by
      rw [Stream.nextFrom]
      simp [hi, hm]
  · intro c
    refine Feed.halts_within (e := .split fs _) settled
      (by rw [Stream.next, Stream.nextFrom]; simp [hi, hm]; rfl) (fun _ => h c) ?_ (by simp)
    rintro _ _ ⟨rfl, rfl⟩
    exact enter c

theorem halt_enter (settled : Settled x outer)
    (h : ∀ mark, Halt x outer (.visit body (Stream.iterationFrame q i :: fs) ::
      .leave q body fs i mark idle :: rest)) :
    Halt x outer (.enter q body fs i idle :: rest) := fun c =>
  Feed.halts_within (e := .skip (Stream.iterationFrame q i :: fs)) settled
    (by rw [Stream.next, Stream.nextFrom]) (fun _ => h c c) (by simp) (by simp)

theorem halt_leave (h : Halt x outer rest)
    (again : ∀ idle, Halt x outer (.iterate q body fs (i + 1) idle :: rest)) :
    Halt x outer (.leave q body fs i mark idle :: rest) := by
  intro c
  by_cases hc : 2 ≤ if c = mark then idle + 1 else 0
  · refine Feed.halts_within_congr (h c) ?_
    rw [Stream.next, Stream.nextFrom, if_pos hc, Stream.next]
  · refine Feed.halts_within_congr (again (if c = mark then idle + 1 else 0) c) ?_
    conv_lhs => rw [Stream.next, Stream.nextFrom, if_neg hc]
    rw [Stream.next]

/-- **A quantifier with an upper bound comes to an end**, by induction on the iterations that are
left.  Nothing is asked of the body but that it halts inside of any iteration. -/
theorem halt_rounds (settled : Settled x outer) {bound : Nat} (hq : q.count.max = some bound)
    (inner : ∀ i todo, Halt x outer todo →
      Halt x outer (.visit body (Stream.iterationFrame q i :: fs) :: todo))
    (h : Halt x outer rest) (i idle : Nat) : Halt x outer (.iterate q body fs i idle :: rest) := by
  induction hk : bound - i generalizing i idle with
  | zero =>
    refine halt_iterate settled h fun he => ?_
    simp [Count.isExhausted, hq] at he
    omega
  | succ k ih =>
    refine halt_iterate settled h fun _ => halt_enter settled fun mark => inner i _ ?_
    exact halt_leave h fun idle => ih (i + 1) idle (by omega)

end Quantifiers

end Task

end Tasks

/-! ## 4. References and the bodies that are matched again for them

Matching a body again for a reference makes no node smaller, as the body may be anywhere in the
tree.  What the induction goes along is the relation between a reference and those in the body
that is matched for it. -/

/-- A reference that is met while some capture groups are open. -/
structure Meeting where
  reference : Reference
  opened : Finset Nat

namespace Node

mutual

/-- The references of a node that is met while the groups `o` are open. -/
def meetings (o : Finset Nat) : Node → List Meeting
  | atom _ => []
  | anchor _ _ => []
  | reference r => [⟨r, o⟩]
  | group g body => meetings (if g.isCapture then insert g.index o else o) body
  | quantifier _ body => meetings o body
  | sequence _ ns => meetingsAll o ns
  | alternation _ ns => meetingsAll o ns

/-- The references of several nodes. -/
def meetingsAll (o : Finset Nat) : List Node → List Meeting
  | [] => []
  | n :: ns => meetings o n ++ meetingsAll o ns

end

end Node

/-- For the one reference a body may be matched again that meets the other one. -/
def Subject.Rematches (x : Subject) (m m' : Meeting) : Prop :=
  m.reference.index ∉ m.opened ∧ ∃ body, x.resolve [] [] m.reference = .ok (.rematch body) ∧
    m' ∈ body.meetings m.opened

/-- The bodies that are matched again for a reference come to an end. -/
def Meeting.Halts (x : Subject) (m : Meeting) : Prop :=
  ∀ fs cs body, fs.opened.toFinset = m.opened → x.resolve cs fs m.reference = .ok (.rematch body) →
    ∀ outer, Settled x outer → Task.Halt x outer [.visit body fs]

/-! ## 5. Nodes whose walks end

Two inductions, one inside of the other: along the bodies that are matched again, and for each
body along the tree. -/

/-- Every quantifier of the pattern has an upper bound. -/
def Pattern.Limited (p : Pattern) : Prop :=
  ∀ q body, .quantifier q body ∈ p.root.walk → q.count.max ≠ none

section Nodes

variable {p : Pattern} {outer : Option (Reference × Feed)}

mutual

/-- **The walks of a node end** if its quantifiers have upper bounds and what is matched again
for its references comes to an end. -/
theorem Node.halt_visit (limited : p.Limited) (settled : Settled (Subject.ofPattern p) outer) :
    ∀ (n : Node) (fs : Frames) (rest : List Task), p.root.Below n →
    (∀ m ∈ n.meetings fs.opened.toFinset, m.Halts (Subject.ofPattern p)) →
    Task.Halt (Subject.ofPattern p) outer rest →
    Task.Halt (Subject.ofPattern p) outer (.visit n fs :: rest)
  | .atom a, fs, rest, _, _, h => Task.halt_atom settled h
  | .anchor s k, fs, rest, _, _, h => Task.halt_anchor settled h
  | .reference r, fs, rest, _, meet, h => by
    refine Task.halt_reference settled h ?_
    exact fun cs body hr => meet ⟨r, fs.opened.toFinset⟩ (by simp [meetings]) fs cs body rfl hr
  | .group g body, fs, rest, below, meet, h => by
    have inner : ∀ m ∈ body.meetings (Frames.opened (.group g :: fs)).toFinset,
        m.Halts (Subject.ofPattern p) := by
      rw [meetings] at meet
      split at meet
      · rename_i hg
        rwa [Frames.opened_capture hg, List.toFinset_cons]
      · rename_i hg
        rwa [Frames.opened_of_not_capture (by simpa using hg)]
    by_cases hg : g.isLookaround = true
    · exact Task.halt_lookaround settled hg
        (Node.halt_visit limited settled body _ _ below.group inner (Task.halt_finish settled)) h
    · exact Task.halt_group (by simpa using hg)
        (Node.halt_visit limited settled body _ _ below.group inner h)
  | .quantifier q body, fs, rest, below, meet, h => by
    obtain ⟨bound, hq⟩ := Option.ne_none_iff_exists'.mp (limited q body below.mem)
    refine Task.halt_quantifier settled (Task.halt_rounds settled hq ?_ h 0 0)
    intro i todo htodo
    exact Node.halt_visit limited settled body _ _ below.quantifier
      (by simpa [meetings, Stream.iterationFrame, Frames.opened] using meet) htodo
  | .sequence s ns, fs, rest, below, meet, h => by
    have visits := Node.halt_visits limited settled ns fs rest below.sequence
      (by simpa [meetings] using meet) h
    exact Task.halt_congr visits fun c => by rw [Stream.nextFrom]
  | .alternation s ns, fs, rest, below, meet, h => by
    have choices := Node.halt_choices limited settled ns fs rest below.alternation
      (by simpa [meetings] using meet) h
    exact Task.halt_congr choices fun c => by rw [Stream.nextFrom]

theorem Node.halt_visits (limited : p.Limited) (settled : Settled (Subject.ofPattern p) outer) :
    ∀ (ns : List Node) (fs : Frames) (rest : List Task),
    (∀ n ∈ ns, p.root.Below n) →
    (∀ m ∈ Node.meetingsAll fs.opened.toFinset ns, m.Halts (Subject.ofPattern p)) →
    Task.Halt (Subject.ofPattern p) outer rest →
    Task.Halt (Subject.ofPattern p) outer (Task.visits ns fs ++ rest)
  | [], fs, rest, _, _, h => h
  | n :: ns, fs, rest, below, meet, h => by
    rw [meetingsAll, List.forall_mem_append] at meet
    rw [List.forall_mem_cons] at below
    exact Node.halt_visit limited settled n fs _ below.1 meet.1
      (Node.halt_visits limited settled ns fs rest below.2 meet.2 h)

theorem Node.halt_choices (limited : p.Limited) (settled : Settled (Subject.ofPattern p) outer) :
    ∀ (ns : List Node) (fs : Frames) (rest : List Task),
    (∀ n ∈ ns, p.root.Below n) →
    (∀ m ∈ Node.meetingsAll fs.opened.toFinset ns, m.Halts (Subject.ofPattern p)) →
    Task.Halt (Subject.ofPattern p) outer rest →
    Task.Halt (Subject.ofPattern p) outer (.choose ns fs :: rest)
  | [], fs, rest, _, _, h => Task.halt_congr h fun c => by rw [Stream.nextFrom]
  | [n], fs, rest, below, meet, h => by
    have visit := Node.halt_visit limited settled n fs rest (below n List.mem_cons_self)
      (by simpa [meetingsAll] using meet) h
    exact Task.halt_congr visit fun c => by rw [Stream.nextFrom]
  | n :: m :: ns, fs, rest, below, meet, h => by
    rw [meetingsAll, List.forall_mem_append] at meet
    rw [List.forall_mem_cons] at below
    exact Task.halt_choose settled (Node.halt_visit limited settled n fs rest below.1 meet.1 h)
      (Node.halt_choices limited settled (m :: ns) fs rest below.2 meet.2 h)

end

/-- The bodies that are matched again come to an end if there is an end to matching bodies
again, by induction along them. -/
theorem Meeting.halts (limited : p.Limited) {m : Meeting}
    (acc : Acc (fun m' m => (Subject.ofPattern p).Rematches m m') m) :
    m.Halts (Subject.ofPattern p) := by
  induction acc with
  | intro m _ ih =>
    intro fs cs body opened hr outer settled
    obtain ⟨closed, again, -⟩ := Subject.resolve_rematch hr
    rw [← List.mem_toFinset, opened] at closed
    refine Node.halt_visit limited settled body fs [] (Resolver.below_of_resolve_rematch hr) ?_
      (Task.halt_nil settled)
    rw [opened]
    exact fun m' hm => ih m' ⟨closed, body, again, hm⟩

/-! ## 6. Bounds for whole patterns

A pattern has finitely many references and finitely many sets of open groups, so a chain of bodies
without end comes back to where it has been.  If no reference leads back to itself, there is no
such chain. -/

mutual

/-- What is met in a part of a tree is of that tree. -/
theorem Node.Below.meetings {root : Node} : ∀ {n : Node} {o : Finset Nat} {m : Meeting},
    root.Below n → m ∈ n.meetings o →
      .reference m.reference ∈ root.walk ∧ m.opened ⊆ o ∪ (captureIndexes root.walk).toFinset
  | .atom _, _, _, _, hm => by simp [Node.meetings] at hm
  | .anchor _ _, _, _, _, hm => by simp [Node.meetings] at hm
  | .reference r, o, m, below, hm => by
    obtain rfl : m = ⟨r, o⟩ := by simpa [Node.meetings] using hm
    exact ⟨below.mem, Finset.subset_union_left⟩
  | .group g body, o, m, below, hm => by
    obtain ⟨hr, ho⟩ := Node.Below.meetings below.group (by simpa [Node.meetings] using hm)
    refine ⟨hr, ho.trans ?_⟩
    by_cases hg : g.isCapture = true
    · have := mem_captureIndexes.mpr ⟨g, body, below.mem, hg, rfl⟩
      simp [hg, this]
    · simp [hg]
  | .quantifier q body, _, _, below, hm =>
    Node.Below.meetings below.quantifier (by simpa [Node.meetings] using hm)
  | .sequence s ns, _, _, below, hm =>
    Node.Below.meetingsAll below.sequence (by simpa [Node.meetings] using hm)
  | .alternation s ns, _, _, below, hm =>
    Node.Below.meetingsAll below.alternation (by simpa [Node.meetings] using hm)

theorem Node.Below.meetingsAll {root : Node} : ∀ {ns : List Node} {o : Finset Nat} {m : Meeting},
    (∀ n ∈ ns, root.Below n) → m ∈ Node.meetingsAll o ns →
      .reference m.reference ∈ root.walk ∧ m.opened ⊆ o ∪ (captureIndexes root.walk).toFinset
  | [], _, _, _, hm => by simp [Node.meetingsAll] at hm
  | n :: ns, _, _, below, hm => by
    rw [List.forall_mem_cons] at below
    rw [Node.meetingsAll, List.mem_append] at hm
    rcases hm with hm | hm
    · exact Node.Below.meetings below.1 hm
    · exact Node.Below.meetingsAll below.2 hm

end

/-- The meetings a walk of the tree can come to. -/
def Meeting.Of (root : Node) (m : Meeting) : Prop :=
  .reference m.reference ∈ root.walk ∧ m.opened ⊆ (captureIndexes root.walk).toFinset

theorem Meeting.finite_of (root : Node) : {m : Meeting | m.Of root}.Finite := by
  have references := (Downgrade.references root).toFinset.finite_toSet
  have opened := (captureIndexes root.walk).toFinset.powerset.finite_toSet
  refine (references.image2 Meeting.mk opened).subset ?_
  rintro ⟨r, o⟩ ⟨hr, ho⟩
  have met := List.mem_toFinset.mpr (Downgrade.mem_references.mpr hr)
  exact ⟨r, Finset.mem_coe.mpr met, o, Finset.mem_coe.mpr (Finset.mem_powerset.mpr ho), rfl⟩

/-- In a finite set that a relation does not leave, every chain of the relation ends if none
comes back to where it has been. -/
theorem acc_of_finite {α : Type} {r : α → α → Prop} {S : Set α} (finite : S.Finite)
    (closed : ∀ a ∈ S, ∀ b, r a b → b ∈ S) (acyclic : ∀ a ∈ S, ¬ Relation.TransGen r a a)
    {a : α} (ha : a ∈ S) : Acc (fun b a => r a b) a := by
  let onward : S → S → Prop := fun b a => Relation.TransGen r a b
  have : Finite S := finite
  have : IsTrans S onward := ⟨fun _ _ _ hab hbc => hbc.trans hab⟩
  have : Std.Irrefl onward := ⟨fun a => acyclic a a.2⟩
  have wf : WellFounded onward := Finite.wellFounded_of_trans_of_irrefl onward
  have acc : ∀ a : S, Acc (fun b a => r a b) a.1 := fun a => by
    induction a using wf.induction with
    | _ a ih =>
      exact Acc.intro a.1 fun b hb => ih ⟨b, closed a a.2 b hb⟩ (Relation.TransGen.single hb)
  exact acc ⟨a, ha⟩

/-- No reference that is met leads back to itself by the bodies that are matched again for it. -/
def Pattern.Unwinds (p : Pattern) : Prop :=
  ∀ m ∈ p.root.meetings ∅, ∀ m', Relation.ReflTransGen (Subject.ofPattern p).Rematches m m' →
    ¬ Relation.TransGen (Subject.ofPattern p).Rematches m' m'

/-- What is matched again for a reference is part of the tree, and so are its references. -/
theorem Meeting.Of.rematches {m m' : Meeting} (h : m.Of p.root)
    (hm : (Subject.ofPattern p).Rematches m m') : m'.Of p.root := by
  obtain ⟨-, body, hr, hb⟩ := hm
  obtain ⟨mem, ho⟩ := (Resolver.below_of_resolve_rematch hr).meetings hb
  exact ⟨mem, ho.trans (Finset.union_subset h.2 (Finset.Subset.refl _))⟩

theorem Pattern.Unwinds.acc (unwinds : p.Unwinds) {m : Meeting} (hm : m ∈ p.root.meetings ∅) :
    Acc (fun m' m => (Subject.ofPattern p).Rematches m m') m := by
  refine acc_of_finite (S := {m' | Relation.ReflTransGen (Subject.ofPattern p).Rematches m m'})
    ((Meeting.finite_of p.root).subset ?_) (fun a ha b hb => ha.tail hb) (unwinds m hm) .refl
  intro m' reached
  have of : m.Of p.root := by
    obtain ⟨mem, ho⟩ := (Node.Below.refl p.root).meetings hm
    exact ⟨mem, by simpa using ho⟩
  induction reached with
  | refl => exact of
  | tail _ step ih => exact Meeting.Of.rematches ih step

/-- **The derivations of a pattern without unbounded quantifiers are bounded**, if no reference
leads back to itself by the bodies that are matched again for it. -/
theorem exists_endsWithin (limited : p.Limited) (unwinds : p.Unwinds) :
    ∃ n, EndsWithin (Resolver.step (Subject.ofPattern p)) n (Resolver.ofPattern p) := by
  have settled : Settled (Subject.ofPattern p) none := by simp [Settled]
  have halt := Node.halt_visit limited settled p.root [] [.finish []] (Node.Below.refl p.root)
    (fun m hm => Meeting.halts limited (unwinds.acc hm)) (Task.halt_finish settled)
  exact exists_endsWithin_of_halts ((halt 0).resolver [] [] [] 0 none)

/-- It is enough that the references in a group are to groups before it. -/
theorem Pattern.unwinds_of_backward
    (backward : ∀ g body, .group g body ∈ p.root.walk → g.isCapture = true →
      ∀ r, .reference r ∈ body.walk → r.index < g.index) : p.Unwinds := by
  have falls : ∀ m m', (Subject.ofPattern p).Rematches m m' →
      m'.reference.index < m.reference.index := by
    rintro m m' ⟨-, body, hr, hm⟩
    obtain ⟨-, -, g, hg⟩ := Subject.resolve_rematch hr
    obtain ⟨mem, capture, index⟩ := Index.mem_of_group? hg
    rw [← index]
    exact backward g body mem capture _ ((Node.Below.refl body).meetings hm).1
  intro _ _ m _ loop
  have : ∀ m', Relation.TransGen (Subject.ofPattern p).Rematches m m' →
      m'.reference.index < m.reference.index := by
    intro m' h
    induction h with
    | single h => exact falls _ _ h
    | tail _ h ih => exact (falls _ _ h).trans ih
  exact Nat.lt_irrefl _ (this m loop)

/-- In `(a?)(b?\1)\2` each reference may match a body again, the last one both of them. -/
theorem exists_endsWithin_of_backward : ∃ p,
    Pattern.parse (Bytes.ofString "(a?)(b?\\1)\\2") {} = .ok p ∧
      p.Limited ∧ p.Unwinds ∧
      ∃ n, EndsWithin (Resolver.step (Subject.ofPattern p)) n (Resolver.ofPattern p) := by
  let p : Pattern :=
    { source := Bytes.ofString "(a?)(b?\\1)\\2"
      flags := {}
      root := .sequence ⟨10, 0, 12⟩ [
        .group ⟨⟨3, 0, 4⟩, .capture, 1, []⟩
          (.quantifier ⟨⟨2, 1, 3⟩, ⟨0, some 1, false⟩⟩ (.atom ⟨⟨1, 1, 2⟩, .char 97⟩)),
        .group ⟨⟨8, 4, 10⟩, .capture, 2, []⟩ (.sequence ⟨7, 5, 9⟩ [
          .quantifier ⟨⟨5, 5, 7⟩, ⟨0, some 1, false⟩⟩ (.atom ⟨⟨4, 5, 6⟩, .char 98⟩),
          .reference ⟨⟨6, 7, 9⟩, 1, []⟩]),
        .reference ⟨⟨9, 10, 12⟩, 2, []⟩]
      captures := 2 }
  have parsed : Pattern.parse (Bytes.ofString "(a?)(b?\\1)\\2") {} = .ok p := by
    with_unfolding_all rfl
  have limited : p.Limited := by
    intro q body h
    simp [p, Node.walk, Node.walkAll] at h
    rcases h with ⟨rfl, -⟩ | ⟨rfl, -⟩ <;> simp
  have unwinds : p.Unwinds := Pattern.unwinds_of_backward fun g body h _ r hr => by
    simp [p, Node.walk, Node.walkAll] at h
    rcases h with ⟨rfl, rfl⟩ | ⟨rfl, rfl⟩ <;> simp_all [Node.walk, Node.walkAll]
  exact ⟨p, parsed, limited, unwinds, exists_endsWithin limited unwinds⟩

end Nodes

/-! ## 7. A body that is matched again without end

The condition cannot be left out.  The walk never comes back to a place, since the streams that
wait pile up.  So what is shown is that no number of events is enough, by induction on the number
and for any streams that wait. -/

section Endless

variable {x : Subject} {r : Reference} {q : Quantifier} {s : Site} {a : Atom}

/-- Where the body `a?\1` of group 1 is matched again for a reference to the group, the one in
the body stands for another match of it. -/
theorem not_endsWithin_of_rematch (hq : q.count = ⟨0, some 1, false⟩)
    (again : x.resolve [] [] r =
      .ok (.rematch (.sequence s [.quantifier q (.atom a), .reference r])))
    (n : Nat) (via : Reference) (rest : Feed) :
    ¬ EndsWithin (Resolver.step x) n (.ofFeed (.rematch (Stream.ofBody
      (.sequence s [.quantifier q (.atom a), .reference r]) []) via rest)) := by
  induction n using Nat.strong_induction_on generalizing via rest with
  | _ n ih =>
  intro h
  let place (todo : List Task) : Resolver := .ofFeed (.rematch ⟨todo, 0⟩ via rest)
  have enter : (place [.visit (.sequence s [.quantifier q (.atom a), .reference r]) []]).step x =
      some (.skip [], place [.iterate q (.atom a) [] 0 0, .visit (.reference r) []]) := by
    refine Resolver.step_eq_some.mpr
      (Resolver.next_of_feed (e := .skip []) rfl ?_ (by simp) (by simp))
    simp [place, Resolver.ofFeed, Feed.next, Stream.next, Stream.nextFrom, Task.visits]
  have leave : (place [.iterate q (.atom a) [] 0 0, .visit (.reference r) []]).step x =
      some (.split [] (place [.enter q (.atom a) [] 0 0, .visit (.reference r) []]),
        place [.visit (.reference r) []]) := by
    refine Resolver.step_eq_some.mpr
      (Resolver.next_of_feed (e := .split [] _) rfl ?_ (by simp) (by simp))
    simp [place, Resolver.ofFeed, Feed.next, Stream.next, Stream.nextFrom, Count.isExhausted, hq]
  have met : (place [.visit (.reference r) []]).feed.next x.multiline =
      (.refer [] r, .rematch ⟨[], 1⟩ via rest) := by
    simp [place, Resolver.ofFeed, Feed.next, Stream.next, Stream.nextFrom]
  have meet := Resolver.next_of_rematch rfl met again rfl
  obtain ⟨k, hk, h⟩ := h.step (.onward enter rfl)
  obtain ⟨l, hl, h⟩ := h.step (.onward leave rfl)
  obtain ⟨m, hm, h⟩ := h.step (.aside (Resolver.step_eq_some.mpr meet))
  exact ih m (by omega) r _ h

/-- **Counts alone do not bound the derivations**: in `(a?\1)\1` group 1 is matched again for the
last reference and, as nobody knows that it is open then, for the one in the group as well, over
and over. -/
theorem exists_endless_rematch : ∃ p,
    Pattern.parse (Bytes.ofString "(a?\\1)\\1") {} = .ok p ∧ p.Limited ∧
      ¬ ∃ n, EndsWithin (Resolver.step (Subject.ofPattern p)) n (Resolver.ofPattern p) := by
  let a : Atom := ⟨⟨1, 1, 2⟩, .char 97⟩
  let q : Quantifier := ⟨⟨2, 1, 3⟩, ⟨0, some 1, false⟩⟩
  let inner : Reference := ⟨⟨3, 3, 5⟩, 1, []⟩
  let outer : Reference := ⟨⟨6, 6, 8⟩, 1, []⟩
  let g : Group := ⟨⟨5, 0, 6⟩, .capture, 1, []⟩
  let body : Node := .sequence ⟨4, 1, 5⟩ [.quantifier q (.atom a), .reference inner]
  let p : Pattern :=
    { source := Bytes.ofString "(a?\\1)\\1"
      flags := {}
      root := .sequence ⟨7, 0, 8⟩ [.group g body, .reference outer]
      captures := 1 }
  have parsed : Pattern.parse (Bytes.ofString "(a?\\1)\\1") {} = .ok p := by
    with_unfolding_all rfl
  have again : (Subject.ofPattern p).resolve [] [] inner = .ok (.rematch body) := by
    with_unfolding_all rfl
  -- The walk leaves `a?` at once and passes the reference in the group, which is open.
  let place (todo : List Task) (n : Nat) : Resolver := .ofFeed (.plain ⟨todo, n⟩)
  let after : List Task := [.visit (.reference outer) [], .finish []]
  have enter := Resolver.next_of_feed (x := .ofPattern p) (r := Resolver.ofPattern p)
    (e := .skip [.group g]) (g := .plain ⟨.iterate q (.atom a) [.group g] 0 0 ::
      .visit (.reference inner) [.group g] :: after, 0⟩) rfl
    (by simp [Resolver.ofPattern, Resolver.ofStream, Stream.ofNode, Feed.next, Stream.next,
      Stream.nextFrom, Task.visits, p, body, g, Group.isLookaround, GroupKind.isLookaround,
      Event.mapBranch, after]) (by simp) (by simp)
  have leave := Resolver.next_of_feed (x := .ofPattern p)
    (r := place (.iterate q (.atom a) [.group g] 0 0 ::
      .visit (.reference inner) [.group g] :: after) 0)
    (e := .split [.group g] _) (g := .plain ⟨.visit (.reference inner) [.group g] :: after, 0⟩) rfl
    (by simp [place, Resolver.ofFeed, Feed.next, Stream.next, Stream.nextFrom, q,
      Count.isExhausted, Event.mapBranch]; rfl) (by simp) (by simp)
  have closed : (place (.visit (.reference inner) [.group g] :: after) 0).feed.next
      (Subject.ofPattern p).multiline = (.refer [.group g] inner, .plain ⟨after, 1⟩) := by
    simp [place, Resolver.ofFeed, Feed.next, Stream.next, Stream.nextFrom, Event.mapBranch]
  have pass := Resolver.next_of_nothing rfl closed rfl rfl
  have met : (place after 1).feed.next (Subject.ofPattern p).multiline =
      (.refer [] outer, .plain ⟨[.finish []], 2⟩) := by
    simp [place, Resolver.ofFeed, Feed.next, Stream.next, Stream.nextFrom, Event.mapBranch, after]
  have again' : (Subject.ofPattern p).resolve [] [] outer = .ok (.rematch body) := rfl
  have meet := Resolver.next_of_rematch rfl met again' rfl
  refine ⟨p, parsed, ?_, ?_⟩
  · simp [Pattern.Limited, p, body, Node.walk, Node.walkAll, a, q]
  · rintro ⟨n, h⟩
    obtain ⟨k, -, h⟩ := h.step (.onward (Resolver.step_eq_some.mpr enter) rfl)
    obtain ⟨l, -, h⟩ := h.step (.onward (Resolver.step_eq_some.mpr leave) rfl)
    obtain ⟨m, -, h⟩ := h.step (.aside (Resolver.step_eq_some.mpr (pass.trans meet)))
    exact not_endsWithin_of_rematch rfl again m outer _ h

end Endless

end Backtrack
