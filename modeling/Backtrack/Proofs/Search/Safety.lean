/-
# Nothing that a search relies on fails

The search that checks everything (`Guarded.run`) is the search of `Search.run`, with questions
attached to its positions (`State.guarded`), and it comes to no `Panic`.

What carries this is that all work is `Backed` by runs.  So whatever waits in its halves belongs to
the tree of the pattern (`Resolver.Rooted`), every leaf that is met, by a half or on the way to the
answer of a question, is found there by its number, and leaves of a parsed pattern have a
requirement (`exists_accepts`).  The rest is about kinds of events.  A reference never leaves a
resolver, a position goes past what only lets a walk pass, and a split is taken apart before
anything is compared: what is left ends the walk or consumes (`Resolver.fetch_cases`).

Each level lifts the one below: positions (`fetch_guarded`), moves (`lifts_move`), pairs of leaves
(`compare_guarded`), work (`lifts_expand`), searches (`ending_run`).
-/
import Backtrack.Proofs.Pattern.Followed
import Backtrack.Proofs.Pattern.Visiting
import Backtrack.Proofs.Search.Guarded

namespace Backtrack

namespace Resolver

/-- **What is fetched** ends the walk, splits it or consumes. -/
theorem fetch_cases {x : Subject} {starts n : Nat} {r r' : Resolver} {e : Event Resolver}
    (h : r.fetch x starts = .ok (n, e, r')) :
    e.isTerminal = true ∨ (∃ fs b, e = .split fs b) ∨ ∃ fs a via, e = .consume fs a via := by
  obtain ⟨es, t, -, -, -, hn, passing⟩ := run_of_fetch h
  cases e with
  | consume fs a via => exact .inr (.inr ⟨fs, a, via, rfl⟩)
  | split fs b => exact .inr (.inl ⟨fs, b, rfl⟩)
  | refer fs ref => exact absurd rfl (next_ne_refer hn fs ref)
  | start | skip => cases passing
  | stop | abort | done => exact .inl rfl

end Resolver

namespace Search

open Resolver

/-! ## 1. Lifting

The search that checks everything carries more along, and each of its data types has the data of
the plain search in it.  So the plain state is the one that is followed, and the other one is
computed from it. -/

/-- A half of a path whose position attaches questions. -/
def Half.guarded (h : Half) : Guarded.Half := ⟨⟨h.position, true⟩, h.starts, h.seen⟩

/-- Work whose positions attach questions. -/
def Work.guarded (w : Work) : Guarded.Work :=
  ⟨w.left.guarded, w.right.guarded, w.trail, w.history, w.equal⟩

/-- A leaf that accepts `g`, with its question. -/
def Candidate.guarded (c : Candidate) (g : Requirement) : Guarded.Leaf :=
  ⟨c.frames, c.atom, c.via, c.starts, c.seen, g, ⟨c.rest, false⟩, ⟨c.rest, true⟩⟩

/-- What becomes of work, with questions. -/
def Expansion.guarded : Expansion → Guarded.Expansion
  | .stop s => .stop s
  | .replace work found => .replace (work.map Work.guarded) found

/-- A state whose work attaches questions. -/
def State.guarded (s : State) : Guarded.State := ⟨s.stack.map Work.guarded, s.steps, s.found⟩

namespace Guarded

variable {p : Pattern} {o : Options}

/-! ## 2. Leaves

That a leaf has a requirement is known of the tree.  What a half meets belongs to the tree, since
runs lead to it, and it is found there by its number. -/

theorem rooted_of_leads {n m : Nat} {ss : List Sighting} {r : Resolver}
    (h : Leads (Subject.ofPattern p) (ofPattern p) n ss r m) : r.Rooted p.root := by
  obtain ⟨es, run, -, -⟩ := h
  exact (rooted_of_run run).2

/-- What the leaf of an event accepts. -/
structure Accepts (x : Surroundings) (e : Event Resolver) (g : Requirement) : Prop where
  accepted : acceptedBy x e = .ok g
  leaf : ∀ {fs a via}, e = .consume fs a via → x.requirement a = .ok g

/-- The number of a leaf of the tree is found to be that of the leaf. -/
theorem find?_leaf {root : Node} (distinct : root.IsDistinct) {a : Atom}
    (ha : root.Has (.atom a)) : root.walk.find? (·.id == a.site.id) = some (.atom a) := by
  cases hf : root.walk.find? (·.id == a.site.id) with
  | none =>
    have := List.find?_eq_none.mp hf _ ha.mem
    exact absurd (beq_iff_eq.mpr rfl) this
  | some n =>
    have id : n.id = a.site.id := by simpa using List.find?_some hf
    rw [Node.eq_of_id distinct (List.mem_of_find?_eq_some hf) ha.mem id]

/-- **What a leaf of a parsed pattern accepts can be worked out.**  It is found in the tree by its
number, and its properties have tables as the pattern was parsed. -/
theorem exists_accepts (wf : p.IsWellFormed) {e : Event Resolver} {B : Resolver → Prop}
    (h : e.Rooted p.root B) : ∃ g, Accepts (around p o) e g := by
  cases e with
  | consume fs a via =>
    obtain ⟨g, hg, -⟩ := Shape.exists_requirement (wf.sound _ h.1.mem) p.flags
    have known : (around p o).requirement a = .ok g :=
      (requirementIn_eq p.flags p.root a).trans hg
    have found : (around p o).nodes.find? (·.id == a.site.id) = some (.atom a) :=
      find?_leaf wf.distinct h.1
    refine ⟨g, by simp [acceptedBy, compile, found, known], ?_⟩
    rintro _ _ _ ⟨⟩
    exact known
  | _ => exact ⟨Requirement.empty, rfl, by simp⟩

/-! ## 3. Positions

Attaching questions to leaves changes no event.  A question is asked at a position of its own,
where no questions are attached. -/

/-- **One step of a position is that of its resolver**; what its leaf accepts is known. -/
theorem next_guarded (wf : p.IsWellFormed) (asks : Bool) {r : Resolver} (h : r.Rooted p.root) :
    (∀ {u}, r.next (Subject.ofPattern p) = .error u →
      Cursor.next (around p o) ⟨r, asks⟩ = .error (.unsupported u)) ∧
    ∀ {e r'}, r.next (Subject.ofPattern p) = .ok (e, r') →
      ∃ g, Accepts (around p o) e g ∧
        Cursor.next (around p o) ⟨r, asks⟩ = .ok (.of asks e g r', ⟨r', asks⟩) := by
  have subject : (around p o).subject = Subject.ofPattern p := rfl
  refine ⟨fun hn => by simp [Cursor.next, subject, hn], fun {e r'} hn => ?_⟩
  obtain ⟨g, hg⟩ := exists_accepts (o := o) wf (h.next hn).1
  exact ⟨g, hg, by simp [Cursor.next, subject, hn, hg.accepted]⟩

/-- **What is asked of a question is what the search asks.** -/
theorem endsWithin_guarded (wf : p.IsWellFormed) : ∀ {k : Nat} {r : Resolver},
    r.Rooted p.root → Cursor.endsWithin (around p o) k ⟨r, false⟩ =
      .ok (r.endsUnboundedWithin (Subject.ofPattern p) k)
  | 0, _, _ => rfl
  | k + 1, r, h => by
    obtain ⟨failing, going⟩ := next_guarded (o := o) wf false h
    cases hn : r.next (Subject.ofPattern p) with
    | error u => simp [Cursor.endsWithin, failing hn, endsUnboundedWithin, hn]
    | ok f =>
      obtain ⟨e, r'⟩ := f
      obtain ⟨g, -, next⟩ := going hn
      have ih := endsWithin_guarded wf (k := k) (h.next hn).2
      cases e <;>
        simp [Cursor.endsWithin, next, endsUnboundedWithin, hn, Notice.of, Event.mapBranch, ih]

/-- **What a position fetches is what its resolver fetches.**  By induction on how much the feed
has left, as what only lets the walk pass leaves less. -/
theorem fetch_guarded (wf : p.IsWellFormed) {r : Resolver} (h : r.Rooted p.root) (starts : Nat) :
    (∀ {u}, r.fetch (Subject.ofPattern p) starts = .error u →
      Cursor.fetch (around p o) starts ⟨r, true⟩ = .error (.unsupported u)) ∧
    ∀ {n e r'}, r.fetch (Subject.ofPattern p) starts = .ok (n, e, r') →
      ∃ g, Accepts (around p o) e g ∧
        Cursor.fetch (around p o) starts ⟨r, true⟩ = .ok (n, .of true e g r', ⟨r', true⟩) := by
  fun_induction Resolver.fetch (Subject.ofPattern p) starts r with
  | case1 starts r u hn =>
    refine ⟨fun hu => ?_, by simp⟩
    obtain rfl := Except.error.inj hu
    exact Cursor.fetch_of_error ((next_guarded wf true h).1 hn) starts
  | case2 starts r fs r' hn ih =>
    obtain ⟨g, -, next⟩ := (next_guarded (o := o) wf true h).2 hn
    rw [Cursor.fetch_of_ok next]
    exact ih (h.next hn).2
  | case3 starts r fs r' hn ih =>
    obtain ⟨g, -, next⟩ := (next_guarded (o := o) wf true h).2 hn
    rw [Cursor.fetch_of_ok next]
    exact ih (h.next hn).2
  | case4 starts r e r' skip start hn =>
    refine ⟨by simp, fun {n d s} hf => ?_⟩
    obtain ⟨rfl, rfl, rfl⟩ : starts = n ∧ e = d ∧ r' = s := by simpa using hf
    obtain ⟨g, hg, next⟩ := (next_guarded (o := o) wf true h).2 hn
    refine ⟨g, hg, ?_⟩
    rw [Cursor.fetch_of_ok next]
    cases e with
    | skip fs => exact (skip fs rfl).elim
    | start fs => exact (start fs rfl).elim
    | _ => rfl

/-! ## 4. Steps

Two events are compared only after both halves have come to something that is no split, and what
is left then is a leaf that consumes or an end. -/

/-- The move of a half that attaches questions is that of the half that does not. -/
inductive Move.Lifts (x : Surroundings) :
    Except Unsupported Search.Move → Except Trouble Move → Prop
  | fails (u : Unsupported) : Lifts x (.error u) (.error (.unsupported u))
  | ends {e : Event Unit} (h : e.isTerminal = true) : Lifts x (.ok .ends) (.ok (.other e))
  | splits (fs : Frames) (stay enter : Search.Half) :
    Lifts x (.ok (.splits stay enter)) (.ok (.splits fs stay.guarded enter.guarded))
  | consumes {c : Candidate} {g : Requirement} (h : x.requirement c.atom = .ok g) :
    Lifts x (.ok (.consumes c)) (.ok (.consumes (c.guarded g)))

/-- **What a half does next**: its leaf comes with a question, and what is no leaf and does not
split ends the walk. -/
theorem lifts_move (wf : p.IsWellFormed) {h : Search.Half} (hr : h.position.Rooted p.root) :
    Move.Lifts (around p o) (h.move (contextOf p o)) (h.guarded.move (around p o)) := by
  obtain ⟨failing, going⟩ := fetch_guarded (o := o) wf hr h.starts
  have subject : (contextOf p o).subject = Subject.ofPattern p := rfl
  unfold Search.Half.move Half.move
  rw [subject]
  cases hf : h.position.fetch (Subject.ofPattern p) h.starts with
  | error u =>
    simp only [Search.Half.guarded, failing hf]
    exact .fails u
  | ok f =>
    obtain ⟨n, e, r⟩ := f
    obtain ⟨g, hg, fetched⟩ := going hf
    have kinds := fetch_cases hf
    simp only [Search.Half.guarded, fetched]
    cases e with
    | consume fs a via => exact .consumes (hg.leaf rfl)
    | split fs b => exact .splits fs _ _
    | _ => exact .ends (by simpa using kinds)

/-- **Whether two leaves are worth following** does not depend on when the questions are asked. -/
theorem isPointless_guarded (wf : p.IsWellFormed) (w : Search.Work) {l r : Candidate}
    (hl : l.rest.Rooted p.root) (hr : r.rest.Rooted p.root) (g h : Requirement) :
    isPointless (around p o) w.guarded (l.guarded g) (r.guarded h) =
      .ok (Search.isPointless (contextOf p o) w l r) := by
  have left : (l.guarded g).answer (around p o) =
      .ok (l.rest.endsUnbounded (contextOf p o).subject) := endsWithin_guarded wf hl
  have right : (r.guarded h).answer (around p o) =
      .ok (r.rest.endsUnbounded (contextOf p o).subject) := endsWithin_guarded wf hr
  have both : bothEnd (around p o) (l.guarded g) (r.guarded h) =
      .ok (l.rest.endsUnbounded (contextOf p o).subject &&
        r.rest.endsUnbounded (contextOf p o).subject) := by
    unfold bothEnd
    rw [left, right]
    cases l.rest.endsUnbounded (contextOf p o).subject <;> rfl
  have sides : (l.guarded g).side = l.side ∧ (r.guarded h).side = r.side := ⟨rfl, rfl⟩
  have gates : ∀ early same late : Bool,
      (if early then .ok true else if same then .ok false else .ok late : Except Panic Bool) =
        .ok (early || (!same && late))  := by
    rintro (_ | _) (_ | _) late <;> rfl
  unfold isPointless Search.isPointless
  rw [both, sides.1, sides.2]
  exact gates ..

/-- **Two leaves of a parsed pattern are compared.** -/
theorem compare_guarded (wf : p.IsWellFormed) (found : List Trail) (w : Search.Work)
    {l r : Candidate} {g h : Requirement} (hl : l.rest.Rooted p.root) (hr : r.rest.Rooted p.root)
    (leaf : .atom l.atom ∈ p.root.walk) (leaf' : .atom r.atom ∈ p.root.walk)
    (hg : (contextOf p o).requirement l.atom = .ok g)
    (hh : (contextOf p o).requirement r.atom = .ok h) :
    ∃ e, expandPair (contextOf p o) found w l r = .ok e ∧
      compare (around p o) found w.guarded (l.guarded g) (r.guarded h) = .ok e.guarded := by
  obtain ⟨-, -, shared, -, -, hs, -⟩ := exists_shared wf o leaf leaf'
  have meets : g.intersect h = .ok shared := by simpa [Context.shared, hg, hh] using hs
  have sides : (l.guarded g).side = l.side ∧ (r.guarded h).side = r.side := ⟨rfl, rfl⟩
  have accepted : (l.guarded g).accepted.intersect (r.guarded h).accepted = .ok shared := meets
  have presences : (l.guarded g).presences (around p o) = l.presences (contextOf p o) ∧
      (r.guarded h).presences (around p o) = r.presences (contextOf p o) := ⟨rfl, rfl⟩
  unfold compare expandPair Search.compare
  rw [isPointless_guarded wf w hl hr]
  simp only [Search.Work.guarded, sides, accepted, presences, hs]
  cases Search.isPointless (contextOf p o) w l r with
  | true => exact ⟨_, rfl, rfl⟩
  | false =>
  cases History.endsInSquare (historyAfter w.history l.side r.side) with
  | true => by_cases loops : l.side.node = r.side.node ∧ l.side.key ≠ r.side.key <;>
      simp [loops, Search.Expansion.guarded]
  | false =>
  cases shared.isEmpty with
  | true => exact ⟨_, rfl, rfl⟩
  | false =>
  cases ((l.presences (contextOf p o)).sync (r.presences (contextOf p o))).isNone with
  | true => exact ⟨_, rfl, rfl⟩
  | false => exact ⟨_, rfl, rfl⟩

/-- What becomes of work whose halves attach questions is what becomes of the work without. -/
inductive Expansion.Lifts : Except Failure Search.Expansion → Except Trouble Expansion → Prop
  | fails (u : Unsupported) : Lifts (.error (.unsupported u)) (.error (.unsupported u))
  | leads (e : Search.Expansion) : Lifts (.ok e) (.ok e.guarded)

/-- **What becomes of work that runs lead to**: nothing that the step relies on fails.  The halves
are moved, and their moves compared, as in the search without checks. -/
theorem lifts_expand (wf : p.IsWellFormed) (found : List Trail) {w : Search.Work}
    {ls rs : List Sighting} (h : Backed p w ls rs) :
    Expansion.Lifts (Search.expand (contextOf p o) found w)
      (expand (around p o) found w.guarded) := by
  have left := lifts_move (o := o) wf (rooted_of_leads h.left)
  have right := lifts_move (o := o) wf (rooted_of_leads h.right)
  have halves : w.guarded.left = w.left.guarded ∧ w.guarded.right = w.right.guarded := ⟨rfl, rfl⟩
  unfold Search.expand expand
  rw [halves.1, halves.2]
  generalize hl : w.left.move (contextOf p o) = m at left ⊢
  generalize hr : w.right.move (contextOf p o) = n at right ⊢
  generalize w.left.guarded.move (around p o) = m' at left ⊢
  generalize w.right.guarded.move (around p o) = n' at right ⊢
  cases left with
  | fails u => exact .fails u
  | splits fs stay enter => exact .leads (.replace [_, _] none)
  | @ends e he =>
    cases right with
    | fails u => exact .fails u
    | splits fs stay enter => exact .leads (.replace [_, _] none)
    | ends | consumes =>
      simp only [meet, Move.event, he, Bool.true_or, if_true]
      exact .leads (.replace [] none)
  | @consumes l g hg =>
    cases right with
    | fails u => exact .fails u
    | splits fs stay enter => exact .leads (.replace [_, _] none)
    | ends he =>
      simp only [meet, Move.event, he, Bool.or_true, if_true]
      exact .leads (.replace [] none)
    | @consumes r k hk =>
      have toLeft := h.left.trans (leads_of_consumes hl).2
      have toRight := h.right.trans (leads_of_consumes hr).2
      obtain ⟨e, plain, guarded⟩ := compare_guarded wf found w (rooted_of_leads toLeft)
        (rooted_of_leads toRight) (mem_walk_of_leads toLeft l.sighting (by simp))
        (mem_walk_of_leads toRight r.sighting (by simp)) hg hk
      simp only [meet, Move.event, Event.isTerminal, Bool.or_self, Bool.false_eq_true, if_false,
        plain, guarded]
      exact .leads e

/-! ## 5. Searches

The stack is followed as a whole, and all work on it stays backed.  Either both searches go on, or
both end in the same way. -/

/-- A search that checks everything ends as the search does that checks nothing; if it cannot be
finished, then because of a reference that cannot be followed. -/
inductive Ending : Except Stuck Result → Except (Trouble × Nat) Result → Prop
  | refused (u : Unsupported) (steps : Nat) :
    Ending (.error ⟨.unsupported u, steps⟩) (.error (.unsupported u, steps))
  | finished (r : Result) : Ending (.ok r) (.ok r)

/-- **No search comes to a panic**, if runs lead to all the work on its stack.  The induction is
on the steps, and each of them leaves work that runs lead to. -/
theorem ending_run (wf : p.IsWellFormed) : ∀ (budget : Nat) {s : Search.State},
    (∀ w ∈ s.stack, ∃ ls rs, Backed p w ls rs) →
    Ending (Search.run (contextOf p o) budget s) (run (around p o) budget s.guarded)
  | budget, ⟨[], steps, found⟩, _ => by
    unfold Search.run run
    exact .finished _
  | 0, ⟨w :: rest, steps, found⟩, _ => by
    unfold Search.run run
    exact .finished _
  | budget + 1, ⟨w :: rest, steps, found⟩, h => by
    obtain ⟨⟨ls, rs, backed⟩, others⟩ := List.forall_mem_cons.mp h
    have lifts := lifts_expand (o := o) wf found backed
    have step : ∀ work new, Search.expand (contextOf p o) found w = .ok (.replace work new) →
        ∀ w' ∈ work, ∃ ls rs, Backed p w' ls rs :=
      fun _ _ he => (backed_of_expand wf backed he).1
    have heights : (rest.map Work.guarded).length = rest.length := List.length_map _
    unfold Search.run run
    simp only [Search.State.guarded, List.map_cons, heights, Search.Work.guarded, toContext_around]
    split
    · exact .finished _
    split
    · exact .finished _
    generalize Search.expand (contextOf p o) found w = e at lifts step ⊢
    generalize hx : expand (around p o) found w.guarded = e' at lifts
    rw [Search.Work.guarded] at hx
    rw [hx]
    cases lifts with
    | fails u => exact .refused u _
    | leads e =>
      cases e with
      | stop status => exact .finished _
      | replace work new =>
        have onward := ending_run wf budget
          (s := ⟨work ++ rest, steps + 1, new.toList ++ found⟩) fun w' hw' =>
          (List.mem_append.mp hw').elim (step work new rfl w') (others w')
        rw [Search.State.guarded, List.map_append] at onward
        exact onward

/-- **No search of a parsed pattern comes to a panic.** -/
theorem ending_outcome (wf : p.IsWellFormed) (o : Options) :
    Ending (Search.outcome p o) (outcome p o) :=
  ending_run wf _ backed_of_initial

theorem Ending.ne_panic {a : Except Stuck Result} {b : Except (Trouble × Nat) Result}
    (h : Ending a b) (p : Panic) (steps : Nat) : b ≠ .error (.panic p, steps) := by
  cases h <;> simp

end Guarded

/-- **Nothing that is relied on fails**, neither where a pattern is searched nor where it is
downgraded. -/
structure IsSafe (p : Pattern) : Prop where
  /-- The search that checks everything is the search. -/
  ending : ∀ o, Guarded.Ending (outcome p o) (Guarded.outcome p o)
  /-- It never comes to a panic. -/
  quiet : ∀ o panic steps, Guarded.outcome p o ≠ .error (.panic panic, steps)
  /-- What is written are nodes of the tree, and all of them pass a test that those pass. -/
  written : ∀ test : Node → Bool, (∀ n ∈ p.root.walk, test n = true) → ∀ kept,
    (Downgrade.revisionOf p.root).visit test kept [] p.root =
      .ok ((Downgrade.revisionOf p.root).pieces kept [] p.root)

/-- **Parsed patterns are safe to search and to downgrade**, and so is what they are downgraded
to. -/
theorem isSafe_of_parse {source : Bytes} {flags : Flags} {p q : Pattern}
    (parsed : Pattern.parse source flags = .ok p)
    (form : q = p ∨ ∃ d, p.downgrade = .ok d ∧ q = d.pattern) : IsSafe q := by
  have wf : q.IsWellFormed := by
    rcases form with rfl | ⟨d, hd, rfl⟩
    · exact Pattern.isWellFormed_of_parse parsed
    · obtain ⟨_, _, again⟩ := Pattern.exists_parse_of_downgrade parsed hd
      exact Pattern.isWellFormed_of_parse again
  have ending := Guarded.ending_outcome wf
  exact ⟨ending, fun o => (ending o).ne_panic,
    fun test passed kept => Revision.visit_eq (Downgrade.respects_revisionOf wf.distinct) passed⟩

/-- In `(?=(\d|[^\W5]))\1(a)?\2` the lookahead is left out and a copy of its group is written. -/
theorem isSafe_of_parse_of_copy :
    ∃ p d, Pattern.parse (Bytes.ofString "(?=(\\d|[^\\W5]))\\1(a)?\\2") {} = .ok p ∧
      p.downgrade = .ok d ∧ d.changed = true ∧ IsSafe p ∧ IsSafe d.pattern := by
  have found : (Pattern.parse (Bytes.ofString "(?=(\\d|[^\\W5]))\\1(a)?\\2") {}).toOption.any
      fun p : Pattern => decide (∀ r ∈ Downgrade.references p.root, 1 ≤ r.index) &&
        decide (Downgrade.IsOutside p.root) &&
          !(Downgrade.revisionOf p.root).substitutions.isEmpty := by decide +kernel
  cases parsed : Pattern.parse (Bytes.ofString "(?=(\\d|[^\\W5]))\\1(a)?\\2") {} with
  | error e => simp [parsed, Except.toOption] at found
  | ok p =>
    simp only [parsed, Except.toOption, Option.any_some, Bool.and_eq_true, decide_eq_true_eq]
      at found
    obtain ⟨⟨known, outside⟩, copies⟩ := found
    obtain ⟨writable, -⟩ := Pattern.writable_of_parse parsed known
    have suits := Downgrade.suits_revisionOf (Pattern.isWellFormed_of_parse parsed).distinct
      outside fun r hr => Downgrade.mem_captureIndexes_of_reference writable hr
    obtain ⟨d, hd, -⟩ := Pattern.downgrade_of_suits parsed (by decide) writable suits
    have changed : d.changed = true := (Pattern.changed_of_downgrade hd).trans copies
    exact ⟨p, d, rfl, hd, changed, isSafe_of_parse parsed (.inl rfl),
      isSafe_of_parse parsed (.inr ⟨d, hd, rfl⟩)⟩

end Search

end Backtrack
