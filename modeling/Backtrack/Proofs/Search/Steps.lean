/-
# What one step of a search does

A search sees its two derivations through `Half.move`, which stops at every split and at every
consuming leaf.  `Reaches` follows one half from split to split up to the leaf that consumes
next.  A move of a half is a run of its resolver (`leads_of_consumes`, `leads_of_splits`), and the
next sighting of a run is a leaf that a half reaches (`exists_reaches`), so from here on nothing
about events is needed to speak about searches.

The other lemmas say all that a step does: when two leaves are followed together
(`compare_eq_proceed_iff`), what becomes of the work on top of the stack (`expand_cases`), and
what becomes of the search (`State.advance`, `advance_eq_goesOn_iff`).
-/
import Backtrack.Proofs.Derivation.Runs
import Backtrack.Search.Check

namespace Backtrack.Search

open Resolver

/-! ## 1. One half of a path

A half is a place in a derivation together with what it has seen, and its moves pass over events
that only let a walk pass.  In both directions it is told what the run does meanwhile. -/

/-- A candidate as an event of its run. -/
def Candidate.sighting (c : Candidate) : Sighting := ⟨c.frames, c.atom, c.via, c.starts, c.rest⟩

/-- The side of a sighting. -/
def side (s : Sighting) : Side := Side.ofAtom s.frames s.atom s.via

/-- The half can come to this leaf next. -/
inductive Reaches (x : Context) : Half → Candidate → Prop
  | consumes {h : Half} {c : Candidate} (hm : h.move x = .ok (.consumes c)) : Reaches x h c
  | stay {h stay enter : Half} {c : Candidate} (hm : h.move x = .ok (.splits stay enter))
    (hc : Reaches x stay c) : Reaches x h c
  | enter {h stay enter : Half} {c : Candidate} (hm : h.move x = .ok (.splits stay enter))
    (hc : Reaches x enter c) : Reaches x h c

/-- A half reaches what another one with the same next move reaches. -/
theorem Reaches.congr {x : Context} {h h' : Half} {c : Candidate} (hm : h'.move x = h.move x)
    (hc : Reaches x h c) : Reaches x h' c := by
  cases hc with
  | consumes hc => exact .consumes (hm.trans hc)
  | stay hs hc => exact .stay (hm.trans hs) hc
  | enter hs hc => exact .enter (hm.trans hs) hc

/-- What a move skips and the event it stops at. -/
theorem exists_of_move {x : Context} {h : Half} {m : Move} (hm : h.move x = .ok m) :
    ∃ es t e r, Run (step x.subject) h.position es t ∧ Silent es ∧ t.next x.subject = .ok (e, r) ∧
      passes e = false ∧
      h.position.fetch x.subject h.starts = .ok (h.starts + startsIn es, e, r) := by
  unfold Half.move at hm
  cases hf : h.position.fetch x.subject h.starts with
  | error u => simp [hf] at hm
  | ok f =>
    obtain ⟨n, e, r⟩ := f
    obtain ⟨es, t, run, silent, rfl, ht, he⟩ := run_of_fetch hf
    exact ⟨es, t, e, r, run, silent, ht, he, rfl⟩

theorem leads_of_consumes {x : Context} {h : Half} {c : Candidate}
    (hm : h.move x = .ok (.consumes c)) :
    c.seen = h.seen ∧ Leads x.subject h.position h.starts [c.sighting] c.rest c.starts := by
  obtain ⟨es, t, e, r, run, silent, ht, -, hf⟩ := exists_of_move hm
  cases e with
  | consume fs a via =>
    obtain rfl : _ = c := by simpa [Half.move, hf] using hm
    refine ⟨rfl, es ++ [(.consume fs a via, r)], ?_, ?_, ?_⟩
    · exact run.append (.single (.onward (step_eq_some.mpr ht) rfl))
    · rw [sightings_append, sightings_of_silent silent]
      rfl
    · rw [startsIn_append]
      rfl
  | _ => simp [Half.move, hf] at hm

theorem leads_of_splits {x : Context} {h stay enter : Half}
    (hm : h.move x = .ok (.splits stay enter)) :
    ∀ t, t = stay ∨ t = enter →
      t.seen = h.seen ∧ Leads x.subject h.position h.starts [] t.position t.starts := by
  obtain ⟨es, t, e, r, run, silent, ht, -, hf⟩ := exists_of_move hm
  cases e with
  | split fs branch =>
    obtain ⟨rfl, rfl⟩ : _ = stay ∧ _ = enter := by simpa [Half.move, hf] using hm
    have quiet : ∀ r, sightings h.starts (es ++ [(.split fs branch, r)]) = [] ∧
        h.starts + startsIn (es ++ [(.split fs branch, r)]) = h.starts + startsIn es := by
      intro r
      rw [sightings_append, sightings_of_silent silent, startsIn_append]
      exact ⟨rfl, rfl⟩
    have onward := run.append (.single (.onward (step_eq_some.mpr ht) rfl))
    have aside := run.append (.single (.aside (step_eq_some.mpr ht)))
    rintro t (rfl | rfl)
    · exact ⟨rfl, _, onward, quiet _⟩
    · exact ⟨rfl, _, aside, quiet _⟩
  | _ => simp [Half.move, hf] at hm

/-- The next move, where the next event does more than let the walk pass. -/
theorem fetch_of_next {x : Subject} {r r' : Resolver} {e : Event Resolver} {starts : Nat}
    (h : r.next x = .ok (e, r')) (he : passes e = false) :
    r.fetch x starts = .ok (starts, e, r') := by
  rw [fetch]
  split <;> rename_i hn <;> rw [h] at hn
  · simp at hn
  · obtain ⟨rfl, rfl⟩ := Prod.mk.inj (Except.ok.inj hn)
    simp [passes] at he
  · obtain ⟨rfl, rfl⟩ := Prod.mk.inj (Except.ok.inj hn)
    simp [passes] at he
  · obtain ⟨rfl, rfl⟩ := Prod.mk.inj (Except.ok.inj hn)
    rfl

theorem fetch_of_skip {x : Subject} {r r' : Resolver} {fs : Frames} {starts : Nat}
    (h : r.next x = .ok (.skip fs, r')) : r.fetch x starts = r'.fetch x starts := by
  rw [fetch]
  split <;> rename_i hn <;> rw [h] at hn
  · simp at hn
  · obtain ⟨-, rfl⟩ := Prod.mk.inj (Except.ok.inj hn)
    rfl
  · simp at hn
  · rename_i hskip _
    obtain ⟨rfl, -⟩ := Prod.mk.inj (Except.ok.inj hn)
    exact absurd rfl (hskip fs)

theorem fetch_of_start {x : Subject} {r r' : Resolver} {fs : Frames} {starts : Nat}
    (h : r.next x = .ok (.start fs, r')) : r.fetch x starts = r'.fetch x (starts + 1) := by
  rw [fetch]
  split <;> rename_i hn <;> rw [h] at hn
  · simp at hn
  · simp at hn
  · obtain ⟨-, rfl⟩ := Prod.mk.inj (Except.ok.inj hn)
    rfl
  · rename_i hstart
    obtain ⟨rfl, -⟩ := Prod.mk.inj (Except.ok.inj hn)
    exact absurd rfl (hstart fs)

/-- **The next sighting of a run is reached**, and the rest of the run goes on from there.  The
events in between only let the walk pass, or they are splits, and a half takes either way at
those. -/
theorem exists_reaches {x : Context} {es : Trace} {r : Resolver} {s : Sighting}
    {ss : List Sighting} : ∀ {h : Half}, Run (step x.subject) h.position es r →
      sightings h.starts es = s :: ss →
      ∃ c fs, Reaches x h c ∧ c.sighting = s ∧ c.seen = h.seen ∧
        Run (step x.subject) c.rest fs r ∧ sightings c.starts fs = ss := by
  induction es with
  | nil => simp [sightings]
  | cons e es ih =>
    obtain ⟨e, t⟩ := e
    rintro ⟨r₀, starts, seen⟩ (_ | ⟨hstep, run⟩) hs
    cases hstep with
    | @aside t' _ _ hn =>
      have hn := step_eq_some.mp hn
      obtain ⟨c, fs, hc, hrest⟩ := ih (h := ⟨_, starts, seen⟩) run hs
      have hm : Half.move x ⟨r₀, starts, seen⟩ =
          .ok (.splits ⟨t', starts, seen⟩ ⟨t, starts, seen⟩) := by
        rw [Half.move, fetch_of_next hn rfl]
      exact ⟨c, fs, .enter hm hc, hrest⟩
    | onward hn he =>
      have hn := step_eq_some.mp hn
      cases e with
      | consume f a via =>
        obtain ⟨rfl, rfl⟩ := List.cons.inj hs
        refine ⟨⟨f, a, via, starts, seen, t⟩, es, .consumes ?_, rfl, rfl, run, rfl⟩
        rw [Half.move, fetch_of_next hn rfl]
      | split f b =>
        obtain ⟨c, fs, hc, hrest⟩ := ih (h := ⟨t, starts, seen⟩) run hs
        have hm : Half.move x ⟨r₀, starts, seen⟩ =
            .ok (.splits ⟨t, starts, seen⟩ ⟨b, starts, seen⟩) := by
          rw [Half.move, fetch_of_next hn rfl]
        exact ⟨c, fs, .stay hm hc, hrest⟩
      | skip f =>
        obtain ⟨c, fs, hc, hrest⟩ := ih (h := ⟨t, starts, seen⟩) run hs
        refine ⟨c, fs, hc.congr ?_, hrest⟩
        rw [Half.move, fetch_of_skip hn, Half.move]
      | start f =>
        obtain ⟨c, fs, hc, hrest⟩ := ih (h := ⟨t, starts + 1, seen⟩) run hs
        refine ⟨c, fs, hc.congr ?_, hrest⟩
        rw [Half.move, fetch_of_start hn, Half.move]
      | refer f ref => exact absurd rfl (next_ne_refer hn f ref)
      | stop _ _ => simp [Event.isTerminal] at he
      | abort _ => simp [Event.isTerminal] at he
      | done => simp [Event.isTerminal] at he

/-! ## 2. Two leaves

All conditions of a step in one equivalence, so that none of the results below has to go through
the order in which they are tried. -/

/-- **When two leaves are followed together**, and what with.  The conditions stand in the order
in which they are tried. -/
theorem compare_eq_proceed_iff {x : Context} {w w' : Work} {l r : Candidate} :
    compare x w l r = .ok (.proceed w') ↔
      isPointless x w l r = false ∧
      History.endsInSquare (historyAfter w.history l.side r.side) = false ∧
      ((l.presences x).sync (r.presences x)).isSome = true ∧
      ∃ shared, x.shared l.atom r.atom = .ok shared ∧ shared.isEmpty = false ∧
        w' =
          { left := l.after x
            right := r.after x
            trail := w.trail.push ⟨shared, l.side, r.side⟩
            history := historyAfter w.history l.side r.side
            equal := w.equal && l.side.same r.side } := by
  unfold compare
  dsimp only
  constructor
  · intro h
    split at h
    · simp at h
    split at h
    · split at h <;> simp at h
    split at h
    · simp at h
    split at h
    · simp at h
    split at h
    · simp at h
    rename_i hp hsq _ shared hsh he hsync
    refine ⟨by simpa using hp, by simpa using hsq, ?_, shared, hsh, by simpa using he, ?_⟩
    · rw [Option.isSome_iff_ne_none]
      simpa using hsync
    · simpa using h.symm
  · rintro ⟨hp, hsq, hsync, shared, hsh, he, rfl⟩
    have hsync : ((l.presences x).sync (r.presences x)).isNone = false := by
      rw [← Option.not_isSome, hsync]
      rfl
    simp [hp, hsq, hsh, he, hsync]

/-! ## 3. One piece of work -/

/-- **What becomes of the work on top of the stack**: one of its halves splits, it is dropped, or
both halves consume and are followed. -/
theorem expand_cases {x : Context} {found : List Trail} {w : Work} {work : List Work}
    {new : Option Trail} (h : expand x found w = .ok (.replace work new)) :
    (∃ stay enter, w.left.move x = .ok (.splits stay enter) ∧
      work = [{ w with left := stay }, { w with left := enter }] ∧ new = none) ∨
    (∃ stay enter, w.right.move x = .ok (.splits stay enter) ∧
      work = [{ w with right := stay }, { w with right := enter }] ∧ new = none) ∨
    (work = [] ∧ new = none) ∨
    (∃ l r w', w.left.move x = .ok (.consumes l) ∧ w.right.move x = .ok (.consumes r) ∧
      compare x w l r = .ok (.proceed w') ∧ work = [w'] ∧
      new = if !w'.equal && !isDuplicate found w'.trail then some w'.trail else none) := by
  unfold expand at h
  split at h
  · simp at h
  · rename_i stay enter hl
    obtain ⟨rfl, rfl⟩ := Expansion.replace.inj (Except.ok.inj h)
    exact .inl ⟨stay, enter, hl, rfl, rfl⟩
  rename_i left _ hl
  split at h
  · simp at h
  · rename_i stay enter hr
    obtain ⟨rfl, rfl⟩ := Expansion.replace.inj (Except.ok.inj h)
    exact .inr (.inl ⟨stay, enter, hr, rfl, rfl⟩)
  rename_i right _ hr
  split at h
  · rename_i l r _ _
    unfold expandPair at h
    split at h
    · simp at h
    · obtain ⟨rfl, rfl⟩ := Expansion.replace.inj (Except.ok.inj h)
      exact .inr (.inr (.inl ⟨rfl, rfl⟩))
    · simp at h
    · rename_i w' hc
      obtain ⟨rfl, rfl⟩ := Expansion.replace.inj (Except.ok.inj h)
      exact .inr (.inr (.inr ⟨l, r, w', hl, hr, hc, rfl, by simp⟩))
  · obtain ⟨rfl, rfl⟩ := Expansion.replace.inj (Except.ok.inj h)
    exact .inr (.inr (.inl ⟨rfl, rfl⟩))

/-! ## 4. One step of a search, and all of them

An invariant of states is shown of one step, by cases on what becomes of the work on top, and from
there it is carried to all states that a search comes to. -/

/-- What one step makes of a search. -/
inductive Advance where
  | ends (r : Except Stuck Result)
  | goesOn (s : State)

/-- One step of a search that has steps left. -/
def State.advance (x : Context) (s : State) : Advance :=
  match s.stack with
  | [] => .ends (.ok (s.finish .ok))
  | w :: rest =>
    if x.interrupted s.steps then .ends (.ok (s.finish .timedOut))
    else if x.maxStack < rest.length + w.trail.length then .ends (.ok (s.finish .stackOverflow))
    else
      match expand x s.found w with
      | .error f => .ends (.error ⟨f, s.steps + 1⟩)
      | .ok (.stop status) => .ends (.ok ({ s with steps := s.steps + 1 }.finish status))
      | .ok (.replace work new) => .goesOn ⟨work ++ rest, s.steps + 1, new.toList ++ s.found⟩

theorem run_zero (x : Context) (s : State) :
    run x 0 s = .ok (s.finish (if s.stack.isEmpty then .ok else .hitMaxSteps)) := by
  unfold run
  cases s.stack <;> rfl

theorem run_succ (x : Context) (budget : Nat) (s : State) :
    run x (budget + 1) s =
      match s.advance x with
      | .ends r => r
      | .goesOn s' => run x budget s' := by
  obtain ⟨stack, steps, found⟩ := s
  cases stack with
  | nil =>
    unfold run
    rfl
  | cons w rest =>
    conv => lhs; unfold run
    unfold State.advance
    dsimp only
    split
    · simp [*]
    split
    · simp [*]
    split <;> simp [*]

/-- **When a search goes on**, and where. -/
theorem advance_eq_goesOn_iff {x : Context} {s s' : State} :
    s.advance x = .goesOn s' ↔
      ∃ w rest work new, s.stack = w :: rest ∧ x.interrupted s.steps = false ∧
        rest.length + w.trail.length ≤ x.maxStack ∧
        expand x s.found w = .ok (.replace work new) ∧
        s' = ⟨work ++ rest, s.steps + 1, new.toList ++ s.found⟩ := by
  unfold State.advance
  constructor
  · intro h
    split at h
    · simp at h
    rename_i w rest hs
    split at h
    · simp at h
    split at h
    · simp at h
    rename_i hc hl
    split at h
    · simp at h
    · simp at h
    · rename_i work new he
      exact ⟨w, rest, work, new, hs, by simpa using hc, by omega, he, (Advance.goesOn.inj h).symm⟩
  · rintro ⟨w, rest, work, new, hs, hc, hl, he, rfl⟩
    have hl : ¬ x.maxStack < rest.length + w.trail.length := by omega
    simp [hs, hc, hl, he]

/-- **How a search ends**: nothing is left, a limit is reached, or a step does not lead on. -/
theorem advance_cases_of_ends {x : Context} {s : State} {r : Except Stuck Result}
    (h : s.advance x = .ends r) :
    (s.stack = [] ∧ r = .ok (s.finish .ok)) ∨
    r = .ok (s.finish .timedOut) ∨
    (∃ w rest, s.stack = w :: rest ∧ x.maxStack < rest.length + w.trail.length ∧
      r = .ok (s.finish .stackOverflow)) ∨
    (∃ f, r = .error ⟨f, s.steps + 1⟩) ∨
    ∃ w status, expand x s.found w = .ok (.stop status) ∧
      r = .ok ({ s with steps := s.steps + 1 }.finish status) := by
  unfold State.advance at h
  split at h
  · rename_i hs
    exact .inl ⟨hs, (Advance.ends.inj h).symm⟩
  rename_i w rest hs
  split at h
  · exact .inr (.inl (Advance.ends.inj h).symm)
  split at h
  · rename_i hl
    exact .inr (.inr (.inl ⟨w, rest, hs, hl, (Advance.ends.inj h).symm⟩))
  split at h
  · rename_i f _
    exact .inr (.inr (.inr (.inl ⟨f, (Advance.ends.inj h).symm⟩)))
  · rename_i status he
    exact .inr (.inr (.inr (.inr ⟨w, status, he, (Advance.ends.inj h).symm⟩)))
  · simp at h

/-- The search comes from one state to another one. -/
inductive State.ComesTo (x : Context) : State → State → Prop
  | refl (s : State) : ComesTo x s s
  | step {s t u : State} (h : s.advance x = .goesOn t) (rest : ComesTo x t u) : ComesTo x s u

/-- What every step preserves holds of all states a search comes to. -/
theorem State.ComesTo.invariant {x : Context} {I : State → Prop}
    (step : ∀ {s t}, I s → s.advance x = .goesOn t → I t) {s t : State} (h : s.ComesTo x t)
    (hs : I s) : I t := by
  induction h with
  | refl => exact hs
  | step h _ ih => exact ih (step hs h)

/-- **A search ends in a state that it comes to**: its steps are used up there, or the last one does
not lead on. -/
theorem exists_comesTo_of_run {x : Context} {r : Except Stuck Result} :
    ∀ {budget : Nat} {s : State}, run x budget s = r →
      ∃ t, s.ComesTo x t ∧ ((∃ status, r = .ok (t.finish status)) ∨ t.advance x = .ends r)
  | 0, s, h => by
    rw [run_zero] at h
    exact ⟨s, .refl s, .inl ⟨_, h.symm⟩⟩
  | budget + 1, s, h => by
    rw [run_succ] at h
    cases ha : s.advance x with
    | ends r' =>
      rw [ha] at h
      obtain rfl : r' = r := h
      exact ⟨s, .refl s, .inr ha⟩
    | goesOn s' =>
      rw [ha] at h
      obtain ⟨t, comes, ending⟩ := exists_comesTo_of_run h
      exact ⟨t, .step ha comes, ending⟩

/-- The trails of a search are those that were found in such a state. -/
theorem exists_comesTo_of_trails {x : Context} {budget : Nat} {s : State} {res : Result}
    (h : run x budget s = .ok res) : ∃ t, s.ComesTo x t ∧ res.trails = t.found.reverse := by
  obtain ⟨t, comes, ⟨status, he⟩ | ends⟩ := exists_comesTo_of_run h
  · obtain rfl := Except.ok.inj he
    exact ⟨t, comes, rfl⟩
  · refine ⟨t, comes, ?_⟩
    rcases advance_cases_of_ends ends with ⟨-, he⟩ | he | ⟨_, _, -, -, he⟩ | ⟨_, he⟩ |
      ⟨_, _, -, he⟩
    all_goals first
      | (obtain rfl := Except.ok.inj he; rfl)
      | cases he

end Backtrack.Search
