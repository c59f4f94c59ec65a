/-
# Limits only cut a search short

A search has two limits, one on its steps and one on the height of its stack.  Raising one of
them can do only one thing: let a search go on that the lower limit had cut short.  `Truncates`
says so of two searches that differ in one limit.

Neither limit is looked at inside a step.  So the two searches take the same steps until the
lower limit cuts one of them off (`truncates_run_of_le`, `truncates_run_of_maxStack_le`), and from
there on the other one can only add to what was found (`grows_of_run`).  Nothing is said about
the search that goes on where it ends in an error: it then has no result.
-/
import Backtrack.Proofs.Search.Exhaustive
import Backtrack.Proofs.Search.Soundness

namespace Backtrack.Search

variable {x : Context}

/-! ## 1. How a search ends before its steps do

Besides running out of steps a search ends because nothing is left, because it is interrupted,
because its stack is too high, or because of its last step.  None of these depends on how many
steps it has left. -/

/-- **A search that ends by itself** ends where it stands or one step on, and not because of the
number of its steps. -/
theorem exists_finish_of_ends {s : State} {r : Result} (h : s.advance x = .ends (.ok r)) :
    ∃ status, status ≠ .hitMaxSteps ∧
      (r = s.finish status ∨ r = { s with steps := s.steps + 1 }.finish status) := by
  rcases advance_cases_of_ends h with ⟨-, he⟩ | he | ⟨_, _, -, -, he⟩ | ⟨_, he⟩ | ⟨_, _, hx, he⟩
  · exact ⟨.ok, by simp, .inl (Except.ok.inj he)⟩
  · exact ⟨.timedOut, by simp, .inl (Except.ok.inj he)⟩
  · exact ⟨.stackOverflow, by simp, .inl (Except.ok.inj he)⟩
  · simp at he
  · obtain rfl := eq_infiniteLoop_of_expand hx
    exact ⟨.infiniteLoop, by simp, .inr (Except.ok.inj he)⟩

/-! ## 2. What every result satisfies

The bounds hold in each state, and a result has the trails of the last one. -/

/-- The state is in the bounds of its context. -/
structure State.IsWithin (x : Context) (s : State) : Prop where
  found : s.found.length ≤ s.steps
  short : ∀ t ∈ s.found, t.length ≤ x.maxStack + 1

/-- The trail a step finds is longer by one than the trail of the work on top of the stack. -/
theorem length_of_expand {found : List Trail} {w : Work} {work : List Work} {new : Option Trail}
    (he : expand x found w = .ok (.replace work new)) :
    ∀ t ∈ new, t.length = w.trail.length + 1 := by
  rcases expand_cases he with ⟨_, _, _, _, rfl⟩ | ⟨_, _, _, _, rfl⟩ | ⟨_, rfl⟩ |
    ⟨l, r, w', _, _, hc, _, rfl⟩
  · simp
  · simp
  · simp
  · obtain ⟨-, -, -, shared, -, -, rfl⟩ := compare_eq_proceed_iff.mp hc
    intro t ht
    split at ht
    · obtain rfl : _ = t := by simpa using ht
      rfl
    · simp at ht

theorem isWithin_of_advance {s s' : State} (h : s.IsWithin x) (ha : s.advance x = .goesOn s') :
    s'.IsWithin x := by
  obtain ⟨w, rest, work, new, -, -, low, he, rfl⟩ := advance_eq_goesOn_iff.mp ha
  have longer := length_of_expand he
  cases new with
  | none => exact ⟨Nat.le_succ_of_le h.found, h.short⟩
  | some t =>
    refine ⟨Nat.succ_le_succ h.found, ?_⟩
    refine List.forall_mem_cons.mpr ⟨?_, h.short⟩
    rw [longer t rfl]
    omega

/-- **What a search found, and its steps, are in bounds**: there are as many trails as steps at
most, and no trail is longer than what fits on the stack by more than one. -/
theorem isWithin_of_run {r : Result} :
    ∀ {budget : Nat} {s : State}, s.IsWithin x → run x budget s = .ok r →
      r.trails.length ≤ r.steps ∧ r.steps ≤ s.steps + budget ∧
        ∀ t ∈ r.trails, t.length ≤ x.maxStack + 1
  | 0, s, h, hr => by
    rw [run_zero] at hr
    obtain rfl := Except.ok.inj hr
    simpa [State.finish] using ⟨h.found, h.short⟩
  | budget + 1, s, h, hr => by
    rw [run_succ] at hr
    cases ha : s.advance x with
    | goesOn s' =>
      rw [ha] at hr
      obtain ⟨found, steps, short⟩ := isWithin_of_run (isWithin_of_advance h ha) hr
      obtain ⟨w, rest, work, new, -, -, -, -, rfl⟩ := advance_eq_goesOn_iff.mp ha
      exact ⟨found, by dsimp only at steps; omega, short⟩
    | ends r' =>
      rw [ha] at hr
      obtain rfl : r' = .ok r := hr
      have found := h.found
      obtain ⟨status, -, rfl | rfl⟩ := exists_finish_of_ends ha
      · simpa [State.finish, found] using h.short
      · simpa [State.finish, Nat.le_succ_of_le found, Nat.add_comm 1] using h.short

/-! ## 3. What a search adds

Trails are added at the end and never taken back, so what a search has found is the first part of
what it will have found. -/

/-- The result has what the state has found, in the same order, and takes its steps. -/
def Grows (s : State) (r : Result) : Prop := s.found.reverse <+: r.trails ∧ s.steps ≤ r.steps

theorem grows_finish (s : State) (status : Status) : Grows s (s.finish status) :=
  ⟨List.prefix_refl _, Nat.le_refl _⟩

theorem grows_of_advance {s s' : State} {r : Result} (ha : s.advance x = .goesOn s')
    (h : Grows s' r) : Grows s r := by
  obtain ⟨w, rest, work, new, -, -, -, -, rfl⟩ := advance_eq_goesOn_iff.mp ha
  refine ⟨List.IsPrefix.trans ?_ h.1, Nat.le_of_succ_le h.2⟩
  rw [List.reverse_append]
  exact List.prefix_append _ _

/-- **A search only adds to what it has found.**  By induction on the steps that are left. -/
theorem grows_of_run {r : Result} :
    ∀ {budget : Nat} {s : State}, run x budget s = .ok r → Grows s r
  | 0, s, hr => by
    rw [run_zero] at hr
    obtain rfl := Except.ok.inj hr
    exact grows_finish s _
  | budget + 1, s, hr => by
    rw [run_succ] at hr
    cases ha : s.advance x with
    | goesOn s' =>
      rw [ha] at hr
      exact grows_of_advance ha (grows_of_run hr)
    | ends r' =>
      rw [ha] at hr
      obtain rfl : r' = .ok r := hr
      obtain ⟨status, -, rfl | rfl⟩ := exists_finish_of_ends ha
      · exact grows_finish s status
      · exact ⟨List.prefix_refl _, Nat.le_succ _⟩

/-! ## 4. Two searches that differ in one limit

As long as neither of them is cut short, they are in the same state.  At the first state where one
is, the other one goes on from there, and a search only adds to what it has found. -/

/-- The first search is the second one, unless it ends with `status`: then what it found comes
first in the second one, which takes as many steps at least. -/
structure Truncates (status : Status) (tight loose : Except Stuck Result) : Prop where
  failed : ∀ e, tight = .error e → loose = .error e
  ended : ∀ r, tight = .ok r → r.status ≠ status → loose = .ok r
  cut : ∀ r, tight = .ok r → r.status = status →
    ∀ r', loose = .ok r' → r.trails <+: r'.trails ∧ r.steps ≤ r'.steps

theorem Truncates.refl (status : Status) (r : Except Stuck Result) : Truncates status r r := by
  refine ⟨fun _ h => h, fun _ h _ => h, ?_⟩
  rintro r rfl - r' hr
  obtain rfl := Except.ok.inj hr
  exact ⟨List.prefix_refl _, Nat.le_refl _⟩

/-- A search that is cut short in a state truncates every search that goes on from there. -/
theorem truncates_finish {s : State} {status : Status} {loose : Except Stuck Result}
    (h : ∀ r, loose = .ok r → Grows s r) : Truncates status (.ok (s.finish status)) loose := by
  refine ⟨by simp, ?_, ?_⟩
  · intro r hr hs
    obtain rfl := Except.ok.inj hr
    exact absurd rfl hs
  · intro r hr _ r' hr'
    obtain rfl := Except.ok.inj hr
    exact h r' hr'

/-- **Fewer steps cut a search short and do nothing else.**  The two searches take the same steps,
and the first one stops earlier or not at all. -/
theorem truncates_run_of_le :
    ∀ {n m : Nat} (s : State), n ≤ m → Truncates .hitMaxSteps (run x n s) (run x m s)
  | 0, m, s, _ => by
    rw [run_zero]
    cases hs : s.stack.isEmpty with
    | false => exact truncates_finish fun r hr => grows_of_run hr
    | true =>
      have ends : run x m s = .ok (s.finish .ok) := by
        have hs := List.isEmpty_iff.mp hs
        cases m with
        | zero => simp [run_zero, hs]
        | succ m => simp [run_succ, State.advance, hs]
      rw [ends]
      exact .refl _ _
  | n + 1, 0, _, h => absurd h (by omega)
  | n + 1, m + 1, s, h => by
    rw [run_succ, run_succ]
    cases s.advance x with
    | ends r => exact .refl _ r
    | goesOn s' => exact truncates_run_of_le s' (Nat.le_of_succ_le_succ h)

/-- A search that its steps cut short has taken all of them. -/
theorem steps_of_hitMaxSteps {r : Result} (hs : r.status = .hitMaxSteps) :
    ∀ {budget : Nat} {s : State}, run x budget s = .ok r → r.steps = s.steps + budget
  | 0, s, hr => by
    rw [run_zero] at hr
    obtain rfl := Except.ok.inj hr
    rfl
  | budget + 1, s, hr => by
    rw [run_succ] at hr
    cases ha : s.advance x with
    | goesOn s' =>
      rw [ha] at hr
      have ih := steps_of_hitMaxSteps hs hr
      obtain ⟨w, rest, work, new, -, -, -, -, rfl⟩ := advance_eq_goesOn_iff.mp ha
      dsimp only at ih
      omega
    | ends r' =>
      rw [ha] at hr
      obtain rfl : r' = .ok r := hr
      obtain ⟨status, other, rfl | rfl⟩ := exists_finish_of_ends ha
      · exact absurd hs other
      · exact absurd hs other

/-- With a lower limit on the stack, a step is the same or finds the stack too high. -/
theorem advance_of_maxStack_le {s : State} {n m : Nat} (h : n ≤ m) :
    s.advance { x with maxStack := n } = .ends (.ok (s.finish .stackOverflow)) ∨
      s.advance { x with maxStack := n } = s.advance { x with maxStack := m } := by
  unfold State.advance
  cases s.stack with
  | nil => exact .inr rfl
  | cons w rest =>
    dsimp only
    cases x.interrupted s.steps with
    | true => exact .inr rfl
    | false =>
      by_cases low : n < rest.length + w.trail.length
      · exact .inl (by simp [low])
      · have low' : ¬ m < rest.length + w.trail.length := by omega
        refine .inr ?_
        -- What becomes of the work does not depend on the limit.
        simp only [Bool.false_eq_true, if_false, if_neg low, if_neg low']
        rfl

/-- **A lower stack cuts a search short and does nothing else.**  The height is looked at before
each step, and the step itself does not depend on it. -/
theorem truncates_run_of_maxStack_le {n m : Nat} (h : n ≤ m) :
    ∀ (budget : Nat) (s : State),
      Truncates .stackOverflow (run { x with maxStack := n } budget s)
        (run { x with maxStack := m } budget s)
  | 0, s => by
    rw [run_zero, run_zero]
    exact .refl _ _
  | budget + 1, s => by
    rcases advance_of_maxStack_le (x := x) (s := s) h with hs | hs
    · rw [run_succ, hs]
      exact truncates_finish fun r hr => grows_of_run hr
    · rw [run_succ, run_succ, hs]
      cases s.advance { x with maxStack := m } with
      | ends r => exact .refl _ r
      | goesOn s' => exact truncates_run_of_maxStack_le h budget s'

/-! ## 5. The limits of a search

A limit that is not positive stands for the usual one, so settings are compared by the numbers
that they amount to. -/

theorem limit_of_pos {n : Int} (h : 0 < n) (usual : Nat) : limit n usual = n.toNat := if_pos h

/-- **Limits only truncate.**  Of two searches that differ in the number of steps, or in the height
of the stack, the one with less gives what the other one gives, unless it ends because of that
limit; it has then taken all its steps, or overrun its stack, and what it found comes first in
the other result.  A result has at most as many trails as steps, no more steps than allowed, and
no trail with more entries than the stack is high, and one. -/
theorem limits_truncate (p : Pattern) (o : Options) {n m : Int} (pos : 0 < n) (le : n ≤ m) :
    Truncates .hitMaxSteps (outcome p { o with maxSteps := n })
        (outcome p { o with maxSteps := m }) ∧
      (∀ r, outcome p { o with maxSteps := n } = .ok r → r.status = .hitMaxSteps →
        (r.steps : Int) = n) ∧
      Truncates .stackOverflow (outcome p { o with maxStack := n })
        (outcome p { o with maxStack := m }) ∧
      ∀ r, outcome p o = .ok r →
        r.trails.length ≤ r.steps ∧ r.steps ≤ limit o.maxSteps defaultMaxSteps ∧
          ∀ t ∈ r.trails, t.entries.length ≤ limit o.maxStack defaultMaxStack + 1 := by
  have pos' : 0 < m := by omega
  have le' : n.toNat ≤ m.toNat := by omega
  have start : (State.initial p).steps = 0 := rfl
  refine ⟨?_, ?_, ?_, ?_⟩
  · unfold outcome
    dsimp only
    rw [limit_of_pos pos, limit_of_pos pos']
    exact truncates_run_of_le _ le'
  · intro r hr hs
    have taken := steps_of_hitMaxSteps hs hr
    rw [start, limit_of_pos pos] at taken
    omega
  · unfold outcome contextOf
    dsimp only
    rw [limit_of_pos pos, limit_of_pos pos']
    exact truncates_run_of_maxStack_le
      (x := { contextOf p o with maxStack := 0 }) le' _ (State.initial p)
  · intro r hr
    have within : (State.initial p).IsWithin (contextOf p o) :=
      ⟨Nat.le_refl _, by simp [State.initial]⟩
    obtain ⟨found, steps, short⟩ := isWithin_of_run within hr
    rw [start, Nat.zero_add] at steps
    refine ⟨found, steps, ?_⟩
    intro t ht
    rw [Trail.length_entries]
    exact short t ht

/-- The search of `(?:a|a)$` takes eleven steps; seven of them find what there is, two do not. -/
theorem limits_truncate_twins :
    ∃ r r' t t', (0 : Int) < 7 ∧ (7 : Int) ≤ 11 ∧
      outcome twins { maxSteps := 7 } = .ok r ∧ r.status = .hitMaxSteps ∧
      outcome twins { maxSteps := 11 } = .ok r' ∧ r'.status = .ok ∧
      r.trails.length = 1 ∧ r.trails <+: r'.trails ∧ r.steps = 7 ∧
      (0 : Int) < 2 ∧ (2 : Int) ≤ 11 ∧
      outcome twins { maxStack := 2 } = .ok t ∧ t.status = .stackOverflow ∧
      outcome twins { maxStack := 11 } = .ok t' ∧ t'.status = .ok ∧
      t.trails <+: t'.trails ∧ t.steps ≤ t'.steps ∧ t'.trails.length ≤ t'.steps := by
  have evaluated : ∀ o (P : Result → Bool), (outcome twins o).toOption.any P = true →
      ∃ r, outcome twins o = .ok r ∧ P r = true := by
    intro o P h
    cases hr : outcome twins o with
    | error e => simp [hr, Except.toOption] at h
    | ok r => exact ⟨r, rfl, by simpa [hr, Except.toOption] using h⟩
  obtain ⟨r, hr, cut⟩ := evaluated { maxSteps := 7 }
    (fun r => r.status == .hitMaxSteps && r.trails.length == 1) (by decide +kernel)
  obtain ⟨r', hr', whole⟩ := evaluated { maxSteps := 11 } (·.status == .ok) (by decide +kernel)
  obtain ⟨t, ht, high⟩ := evaluated { maxStack := 2 } (·.status == .stackOverflow)
    (by decide +kernel)
  obtain ⟨t', ht', low⟩ := evaluated { maxStack := 11 } (·.status == .ok) (by decide +kernel)
  simp only [Bool.and_eq_true, beq_iff_eq] at cut whole high low
  obtain ⟨steps, taken, -, -⟩ := limits_truncate twins {} (n := 7) (m := 11) (by decide) (by decide)
  obtain ⟨-, -, stack, -⟩ := limits_truncate twins {} (n := 2) (m := 11) (by decide) (by decide)
  have bounds := (limits_truncate twins { maxStack := 11 } (n := 2) (m := 11) (by decide)
    (by decide)).2.2.2 t' ht'
  have first := (steps.cut r hr cut.1 r' hr').1
  obtain ⟨begins, fewer⟩ := stack.cut t ht high t' ht'
  have seven : (r.steps : Int) = 7 := taken r hr cut.1
  exact ⟨r, r', t, t', by decide, by decide, hr, cut.1, hr', whole, cut.2, first, by omega,
    by decide, by decide, ht, high, ht', low, begins, fewer, bounds.1⟩

end Backtrack.Search
