/-
# A search that ends well has seen everything

If a search ends with nothing left on its stack, then no pair of runs was lost on the way: the
trail of any two admissible runs whose sides differ somewhere has been found, or its mirror image
has.

Two things can go wrong in a depth-first search over pairs, and they are kept apart here.

* *Work is lost.*  `Yields` says what a piece of work leads to, whatever the order in which it is
  taken up and whatever has been found before.  `recorded_of_run` shows that all of it is taken
  up.
* *A pair of runs is not reached.*  The two runs take their branches independently, the search
  takes those of the left half first.  `Yields.of_reaches` shows that the order does not matter,
  and `exists_yields` follows the two runs from pair to pair.
-/
import Backtrack.Proofs.Search.Admissible

namespace Backtrack.Search

open Resolver

/-! ## 1. What work leads to

A pair of leaves is reached by moves of both halves.  The search splits the left one first, and
two runs may take their branches in any order; but a split of one half leaves the other one
alone. -/

/-- The work on the right comes from the work on the left, by one pair of leaves or more. -/
inductive Yields (x : Context) : Work → Work → Prop
  | left {w w' : Work} {stay enter t : Half} (hl : w.left.move x = .ok (.splits stay enter))
    (ht : t = stay ∨ t = enter) (h : Yields x { w with left := t } w') : Yields x w w'
  | right {w w' : Work} {l : Candidate} {stay enter t : Half}
    (hl : w.left.move x = .ok (.consumes l)) (hr : w.right.move x = .ok (.splits stay enter))
    (ht : t = stay ∨ t = enter) (h : Yields x { w with right := t } w') : Yields x w w'
  | here {w w' : Work} {l r : Candidate} (hl : w.left.move x = .ok (.consumes l))
    (hr : w.right.move x = .ok (.consumes r)) (hc : compare x w l r = .ok (.proceed w')) :
    Yields x w w'
  | later {w w₁ w' : Work} {l r : Candidate} (hl : w.left.move x = .ok (.consumes l))
    (hr : w.right.move x = .ok (.consumes r)) (hc : compare x w l r = .ok (.proceed w₁))
    (h : Yields x w₁ w') : Yields x w w'

variable {x : Context}

/-- **The order in which the halves split does not matter.**  The induction is on the splits of
the left half, and after them on those of the right one. -/
theorem Yields.of_reaches {l r : Candidate} {w w₁ w' : Work} (hl : Reaches x w.left l)
    (hr : Reaches x w.right r) (hc : compare x w l r = .ok (.proceed w₁))
    (h : w' = w₁ ∨ Yields x w₁ w') : Yields x w w' := by
  -- The left half first; once it consumes, the right half.
  obtain ⟨left, right, trail, history, equal⟩ := w
  dsimp only at hl hr
  induction hl with
  | stay hm _ ih => exact .left hm (.inl rfl) (ih hc)
  | enter hm _ ih => exact .left hm (.inr rfl) (ih hc)
  | consumes hl =>
    induction hr with
    | stay hm _ ih => exact .right hl hm (.inl rfl) (ih hc)
    | enter hm _ ih => exact .right hl hm (.inr rfl) (ih hc)
    | consumes hr =>
      rcases h with rfl | h
      · exact .here hl hr hc
      · exact .later hl hr hc h

/-! ## 2. No work is lost

The stack is a list of work to do, and the search does the top of it.  What it puts in its place
leads to the same, so at the end, with nothing left, all of it has been recorded. -/

/-- The trail is among the found ones, or its mirror image is. -/
def Recorded (found : List Trail) (t : Trail) : Prop :=
  t ∈ found ∨ ∃ u ∈ found, t.isSwapOf u = true

/-- A search is only stopped by an infinite loop. -/
theorem eq_infiniteLoop_of_expand {found : List Trail} {w : Work} {s : Status}
    (h : expand x found w = .ok (.stop s)) : s = .infiniteLoop := by
  unfold expand at h
  split at h
  · simp at h
  · simp at h
  split at h
  · simp at h
  · simp at h
  split at h
  · unfold expandPair at h
    split at h
    · simp at h
    · simp at h
    · simpa using h.symm
    · simp at h
  · simp at h

/-- What one step does with work: it is replaced by all that it leads to next. -/
theorem recorded_of_expand {found found' : List Trail} {w w' : Work} {work : List Work}
    {new : Option Trail} (he : expand x found w = .ok (.replace work new))
    (sub : ∀ t ∈ new.toList ++ found, t ∈ found')
    (later : ∀ w₁ ∈ work, ∀ w', Yields x w₁ w' → w'.equal = false → Recorded found' w'.trail)
    (h : Yields x w w') (differ : w'.equal = false) : Recorded found' w'.trail := by
  cases h with
  | left hl ht h =>
    obtain ⟨rfl, -⟩ : _ = work ∧ _ = new := by simpa [expand, hl] using he
    refine later _ ?_ w' h differ
    rcases ht with rfl | rfl <;> simp
  | right hl hr ht h =>
    obtain ⟨rfl, -⟩ : _ = work ∧ _ = new := by simpa [expand, hl, hr] using he
    refine later _ ?_ w' h differ
    rcases ht with rfl | rfl <;> simp
  | here hl hr hc =>
    obtain ⟨-, rfl⟩ : _ = work ∧ _ = new := by simpa [expand, hl, hr, expandPair, hc] using he
    cases hd : isDuplicate found w'.trail with
    | false => exact .inl (sub _ (by simp [differ, hd]))
    | true =>
      obtain ⟨u, hu, hs⟩ := List.any_eq_true.mp hd
      exact .inr ⟨u, sub u (List.mem_append_right _ hu), hs⟩
  | later hl hr hc h =>
    obtain ⟨rfl, -⟩ : _ = work ∧ _ = new := by simpa [expand, hl, hr, expandPair, hc] using he
    exact later _ List.mem_cons_self w' h differ

/-- **A search that ends well records the trails of all that its stack leads to.**  The induction
is on the steps; each replaces the top of the stack by work that leads to the same. -/
theorem recorded_of_run {res : Result} (ok : res.status = .ok) :
    ∀ {budget : Nat} {s : State}, run x budget s = .ok res →
      (∀ t ∈ s.found, t ∈ res.trails) ∧
      ∀ w ∈ s.stack, ∀ w', Yields x w w' → w'.equal = false → Recorded res.trails w'.trail := by
  intro budget
  induction budget with
  | zero =>
    intro s hr
    unfold run at hr
    split at hr
    · rename_i hs
      obtain rfl := Except.ok.inj hr
      exact ⟨fun t ht => List.mem_reverse.mpr ht, by simp [hs]⟩
    · obtain rfl := Except.ok.inj hr
      simp [State.finish] at ok
  | succ budget ih =>
    intro s hr
    unfold run at hr
    split at hr
    · rename_i hs
      obtain rfl := Except.ok.inj hr
      exact ⟨fun t ht => List.mem_reverse.mpr ht, by simp [hs]⟩
    rename_i w rest hs
    dsimp only at hr
    split at hr
    · obtain rfl := Except.ok.inj hr
      simp [State.finish] at ok
    split at hr
    · obtain rfl := Except.ok.inj hr
      simp [State.finish] at ok
    split at hr
    · simp at hr
    · rename_i status he
      obtain rfl := Except.ok.inj hr
      obtain rfl := eq_infiniteLoop_of_expand he
      simp [State.finish] at ok
    · rename_i work new he
      obtain ⟨sub, later⟩ := ih hr
      refine ⟨fun t ht => sub t (List.mem_append_right _ ht), ?_⟩
      rw [hs, List.forall_mem_cons]
      refine ⟨?_, fun w₁ hw => later w₁ (List.mem_append_right _ hw)⟩
      intro w' hy differ
      exact recorded_of_expand he sub (fun w₁ hw => later w₁ (List.mem_append_left _ hw)) hy differ

/-! ## 3. Every pair of runs is reached

Two admissible runs are followed from one pair of consuming events to the next.  The work that is
reached carries the pairs before it, so the next pair is judged as the runs ask for. -/

/-- **Work leads along any two admissible runs that go on from its halves.**  From each pair of
sightings to the next one the halves reach their leaves, and the pair is not given up. -/
theorem exists_yields : ∀ {ms before : List Pair} {w : Work} {el er : Trace} {l r : Resolver},
    Carries x w before → Run (step x.subject) w.left.position el l →
      Run (step x.subject) w.right.position er r → ms ≠ [] →
      ms <+: (sightings w.left.starts el).zip (sightings w.right.starts er) →
      Admissible x (before ++ ms) →
      ∃ w', Yields x w w' ∧ Carries x w' (before ++ ms)
  | [], _, _, _, _, _, _, _, _, _, hne, _, _ => absurd rfl hne
  | m :: ms, before, w, el, er, l, r, hw, hl, hr, _, hms, adm => by
    cases ha : sightings w.left.starts el with
    | nil => simp [ha] at hms
    | cons a as =>
      cases hb : sightings w.right.starts er with
      | nil => simp [hb] at hms
      | cons b bs =>
        rw [ha, hb, List.zip_cons_cons, List.cons_prefix_cons] at hms
        obtain ⟨rfl, hms⟩ := hms
        obtain ⟨c, fl, hc, rfl, cseen, runl, rfl⟩ := exists_reaches hl ha
        obtain ⟨d, fr, hd, rfl, dseen, runr, rfl⟩ := exists_reaches hr hb
        obtain ⟨w₁, proceed⟩ := (exists_proceed_iff_admits hw cseen dseen).mpr (adm before _ ms rfl)
        obtain ⟨hw₁, hpl, hsl, hpr, hsr⟩ := hw.proceed cseen dseen proceed
        by_cases hne : ms = []
        · subst hne
          exact ⟨w₁, .of_reaches hc hd proceed (.inl rfl), hw₁⟩
        · rw [← hpl] at runl
          rw [← hpr] at runr
          rw [← hsl, ← hsr] at hms
          rw [← List.singleton_append, ← List.append_assoc] at adm ⊢
          obtain ⟨w', hy, hw'⟩ := exists_yields hw₁ runl runr hne hms adm
          exact ⟨w', .of_reaches hc hd proceed (.inr hy), hw'⟩

/-- **Exhaustiveness of the search.**  Take any two runs of the pattern and a number `k` of
consuming events that both have.  If none of the first `k` pairs of events is given up and the
sides of one of them differ, then a search that ends well has found the trail of these pairs or
its mirror image. -/
theorem recorded_of_admissible {p : Pattern} {o : Options} {res : Result}
    (searched : outcome p o = .ok res) (ok : res.status = .ok) {el er : Trace} {l r : Resolver}
    (left : Run (step (Subject.ofPattern p)) (ofPattern p) el l)
    (right : Run (step (Subject.ofPattern p)) (ofPattern p) er r) {k : Nat}
    (hl : k ≤ (sightings 0 el).length) (hr : k ≤ (sightings 0 er).length)
    (adm : Admissible (contextOf p o) (((sightings 0 el).zip (sightings 0 er)).take k))
    (differ : ∃ m ∈ ((sightings 0 el).zip (sightings 0 er)).take k,
      (side m.1).same (side m.2) = false) :
    ∃ t, t.length = k ∧
      IsTrailOf (contextOf p o) t (((sightings 0 el).zip (sightings 0 er)).take k) ∧
      (t ∈ res.trails ∨ ∃ u ∈ res.trails, t.isSwapOf u = true) := by
  have nonempty : ((sightings 0 el).zip (sightings 0 er)).take k ≠ [] := by
    obtain ⟨m, hm, -⟩ := differ
    exact List.ne_nil_of_mem hm
  obtain ⟨w', hy, carries⟩ := exists_yields (carries_initial (contextOf p o) _)
    left right nonempty (List.take_prefix k _) adm
  rw [List.nil_append] at carries
  have unequal : w'.equal = false := by
    refine Bool.eq_false_iff.mpr ?_
    intro he
    obtain ⟨m, hm, hs⟩ := differ
    have same : (side m.1).same (side m.2) = true := carries.equal.mp he m hm
    rw [hs] at same
    simp at same
  refine ⟨w'.trail, ?_, carries.trail, ?_⟩
  · have := congrArg List.length carries.trail
    simp only [List.length_map, Trail.entries, List.length_reverse, List.length_take,
      List.length_zip] at this
    rw [Trail.length, this]
    omega
  · exact (recorded_of_run ok searched).2 _ List.mem_cons_self w' hy unequal

/-- The pattern `(?:a|a)$`. -/
def twins : Pattern where
  source := Bytes.ofString "(?:a|a)$"
  flags := {}
  root := .sequence ⟨6, 0, 8⟩
    [.group ⟨⟨4, 0, 7⟩, .nonCapture, 0, []⟩
      (.alternation ⟨3, 3, 6⟩ [.atom ⟨⟨1, 3, 4⟩, .char 97⟩, .atom ⟨⟨2, 5, 6⟩, .char 97⟩]),
      .anchor ⟨5, 7, 8⟩ .stop]
  captures := 0

/-- What makes a first pair admissible if no group is atomic and no iteration is optional. -/
def isAdmitted (x : Context) (a b : Sighting) : Bool :=
  a.starts == b.starts && Frames.lookarounds a.frames == Frames.lookarounds b.frames &&
    (side a).optionalQuantifiers.isEmpty && !a.rest.endsUnbounded x.subject &&
    !consecutiveLoops (side a) (side b) && x.atomic.isEmpty &&
    match x.shared a.atom b.atom with
    | .ok g => !g.isEmpty
    | .error _ => false

theorem admissible_of_isAdmitted {a b : Sighting} (h : isAdmitted x a b = true) :
    Admissible x [(a, b)] := by
  simp only [isAdmitted, Bool.and_eq_true, beq_iff_eq, List.isEmpty_iff,
    Bool.not_eq_true'] at h
  obtain ⟨⟨⟨⟨⟨⟨starts, lookarounds⟩, optional⟩, ends⟩, loops⟩, atomic⟩, shared⟩ := h
  rintro (_ | ⟨c, before⟩) m after hm
  · obtain ⟨rfl, -⟩ := List.cons.inj hm
    refine ⟨starts, lookarounds, by simp [optional], by simp [ends], fun _ _ => loops, ?_, ?_,
      by simp [InStep, atomic]⟩
    · intro older block hk
      have := congrArg List.length hk
      simp only [List.nil_append, recent, List.any_nil, List.map_cons, List.map_nil,
        List.length_append, List.length_cons, List.length_nil, Bool.false_eq_true, if_false] at this
      exact List.length_eq_zero_iff.mp (by omega)
    · split at shared
      · rename_i g hg
        exact ⟨g, hg, by simpa using shared⟩
      · simp at shared
  · simp at hm

/-- The two alternatives of `(?:a|a)$` are found. -/
theorem recorded_twins :
    ∃ res el er l r, outcome twins {} = .ok res ∧ res.status = .ok ∧
      Run (step (Subject.ofPattern twins)) (ofPattern twins) el l ∧
      Run (step (Subject.ofPattern twins)) (ofPattern twins) er r ∧
      ∃ t, t.length = 1 ∧
        IsTrailOf (contextOf twins {}) t (((sightings 0 el).zip (sightings 0 er)).take 1) ∧
        (t ∈ res.trails ∨ ∃ u ∈ res.trails, t.isSwapOf u = true) := by
  -- Evaluated once: the search goes through, and the two runs take one atom each.
  have searched : ((outcome twins {}).toOption.any fun res => res.status == .ok) = true := by
    decide +kernel
  have followed : ((follow (step (Subject.ofPattern twins)) [true, false] (ofPattern twins)).any
      fun p => (follow (step (Subject.ofPattern twins)) [false, false] (ofPattern twins)).any
        fun q => (sightings 0 p.1).length == 1 && (sightings 0 q.1).length == 1 &&
          ((sightings 0 p.1).zip (sightings 0 q.1)).all fun w =>
            isAdmitted (contextOf twins {}) w.1 w.2 && !(side w.1).same (side w.2)) = true := by
    decide +kernel
  cases hres : outcome twins {} with
  | error e => simp [hres, Except.toOption] at searched
  | ok res =>
    obtain ⟨⟨el, l⟩, hl, followed⟩ := (Option.any_eq_true _ _).mp followed
    obtain ⟨⟨er, r⟩, hr, followed⟩ := (Option.any_eq_true _ _).mp followed
    simp only [Bool.and_eq_true, beq_iff_eq, List.length_eq_one_iff] at followed
    obtain ⟨⟨⟨a, ha⟩, ⟨b, hb⟩⟩, paired⟩ := followed
    have left := run_of_follow hl
    have right := run_of_follow hr
    have ok : res.status = .ok := by simpa [hres, Except.toOption] using searched
    simp only [ha, hb, List.zip_cons_cons, List.zip_nil_left, List.all_cons, List.all_nil,
      Bool.and_true, Bool.and_eq_true, Bool.not_eq_true'] at paired
    refine ⟨res, el, er, l, r, rfl, ok, left, right, ?_⟩
    have adm := admissible_of_isAdmitted paired.1
    refine recorded_of_admissible hres ok left right (by simp [ha]) (by simp [hb]) ?_ ?_
    · simpa [ha, hb] using adm
    · exact ⟨(a, b), by simp [ha, hb], paired.2⟩

end Backtrack.Search
