/-
# Atomic groups only remove trails

Naming groups as atomic makes a search give up more: two derivations may no longer be inside of
such a group and past it at the same time.  It adds nothing.  If the search without atomic groups
sees everything, then so does the search with them, in no more steps, and every trail it finds is
found by the other one, or its mirror image is.

The two searches do not take the same steps, so they are not compared step by step.  Where the
one with atomic groups drops a path, the plain one works off all that the path leads to
(`exists_run_worked_off`) before both look at the same work again.  What relates them is
`Work.forget`: the stacks are equal up to the atomic groups that were seen, which the plain search
never asks for.

A mirror image comes in because a trail is left out if it was found before with left and right
exchanged.  The plain search may have left it out in favour of a trail that the other one never
sees.  `isMirrorOf_of_isSwapOf` shows that nothing but left and right is lost that way.
-/
import Backtrack.Proofs.Pattern.Places
import Backtrack.Proofs.Search.Exhaustive
import Backtrack.Proofs.Search.Limits
import Backtrack.Proofs.Search.Soundness

namespace Backtrack

/-! ## 1. Mirror images

Swapped trails are compared by what tells sides apart, which is less than the sides.  Over one
pattern the leaves are equal nevertheless, and so are the characters, as a leaf has one
requirement. -/

/-- One trail is the other one with left and right exchanged: so are the sides of all entries,
and the entries are about the same characters. -/
structure Trail.IsMirrorOf (t u : Trail) : Prop where
  swapped : t.isSwapOf u = true
  shared : ∀ (i : Nat) (d e : Entry), t.entries[i]? = some d → u.entries[i]? = some e →
    ∀ c : Int, 0 ≤ c → c ≤ 0x10FFFF → d.shared.contains c = e.shared.contains c

theorem Trail.sides_of_swapped :
    ∀ {ds es : List Entry}, swapped ds es = true →
      ds.length = es.length ∧ ∀ (i : Nat) (d e : Entry), ds[i]? = some d → es[i]? = some e →
        d.left.same e.right = true ∧ d.right.same e.left = true
  | [], [], _ => ⟨rfl, by simp⟩
  | [], _ :: _, h => by simp [swapped] at h
  | _ :: _, [], h => by simp [swapped] at h
  | d :: ds, e :: es, h => by
    simp only [swapped, Bool.and_eq_true] at h
    obtain ⟨⟨left, right⟩, rest⟩ := h
    obtain ⟨length, sides⟩ := sides_of_swapped rest
    refine ⟨congrArg (· + 1) length, ?_⟩
    rintro (_ | i) d' e' hd he
    · obtain rfl := Option.some.inj hd
      obtain rfl := Option.some.inj he
      exact ⟨left, right⟩
    · exact sides i d' e' hd he

/-- The sides of two swapped trails, in the order in which they are consumed. -/
theorem Trail.sides_of_isSwapOf {t u : Trail} (h : t.isSwapOf u = true) {i : Nat} {d e : Entry}
    (hd : t.entries[i]? = some d) (he : u.entries[i]? = some e) :
    d.left.same e.right = true ∧ d.right.same e.left = true := by
  obtain ⟨length, sides⟩ := sides_of_swapped h
  have hi : i < t.latest.length := by
    have := (List.getElem?_eq_some_iff.mp hd).1
    rwa [entries, List.length_reverse] at this
  rw [entries, List.getElem?_reverse hi] at hd
  rw [entries, List.getElem?_reverse (length ▸ hi), ← length] at he
  exact sides _ d e hd he

namespace Search

open Resolver

/-- Equal sides are at the same leaf. -/
theorem atom_eq_of_same {p : Pattern} (wf : p.IsWellFormed) {s t : Sighting}
    (hs : .atom s.atom ∈ p.root.walk) (ht : .atom t.atom ∈ p.root.walk)
    (h : (side s).same (side t) = true) : s.atom = t.atom := by
  have node : s.atom.site.id = t.atom.site.id := congrArg Side.Identity.node (beq_iff_eq.mp h)
  exact Node.atom.inj (Node.eq_of_id wf.distinct hs ht node)

/-- **Trails of the same pattern whose sides are exchanged are mirror images.**  The leaves are
those of one pattern, so equal numbers are equal leaves, which accept the same. -/
theorem isMirrorOf_of_isSwapOf {p : Pattern} (wf : p.IsWellFormed) {t u : Trail}
    (ht : IsBacked p t) (hu : IsBacked p u) (h : t.isSwapOf u = true) : t.IsMirrorOf u := by
  refine ⟨h, ?_⟩
  intro i d e hd he c h0 h1
  obtain ⟨w, ls, rs, backed, -, rfl⟩ := ht
  obtain ⟨w', ls', rs', backed', -, rfl⟩ := hu
  obtain ⟨l, r, hl, hr, shows⟩ := backed.trail.entry i d hd
  obtain ⟨l', r', hl', hr', shows'⟩ := backed'.trail.entry i e he
  obtain ⟨left, right⟩ := Trail.sides_of_isSwapOf h hd he
  rw [shows.left, shows'.right] at left
  rw [shows.right, shows'.left] at right
  have atoml : l.atom = r'.atom :=
    atom_eq_of_same wf (mem_walk_of_leads backed.left l (List.mem_of_getElem? hl))
      (mem_walk_of_leads backed'.right r' (List.mem_of_getElem? hr')) left
  have atomr : r.atom = l'.atom :=
    atom_eq_of_same wf (mem_walk_of_leads backed.right r (List.mem_of_getElem? hr))
      (mem_walk_of_leads backed'.left l' (List.mem_of_getElem? hl')) right
  obtain ⟨g, o, hg, ho, contains⟩ := shows.shared
  obtain ⟨g', o', hg', ho', contains'⟩ := shows'.shared
  obtain rfl : g = o' := by
    rw [atoml, ho'] at hg
    exact (Except.ok.inj hg).symm
  obtain rfl : o = g' := by
    rw [atomr, hg'] at ho
    exact (Except.ok.inj ho).symm
  rw [Bool.eq_iff_iff, contains c h0 h1, contains' c h0 h1, and_comm]

/-! ## 2. Forgetting the atomic groups

The plain search keeps the atomic groups that a half has seen as well, but there are none.  So two
pieces of work are compared once their atomic groups have been forgotten. -/

/-- A search without atomic groups. -/
def Context.plain (x : Context) : Context := { x with atomic := [] }

/-- A half that has seen no atomic groups. -/
def Half.forget (h : Half) : Half := { h with seen := Atomics.none }

/-- Two derivations that have seen no atomic groups. -/
def Work.forget (w : Work) : Work := { w with left := w.left.forget, right := w.right.forget }

/-- A leaf whose derivation has seen no atomic groups. -/
def Candidate.forget (c : Candidate) : Candidate := { c with seen := Atomics.none }

/-- A move of a half that has seen no atomic groups. -/
def Move.forget : Move → Move
  | .ends => .ends
  | .splits stay enter => .splits stay.forget enter.forget
  | .consumes c => .consumes c.forget

variable {x : Context}

theorem move_forget (h : Half) : h.forget.move x.plain = (h.move x).map Move.forget := by
  have fetched : h.forget.position.fetch x.plain.subject h.forget.starts =
      h.position.fetch x.subject h.starts := rfl
  unfold Half.move
  rw [fetched]
  cases h.position.fetch x.subject h.starts with
  | error u => rfl
  | ok f =>
    obtain ⟨starts, e, r⟩ := f
    cases e <;> rfl

theorem openIn_nil (opened : List Nat) : Atomics.openIn [] opened = [] := by
  have none : opened.filter (List.contains []) = [] := List.filter_eq_nil_iff.mpr (by simp)
  rw [Atomics.openIn, none]
  rfl

theorem after_forget (c : Candidate) : c.forget.after x.plain = (c.after x).forget := by
  simp [Candidate.after, Candidate.forget, Half.forget, Context.plain, Atomics.enter, openIn_nil,
    Atomics.none]

/-- Without atomic groups, two derivations are never out of step. -/
theorem sync_plain (l r : Candidate) :
    ((l.presences x.plain).sync (r.presences x.plain)).isSome = true := rfl

/-- What is dropped without atomic groups is dropped with them. -/
theorem compare_eq_drop_of_plain {w : Work} {l r : Candidate}
    (h : compare x.plain w.forget l.forget r.forget = .ok .drop) :
    compare x w l r = .ok .drop := by
  have pointless : isPointless x.plain w.forget l.forget r.forget = isPointless x w l r := rfl
  have shared : x.plain.shared l.forget.atom r.forget.atom = x.shared l.atom r.atom := rfl
  unfold compare at h ⊢
  rw [pointless, shared] at h
  dsimp only at h ⊢
  by_cases hp : isPointless x w l r = true
  · rw [if_pos hp]
  rw [if_neg hp] at h ⊢
  by_cases hs : History.endsInSquare (historyAfter w.history l.side r.side) = true
  · rw [if_pos hs]
    rwa [if_pos (by exact hs)] at h
  rw [if_neg hs]
  rw [if_neg (by exact hs)] at h
  cases hg : x.shared l.atom r.atom with
  | error e => simp [hg] at h
  | ok g =>
    cases he : g.isEmpty with
    | true => simp [he]
    | false =>
      have synced := sync_plain (x := x) l.forget r.forget
      rw [← Option.not_isNone, Bool.not_eq_true'] at synced
      simp [hg, he, synced] at h

/-- **Where two leaves are followed without atomic groups**, they are followed with them, or are
dropped for being out of step.  Being out of step is the one condition that asks for atomic
groups. -/
theorem compare_of_plain {w w₀ : Work} {l r : Candidate}
    (h : compare x.plain w.forget l.forget r.forget = .ok (.proceed w₀)) :
    compare x w l r = .ok .drop ∨
      ∃ w', compare x w l r = .ok (.proceed w') ∧ w'.forget = w₀ := by
  obtain ⟨pointless, square, -, shared, hs, he, rfl⟩ := compare_eq_proceed_iff.mp h
  have pointless : isPointless x w l r = false := pointless
  have square : History.endsInSquare (historyAfter w.history l.side r.side) = false := square
  have hs : x.shared l.atom r.atom = .ok shared := hs
  cases hsync : ((l.presences x).sync (r.presences x)).isSome with
  | false =>
    left
    have none := Option.isSome_eq_false_iff.mp hsync
    simp [compare, pointless, square, hs, he, none]
  | true =>
    refine .inr ⟨_, compare_eq_proceed_iff.mpr ⟨pointless, square, hsync, shared, hs, he, rfl⟩, ?_⟩
    simp only [after_forget]
    rfl

/-! ## 3. One piece of work

A step that drops work in one search and goes on with it in the other one is the only way in which
they differ. -/

/-- Work as a search without atomic groups leaves it behind stands for `work` of a search with
them, unless that search dropped it. -/
def StandsFor (work₀ work : List Work) : Prop := work = [] ∨ work₀ = work.map Work.forget

/-- Two leaves, with atomic groups and without. -/
theorem expandPair_of_plain {found found₀ : List Trail} {w : Work} {l r : Candidate}
    {work₀ : List Work} {new₀ : Option Trail}
    (h : expandPair x.plain found₀ w.forget l.forget r.forget = .ok (.replace work₀ new₀)) :
    ∃ work new, expandPair x found w l r = .ok (.replace work new) ∧ StandsFor work₀ work ∧
      ∀ t ∈ new, Recorded (new₀.toList ++ found₀) t := by
  unfold expandPair at h ⊢
  cases hc : compare x.plain w.forget l.forget r.forget with
  | error e => simp [hc] at h
  | ok v =>
    cases v with
    | infiniteLoop => simp [hc] at h
    | drop =>
      rw [compare_eq_drop_of_plain hc]
      exact ⟨[], none, rfl, .inl rfl, by simp⟩
    | proceed w₀ =>
      rw [hc] at h
      obtain ⟨rfl, rfl⟩ := Expansion.replace.inj (Except.ok.inj h)
      rcases compare_of_plain hc with hd | ⟨w', hp, rfl⟩
      · rw [hd]
        exact ⟨[], none, rfl, .inl rfl, by simp⟩
      · rw [hp]
        refine ⟨[w'], _, rfl, .inr rfl, ?_⟩
        intro t ht
        split at ht
        · rename_i hnew
          obtain rfl : w'.trail = t := Option.some.inj ht
          simp only [Bool.and_eq_true, Bool.not_eq_true'] at hnew
          have differ : w'.forget.equal = false := hnew.1
          -- The plain search finds this trail too, or has found its mirror image.
          cases hd : isDuplicate found₀ w'.trail with
          | false =>
            have hd : isDuplicate found₀ w'.forget.trail = false := hd
            refine .inl ?_
            rw [differ, hd]
            exact List.mem_cons_self
          | true =>
            obtain ⟨u, hu, hs⟩ := List.any_eq_true.mp hd
            exact .inr ⟨u, List.mem_append_right _ hu, hs⟩
        · simp at ht

/-- **What becomes of work without atomic groups becomes of it with them**, unless it is dropped.
A trail that is found with them was found without, or its mirror image was. -/
theorem expand_of_plain (found : List Trail) {found₀ : List Trail} {w : Work} {work₀ : List Work}
    {new₀ : Option Trail} (h : expand x.plain found₀ w.forget = .ok (.replace work₀ new₀)) :
    ∃ work new, expand x found w = .ok (.replace work new) ∧ StandsFor work₀ work ∧
      ∀ t ∈ new, Recorded (new₀.toList ++ found₀) t := by
  have movel : w.forget.left.move x.plain = (w.left.move x).map Move.forget := move_forget w.left
  have mover : w.forget.right.move x.plain = (w.right.move x).map Move.forget :=
    move_forget w.right
  unfold expand at h ⊢
  rw [movel, mover] at h
  cases hl : w.left.move x with
  | error u => simp [hl, Except.map] at h
  | ok ml =>
    rw [hl] at h
    cases ml with
    | splits stay enter =>
      obtain ⟨rfl, rfl⟩ := Expansion.replace.inj (Except.ok.inj h)
      exact ⟨_, none, rfl, .inr rfl, by simp⟩
    | ends =>
      cases hr : w.right.move x with
      | error u => simp [hr, Except.map, Move.forget] at h
      | ok mr =>
        rw [hr] at h
        cases mr with
        | splits stay enter =>
          obtain ⟨rfl, rfl⟩ := Expansion.replace.inj (Except.ok.inj h)
          exact ⟨_, none, rfl, .inr rfl, by simp⟩
        | ends => exact ⟨[], none, rfl, .inl rfl, by simp⟩
        | consumes r => exact ⟨[], none, rfl, .inl rfl, by simp⟩
    | consumes l =>
      cases hr : w.right.move x with
      | error u => simp [hr, Except.map, Move.forget] at h
      | ok mr =>
        rw [hr] at h
        cases mr with
        | splits stay enter =>
          obtain ⟨rfl, rfl⟩ := Expansion.replace.inj (Except.ok.inj h)
          exact ⟨_, none, rfl, .inr rfl, by simp⟩
        | ends => exact ⟨[], none, rfl, .inl rfl, by simp⟩
        | consumes r => exact expandPair_of_plain h

/-! ## 4. Both searches

The induction is on the steps of the plain search, which may do many of them for one of the other
search: all that comes of the work that the other one has dropped.  It ends well, so it works that
off before it gets to the rest of its stack. -/

/-- A search that ends well has nothing left, or goes on. -/
theorem goesOn_of_ok {budget : Nat} {s : State} {res : Result} (ok : res.status = .ok)
    (h : run x budget s = .ok res) :
    (s.stack = [] ∧ res = s.finish .ok) ∨
      ∃ budget' s', budget = budget' + 1 ∧ s.advance x = .goesOn s' ∧
        run x budget' s' = .ok res := by
  cases budget with
  | zero =>
    rw [run_zero] at h
    obtain rfl := Except.ok.inj h
    cases hs : s.stack with
    | nil => exact .inl ⟨rfl, by simp⟩
    | cons w rest => simp [State.finish, hs] at ok
  | succ budget =>
    rw [run_succ] at h
    cases ha : s.advance x with
    | goesOn s' =>
      rw [ha] at h
      exact .inr ⟨budget, s', rfl, rfl, h⟩
    | ends r =>
      rw [ha] at h
      obtain rfl : r = .ok res := h
      left
      rcases advance_cases_of_ends ha with
        ⟨hs, he⟩ | he | ⟨_, _, -, -, he⟩ | ⟨_, he⟩ | ⟨_, _, hx, he⟩
      · exact ⟨hs, Except.ok.inj he⟩
      · obtain rfl := Except.ok.inj he
        simp [State.finish] at ok
      · obtain rfl := Except.ok.inj he
        simp [State.finish] at ok
      · simp at he
      · obtain rfl := Except.ok.inj he
        obtain rfl := eq_infiniteLoop_of_expand hx
        simp [State.finish] at ok

/-- **A search that ends well has never been interrupted**: it asked before each of its steps. -/
theorem uninterrupted_of_ok {res : Result} (ok : res.status = .ok) :
    ∀ {budget : Nat} {s : State}, run x budget s = .ok res →
      ∀ n, s.steps ≤ n → n < res.steps → x.interrupted n = false := by
  intro budget
  induction budget with
  | zero =>
    intro s h n after before
    rw [run_zero] at h
    obtain rfl := Except.ok.inj h
    exact absurd before (Nat.not_lt_of_le after)
  | succ budget ih =>
    intro s h n after before
    rcases goesOn_of_ok ok h with ⟨-, rfl⟩ | ⟨budget', s', hb, ha, hr⟩
    · exact absurd before (Nat.not_lt_of_le after)
    · obtain rfl := Nat.succ.inj hb
      obtain ⟨_, _, _, _, -, here, -, -, rfl⟩ := advance_eq_goesOn_iff.mp ha
      rcases Nat.eq_or_lt_of_le after with rfl | later
      · exact here
      · exact ih hr n later before

/-- **A search that ends well works off the top of its stack** before it looks at the rest.  All
that comes of it stays above the rest of the stack until it is done. -/
theorem exists_run_worked_off {res : Result} (ok : res.status = .ok) {rest : List Work} :
    ∀ {budget : Nat} {s : State} {work : List Work}, s.stack = work ++ rest →
      run x budget s = .ok res →
      ∃ budget' s', budget' ≤ budget ∧ s'.stack = rest ∧ s.steps ≤ s'.steps ∧
        run x budget' s' = .ok res := by
  intro budget
  induction budget with
  | zero =>
    intro s work hs h
    rcases goesOn_of_ok ok h with ⟨empty, -⟩ | ⟨budget', s', hb, -, -⟩
    · obtain ⟨-, rfl⟩ := List.append_eq_nil_iff.mp (hs.symm.trans empty)
      exact ⟨0, s, Nat.le_refl _, empty, Nat.le_refl _, h⟩
    · simp at hb
  | succ budget ih =>
    intro s work hs h
    cases work with
    | nil => exact ⟨budget + 1, s, Nat.le_refl _, hs, Nat.le_refl _, h⟩
    | cons w work =>
      rcases goesOn_of_ok ok h with ⟨empty, -⟩ | ⟨budget', s', hb, ha, hr⟩
      · simp [hs] at empty
      · obtain rfl := Nat.succ.inj hb
        obtain ⟨w', rest', next, new, hs', -, -, -, rfl⟩ := advance_eq_goesOn_iff.mp ha
        obtain ⟨rfl, rfl⟩ := List.cons.inj (hs'.symm.trans hs)
        have above : next ++ (work ++ rest) = (next ++ work) ++ rest := by
          rw [List.append_assoc]
        obtain ⟨b, t, hb, ht, hsteps, hrun⟩ := ih above hr
        exact ⟨b, t, Nat.le_succ_of_le hb, ht, Nat.le_of_succ_le hsteps, hrun⟩

/-- **A search with atomic groups follows a plain one that ends well**: it never has more to do, it
takes no more steps, and what it finds the plain search records.  It is not interrupted either,
since it asks about no step that the plain search has not asked about. -/
theorem exists_run_of_plain {res : Result} (ok : res.status = .ok)
    (quiet : ∀ n < res.steps, x.interrupted n = false) :
    ∀ {budget₀ budget : Nat} {s₀ s : State}, run x.plain budget₀ s₀ = .ok res →
      budget₀ ≤ budget → s₀.stack = s.stack.map Work.forget → s.steps ≤ s₀.steps →
      (∀ t ∈ s.found, Recorded res.trails t) →
      ∃ res', run x budget s = .ok res' ∧ res'.status = .ok ∧ res'.steps ≤ res.steps ∧
        ∀ t ∈ res'.trails, Recorded res.trails t := by
  intro budget₀
  induction budget₀ using Nat.strongRecOn with
  | ind budget₀ ih =>
    intro budget s₀ s h hb hs hsteps found
    rcases goesOn_of_ok ok h with ⟨empty, rfl⟩ | ⟨b₀, s₀', rfl, ha, hr⟩
    · -- Nothing is left for either search.
      have none : s.stack = [] := List.map_eq_nil_iff.mp (hs.symm.trans empty)
      refine ⟨s.finish .ok, ?_, rfl, hsteps, ?_⟩
      · cases budget with
        | zero => simp [run_zero, none]
        | succ budget => simp [run_succ, State.advance, none]
      · intro t ht
        exact found t (List.mem_reverse.mp ht)
    · obtain ⟨w₀, rest₀, work₀, new₀, hs₀, -, low, he, rfl⟩ := advance_eq_goesOn_iff.mp ha
      obtain ⟨w, rest, hws, rfl, rfl⟩ := List.map_eq_cons_iff.mp (hs.symm.trans hs₀)
      obtain ⟨work, new, hx, stands, finds⟩ := expand_of_plain s.found he
      obtain ⟨budget, rfl⟩ : ∃ b, budget = b + 1 := ⟨budget - 1, by omega⟩
      have taken : s₀.steps < res.steps := (grows_of_run hr).2
      have advance : s.advance x = .goesOn ⟨work ++ rest, s.steps + 1, new.toList ++ s.found⟩ := by
        refine advance_eq_goesOn_iff.mpr
          ⟨w, rest, work, new, hws, quiet _ (Nat.lt_of_le_of_lt hsteps taken), ?_, hx, rfl⟩
        rwa [List.length_map] at low
      have sub := (recorded_of_run ok hr).1
      have found' : ∀ t ∈ new.toList ++ s.found, Recorded res.trails t := by
        intro t ht
        rcases List.mem_append.mp ht with ht | ht
        · rcases finds t (by simpa using ht) with ht | ⟨u, hu, hs⟩
          · exact .inl (sub t ht)
          · exact .inr ⟨u, sub u hu, hs⟩
        · exact found t ht
      rw [run_succ, advance]
      rcases stands with rfl | rfl
      · -- The plain search has this path to itself.
        have stack : State.stack ⟨work₀ ++ rest.map Work.forget, s₀.steps + 1,
            new₀.toList ++ s₀.found⟩ = work₀ ++ rest.map Work.forget := rfl
        obtain ⟨b, t, hbt, ht, hst, hrun⟩ := exists_run_worked_off ok stack hr
        refine ih b (by omega) hrun (by omega) ht ?_ found'
        dsimp only at hst ⊢
        omega
      · exact ih b₀ (by omega) hr (by omega) (List.map_append).symm (Nat.succ_le_succ hsteps) found'

/-- **Atomic groups only remove trails.**  Whenever the search of a pattern without atomic groups
has seen everything, so has the search with any atomic groups, in no more steps, and each of its
trails, or its mirror image, is among the trails of the search without. -/
theorem outcome_of_plain {source : Bytes} {flags : Flags} {p : Pattern} {o : Options} {res : Result}
    (parsed : Pattern.parse source flags = .ok p)
    (searched : outcome p { o with atomicOffsets := [] } = .ok res) (ok : res.status = .ok)
    (offsets : List Int) :
    ∃ res', outcome p { o with atomicOffsets := offsets } = .ok res' ∧ res'.status = .ok ∧
      res'.steps ≤ res.steps ∧
      ∀ t ∈ res'.trails, t ∈ res.trails ∨ ∃ u ∈ res.trails, t.IsMirrorOf u := by
  have wf := Pattern.isWellFormed_of_parse parsed
  have plain : (contextOf p { o with atomicOffsets := offsets }).plain =
      contextOf p { o with atomicOffsets := [] } := rfl
  have initial : (State.initial p).stack = (State.initial p).stack.map Work.forget := rfl
  obtain ⟨res', hr, ok', fewer, recorded⟩ :=
    exists_run_of_plain (x := contextOf p { o with atomicOffsets := offsets })
      (s := State.initial p) ok
      (fun n hn => uninterrupted_of_ok ok searched n (Nat.zero_le n) hn) (plain ▸ searched)
      (Nat.le_refl (limit o.maxSteps defaultMaxSteps)) initial (Nat.le_refl _)
      (by simp [State.initial])
  refine ⟨res', hr, ok', fewer, ?_⟩
  intro t ht
  rcases recorded t ht with ht | ⟨u, hu, hs⟩
  · exact .inl ht
  · have start : ∀ w ∈ (State.initial p).stack, ∃ ls rs, Backed p w ls rs := by
      intro w hw
      rw [List.mem_singleton.mp hw]
      exact ⟨[], [], backed_initial p⟩
    have none : ∀ t ∈ (State.initial p).found, IsBacked p t := by simp [State.initial]
    exact .inr ⟨u, hu, isMirrorOf_of_isSwapOf wf (isBacked_of_run wf start none hr t ht)
      (isBacked_of_run wf start none searched u hu) hs⟩

/-- In `(?:aa?|a)a` the group takes one `a` or two.  If it never gives one back, only the choice
between its alternatives is left. -/
theorem outcome_of_plain_group :
    ∃ p res res', Pattern.parse (Bytes.ofString "(?:aa?|a)a") {} = .ok p ∧
      outcome p { atomicOffsets := [] } = .ok res ∧ res.status = .ok ∧ res.trails.length = 3 ∧
      outcome p { atomicOffsets := [0] } = .ok res' ∧ res'.trails.length = 1 ∧
      res'.status = .ok ∧ res'.steps ≤ res.steps ∧
      ∀ t ∈ res'.trails, t ∈ res.trails ∨ ∃ u ∈ res.trails, t.IsMirrorOf u := by
  have found : (match Pattern.parse (Bytes.ofString "(?:aa?|a)a") {} with
      | .ok p =>
        ((outcome p { atomicOffsets := [] }).toOption.any fun res =>
          res.status == .ok && res.trails.length == 3) &&
        (outcome p { atomicOffsets := [0] }).toOption.any fun res => res.trails.length == 1
      | .error _ => false) = true := by decide +kernel
  split at found
  · rename_i p parsed
    obtain ⟨plain, atomic⟩ := (Bool.and_eq_true _ _).mp found
    cases searched : outcome p { atomicOffsets := [] } with
    | error e => simp [searched, Except.toOption] at plain
    | ok res =>
      simp only [searched, Except.toOption, Option.any_some, Bool.and_eq_true, beq_iff_eq] at plain
      obtain ⟨res', searched', ok', fewer, trails⟩ :=
        outcome_of_plain (o := {}) parsed searched plain.1 [0]
      have one : res'.trails.length = 1 := by
        simpa [show outcome p { atomicOffsets := [0] } = .ok res' from searched',
          Except.toOption] using atomic
      exact ⟨p, res, res', parsed, searched, plain.1, plain.2, searched', one, ok', fewer, trails⟩
  · simp at found

end Search

end Backtrack
