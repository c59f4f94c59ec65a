/-
# What the list of trails looks like

A search leaves a trail out if the same trail with left and right exchanged has been found before.
It goes on from there all the same, and what it finds later continues a trail that is not in the
list.  Still the list is closed: a trail that goes on after its sides have parted continues one that
was found earlier, or the mirror image of one (`AreOrderly.closed`).

Neither that nor the absence of mirror images can be shown on its own.  Work whose sides have parted
carries a trail that is in the list or mirrored there, and this is what the next trail found from it
continues; the list only grows, so nothing of that is lost while the work waits
(`State.IsOrderly`).  The part of a trail before its sides part is told by the work as well: as long
as the sides are equal neither of them may be in an optional iteration, since both would be in the
same one.
-/
import Backtrack.Proofs.Search.Exhaustive
import Backtrack.Proofs.Search.Sides

namespace Backtrack

/-! ## 1. Where sides part

Up to where they part both sides are the same, and from there on they need not be.  A trail whose
sides never part is its own mirror image, and such trails are not found. -/

namespace Side

/-- No iteration of the side is optional. -/
def IsFirm (s : Side) : Prop := ∀ i ∈ s.iterations, i.optional = false

/-- Both sides are in an optional iteration of the same quantifier. -/
def SharesOptional (s t : Side) : Prop :=
  ∃ i ∈ s.iterations, ∃ j ∈ t.iterations,
    i.optional = true ∧ j.optional = true ∧ i.quantifier = j.quantifier

theorem mem_optionalQuantifiers {s : Side} {q : Quantifier} :
    q ∈ s.optionalQuantifiers ↔ ∃ i ∈ s.iterations, i.optional = true ∧ i.quantifier = q := by
  simp [optionalQuantifiers, and_assoc]

theorem sharesQuantifier_eq_true_iff {s t : Side} :
    sharesQuantifier s.optionalQuantifiers t.optionalQuantifiers = true ↔
      s.SharesOptional t := by
  rw [sharesQuantifier, List.any_eq_true]
  simp only [List.contains_iff_mem, mem_optionalQuantifiers]
  constructor
  · rintro ⟨-, ⟨i, hi, oi, rfl⟩, j, hj, oj, hq⟩
    exact ⟨i, hi, j, hj, oi, oj, hq.symm⟩
  · rintro ⟨i, hi, j, hj, oi, oj, hq⟩
    exact ⟨i.quantifier, ⟨i, hi, oi, rfl⟩, j, hj, oj, hq.symm⟩

/-- A side in an optional iteration shares that with itself. -/
theorem isFirm_of_not_sharesOptional {s : Side} (h : ¬ s.SharesOptional s) : s.IsFirm := by
  intro i hi
  refine Bool.eq_false_iff.mpr fun oi => h ?_
  exact ⟨i, hi, i, hi, oi, oi, rfl⟩

end Side

/-- The sides of the entry are equal, and neither is in an optional iteration. -/
def Entry.IsCommon (e : Entry) : Prop := e.left = e.right ∧ e.left.IsFirm ∧ e.right.IsFirm

/-- The sides of the entry differ, and they share no optional quantifier. -/
def Entry.IsFork (e : Entry) : Prop := e.left ≠ e.right ∧ ¬ e.left.SharesOptional e.right

namespace Trail

/-- **The sides of the trail part** at some entry, and up to there they were in no optional
iteration. -/
def Parts (t : Trail) : Prop :=
  ∃ before e after, t.entries = before ++ e :: after ∧ (∀ d ∈ before, d.IsCommon) ∧ e.IsFork

theorem Parts.push {t : Trail} (h : t.Parts) (d : Entry) : (t.push d).Parts := by
  obtain ⟨before, e, after, entries, common, fork⟩ := h
  refine ⟨before, e, after ++ [d], ?_, common, fork⟩
  rw [entries_push, entries, List.append_assoc, List.cons_append]

theorem parts_of_fork {t : Trail} {e : Entry} (h : ∀ d ∈ t.entries, d.IsCommon) (he : e.IsFork) :
    (t.push e).Parts :=
  ⟨t.entries, e, [], entries_push t e, h, he⟩

/-- A trail whose sides part is no mirror image of itself. -/
theorem Parts.not_mirrors_self {t : Trail} (h : t.Parts) : ¬ t.Mirrors t := by
  obtain ⟨before, e, after, entries, -, differ, -⟩ := h
  intro mirrors
  have mem : e ∈ t.entries := by simp [entries]
  exact differ (Prod.mk.inj (List.map_inj_left.mp mirrors e mem)).1

theorem ofEntries_entries (t : Trail) : ofEntries t.entries = t := by
  simp [ofEntries, Trail.entries]

end Trail

/-! ## 2. Lists of trails

The conditions on a list are put so that they are kept when a trail is added at its end. -/

/-- The trail or its mirror image is in the list. -/
def IsListed (ts : List Trail) (t : Trail) : Prop := t ∈ ts ∨ ∃ u ∈ ts, t.Mirrors u

theorem IsListed.mono {ts us : List Trail} (sub : ∀ t ∈ ts, t ∈ us) {t : Trail}
    (h : IsListed ts t) : IsListed us t :=
  h.imp (sub t) fun ⟨u, hu, mirrors⟩ => ⟨u, sub u hu, mirrors⟩

/-- **What a list of trails looks like**, in the order in which they are found. -/
structure AreOrderly (ts : List Trail) : Prop where
  parts : ∀ t ∈ ts, t.Parts
  /-- No trail is the mirror image of another one. -/
  mirrorless : ∀ t ∈ ts, ∀ u ∈ ts, ¬ t.Mirrors u
  /-- A trail that goes on after its sides have parted continues one that is earlier in the
  list. -/
  closed : ∀ earlier t later, ts = earlier ++ t :: later →
    ∀ before e, t.entries = before ++ [e] → (∃ d ∈ before, d.left ≠ d.right) →
      IsListed earlier (Trail.ofEntries before)

theorem areOrderly_nil : AreOrderly [] := ⟨by simp, by simp, by simp⟩

theorem AreOrderly.concat {ts : List Trail} (h : AreOrderly ts) {t : Trail} (parts : t.Parts)
    (new : ∀ u ∈ ts, ¬ t.Mirrors u)
    (closed : ∀ before e, t.entries = before ++ [e] → (∃ d ∈ before, d.left ≠ d.right) →
      IsListed ts (Trail.ofEntries before)) : AreOrderly (ts ++ [t]) where
  parts := List.forall_mem_append.mpr ⟨h.parts, List.forall_mem_singleton.mpr parts⟩
  mirrorless := by
    simp only [List.mem_append, List.mem_singleton]
    rintro u (hu | rfl) v (hv | rfl)
    · exact h.mirrorless u hu v hv
    · exact fun mirrors => new u hu mirrors.symm
    · exact new v hv
    · exact parts.not_mirrors_self
  closed := by
    intro earlier u later split
    rcases List.eq_nil_or_concat later with rfl | ⟨init, last, rfl⟩
    · obtain ⟨rfl, hu⟩ := List.append_inj' split rfl
      obtain rfl := List.singleton_inj.mp hu
      exact closed
    · rw [List.concat_eq_append, ← List.cons_append, ← List.append_assoc] at split
      exact h.closed earlier u init (List.append_inj' split rfl).1

namespace Search

/-! ## 3. Steps

Work waits while others find trails.  What it says of its own trail is that it, or its mirror
image, is in the list; the list grows, so this stays true. -/

variable {p : Pattern} {o : Options}

/-- What a piece of work says of its trail, and of those that were found so far. -/
structure Work.Keeps (found : List Trail) (w : Work) : Prop where
  common : w.equal = true → ∀ e ∈ w.trail.entries, e.IsCommon
  parted : w.equal = false → w.trail.Parts ∧ IsListed found w.trail

theorem Work.Keeps.mono {found found' : List Trail} (sub : ∀ t ∈ found, t ∈ found') {w : Work}
    (h : w.Keeps found) : w.Keeps found' :=
  ⟨h.common, fun he => (h.parted he).imp_right (·.mono sub)⟩

/-- **Two leaves that are followed together** part the sides of the work or leave them as they
are. -/
theorem Work.Keeps.proceed (wf : p.IsWellFormed) {found : List Trail} {w w' : Work}
    {l r : Candidate} {ls rs : List Resolver.Sighting} (h : w.Keeps found)
    (backed : Backed p w ls rs) (hl : w.left.move (contextOf p o) = .ok (.consumes l))
    (hr : w.right.move (contextOf p o) = .ok (.consumes r))
    (hc : compare (contextOf p o) w l r = .ok (.proceed w')) :
    (w'.equal = true → ∀ e ∈ w'.trail.entries, e.IsCommon) ∧
      (w'.equal = false → w'.trail.Parts) ∧
      ∀ before e, w'.trail.entries = before ++ [e] → (∃ d ∈ before, d.left ≠ d.right) →
        IsListed found (Trail.ofEntries before) := by
  obtain ⟨pointless, -, -, shared, -, -, rfl⟩ := compare_eq_proceed_iff.mp hc
  have same : l.side.same r.side = true ↔ l.side = r.side := Side.same_iff wf.distinct
    (backed.isOver_side.1 hl) (backed.isOver_side.2 hr)
  have free : w.equal = true → ¬ l.side.SharesOptional r.side := by
    intro he shares
    have := Side.sharesQuantifier_eq_true_iff.mpr shares
    simp [isPointless, he, this] at pointless
  refine ⟨?_, ?_, ?_⟩
  · intro he
    obtain ⟨equal, hs⟩ := Bool.and_eq_true_iff.mp he
    have eq := same.mp hs
    have firm : l.side.IsFirm := Side.isFirm_of_not_sharesOptional (eq ▸ free equal)
    rw [Trail.entries_push]
    exact List.forall_mem_append.mpr
      ⟨h.common equal, List.forall_mem_singleton.mpr ⟨eq, firm, eq ▸ firm⟩⟩
  · intro he
    cases equal : w.equal with
    | false => exact (h.parted equal).1.push _
    | true =>
      have differ : l.side ≠ r.side := fun eq => by simp [equal, same.mpr eq] at he
      exact Trail.parts_of_fork (h.common equal) ⟨differ, free equal⟩
  · rintro before e entries ⟨d, hd, differ⟩
    rw [Trail.entries_push] at entries
    obtain ⟨rfl, -⟩ := List.append_inj' entries rfl
    rw [Trail.ofEntries_entries]
    cases equal : w.equal with
    | false => exact (h.parted equal).2
    | true => exact absurd (h.common equal d hd).1 differ

/-- What is known of a search: each piece of work is backed by runs and keeps up with what was
found, and what was found is orderly. -/
structure State.IsOrderly (p : Pattern) (s : State) : Prop where
  stack : ∀ w ∈ s.stack, (∃ ls rs, Backed p w ls rs) ∧ w.Keeps s.found
  isOver : ∀ t ∈ s.found, t.IsOver p.root
  found : AreOrderly s.found.reverse

theorem isOrderly_initial (p : Pattern) : (State.initial p).IsOrderly p where
  stack w hw := by
    refine ⟨backed_of_initial w hw, ?_⟩
    rw [List.mem_singleton.mp hw]
    exact ⟨by simp [Work.initial, Trail.empty, Trail.entries], by simp [Work.initial]⟩
  isOver := by simp [State.initial]
  found := areOrderly_nil

/-- **One step keeps a search orderly.**  By cases on what becomes of the work on top; only where
two leaves are followed is there something to show. -/
theorem isOrderly_of_advance (wf : p.IsWellFormed) {s s' : State} (h : s.IsOrderly p)
    (ha : s.advance (contextOf p o) = .goesOn s') : s'.IsOrderly p := by
  obtain ⟨w, rest, work, new, hs, -, -, he, rfl⟩ := advance_eq_goesOn_iff.mp ha
  obtain ⟨top, below⟩ := List.forall_mem_cons.mp (hs ▸ h.stack)
  obtain ⟨⟨ls, rs, backed⟩, keeps⟩ := top
  have onward := (backed_of_expand wf backed he).1
  -- Nothing is found unless both halves consume; what waits is then as it was.
  have quiet : ∀ {work : List Work}, (∀ w' ∈ work, ∃ ls rs, Backed p w' ls rs) →
      (∀ w' ∈ work, w'.Keeps s.found) →
      State.IsOrderly p ⟨work ++ rest, s.steps + 1, s.found⟩ := fun hb hk =>
    ⟨List.forall_mem_append.mpr ⟨fun w' hw => ⟨hb w' hw, hk w' hw⟩, below⟩, h.isOver, h.found⟩
  rcases expand_cases he with ⟨stay, enter, -, rfl, rfl⟩ | ⟨stay, enter, -, rfl, rfl⟩ |
    ⟨rfl, rfl⟩ | ⟨l, r, w', hl, hr, hc, rfl, rfl⟩
  · refine quiet onward (List.forall_mem_cons.mpr ⟨?_, List.forall_mem_singleton.mpr ?_⟩) <;>
      exact ⟨keeps.common, keeps.parted⟩
  · refine quiet onward (List.forall_mem_cons.mpr ⟨?_, List.forall_mem_singleton.mpr ?_⟩) <;>
      exact ⟨keeps.common, keeps.parted⟩
  · exact quiet (by simp) (by simp)
  obtain ⟨common, parted, closed⟩ := keeps.proceed wf backed hl hr hc
  have backed' := backed.proceed wf hl hr hc
  have compared : ∀ u ∈ s.found, w'.trail.isSwapOf u = true ↔ w'.trail.Mirrors u := fun u hu =>
    Trail.isSwapOf_iff wf.distinct backed'.isOver_trail (h.isOver u hu)
  cases differ : w'.equal with
  | true =>
    refine quiet onward (List.forall_mem_singleton.mpr ⟨common, ?_⟩)
    simp [differ]
  | false =>
    cases duplicate : isDuplicate s.found w'.trail with
    | true =>
      obtain ⟨u, hu, swap⟩ := List.any_eq_true.mp duplicate
      refine quiet onward (List.forall_mem_singleton.mpr ⟨common, fun _ => ⟨parted differ, ?_⟩⟩)
      exact .inr ⟨u, hu, (compared u hu).mp swap⟩
    | false =>
      have more : ∀ t ∈ s.found, t ∈ w'.trail :: s.found := fun t => List.mem_cons_of_mem _
      refine ⟨?_, List.forall_mem_cons.mpr ⟨backed'.isOver_trail, h.isOver⟩, ?_⟩
      · refine List.forall_mem_cons.mpr ⟨⟨⟨_, _, backed'⟩, common, fun _ => ?_⟩, fun v hv => ?_⟩
        · exact ⟨parted differ, .inl List.mem_cons_self⟩
        · exact ⟨(below v hv).1, (below v hv).2.mono more⟩
      · have listed : ∀ t ∈ s.found, t ∈ s.found.reverse := fun t => List.mem_reverse.mpr
        have fresh : ∀ u ∈ s.found.reverse, ¬ w'.trail.Mirrors u := fun u hu mirrors =>
          List.any_eq_false.mp duplicate u (List.mem_reverse.mp hu)
            ((compared u (List.mem_reverse.mp hu)).mpr mirrors)
        change AreOrderly (w'.trail :: s.found).reverse
        rw [List.reverse_cons]
        exact h.found.concat (parted differ) fresh fun before e entries differ =>
          (closed before e entries differ).mono listed

/-! ## 4. Searches -/

/-- **What the trails of a search look like**, whatever its bounds and however it ends.

* No trail is the mirror image of another one.
* Up to the entry where its sides part, both sides of a trail are the same and in no optional
  iteration; where they part they share no optional quantifier.
* A trail that goes on after that continues a trail that is earlier in the list, or the mirror
  image of one. -/
theorem areOrderly_trails {source : Bytes} {flags : Flags} {o : Options} {res : Result}
    (parsed : Pattern.parse source flags = .ok p) (searched : outcome p o = .ok res) :
    AreOrderly res.trails := by
  obtain ⟨s, comes, trails⟩ := exists_comesTo_of_trails searched
  rw [trails]
  exact (comes.invariant (isOrderly_of_advance (Pattern.isWellFormed_of_parse parsed))
    (isOrderly_initial p)).found

/-- The sides of `(?:a|a)(?:b|b)$` can part at either letter.  Of the trails that are equal but for
left and right one is found. -/
theorem areOrderly_trails_of_two_forks :
    ∃ p res, Pattern.parse (Bytes.ofString "(?:a|a)(?:b|b)$") {} = .ok p ∧
      outcome p {} = .ok res ∧ res.trails.map Trail.length = [2, 1, 2, 2, 2, 2, 2] ∧
      AreOrderly res.trails := by
  have found : finds (Bytes.ofString "(?:a|a)(?:b|b)$") fun res =>
      res.trails.map Trail.length == [2, 1, 2, 2, 2, 2, 2] := by decide +kernel
  obtain ⟨p, res, parsed, searched, lengths⟩ := exists_of_finds found
  exact ⟨p, res, parsed, searched, beq_iff_eq.mp lengths, areOrderly_trails parsed searched⟩

/-- A search that is called off after seven steps keeps the trail it has found by then. -/
example : ((outcome twins { watch := ⟨fun steps => 7 ≤ steps, fun _ => ⟨0⟩⟩ }).toOption.any
    fun res => res.status == .timedOut && res.trails.length == 1) = true := by decide +kernel

end Search

end Backtrack
