/-
# What the members of a set are

`Set.contains` is a binary search, and the operations of `Set` walk two lists side by side.
This file says what they compute: membership in the combination of the members, and again a
canonical list.

Both halves need the same two facts about the lists they start from: they are canonical, and
their ends are characters, so that no sum of two ends wraps.  `Set.Proper` keeps them together.

* `Set.proper_ofRanges`, `Set.proper_union`, `Set.proper_intersect`, `Set.proper_subtract`,
  `Set.proper_complement`: the operations lead from proper sets to proper sets.
* `Set.contains_ofRanges`, `Set.contains_union`, ...: what a member of the result is.
-/
import Backtrack.CodePoint.Set

namespace Backtrack.CodePoint

/-! ## 1. The code points that some ranges cover

`contains` looks a code point up in a list that has to be in order.  What the operations compute
is said by `Covers`, which makes sense of any list of ranges, in any order and with inverted ones
among them, so that it can be followed through every stage. -/

/-- Whether `c` lies in one of some ranges. -/
def Covers (rs : List Range) (c : Int) : Prop := ∃ r ∈ rs, r.lo ≤ c ∧ c ≤ r.hi

@[simp] theorem covers_nil (c : Int) : ¬ Covers [] c := by simp [Covers]

@[simp] theorem covers_cons (r : Range) (rs : List Range) (c : Int) :
    Covers (r :: rs) c ↔ (r.lo ≤ c ∧ c ≤ r.hi) ∨ Covers rs c := by
  simp [Covers]

@[simp] theorem covers_append (rs os : List Range) (c : Int) :
    Covers (rs ++ os) c ↔ Covers rs c ∨ Covers os c := by
  simp only [Covers, List.mem_append, or_and_right, exists_or]

theorem covers_perm {rs os : List Range} (h : rs.Perm os) (c : Int) :
    Covers rs c ↔ Covers os c := by
  simp only [Covers, h.mem_iff]

/-- Nothing lies in an inverted range. -/
theorem covers_filter_not_isInverted (rs : List Range) (c : Int) :
    Covers (rs.filter (!·.isInverted)) c ↔ Covers rs c := by
  simp only [Covers, List.mem_filter, Range.isInverted]
  constructor
  · rintro ⟨r, ⟨hr, -⟩, hc⟩
    exact ⟨r, hr, hc⟩
  · rintro ⟨r, hr, hc⟩
    exact ⟨r, ⟨hr, by simp; omega⟩, hc⟩

/-- The ends of the ranges are characters. -/
def Within (rs : List Range) : Prop := ∀ r ∈ rs, 0 ≤ r.lo ∧ r.hi ≤ 0x10FFFF

/-- Neither end of a range is further out than a character.  Inverted ranges are allowed. -/
def Bounded (rs : List Range) : Prop :=
  ∀ r ∈ rs, (0 ≤ r.lo ∧ r.lo ≤ 0x10FFFF) ∧ 0 ≤ r.hi ∧ r.hi ≤ 0x10FFFF

namespace Set

/-- A canonical set of characters. -/
structure Proper (s : Set) : Prop where
  canonical : s.Canonical
  within : Within s.ranges

/-! ## 2. Looking a code point up

In an increasing list everything before a range ends before it and everything after it starts
later, so half of the list can be left aside at each step. -/

/-- What comes before a range of an increasing list ends before it starts. -/
theorem lt_of_mem_take {rs left right : List Range} {r : Range} (h : rs = left ++ r :: right)
    (ordered : rs.Pairwise Apart) : ∀ s ∈ left, s.hi + 1 < r.lo := by
  subst h
  intro s hs
  exact (List.pairwise_append.mp ordered).2.2 s hs r List.mem_cons_self

/-- What comes after a range of an increasing list starts after it ends. -/
theorem lt_of_mem_drop {rs left right : List Range} {r : Range} (h : rs = left ++ r :: right)
    (ordered : rs.Pairwise Apart) : ∀ s ∈ right, r.hi + 1 < s.lo := by
  subst h
  exact (List.pairwise_cons.mp (List.pairwise_append.mp ordered).2.1).1

/-- **The search finds exactly what the ranges cover**, given that they are in order.  The range
in the middle decides in which half the code point can be, since everything before it ends earlier
and everything after it starts later. -/
theorem search_iff (c : Int) (rs : List Range) (proper : ∀ r ∈ rs, r.lo ≤ r.hi)
    (ordered : rs.Pairwise Apart) : search c rs = true ↔ Covers rs c := by
  fun_induction search c rs with
  | case1 rs h =>
    have : rs = [] := by
      have := congrArg List.length h
      simp only [List.length_drop, List.length_nil] at this
      exact List.length_eq_zero_iff.mp (by omega)
    simp [this]
  | case2 rs r right h hc =>
    have split : rs = rs.take (rs.length / 2) ++ r :: right := by
      rw [← h, List.take_append_drop]
    simp only [Range.contains, Bool.and_eq_true, decide_eq_true_eq] at hc
    rw [split, covers_append, covers_cons]
    simp [hc]
  | case3 rs r right h hc lt ih =>
    have split : rs = rs.take (rs.length / 2) ++ r :: right := by
      rw [← h, List.take_append_drop]
    have after := lt_of_mem_drop split ordered
    have hr : r.lo ≤ r.hi := proper r (by rw [split]; simp)
    rw [ih (fun s hs => proper s (List.mem_of_mem_take hs))
      (ordered.sublist (List.take_sublist _ _))]
    constructor
    · rintro ⟨s, hs, hsc⟩
      exact ⟨s, List.mem_of_mem_take hs, hsc⟩
    · intro hcov
      rw [split, covers_append, covers_cons] at hcov
      rcases hcov with hcov | hcov | ⟨s, hs, hsc⟩
      · exact hcov
      · omega
      · have := after s hs
        omega
  | case4 rs r right h hc ge ih =>
    have split : rs = rs.take (rs.length / 2) ++ r :: right := by
      rw [← h, List.take_append_drop]
    have before := lt_of_mem_take split ordered
    have sub : right.Sublist rs :=
      ((List.sublist_cons_self r right).trans (h ▸ List.drop_sublist _ rs))
    simp only [Range.contains, Bool.and_eq_true, decide_eq_true_eq] at hc
    rw [ih (fun s hs => proper s (sub.subset hs)) (ordered.sublist sub)]
    constructor
    · rintro ⟨s, hs, hsc⟩
      exact ⟨s, sub.subset hs, hsc⟩
    · intro hcov
      rw [split, covers_append, covers_cons] at hcov
      rcases hcov with ⟨s, hs, hsc⟩ | hcov | hcov
      · have := before s hs
        omega
      · omega
      · exact hcov

/-- Membership in a proper set. -/
theorem Proper.contains_iff {s : Set} (h : s.Proper) (c : Int) :
    s.contains c = true ↔ Covers s.ranges c :=
  search_iff c s.ranges h.canonical.1 h.canonical.2

theorem proper_empty : empty.Proper :=
  ⟨⟨by simp [empty], by simp [empty]⟩, by simp [Within, empty]⟩

@[simp] theorem contains_empty (c : Int) : empty.contains c = false := by
  rw [← Bool.not_eq_true, proper_empty.contains_iff]
  exact covers_nil c

/-- Nothing is a member of a set that has no ranges. -/
theorem not_covers_of_isEmpty {s : Set} (h : s.isEmpty = true) (c : Int) : ¬ Covers s.ranges c := by
  rw [List.isEmpty_iff.mp h]
  exact covers_nil c

/-! ## 3. Sorting

Two sorting functions are used, by the length of the list.  All that melting needs of either is
that no range is lost and that the lower ends increase. -/

/-- The lower ends increase. -/
def Rising (rs : List Range) : Prop := rs.Pairwise fun r s => r.lo ≤ s.lo

theorem insertFalling_perm (r : Range) : ∀ rs : List Range, (insertFalling r rs).Perm (r :: rs)
  | [] => List.Perm.refl _
  | s :: rest => by
    unfold insertFalling
    split
    · exact ((insertFalling_perm r rest).cons s).trans (List.Perm.swap r s rest)
    · exact List.Perm.refl _

/-- Among characters the place of insertion keeps the lower ends falling. -/
theorem insertFalling_falling {r : Range} (hr : Bounded [r]) : ∀ {rs : List Range}, Bounded rs →
    rs.Pairwise (fun a b => b.lo ≤ a.lo) →
      (insertFalling r rs).Pairwise fun a b => b.lo ≤ a.lo
  | [], _, _ => List.pairwise_singleton _ _
  | s :: rest, hb, hf => by
    have hr' := hr r List.mem_cons_self
    have hs' := hb s List.mem_cons_self
    obtain ⟨hs, hrest⟩ := List.pairwise_cons.mp hf
    unfold insertFalling
    split
    · rename_i hp
      rw [precedes_iff (by omega) (by omega) (by omega) (by omega)] at hp
      refine List.pairwise_cons.mpr
        ⟨?_, insertFalling_falling hr (fun t ht => hb t (List.mem_cons_of_mem _ ht)) hrest⟩
      intro t ht
      rcases List.mem_cons.mp ((insertFalling_perm r rest).mem_iff.mp ht) with rfl | ht
      · omega
      · exact hs t ht
    · rename_i hp
      rw [precedes_iff (by omega) (by omega) (by omega) (by omega)] at hp
      refine List.pairwise_cons.mpr ⟨?_, hf⟩
      intro t ht
      rcases List.mem_cons.mp ht with rfl | ht
      · omega
      · have := hs t ht
        omega

theorem foldl_insertFalling (rs : List Range) : ∀ falling : List Range,
    (rs.foldl (fun f r => insertFalling r f) falling).Perm (rs ++ falling) := by
  induction rs with
  | nil => exact fun _ => List.Perm.refl _
  | cons r rs ih =>
    intro falling
    exact (ih _).trans (((insertFalling_perm r falling).append_left rs).trans List.perm_middle)

theorem foldl_insertFalling_falling : ∀ (rs falling : List Range), Bounded rs → Bounded falling →
    falling.Pairwise (fun a b => b.lo ≤ a.lo) →
      (rs.foldl (fun f r => insertFalling r f) falling).Pairwise fun a b => b.lo ≤ a.lo
  | [], _, _, _, hf => hf
  | r :: rs, falling, hb, hbf, hf => by
    have hr : Bounded [r] := by
      intro s hs
      exact hb s (by simp [List.mem_singleton.mp hs])
    refine foldl_insertFalling_falling rs _ (fun s hs => hb s (List.mem_cons_of_mem _ hs)) ?_
      (insertFalling_falling hr hbf hf)
    intro s hs
    rcases List.mem_cons.mp ((insertFalling_perm r falling).mem_iff.mp hs) with rfl | hs
    · exact hr s List.mem_cons_self
    · exact hbf s hs

theorem sorted_perm (rs : List Range) : (sorted rs).Perm rs := by
  unfold sorted
  split
  · unfold sortByInsertion
    exact (List.reverse_perm _).trans (by simpa using foldl_insertFalling rs [])
  · exact List.mergeSort_perm _ _

theorem notAfter_trans (a b c : Range) (hab : notAfter a b = true) (hbc : notAfter b c = true) :
    notAfter a c = true := by
  simp only [notAfter, Bool.or_eq_true, decide_eq_true_eq, Bool.and_eq_true, beq_iff_eq] at *
  omega

theorem notAfter_total (a b : Range) : (notAfter a b || notAfter b a) = true := by
  simp only [notAfter, Bool.or_eq_true, decide_eq_true_eq, Bool.and_eq_true, beq_iff_eq]
  omega

/-- **Either way of sorting puts the lower ends in order**, as long as they are characters.
Insertion compares ends by a distance that could wrap, and between characters it does not. -/
theorem sorted_rising {rs : List Range} (h : Bounded rs) : Rising (sorted rs) := by
  unfold sorted
  split
  · unfold sortByInsertion Rising
    rw [List.pairwise_reverse]
    exact foldl_insertFalling_falling rs [] h (by simp [Bounded]) List.Pairwise.nil
  · refine (List.pairwise_mergeSort notAfter_trans notAfter_total rs).imp ?_
    intro a b hab
    simp only [notAfter, Bool.or_eq_true, decide_eq_true_eq, Bool.and_eq_true, beq_iff_eq] at hab
    omega

/-! ## 4. Melting

Melting looks at one range and the next, and it is right only if the lower ends increase.  The
range that is being made may end beyond several of those that come, so what is kept is how it
stands to all that are left (`Meltable`). -/

/-- What melting needs of the ranges that are left, next to `current`. -/
structure Meltable (current : Range) (rest : List Range) : Prop where
  proper : ∀ r ∈ current :: rest, r.lo ≤ r.hi
  within : Within (current :: rest)
  rising : Rising (current :: rest)

theorem Meltable.tail {c r : Range} {rest : List Range} (h : Meltable c (r :: rest)) :
    Meltable r rest :=
  ⟨fun s hs => h.proper s (List.mem_cons_of_mem _ hs),
    fun s hs => h.within s (List.mem_cons_of_mem _ hs), (List.pairwise_cons.mp h.rising).2⟩

/-- Two ranges that touch melt into one, which can be melted further. -/
theorem Meltable.join {c r : Range} {rest : List Range} (h : Meltable c (r :: rest)) :
    Meltable ⟨c.lo, max c.hi r.hi⟩ rest := by
  have hc := h.proper c (by simp)
  have wc := h.within c (by simp)
  have wr := h.within r (by simp)
  obtain ⟨first, others⟩ := List.pairwise_cons.mp h.rising
  refine ⟨?_, ?_, List.pairwise_cons.mpr ⟨?_, (List.pairwise_cons.mp others).2⟩⟩
  · intro s hs
    rcases List.mem_cons.mp hs with rfl | hs
    · exact Int.le_trans hc (Int.le_max_left _ _)
    · exact h.proper s (by simp [hs])
  · intro s hs
    rcases List.mem_cons.mp hs with rfl | hs
    · exact ⟨wc.1, Int.max_le.mpr ⟨wc.2, wr.2⟩⟩
    · exact h.within s (by simp [hs])
  · exact fun s hs => first s (by simp [hs])

/-- What melting leaves starts no earlier than what was melted. -/
theorem le_lo_of_mem_melt {current : Range} {rest : List Range} (h : Meltable current rest) :
    ∀ r ∈ melt current rest, current.lo ≤ r.lo := by
  fun_induction melt current rest with
  | case1 c => simp
  | case2 c r rest _ ih => exact ih h.join
  | case3 c r rest _ ih =>
    intro s hs
    rcases List.mem_cons.mp hs with rfl | hs
    · exact Int.le_refl _
    · exact Int.le_trans ((List.pairwise_cons.mp h.rising).1 r List.mem_cons_self)
        (ih h.tail s hs)

/-- **Melting neither adds nor loses a code point, and what it leaves is canonical.**  Both halves
go by one induction on the ranges that are left, since what is canonical depends on what has been
covered so far. -/
theorem proper_melt {current : Range} {rest : List Range} (h : Meltable current rest) :
    Proper ⟨melt current rest⟩ ∧
      ∀ c, Covers (melt current rest) c ↔ Covers (current :: rest) c := by
  fun_induction melt current rest with
  | case1 r =>
    exact ⟨⟨⟨h.proper, List.pairwise_singleton _ _⟩, h.within⟩, fun c => Iff.rfl⟩
  | case2 a r rest touch ih =>
    obtain ⟨hp, hc⟩ := ih h.join
    refine ⟨hp, ?_⟩
    intro c
    have ha := h.proper a (by simp)
    have hr := h.proper r (by simp)
    have wa := h.within a (by simp)
    have rise := (List.pairwise_cons.mp h.rising).1 r List.mem_cons_self
    rw [next_eq (by omega) (by omega)] at touch
    rw [hc, covers_cons, covers_cons, covers_cons, ← or_assoc]
    refine or_congr_left ?_
    simp only
    omega
  | case3 a r rest apart ih =>
    obtain ⟨hp, hc⟩ := ih h.tail
    have wa := h.within a (by simp)
    have ha := h.proper a (by simp)
    rw [next_eq (by omega) (by omega)] at apart
    refine ⟨⟨⟨?_, List.pairwise_cons.mpr ⟨?_, hp.canonical.2⟩⟩, ?_⟩, ?_⟩
    · intro s hs
      rcases List.mem_cons.mp hs with rfl | hs
      · exact ha
      · exact hp.canonical.1 s hs
    · intro s hs
      have := le_lo_of_mem_melt h.tail s hs
      unfold Apart
      omega
    · intro s hs
      rcases List.mem_cons.mp hs with rfl | hs
      · exact wa
      · exact hp.within s hs
    · intro c
      rw [covers_cons, hc, covers_cons (r := a)]

/-- The ranges that `ofRanges` melts are ready to be melted. -/
theorem meltable_of_sorted {rs rest : List Range} {r : Range} (h : Bounded rs)
    (hcons : (sorted rs).filter (!·.isInverted) = r :: rest) : Meltable r rest := by
  refine ⟨?_, ?_, ?_⟩
  · intro s hs
    rw [← hcons] at hs
    have := (List.mem_filter.mp hs).2
    simp only [Range.isInverted, Bool.not_eq_true', decide_eq_false_iff_not] at this
    omega
  · intro s hs
    rw [← hcons] at hs
    have := h s ((sorted_perm rs).mem_iff.mp (List.mem_filter.mp hs).1)
    omega
  · rw [← hcons]
    exact (sorted_rising h).sublist List.filter_sublist

/-- The ranges that `ofRanges` melts, with what melting needs of them. -/
theorem ofRanges_cases {rs : List Range} (h : Bounded rs) :
    (ofRanges rs = empty ∧ ∀ c, ¬ Covers rs c) ∨
      ∃ r rest, ofRanges rs = ⟨melt r rest⟩ ∧ Meltable r rest ∧
        ∀ c, Covers (r :: rest) c ↔ Covers rs c := by
  have cov : ∀ c, Covers ((sorted rs).filter (!·.isInverted)) c ↔ Covers rs c := fun c =>
    (covers_filter_not_isInverted _ c).trans (covers_perm (sorted_perm rs) c)
  unfold ofRanges
  split
  · rename_i hnil
    exact Or.inl ⟨rfl, fun c hc => by simpa [hnil] using (cov c).mpr hc⟩
  · rename_i r rest hcons
    exact Or.inr ⟨r, rest, rfl, meltable_of_sorted h hcons, fun c => by
      rw [← hcons]
      exact cov c⟩

/-- Ranges of characters in any order make a proper set. -/
theorem proper_ofRanges {rs : List Range} (h : Bounded rs) : (ofRanges rs).Proper := by
  rcases ofRanges_cases h with ⟨he, -⟩ | ⟨r, rest, he, hm, -⟩
  · rw [he]; exact proper_empty
  · rw [he]; exact (proper_melt hm).1

/-- The members of the set of some ranges are what the ranges cover. -/
theorem covers_ofRanges {rs : List Range} (h : Bounded rs) (c : Int) :
    Covers (ofRanges rs).ranges c ↔ Covers rs c := by
  rcases ofRanges_cases h with ⟨he, hn⟩ | ⟨r, rest, he, hm, hc⟩
  · rw [he]
    exact iff_of_false (covers_nil c) (hn c)
  · rw [he]
    exact ((proper_melt hm).2 c).trans (hc c)

theorem Proper.bounded {s : Set} (h : s.Proper) : Bounded s.ranges := by
  intro r hr
  have h1 := h.within r hr
  have h2 := h.canonical.1 r hr
  omega

/-! ## 5. Union -/

theorem Proper.bounded_append {s o : Set} (hs : s.Proper) (ho : o.Proper) :
    Bounded (s.ranges ++ o.ranges) := by
  intro r hr
  rcases List.mem_append.mp hr with hr | hr
  · exact hs.bounded r hr
  · exact ho.bounded r hr

theorem proper_union {s o : Set} (hs : s.Proper) (ho : o.Proper) : (s.union o).Proper := by
  unfold union
  split
  · exact hs
  · split
    · exact ho
    · exact proper_ofRanges (hs.bounded_append ho)

/-- The union has the members of both. -/
theorem covers_union {s o : Set} (hs : s.Proper) (ho : o.Proper) (c : Int) :
    Covers (s.union o).ranges c ↔ Covers s.ranges c ∨ Covers o.ranges c := by
  unfold union
  split
  · rename_i he
    exact (or_iff_left (not_covers_of_isEmpty he c)).symm
  · split
    · rename_i he
      exact (or_iff_right (not_covers_of_isEmpty he c)).symm
    · rw [covers_ofRanges (hs.bounded_append ho), covers_append]

theorem contains_union {s o : Set} (hs : s.Proper) (ho : o.Proper) (c : Int) :
    (s.union o).contains c = (s.contains c || o.contains c) := by
  rw [Bool.eq_iff_iff, Bool.or_eq_true, (proper_union hs ho).contains_iff, hs.contains_iff,
    ho.contains_iff, covers_union hs ho]

/-! ## 6. Intersection

The walk drops from whichever list has the range that ends first, so it is no recursion on either
of them alone.  `walk_induction` has the two cases once and for all. -/

/-- Induction along the walk of two lists: one of them gets shorter. -/
@[elab_as_elim]
theorem walk_induction {motive : List Range → List Range → Prop}
    (nil : ∀ os, motive [] os) (nil_right : ∀ rs, motive rs [])
    (step : ∀ r rs o os, motive rs (o :: os) → motive (r :: rs) os →
      motive (r :: rs) (o :: os)) : ∀ rs os, motive rs os
  | [], os => nil os
  | r :: rs, [] => nil_right (r :: rs)
  | r :: rs, o :: os =>
    step r rs o os (walk_induction nil nil_right step rs (o :: os))
      (walk_induction nil nil_right step (r :: rs) os)
termination_by rs os => rs.length + os.length

@[simp] theorem overlaps_nil_left (os : List Range) : overlaps [] os = [] := by
  rw [overlaps]

@[simp] theorem overlaps_nil_right (rs : List Range) : overlaps rs [] = [] := by
  cases rs <;> rw [overlaps]

/-- One step of the walk: the overlap of the first ranges, then the rest without the range that
ends first. -/
theorem overlaps_cons (r : Range) (rs : List Range) (o : Range) (os : List Range) :
    overlaps (r :: rs) (o :: os) = (r.intersect? o).toList ++
      if r.hi < o.hi then overlaps rs (o :: os) else overlaps (r :: rs) os := by
  rw [overlaps]
  cases r.intersect? o <;> rfl

theorem mem_of_intersect? {r o x : Range} (h : r.intersect? o = some x) :
    (x.lo = max r.lo o.lo ∧ x.hi = min r.hi o.hi) ∧ x.lo ≤ x.hi := by
  unfold Range.intersect? at h
  split at h
  · obtain rfl := Option.some.inj h
    exact ⟨⟨rfl, rfl⟩, by assumption⟩
  · simp at h

theorem covers_intersect? (r o : Range) (c : Int) :
    Covers (r.intersect? o).toList c ↔ (r.lo ≤ c ∧ c ≤ r.hi) ∧ o.lo ≤ c ∧ c ≤ o.hi := by
  unfold Range.intersect?
  split
  · simp only [Option.toList_some, covers_cons, covers_nil, or_false]
    omega
  · simp only [Option.toList_none, covers_nil, false_iff]
    omega

/-- Every range of the intersection is the shared part of two of the given ranges. -/
theorem mem_overlaps {x : Range} (rs os : List Range) (h : x ∈ overlaps rs os) :
    ∃ r ∈ rs, ∃ o ∈ os, r.intersect? o = some x := by
  induction rs, os using walk_induction with
  | nil => simp at h
  | nil_right => simp at h
  | step r rs o os ih1 ih2 =>
    rw [overlaps_cons, List.mem_append, Option.mem_toList] at h
    rcases h with h | h
    · exact ⟨r, List.mem_cons_self, o, List.mem_cons_self, h⟩
    · split at h
      · obtain ⟨a, ha, b, hb, hab⟩ := ih1 h
        exact ⟨a, List.mem_cons_of_mem _ ha, b, hb, hab⟩
      · obtain ⟨a, ha, b, hb, hab⟩ := ih2 h
        exact ⟨a, ha, b, List.mem_cons_of_mem _ hb, hab⟩

/-- What the later ranges cover lies beyond the first one. -/
theorem lt_of_covers_tail {r : Range} {rs : List Range} (h : (r :: rs).Pairwise Apart) {c : Int}
    (hc : Covers rs c) : r.hi < c := by
  obtain ⟨s, hs, hsc⟩ := hc
  have := (List.pairwise_cons.mp h).1 s hs
  unfold Apart at this
  omega

/-- **Walking two increasing lists finds every overlap.**  The range that ends first is dropped;
it meets nothing that comes later in the other list. -/
theorem covers_overlaps (c : Int) (rs os : List Range) (hr : rs.Pairwise Apart)
    (ho : os.Pairwise Apart) : Covers (overlaps rs os) c ↔ Covers rs c ∧ Covers os c := by
  induction rs, os using walk_induction with
  | nil => simp
  | nil_right => simp
  | step r rs o os ih1 ih2 =>
    have later := lt_of_covers_tail hr (c := c)
    have later' := lt_of_covers_tail ho (c := c)
    rw [overlaps_cons, covers_append, covers_intersect?]
    split
    · rw [ih1 (List.pairwise_cons.mp hr).2 ho, covers_cons, covers_cons]
      constructor
      · rintro (⟨h1, h2⟩ | ⟨h1, h2⟩)
        · exact ⟨Or.inl h1, Or.inl h2⟩
        · exact ⟨Or.inr h1, h2⟩
      · rintro ⟨h1 | h1, h2 | h2⟩
        · exact Or.inl ⟨h1, h2⟩
        · have := later' h2
          omega
        · exact Or.inr ⟨h1, Or.inl h2⟩
        · exact Or.inr ⟨h1, Or.inr h2⟩
    · rw [ih2 hr (List.pairwise_cons.mp ho).2, covers_cons, covers_cons]
      constructor
      · rintro (⟨h1, h2⟩ | ⟨h1, h2⟩)
        · exact ⟨Or.inl h1, Or.inl h2⟩
        · exact ⟨h1, Or.inr h2⟩
      · rintro ⟨h1 | h1, h2 | h2⟩
        · exact Or.inl ⟨h1, h2⟩
        · exact Or.inr ⟨Or.inl h1, h2⟩
        · have := later h1
          omega
        · exact Or.inr ⟨Or.inr h1, h2⟩

/-- The overlaps of two increasing lists are in order again. -/
theorem overlaps_apart (rs os : List Range) (hr : rs.Pairwise Apart) (ho : os.Pairwise Apart) :
    (overlaps rs os).Pairwise Apart := by
  induction rs, os using walk_induction with
  | nil => simp
  | nil_right => simp
  | step r rs o os ih1 ih2 =>
    obtain ⟨hr1, hr2⟩ := List.pairwise_cons.mp hr
    obtain ⟨ho1, ho2⟩ := List.pairwise_cons.mp ho
    rw [overlaps_cons, List.pairwise_append]
    refine ⟨by cases r.intersect? o <;> simp, ?_, ?_⟩
    · split
      · exact ih1 hr2 ho
      · exact ih2 hr ho2
    · intro x hx y hy
      obtain ⟨⟨-, hx2⟩, -⟩ := mem_of_intersect? (Option.mem_toList.mp hx)
      unfold Apart
      split at hy
      · obtain ⟨a, ha, b, -, hab⟩ := mem_overlaps _ _ hy
        obtain ⟨⟨hy1, -⟩, -⟩ := mem_of_intersect? hab
        have := hr1 a ha
        unfold Apart at this
        omega
      · obtain ⟨a, -, b, hb, hab⟩ := mem_overlaps _ _ hy
        obtain ⟨⟨hy1, -⟩, -⟩ := mem_of_intersect? hab
        have := ho1 b hb
        unfold Apart at this
        omega

theorem proper_intersect {s o : Set} (hs : s.Proper) (ho : o.Proper) : (s.intersect o).Proper := by
  refine ⟨⟨?_, overlaps_apart _ _ hs.canonical.2 ho.canonical.2⟩, ?_⟩
  · intro x hx
    obtain ⟨a, -, b, -, hab⟩ := mem_overlaps _ _ hx
    exact (mem_of_intersect? hab).2
  · intro x hx
    obtain ⟨a, ha, b, -, hab⟩ := mem_overlaps _ _ hx
    obtain ⟨⟨h1, h2⟩, -⟩ := mem_of_intersect? hab
    have := hs.within a ha
    omega

theorem contains_intersect {s o : Set} (hs : s.Proper) (ho : o.Proper) (c : Int) :
    (s.intersect o).contains c = (s.contains c && o.contains c) := by
  rw [Bool.eq_iff_iff, Bool.and_eq_true, (proper_intersect hs ho).contains_iff, hs.contains_iff,
    ho.contains_iff]
  exact covers_overlaps c _ _ hs.canonical.2 ho.canonical.2

/-! ## 7. Subtraction

`cut` may only meet ranges that do not end before the one it cuts starts; `remains` sees to
that by dropping the others first. -/

/-- The first range does not end before `lo`. -/
def Reaches (lo : Int) (os : List Range) : Prop := ∀ o ∈ os.head?, lo ≤ o.hi

theorem covers_proper (r : Range) (c : Int) : Covers (proper r) c ↔ r.lo ≤ c ∧ c ≤ r.hi := by
  unfold proper Range.isInverted
  split
  · rename_i h
    simp only [decide_eq_true_eq] at h
    simp only [covers_nil, false_iff]
    omega
  · simp

theorem mem_proper {r x : Range} (h : x ∈ proper r) : x = r ∧ r.lo ≤ r.hi := by
  unfold proper Range.isInverted at h
  split at h
  · simp at h
  · rename_i hr
    simp only [decide_eq_true_eq] at hr
    exact ⟨List.mem_singleton.mp h, by omega⟩

/-- A range that is used up leaves nothing. -/
theorem proper_used_up {h : Int} (low : 0 ≤ h) (high : h ≤ 0x10FFFF) :
    proper ⟨next h, h⟩ = [] := by
  unfold proper Range.isInverted
  rw [if_pos]
  simp only [decide_eq_true_eq]
  rw [next_eq (by omega) (by omega)]
  omega

theorem Reaches.of_apart {o : Range} {os : List Range} (h : (o :: os).Pairwise Apart)
    (po : ∀ b ∈ o :: os, b.lo ≤ b.hi) : Reaches (o.hi + 1) os := by
  intro b hb
  have hb := List.mem_of_mem_head? hb
  have h1 := (List.pairwise_cons.mp h).1 b hb
  have h2 := po b (List.mem_cons_of_mem _ hb)
  unfold Apart at h1
  omega

/-- What is cut out of a range, and where the pieces lie. -/
theorem covers_cut (c : Int) : ∀ (r : Range) (os : List Range), r.hi ≤ 0x10FFFF →
    os.Pairwise Apart → (∀ o ∈ os, o.lo ≤ o.hi) → Within os → Reaches r.lo os →
      (Covers (cut r os) c ↔ (r.lo ≤ c ∧ c ≤ r.hi) ∧ ¬ Covers os c)
  | r, [], _, _, _, _, _ => by simp [cut, covers_proper]
  | r, o :: os, high, ho, po, wo, reach => by
    have hoo := po o List.mem_cons_self
    have hw := wo o List.mem_cons_self
    have hreach : r.lo ≤ o.hi := reach o rfl
    have later := lt_of_covers_tail ho (c := c)
    unfold cut
    split
    · rw [covers_proper, covers_cons]
      constructor
      · intro h
        refine ⟨h, ?_⟩
        rintro (h' | h')
        · omega
        · have := later h'
          omega
      · exact fun h => h.1
    · rw [covers_append]
      have first : Covers (if r.lo < o.lo then [⟨r.lo, o.lo - 1⟩] else []) c ↔
          r.lo ≤ c ∧ c < o.lo := by
        split
        · simp only [covers_cons, covers_nil, or_false]
          omega
        · simp only [covers_nil, false_iff]
          omega
      rw [first, covers_cons]
      split
      · rw [proper_used_up (by omega) high]
        constructor
        · rintro (h | h)
          · refine ⟨by omega, ?_⟩
            rintro (h' | h')
            · omega
            · have := later h'
              omega
          · exact absurd h (covers_nil c)
        · rintro ⟨h, h'⟩
          exact Or.inl (by omega)
      · rw [covers_cut c ⟨o.hi + 1, r.hi⟩ os high (List.pairwise_cons.mp ho).2
          (fun b hb => po b (List.mem_cons_of_mem _ hb))
          (fun b hb => wo b (List.mem_cons_of_mem _ hb)) (Reaches.of_apart ho po)]
        simp only [not_or]
        constructor
        · rintro (h | ⟨h, h'⟩)
          · refine ⟨by omega, by omega, ?_⟩
            intro h'
            have := later h'
            omega
          · exact ⟨by omega, by omega, h'⟩
        · rintro ⟨h, h', h''⟩
          by_cases hc : c < o.lo
          · exact Or.inl (by omega)
          · exact Or.inr ⟨by omega, h''⟩

/-- The pieces lie inside of the range they are cut from, in order. -/
theorem cut_pieces : ∀ (r : Range) (os : List Range), 0 ≤ r.hi → r.hi ≤ 0x10FFFF →
    os.Pairwise Apart → (∀ o ∈ os, o.lo ≤ o.hi) → Within os → Reaches r.lo os →
      (∀ x ∈ cut r os, r.lo ≤ x.lo ∧ x.lo ≤ x.hi ∧ x.hi ≤ r.hi) ∧ (cut r os).Pairwise Apart
  | r, [], _, _, _, _, _, _ => by
    simp only [cut]
    refine ⟨?_, by unfold proper; split <;> simp⟩
    intro x hx
    obtain ⟨rfl, h⟩ := mem_proper hx
    omega
  | r, o :: os, low, high, ho, po, wo, reach => by
    have hoo := po o List.mem_cons_self
    have hw := wo o List.mem_cons_self
    have hreach : r.lo ≤ o.hi := reach o rfl
    unfold cut
    split
    · refine ⟨?_, by unfold proper; split <;> simp⟩
      intro x hx
      obtain ⟨rfl, h⟩ := mem_proper hx
      omega
    · have first : ∀ x ∈ (if r.lo < o.lo then [(⟨r.lo, o.lo - 1⟩ : Range)] else []),
          r.lo ≤ x.lo ∧ x.lo ≤ x.hi ∧ x.hi = o.lo - 1 := by
        intro x hx
        split at hx
        · obtain rfl := List.mem_singleton.mp hx
          exact ⟨Int.le_refl _, by simp only; omega, rfl⟩
        · simp at hx
      by_cases last : r.hi ≤ o.hi
      · rw [if_pos last, proper_used_up (by omega) high, List.append_nil]
        refine ⟨?_, by split <;> simp⟩
        intro x hx
        have := first x hx
        omega
      · rw [if_neg last]
        obtain ⟨ih1, ih2⟩ := cut_pieces ⟨o.hi + 1, r.hi⟩ os low high (List.pairwise_cons.mp ho).2
          (fun b hb => po b (List.mem_cons_of_mem _ hb))
          (fun b hb => wo b (List.mem_cons_of_mem _ hb)) (Reaches.of_apart ho po)
        refine ⟨?_, List.pairwise_append.mpr ⟨by split <;> simp, ih2, ?_⟩⟩
        · intro x hx
          rcases List.mem_append.mp hx with hx | hx
          · have := first x hx
            omega
          · have := ih1 x hx
            simp only at this
            omega
        · intro x hx y hy
          have h1 := first x hx
          have h2 := ih1 y hy
          simp only at h2
          unfold Apart
          omega

/-- The ranges that do not end before `lo`, with what `cut` needs of them. -/
theorem near_spec (lo : Int) {os : List Range} (ho : os.Pairwise Apart)
    (po : ∀ o ∈ os, o.lo ≤ o.hi) (wo : Within os) :
    (os.dropWhile (·.hi < lo)).Pairwise Apart ∧ (∀ o ∈ os.dropWhile (·.hi < lo), o.lo ≤ o.hi) ∧
      Within (os.dropWhile (·.hi < lo)) ∧ Reaches lo (os.dropWhile (·.hi < lo)) ∧
      ∀ c, lo ≤ c → (Covers (os.dropWhile (·.hi < lo)) c ↔ Covers os c) := by
  have sub : (os.dropWhile (·.hi < lo)).Sublist os := (List.dropWhile_suffix _).sublist
  refine ⟨ho.sublist sub, fun o h => po o (sub.subset h), fun o h => wo o (sub.subset h), ?_, ?_⟩
  · intro o h
    have := List.head?_dropWhile_not (fun r : Range => decide (r.hi < lo)) os
    rw [Option.mem_def.mp h] at this
    simp only [decide_eq_false_iff_not] at this
    omega
  · intro c hc
    induction os with
    | nil => simp
    | cons o os ih =>
      rw [List.dropWhile_cons]
      split
      · rename_i hlt
        simp only [decide_eq_true_eq] at hlt
        rw [ih (List.pairwise_cons.mp ho).2 (fun b hb => po b (List.mem_cons_of_mem _ hb))
          (fun b hb => wo b (List.mem_cons_of_mem _ hb)) (List.dropWhile_suffix _).sublist,
          covers_cons]
        constructor
        · exact Or.inr
        · rintro (h | h)
          · omega
          · exact h
      · rfl

/-- **Cutting one list out of another leaves what only the first covers.**  The ranges dropped
for one range of the first list are out of reach of all that follow it. -/
theorem covers_remains (c : Int) : ∀ (rs os : List Range), rs.Pairwise Apart → Within rs →
    (∀ r ∈ rs, r.lo ≤ r.hi) → os.Pairwise Apart → (∀ o ∈ os, o.lo ≤ o.hi) → Within os →
      (Covers (remains rs os) c ↔ Covers rs c ∧ ¬ Covers os c)
  | [], _, _, _, _, _, _, _ => by simp [remains]
  | r :: rs, os, hr, wr, pr, ho, po, wo => by
    obtain ⟨h1, h2, h3, h4, near⟩ := near_spec r.lo ho po wo
    have hrr := pr r List.mem_cons_self
    have later := lt_of_covers_tail hr (c := c)
    have ih := covers_remains c rs _ (List.pairwise_cons.mp hr).2
      (fun s hs => wr s (List.mem_cons_of_mem _ hs))
      (fun s hs => pr s (List.mem_cons_of_mem _ hs)) h1 h2 h3
    simp only [remains, covers_append, covers_cons, ih]
    rw [covers_cut c r _ (wr r List.mem_cons_self).2 h1 h2 h3 h4]
    constructor
    · rintro (⟨h, hn⟩ | ⟨h, hn⟩)
      · exact ⟨Or.inl h, fun h' => hn ((near c h.1).mpr h')⟩
      · have := later h
        exact ⟨Or.inr h, fun h' => hn ((near c (by omega)).mpr h')⟩
    · rintro ⟨h | h, hn⟩
      · exact Or.inl ⟨h, fun h' => hn ((near c h.1).mp h')⟩
      · have := later h
        exact Or.inr ⟨h, fun h' => hn ((near c (by omega)).mp h')⟩

/-- What is left of an increasing list lies inside of it, in order. -/
theorem remains_pieces : ∀ (rs os : List Range), rs.Pairwise Apart → (∀ r ∈ rs, r.lo ≤ r.hi) →
    Within rs → os.Pairwise Apart → (∀ o ∈ os, o.lo ≤ o.hi) → Within os →
      (∀ x ∈ remains rs os, ∃ r ∈ rs, r.lo ≤ x.lo ∧ x.lo ≤ x.hi ∧ x.hi ≤ r.hi) ∧
        (remains rs os).Pairwise Apart
  | [], _, _, _, _, _, _, _ => by simp [remains]
  | r :: rs, os, hr, pr, wr, ho, po, wo => by
    obtain ⟨h1, h2, h3, h4, -⟩ := near_spec r.lo ho po wo
    have low := wr r List.mem_cons_self
    have hrr := pr r List.mem_cons_self
    obtain ⟨c1, c2⟩ := cut_pieces r _ (by omega) low.2 h1 h2 h3 h4
    obtain ⟨ih1, ih2⟩ := remains_pieces rs _ (List.pairwise_cons.mp hr).2
      (fun s hs => pr s (List.mem_cons_of_mem _ hs))
      (fun s hs => wr s (List.mem_cons_of_mem _ hs)) h1 h2 h3
    simp only [remains]
    refine ⟨?_, List.pairwise_append.mpr ⟨c2, ih2, ?_⟩⟩
    · intro x hx
      rcases List.mem_append.mp hx with hx | hx
      · exact ⟨r, List.mem_cons_self, c1 x hx⟩
      · obtain ⟨s, hs, h⟩ := ih1 x hx
        exact ⟨s, List.mem_cons_of_mem _ hs, h⟩
    · intro x hx y hy
      obtain ⟨s, hs, h⟩ := ih1 y hy
      have hx := c1 x hx
      have := (List.pairwise_cons.mp hr).1 s hs
      unfold Apart at this ⊢
      omega

theorem proper_subtract {s o : Set} (hs : s.Proper) (ho : o.Proper) : (s.subtract o).Proper := by
  obtain ⟨h1, h2⟩ := remains_pieces s.ranges o.ranges hs.canonical.2 hs.canonical.1 hs.within
    ho.canonical.2 ho.canonical.1 ho.within
  refine ⟨⟨?_, h2⟩, ?_⟩
  · intro x hx
    obtain ⟨r, -, h⟩ := h1 x hx
    exact h.2.1
  · intro x hx
    obtain ⟨r, hr, h⟩ := h1 x hx
    have := hs.within r hr
    omega

theorem contains_subtract {s o : Set} (hs : s.Proper) (ho : o.Proper) (c : Int) :
    (s.subtract o).contains c = (s.contains c && !o.contains c) := by
  rw [Bool.eq_iff_iff, Bool.and_eq_true, Bool.not_eq_true', ← Bool.not_eq_true,
    (proper_subtract hs ho).contains_iff, hs.contains_iff, ho.contains_iff]
  exact covers_remains c _ _ hs.canonical.2 hs.within hs.canonical.1 ho.canonical.2
    ho.canonical.1 ho.within

/-! ## 8. Complement

The complement is subtracted from the set of all characters, so its laws are those of
subtraction.  They hold of characters only, as nothing else is in either set. -/

theorem proper_universe : Proper ⟨[⟨0, maxCodePoint⟩]⟩ :=
  ⟨⟨by simp [maxCodePoint], List.pairwise_singleton _ _⟩, by simp [Within, maxCodePoint]⟩

theorem contains_universe {c : Int} (low : 0 ≤ c) (high : c ≤ 0x10FFFF) :
    contains ⟨[⟨0, maxCodePoint⟩]⟩ c = true := by
  rw [proper_universe.contains_iff, covers_cons]
  exact Or.inl ⟨low, high⟩

theorem proper_complement {s : Set} (hs : s.Proper) : s.complement.Proper :=
  proper_subtract proper_universe hs

theorem contains_complement {s : Set} (hs : s.Proper) {c : Int} (low : 0 ≤ c)
    (high : c ≤ 0x10FFFF) : s.complement.contains c = !s.contains c := by
  rw [complement, contains_subtract proper_universe hs, contains_universe low high, Bool.true_and]

/-- A set that is the universe has every character. -/
theorem contains_of_isUniverse {s : Set} (h : s.isUniverse = true) {c : Int} (low : 0 ≤ c)
    (high : c ≤ 0x10FFFF) : s.contains c = true := by
  simp only [isUniverse, beq_iff_eq] at h
  rw [show s = ⟨[⟨0, maxCodePoint⟩]⟩ from congrArg Set.mk h]
  exact contains_universe low high

end Set

end Backtrack.CodePoint
