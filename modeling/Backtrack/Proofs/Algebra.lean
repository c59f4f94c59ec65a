/-
# Requirements as a Boolean algebra

`Requirements.lean` says of each operation which code points its result accepts.  What is missing
there is that the written out sets are comparable: two sets can have the same members and still be
different lists of ranges, unless both are canonical.  `CodePoint.Set.Proper.ext` closes that gap,
and with it laws about members become equations between what is written out (`resolve_congr`).

So intersecting is commutative and associative once it is written out, whichever of its ways each
of the intersections takes (`isBooleanAlgebra`).  Nothing is said about the form of a result that is
not written out.
-/
import Backtrack.Proofs.Requirements

namespace Backtrack

namespace CodePoint

/-! ## 1. Canonical sets with the same members

The first range of a canonical list starts at the least code point that is covered, and it ends
before the first one after it that is not.  Both can be read off the members, one list against
the other, so each half is stated for an inclusion. -/

/-- Nothing is covered before the first range. -/
theorem lo_le_of_covers {r : Range} {rs : List Range} (proper : r.lo ≤ r.hi)
    (ordered : (r :: rs).Pairwise Set.Apart) {c : Int} (hc : Covers (r :: rs) c) : r.lo ≤ c := by
  rcases (covers_cons r rs c).mp hc with hc | hc
  · exact hc.1
  · have := Set.lt_of_covers_tail ordered hc
    omega

/-- What ends a range ends every range that starts at the same place and covers no more. -/
theorem hi_le_of_covers {r o : Range} {rs os : List Range} (proper : o.lo ≤ o.hi)
    (ordered : (o :: os).Pairwise Set.Apart) (start : r.lo = o.lo)
    (sub : ∀ c, Covers (r :: rs) c → Covers (o :: os) c) : r.hi ≤ o.hi := by
  refine Decidable.byContradiction fun hlt => ?_
  have inside : Covers (r :: rs) (o.hi + 1) := (covers_cons _ _ _).mpr (.inl (by omega))
  rcases (covers_cons _ _ _).mp (sub _ inside) with hc | ⟨x, hx, hxc⟩
  · omega
  · -- A later range would have to start right after the first one ends.
    have apart := (List.pairwise_cons.mp ordered).1 x hx
    unfold Set.Apart at apart
    omega

/-- **Canonical lists that cover the same code points are the same.**  The induction is on one
list: the first ranges are the same, as each of them starts and ends where the other one does, and
then the rest covers the same. -/
theorem eq_of_covers : ∀ {rs os : List Range}, (∀ r ∈ rs, r.lo ≤ r.hi) → rs.Pairwise Set.Apart →
    (∀ o ∈ os, o.lo ≤ o.hi) → os.Pairwise Set.Apart → (∀ c, Covers rs c ↔ Covers os c) → rs = os
  | [], [], _, _, _, _, _ => rfl
  | [], o :: os, _, _, ho, _, h => by
    have first := ho o List.mem_cons_self
    have covered := (h o.lo).mpr ((covers_cons _ _ _).mpr (.inl ⟨Int.le_refl _, first⟩))
    exact absurd covered (covers_nil _)
  | r :: rs, [], hr, _, _, _, h => by
    have first := hr r List.mem_cons_self
    have covered := (h r.lo).mp ((covers_cons _ _ _).mpr (.inl ⟨Int.le_refl _, first⟩))
    exact absurd covered (covers_nil _)
  | r :: rs, o :: os, hr, rordered, ho, oordered, h => by
    have rfirst := hr r List.mem_cons_self
    have ofirst := ho o List.mem_cons_self
    have start : r.lo = o.lo := by
      have hle := lo_le_of_covers rfirst rordered
        ((h o.lo).mpr ((covers_cons _ _ _).mpr (.inl ⟨Int.le_refl _, ofirst⟩)))
      have hge := lo_le_of_covers ofirst oordered
        ((h r.lo).mp ((covers_cons _ _ _).mpr (.inl ⟨Int.le_refl _, rfirst⟩)))
      omega
    have stop : r.hi = o.hi := by
      have hle := hi_le_of_covers ofirst oordered start fun c => (h c).mp
      have hge := hi_le_of_covers rfirst rordered start.symm fun c => (h c).mpr
      omega
    obtain rfl : r = o := by
      cases r
      cases o
      simp_all
    -- The rest is what is covered beyond the first range.
    have rest : ∀ c, Covers rs c ↔ Covers os c := by
      intro c
      constructor
      · intro hc
        have := Set.lt_of_covers_tail rordered hc
        exact ((covers_cons _ _ _).mp ((h c).mp ((covers_cons _ _ _).mpr (.inr hc)))).resolve_left
          (by omega)
      · intro hc
        have := Set.lt_of_covers_tail oordered hc
        exact ((covers_cons _ _ _).mp ((h c).mpr ((covers_cons _ _ _).mpr (.inr hc)))).resolve_left
          (by omega)
    rw [eq_of_covers (fun x hx => hr x (List.mem_cons_of_mem _ hx))
      (List.pairwise_cons.mp rordered).2 (fun x hx => ho x (List.mem_cons_of_mem _ hx))
      (List.pairwise_cons.mp oordered).2 rest]

/-- **A canonical set of characters is determined by its members.** -/
theorem Set.Proper.ext {s t : Set} (hs : s.Proper) (ht : t.Proper)
    (h : ∀ c : Int, 0 ≤ c → c ≤ 0x10FFFF → s.contains c = t.contains c) : s = t := by
  -- Beyond the characters neither set has members.
  have character : ∀ {u : Set}, u.Proper → ∀ c, Covers u.ranges c → 0 ≤ c ∧ c ≤ 0x10FFFF := by
    rintro u hu c ⟨r, hr, hc⟩
    have := hu.within r hr
    omega
  have members : ∀ c, Covers s.ranges c ↔ Covers t.ranges c := by
    intro c
    constructor
    · intro hc
      obtain ⟨low, high⟩ := character hs c hc
      rwa [← hs.contains_iff, h c low high, ht.contains_iff] at hc
    · intro hc
      obtain ⟨low, high⟩ := character ht c hc
      rwa [← ht.contains_iff, ← h c low high, hs.contains_iff] at hc
  have ranges := eq_of_covers hs.canonical.1 hs.canonical.2 ht.canonical.1 ht.canonical.2 members
  cases s
  cases t
  exact congrArg Set.mk ranges

end CodePoint

namespace Requirement

open CodePoint (Range Bounded)

/-! ## 2. Laws once written out

Two ways of combining requirements give different forms, and writing out makes the same set of
them as soon as they accept the same characters.  So each law of Boolean algebras comes down to
one about a code point. -/

/-- The ranges were brought into canonical form from any ranges between characters, and every
category has a table. -/
structure IsBuilt (g : Requirement) : Prop where
  ranges : ∃ rs, Bounded rs ∧ g.ranges = CodePoint.Set.ofRanges rs
  known : ∀ k ∈ g.categories, k.IsKnown

theorem IsBuilt.proper {g : Requirement} (h : g.IsBuilt) : g.Proper := by
  obtain ⟨rs, bounded, hr⟩ := h.ranges
  exact ⟨hr ▸ CodePoint.Set.proper_ofRanges bounded, h.known⟩

/-- **Requirements that accept the same characters are written out the same way.**  What is
written out is canonical, and a canonical set is determined by its members. -/
theorem resolve_congr {g o : Requirement} (hg : g.Proper) (ho : o.Proper)
    (h : ∀ c : Int, 0 ≤ c → c ≤ 0x10FFFF → g.contains c = o.contains c) :
    ∃ s, g.resolve = .ok s ∧ o.resolve = .ok s ∧ s.Canonical := by
  obtain ⟨s, hs, ps, cs⟩ := hg.exists_resolve
  obtain ⟨t, ht, pt, ct⟩ := ho.exists_resolve
  obtain rfl : s = t := ps.ext pt fun c low high => by
    rw [cs c low high, ct c low high, h c low high]
  exact ⟨s, hs, ht, ps.canonical⟩

variable {g o k : Requirement}

/-- Which of two requirements comes first does not matter. -/
theorem resolve_intersect_comm (hg : g.Proper) (ho : o.Proper) :
    ∃ s, (g.intersect o >>= resolve) = .ok s ∧ (o.intersect g >>= resolve) = .ok s ∧
      s.Canonical := by
  obtain ⟨i, hi, pi, ci⟩ := exists_intersect hg ho
  obtain ⟨j, hj, pj, cj⟩ := exists_intersect ho hg
  rw [hi, hj]
  refine resolve_congr pi pj fun c low high => ?_
  rw [ci c low high, cj c low high, Bool.and_comm]

/-- Which two of three requirements are intersected first does not matter. -/
theorem resolve_intersect_assoc (hg : g.Proper) (ho : o.Proper) (hk : k.Proper) :
    ∃ s, (g.intersect o >>= fun i => i.intersect k >>= resolve) = .ok s ∧
      (o.intersect k >>= fun i => g.intersect i >>= resolve) = .ok s ∧ s.Canonical := by
  obtain ⟨i, hi, pi, ci⟩ := exists_intersect hg ho
  obtain ⟨j, hj, pj, cj⟩ := exists_intersect ho hk
  obtain ⟨l, hl, pl, cl⟩ := exists_intersect pi hk
  obtain ⟨r, hr, pr, cr⟩ := exists_intersect hg pj
  have left : (g.intersect o >>= fun i => i.intersect k >>= resolve) = l.resolve := by
    rw [hi]
    change (i.intersect k >>= resolve) = _
    rw [hl]
    rfl
  have right : (o.intersect k >>= fun i => g.intersect i >>= resolve) = r.resolve := by
    rw [hj]
    change (g.intersect j >>= resolve) = _
    rw [hr]
    rfl
  rw [left, right]
  refine resolve_congr pl pr fun c low high => ?_
  rw [cl c low high, ci c low high, cr c low high, cj c low high, Bool.and_assoc]

/-- **Requirements are a Boolean algebra of code points.**  Intersections, unions and complements
exist and accept what both, one or none of their operands accept; writing out never fails and
gives a canonical set with the same members; and written out, intersecting is commutative and
associative.  This holds for every mix of negations and of plain and negated categories. -/
theorem isBooleanAlgebra (hg : g.IsBuilt) (ho : o.IsBuilt) (hk : k.IsBuilt) :
    (∃ i, g.intersect o = .ok i ∧ ∀ c : Int, 0 ≤ c → c ≤ 0x10FFFF →
      i.contains c = (g.contains c && o.contains c)) ∧
    (∃ u, g.union o = .ok u ∧ ∀ c : Int, 0 ≤ c → c ≤ 0x10FFFF →
      u.contains c = (g.contains c || o.contains c)) ∧
    (∀ c : Int, 0 ≤ c → c ≤ 0x10FFFF → g.negate.contains c = !g.contains c) ∧
    (∃ s, g.resolve = .ok s ∧ s.Canonical ∧ ∀ c : Int, 0 ≤ c → c ≤ 0x10FFFF →
      s.contains c = g.contains c) ∧
    (∃ s, (g.intersect o >>= resolve) = .ok s ∧ (o.intersect g >>= resolve) = .ok s ∧
      s.Canonical) ∧
    (∃ s, (g.intersect o >>= fun i => i.intersect k >>= resolve) = .ok s ∧
      (o.intersect k >>= fun i => g.intersect i >>= resolve) = .ok s ∧ s.Canonical) := by
  have pg := hg.proper
  have po := ho.proper
  obtain ⟨i, hi, -, ci⟩ := exists_intersect pg po
  obtain ⟨u, hu, -, cu⟩ := exists_union pg po
  obtain ⟨s, hs, ps, cs⟩ := pg.exists_resolve
  exact ⟨⟨i, hi, ci⟩, ⟨u, hu, cu⟩, fun c _ _ => contains_negate g c, ⟨s, hs, ps.canonical, cs⟩,
    resolve_intersect_comm pg po, resolve_intersect_assoc pg po hk.proper⟩

/-- `[^a-m\P{Greek}]`, `[^0-9]` and `[α-ω\p{Lu}]`: two of the three are negated, and so
is one of the two categories. -/
theorem isBooleanAlgebra_of_mixed :
    ∃ g o k : Requirement, g.IsBuilt ∧ o.IsBuilt ∧ k.IsBuilt ∧
      g.negated = true ∧ o.negated = true ∧ g.categories = [⟨"Greek", true⟩] ∧
      k.categories = [⟨"Lu", false⟩] ∧
      (∃ s, (g.intersect o >>= resolve) = .ok s ∧ (o.intersect g >>= resolve) = .ok s ∧
        s.Canonical) ∧
      (∃ s, (g.intersect o >>= fun i => i.intersect k >>= resolve) = .ok s ∧
        (o.intersect k >>= fun i => g.intersect i >>= resolve) = .ok s ∧ s.Canonical) := by
  have built : ∀ (negated : Bool) (r : Range) (ks : List Category),
      (0 ≤ r.lo ∧ r.lo ≤ 0x10FFFF) ∧ 0 ≤ r.hi ∧ r.hi ≤ 0x10FFFF →
      ks.all (fun k => (Unicode.lookup? k.name).isSome) = true →
      IsBuilt ⟨negated, CodePoint.Set.ofRanges [r], ks⟩ := fun negated r ks hr hk =>
    ⟨⟨[r], fun x hx => List.mem_singleton.mp hx ▸ hr, rfl⟩, fun k h => List.all_eq_true.mp hk k h⟩
  have hg := built true ⟨0x61, 0x6D⟩ [⟨"Greek", true⟩] (by decide) (by decide +kernel)
  have ho := built true ⟨0x30, 0x39⟩ [] (by decide) rfl
  have hk := built false ⟨0x3B1, 0x3C9⟩ [⟨"Lu", false⟩] (by decide) (by decide +kernel)
  obtain ⟨-, -, -, -, comm, assoc⟩ := isBooleanAlgebra hg ho hk
  exact ⟨_, _, _, hg, ho, hk, rfl, rfl, rfl, rfl, comm, assoc⟩

end Requirement

end Backtrack
