/-
# When an intersection is seen to be empty

Whether nothing satisfies a requirement is read off its form (`Requirement.isEmpty`), and a form
can hide it: `[^\s\S]` is everything, negated.  Intersecting two different requirements gives a
form that hides nothing (`isNormal_intersect`), since categories are written out and a negated
union of everything becomes the empty requirement.

There is one exception.  A requirement intersected with itself is given back as it is, and keeps
the form it has.  `isEmpty_intersect_iff` is exact about both.
-/
import Backtrack.Proofs.Algebra

namespace Backtrack

namespace CodePoint.Set

/-! ## 1. Sets -/

/-- A set with ranges has members. -/
theorem Proper.exists_contains {s : Set} (h : s.Proper) (some : s.isEmpty = false) :
    ∃ c : Int, 0 ≤ c ∧ c ≤ 0x10FFFF ∧ s.contains c = true := by
  obtain ⟨r, hr⟩ := List.isEmpty_eq_false_iff_exists_mem.mp some
  have ordered := h.canonical.1 r hr
  have within := h.within r hr
  refine ⟨r.lo, by omega, by omega, ?_⟩
  rw [h.contains_iff]
  exact ⟨r, hr, Int.le_refl _, ordered⟩

/-- A set with every character is the universe. -/
theorem Proper.isUniverse_of_contains {s : Set} (h : s.Proper)
    (every : ∀ c : Int, 0 ≤ c → c ≤ 0x10FFFF → s.contains c = true) : s.isUniverse = true := by
  have same : s = ⟨[⟨0, maxCodePoint⟩]⟩ := h.ext proper_universe fun c low high => by
    rw [every c low high, contains_universe low high]
  rw [same]
  rfl

end CodePoint.Set

namespace Requirement

variable {g o i : Requirement}

/-! ## 2. Forms that hide nothing

A form can be empty without showing it in two ways only: a category that is not written out, or
everything negated. -/

/-- All is written out, and what is negated is not everything. -/
structure IsNormal (g : Requirement) : Prop where
  proper : g.Proper
  categories : g.categories = []
  negated : g.negated = true → g.ranges.isUniverse = false

theorem isNormal_empty : empty.IsNormal := ⟨proper_empty, rfl, nofun⟩

theorem isNormal_ofSet {s : CodePoint.Set} (h : s.Proper) : IsNormal ⟨false, s, []⟩ :=
  ⟨proper_ofSet h false, rfl, nofun⟩

/-- **A form that hides nothing is that of the empty requirement only if nothing satisfies it.** -/
theorem IsNormal.isEmpty_iff (h : g.IsNormal) :
    g.isEmpty = true ↔ ∀ c : Int, 0 ≤ c → c ≤ 0x10FFFF → g.contains c = false := by
  refine ⟨fun he c _ _ => contains_of_isEmpty he h.proper c, fun none => ?_⟩
  obtain ⟨negated, s, ks⟩ := g
  obtain rfl : ks = [] := h.categories
  have proper : s.Proper := h.proper.ranges
  simp only [contains_ofSet] at none
  cases negated with
  | true =>
    -- Nothing is left of the characters, so the negated set has them all.
    have every := proper.isUniverse_of_contains fun c low high => by simpa using none c low high
    exact absurd (h.negated rfl) (by simp [every])
  | false =>
    cases he : s.isEmpty with
    | true => simp [isEmpty, he]
    | false =>
      obtain ⟨c, low, high, hc⟩ := proper.exists_contains he
      simpa [hc] using none c low high

/-! ## 3. Intersections

The cases are those of `intersect`.  Each of them gives a form that hides nothing, except that of
equal operands, which are given back as they are. -/

/-- **The intersection of two different requirements hides nothing.**  Of two requirements without
categories the intersection is a requirement without categories, and all others are written
out. -/
theorem isNormal_intersect (hg : g.Proper) (ho : o.Proper) (differ : g ≠ o)
    (hi : g.intersect o = .ok i) : i.IsNormal := by
  unfold intersect at hi
  rw [if_neg differ] at hi
  split at hi
  · obtain rfl := Except.ok.inj hi
    exact isNormal_empty
  split at hi
  · obtain ⟨s, hs, ps, -⟩ := hg.exists_resolve
    obtain ⟨t, ht, pt, -⟩ := ho.exists_resolve
    simp only [combine, hs, ht, Except.ok.injEq] at hi
    exact hi ▸ isNormal_ofSet (CodePoint.Set.proper_intersect ps pt)
  have ps := hg.ranges
  have pt := ho.ranges
  split at hi <;> obtain rfl := Except.ok.inj hi
  · exact isNormal_ofSet (CodePoint.Set.proper_intersect ps pt)
  · exact isNormal_ofSet (CodePoint.Set.proper_subtract pt ps)
  · exact isNormal_ofSet (CodePoint.Set.proper_subtract ps pt)
  · split
    · exact isNormal_empty
    · rename_i some
      exact ⟨proper_ofSet (CodePoint.Set.proper_union ps pt) true, rfl, fun _ => by simpa using some⟩

/-- A requirement is its own intersection with itself, whatever its form. -/
@[simp] theorem intersect_self (g : Requirement) : g.intersect g = .ok g := by
  rw [intersect, if_pos rfl]

/-- **When an intersection is seen to be empty.**  It has to be empty, and a requirement that is
intersected with itself has to be seen to be empty by itself. -/
theorem isEmpty_intersect_iff (hg : g.Proper) (ho : o.Proper) (hi : g.intersect o = .ok i) :
    i.isEmpty = true ↔ (g = o → g.isEmpty = true) ∧
      ∀ c : Int, 0 ≤ c → c ≤ 0x10FFFF → ¬ (g.contains c = true ∧ o.contains c = true) := by
  obtain ⟨j, hj, pj, members⟩ := exists_intersect hg ho
  obtain rfl : j = i := Except.ok.inj (hj.symm.trans hi)
  have none_iff : (∀ c : Int, 0 ≤ c → c ≤ 0x10FFFF → j.contains c = false) ↔
      ∀ c : Int, 0 ≤ c → c ≤ 0x10FFFF → ¬ (g.contains c = true ∧ o.contains c = true) := by
    refine forall_congr' fun c => forall_congr' fun low => forall_congr' fun high => ?_
    rw [members c low high, ← Bool.and_eq_true, Bool.not_eq_true]
  rw [← none_iff]
  by_cases same : g = o
  · subst same
    obtain rfl : g = j := by simpa using hi
    simp only [true_imp_iff]
    exact ⟨fun he => ⟨he, fun c _ _ => contains_of_isEmpty he hg c⟩, And.left⟩
  · rw [(isNormal_intersect hg ho same hi).isEmpty_iff]
    exact ⟨fun none => ⟨fun h => absurd h same, none⟩, And.right⟩

end Requirement

end Backtrack
