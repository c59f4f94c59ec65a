/-
# A property looked up and written out

A table answers for a single code point on its strides, and gives its set to those who combine
sets.  `Table.contains_set` says that the two agree on every character, for every table that a
property name can resolve to.

That is a fact about the data as much as about the code: a stride without a step, or one that
runs backwards, would be read differently by the two.  `Table.isSound` rules such strides out,
and `isSound_of_lookup?` checks the tables of all names.  The same is done for case folding: no
stride leads from a character to something else (`simpleFold_le`).
-/
import Backtrack.Proofs.CodePoint.Members
import Backtrack.CodePoint.Folding
import Backtrack.Unicode.Property

namespace Backtrack.Unicode

open CodePoint (Range Covers Bounded)

/-! ## 1. One stride

A stride with step one is a range, and any other is a list of single code points. -/

/-- The stride moves on, runs forwards and stays among the characters. -/
def Stride.isSound (s : Stride) : Bool := 1 ≤ s.step && s.lo ≤ s.hi && s.hi ≤ maxCodePoint

theorem Stride.isSound_iff (s : Stride) :
    s.isSound = true ↔ 1 ≤ s.step ∧ s.lo ≤ s.hi ∧ s.hi ≤ 0x10FFFF := by
  simp only [isSound, Bool.and_eq_true, decide_eq_true_eq, and_assoc]
  rw [maxCodePoint]

theorem Stride.bounded_ranges {s : Stride} (h : s.isSound = true) : Bounded s.ranges := by
  obtain ⟨-, h2, h3⟩ := s.isSound_iff.mp h
  intro r hr
  unfold ranges at hr
  split at hr
  · rw [List.mem_singleton.mp hr]
    simp only
    omega
  · obtain ⟨i, hi, rfl⟩ := List.mem_map.mp hr
    have hi := List.mem_range.mp hi
    have : i * s.step ≤ s.hi - s.lo :=
      Nat.le_trans (Nat.mul_le_mul_right _ (Nat.le_of_lt_succ hi)) (Nat.div_mul_le_self _ _)
    simp only [CodePoint.Range.single]
    omega

/-- **The ranges of a stride cover exactly the code points on it.** -/
theorem Stride.covers_ranges {s : Stride} (h : s.isSound = true) (c : Int) :
    Covers s.ranges c ↔ 0 ≤ c ∧ s.contains c.toNat = true := by
  obtain ⟨h1, h2, -⟩ := s.isSound_iff.mp h
  simp only [contains, Bool.and_eq_true, decide_eq_true_eq, beq_iff_eq]
  unfold ranges
  split
  · have hstep : s.step = 1 := by omega
    simp only [CodePoint.covers_cons, CodePoint.covers_nil, or_false, hstep, Nat.mod_one]
    constructor
    · intro hc
      exact ⟨by omega, by omega, trivial⟩
    · rintro ⟨h0, hc, -⟩
      omega
  · constructor
    · rintro ⟨r, hr, hrc⟩
      obtain ⟨i, hi, rfl⟩ := List.mem_map.mp hr
      have hi := List.mem_range.mp hi
      have hle : i * s.step ≤ s.hi - s.lo :=
        Nat.le_trans (Nat.mul_le_mul_right _ (Nat.le_of_lt_succ hi)) (Nat.div_mul_le_self _ _)
      simp only [CodePoint.Range.single] at hrc
      have hc : c.toNat = s.lo + i * s.step := by omega
      refine ⟨by omega, by omega, ?_⟩
      rw [hc, Nat.add_sub_cancel_left, Nat.mul_mod_left]
    · rintro ⟨hc, ⟨hlo, hhi⟩, hmod⟩
      have hdiv : (c.toNat - s.lo) / s.step * s.step = c.toNat - s.lo :=
        Nat.div_mul_cancel (Nat.dvd_of_mod_eq_zero hmod)
      refine ⟨_, List.mem_map.mpr ⟨(c.toNat - s.lo) / s.step, ?_, rfl⟩, ?_⟩
      · exact List.mem_range.mpr (Nat.lt_succ_of_le (Nat.div_le_div_right (by omega)))
      · simp only [CodePoint.Range.single]
        omega

/-! ## 2. A table -/

/-- All strides of the table are sound. -/
def Table.isSound (t : Table) : Bool := t.strides.all (·.isSound)

theorem bounded_flatMap_ranges {strides : List Stride} (h : strides.all (·.isSound) = true) :
    Bounded (strides.flatMap Stride.ranges) := by
  intro r hr
  obtain ⟨s, hs, hr⟩ := List.mem_flatMap.mp hr
  exact Stride.bounded_ranges (List.all_eq_true.mp h s hs) r hr

theorem Table.proper_set {t : Table} (h : t.isSound = true) : t.set.Proper := by
  rw [t.set_eq]
  exact CodePoint.Set.proper_ofRanges (bounded_flatMap_ranges h)

/-- **A table and its set have the same members.**  One is asked stride by stride, and the other
one is looked up in what the strides cover. -/
theorem Table.contains_set {t : Table} (h : t.isSound = true) (c : Int) :
    t.set.contains c = t.contains c := by
  rw [Bool.eq_iff_iff, (proper_set h).contains_iff, t.set_eq, setOfStrides,
    CodePoint.Set.covers_ofRanges (bounded_flatMap_ranges h)]
  simp only [contains, Bool.and_eq_true, decide_eq_true_eq, List.any_eq_true]
  constructor
  · rintro ⟨r, hr, hrc⟩
    obtain ⟨s, hs, hr⟩ := List.mem_flatMap.mp hr
    obtain ⟨h0, hc⟩ := (Stride.covers_ranges (List.all_eq_true.mp h s hs) c).mp ⟨r, hr, hrc⟩
    exact ⟨h0, s, hs, hc⟩
  · rintro ⟨h0, s, hs, hc⟩
    obtain ⟨r, hr, hrc⟩ := (Stride.covers_ranges (List.all_eq_true.mp h s hs) c).mpr ⟨h0, hc⟩
    exact ⟨r, List.mem_flatMap.mpr ⟨s, hs, hr⟩, hrc⟩

/-! ## 3. The tables behind the names

That all tables are sound is checked once, family by family.  A name that resolves has its table
from one of the families, or it is one of the few that are in none. -/

/-- All tables of the family are sound. -/
def areSound (family : List (String × Table)) : Bool := family.all (·.2.isSound)

theorem areSound_families :
    areSound categories = true ∧ areSound scripts = true ∧ areSound binaryProperties = true := by
  decide +kernel

theorem isSound_of_lookup {family : List (String × Table)} (h : areSound family = true)
    {name : String} {t : Table} (ht : family.lookup name = some t) : t.isSound = true := by
  obtain ⟨before, after, hfamily, -⟩ := List.lookup_eq_some_iff.mp ht
  exact List.all_eq_true.mp h (name, t) (by simp [hfamily])

theorem isSound_of_category? {name : String} {t : Table} (h : category? name = some t) :
    t.isSound = true := by
  unfold category? at h
  split at h
  · rename_i u hu
    obtain rfl := Option.some.inj h
    exact isSound_of_lookup areSound_families.1 hu
  · obtain ⟨short, -, hu⟩ := Option.bind_eq_some_iff.mp h
    exact isSound_of_lookup areSound_families.1 hu

theorem isSound_of_plain? {name : String} {t : Table} (h : plain? name = some t) :
    t.isSound = true := by
  unfold plain? at h
  split at h
  · rename_i u hu
    obtain rfl := Option.some.inj h
    exact isSound_of_category? hu
  · split at h
    · rename_i u hu
      obtain rfl := Option.some.inj h
      exact isSound_of_lookup areSound_families.2.1 hu
    · split at h
      · obtain rfl := Option.some.inj h
        decide
      · split at h
        · obtain rfl := Option.some.inj h
          decide
        · exact isSound_of_lookup areSound_families.2.2 h

/-- **Every property name that resolves, resolves to a sound table.**  All tables are checked, one
family after the other. -/
theorem isSound_of_lookup? {name : String} {t : Table} (h : lookup? name = some t) :
    t.isSound = true := by
  unfold lookup? at h
  split at h
  · exact isSound_of_plain? h
  · unfold qualified? at h
    split at h
    · exact isSound_of_category? h
    · split at h
      · exact isSound_of_lookup areSound_families.2.1 h
      · simp at h

/-! ## 4. Case folding -/

/-- The stride ends among the characters, before and after the shift. -/
def FoldStride.isSound (s : FoldStride) : Bool :=
  s.hi ≤ maxCodePoint && (s.hi : Int) + s.shift ≤ maxCodePoint

theorem isSound_foldStrides : foldStrides.all (·.isSound) = true := by decide +kernel

/-- Case variants of characters are characters. -/
theorem simpleFold_le {c : Nat} (h : c ≤ 0x10FFFF) : simpleFold c ≤ 0x10FFFF := by
  unfold simpleFold
  split
  · rename_i s hs
    have hc := List.find?_some hs
    have hsound := List.all_eq_true.mp isSound_foldStrides s (List.mem_of_find?_eq_some hs)
    simp only [FoldStride.contains, Bool.and_eq_true, decide_eq_true_eq] at hc
    simp only [FoldStride.isSound, Bool.and_eq_true, decide_eq_true_eq] at hsound
    rw [maxCodePoint] at hsound
    omega
  · exact h

end Backtrack.Unicode
