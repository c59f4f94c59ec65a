/-
# What folding adds to a set

`CodePoint.orbit` walks along a step until it is back where it started, and `Set.foldWith` adds
what the walks from the members of the small ranges come past.  This file says what that is for
every step that permutes the characters (`Permutes`), and then that simple case folding is such a
step (`Unicode.permutes_simpleFold`).

Folding twice is the same as folding once (`Set.foldWith_foldWith`), and that is not for the
reason one would give first.  The ranges of the result are not those of the set: a variant can
close the gap between two small ranges, and what they melt into may be too wide to be folded
again.  What the second round does fold is small, so it holds no part of a range that the first
round left alone; each of its members was folded or is a variant of a member that was, and either
way its orbit is there already.
-/
import Backtrack.Proofs.Algebra
import Mathlib.Dynamics.PeriodicPts.Defs

namespace Backtrack.CodePoint

/-! ## 1. Steps that permute the characters

The places that a walk comes past cannot all be different.  So two of them are the same, and as no
two characters have the same next one, the walk goes back from there to its start. -/

/-- A step that leads from characters to characters, no two of them to the same one.  There are
finitely many, so it is a permutation, and every walk along it comes back. -/
structure Permutes (step : Nat → Nat) : Prop where
  bounded : ∀ c ≤ 0x10FFFF, step c ≤ 0x10FFFF
  injective : ∀ c ≤ 0x10FFFF, ∀ d ≤ 0x10FFFF, step c = step d → c = d

namespace Permutes

variable {step : Nat → Nat}

theorem iterate_le (h : Permutes step) {c : Nat} (hc : c ≤ 0x10FFFF) :
    ∀ n, step^[n] c ≤ 0x10FFFF
  | 0 => hc
  | n + 1 => by
    rw [Function.iterate_succ_apply']
    exact h.bounded _ (h.iterate_le hc n)

theorem iterate_injective (h : Permutes step) {c d : Nat} (hc : c ≤ 0x10FFFF)
    (hd : d ≤ 0x10FFFF) : ∀ n, step^[n] c = step^[n] d → c = d
  | 0, e => e
  | n + 1, e => by
    rw [Function.iterate_succ_apply', Function.iterate_succ_apply'] at e
    exact h.iterate_injective hc hd n
      (h.injective _ (h.iterate_le hc n) _ (h.iterate_le hd n) e)

/-- A walk among characters is back after as many steps as there are characters, or earlier. -/
theorem exists_return (h : Permutes step) {c : Nat} (hc : c ≤ 0x10FFFF) :
    ∃ n ≤ 0x10FFFF, step^[n + 1] c = c := by
  -- Two places of the walk are the same; what both have behind them is taken away.
  obtain ⟨i, hi, j, hj, hne, heq⟩ := Finset.exists_ne_map_eq_of_card_lt_of_maps_to
    (s := Finset.range 0x110001) (t := Finset.range 0x110000) (f := fun n => step^[n] c)
    (by rw [Finset.card_range, Finset.card_range]; omega)
    fun n _ => Finset.mem_coe.mpr (Finset.mem_range.mpr (Nat.lt_succ_of_le (h.iterate_le hc n)))
  have between : ∀ {i j : Nat}, i < j → j < 0x110001 → step^[i] c = step^[j] c →
      ∃ n ≤ 0x10FFFF, step^[n + 1] c = c := by
    intro i j hij hj heq
    refine ⟨j - i - 1, by omega, (h.iterate_injective hc (h.iterate_le hc _) i ?_).symm⟩
    rw [← Function.iterate_add_apply, heq]
    congr 1
    omega
  rw [Finset.mem_range] at hi hj
  rcases Nat.lt_or_gt_of_ne hne with hij | hij
  · exact between hij hj heq
  · exact between hij hi heq.symm

end Permutes

/-! ## 2. Orbits

An orbit is walked until the walk is back, and the walk needs fuel to be defined at all.  There is
enough for as many steps as there are characters, so the fuel is never what ends it. -/

/-- Walking from `c` comes past `d`. -/
def Leads (step : Nat → Nat) (c d : Nat) : Prop := ∃ n, step^[n] c = d

theorem Leads.trans {step : Nat → Nat} {c d e : Nat} :
    Leads step c d → Leads step d e → Leads step c e := by
  rintro ⟨n, rfl⟩ ⟨m, rfl⟩
  exact ⟨m + n, Function.iterate_add_apply step m n c⟩

/-- With fuel for more than `n` steps, the walk lists the places before it meets `start`. -/
theorem orbitFrom_eq (step : Nat → Nat) (start : Nat) : ∀ (n fuel c : Nat), n < fuel →
    (∀ m < n, step^[m] c ≠ start) → step^[n] c = start →
      orbitFrom step start fuel c = (List.range n).map fun m => step^[m] c
  | 0, fuel + 1, c, _, _, stop => by
    unfold orbitFrom
    rw [if_pos (show c = start from stop), List.range_zero, List.map_nil]
  | n + 1, fuel + 1, c, enough, before, stop => by
    have rest := orbitFrom_eq step start n fuel (step c) (by omega)
      (fun m hm => before (m + 1) (by omega)) stop
    unfold orbitFrom
    rw [if_neg (show c ≠ start from before 0 (by omega)), rest, List.range_succ_eq_map,
      List.map_cons, List.map_map]
    rfl

/-- **The walk ends where it started.**  It stops at the first return, which comes before the fuel
is used up. -/
theorem Permutes.exists_orbit_eq {step : Nat → Nat} (h : Permutes step) {c : Nat}
    (hc : c ≤ 0x10FFFF) :
    ∃ n, step^[n + 1] c = c ∧ (∀ m < n, step^[m + 1] c ≠ c) ∧
      orbit step c = (List.range n).map fun m => step^[m + 1] c := by
  have back := h.exists_return hc
  have back' : ∃ n, step^[n + 1] c = c := back.imp fun _ hn => hn.2
  obtain ⟨n, hn, hreturn⟩ := back
  have first : Nat.find back' ≤ n := Nat.find_min' back' hreturn
  have before : ∀ m < Nat.find back', step^[m + 1] c ≠ c := fun m => Nat.find_min back'
  exact ⟨Nat.find back', Nat.find_spec back', before,
    orbitFrom_eq step c _ _ (step c) (by rw [maxCodePoint]; omega) before (Nat.find_spec back')⟩

/-- **The orbit of a character is what the walk from it reaches**, the character itself left out.
The walk lists the places up to its first return, and from there on it comes past the same places
again. -/
theorem Permutes.mem_orbit_iff {step : Nat → Nat} (h : Permutes step) {c d : Nat}
    (hc : c ≤ 0x10FFFF) : d ∈ orbit step c ↔ d ≠ c ∧ Leads step c d := by
  obtain ⟨n, stop, before, heq⟩ := h.exists_orbit_eq hc
  rw [heq, List.mem_map]
  constructor
  · rintro ⟨m, hm, rfl⟩
    exact ⟨before m (List.mem_range.mp hm), m + 1, rfl⟩
  · rintro ⟨hne, m, rfl⟩
    -- Whole turns lead nowhere, so the place is met during the first one.
    have period : Function.IsPeriodicPt step (n + 1) c := stop
    rw [← period.iterate_mod_apply m] at hne ⊢
    have small := Nat.mod_lt m (Nat.succ_pos n)
    cases hk : m % (n + 1) with
    | zero => exact absurd (by rw [hk]; rfl) hne
    | succ k =>
      rw [hk] at small
      exact ⟨k, List.mem_range.mpr (Nat.lt_of_succ_lt_succ small), rfl⟩

namespace Set

variable {step : Nat → Nat} {s : Set}

/-! ## 3. What is added

Variants are added one range each, and only for members of small ranges.  A variant that is a
member already is not listed. -/

theorem mem_members_iff {r : Range} (low : 0 ≤ r.lo) (high : r.hi ≤ 0x10FFFF) {c : Nat} :
    c ∈ members r ↔ r.lo ≤ c ∧ (c : Int) ≤ r.hi := by
  unfold members
  rw [List.mem_map, maxCodePoint]
  constructor
  · rintro ⟨i, hi, rfl⟩
    have := List.mem_range.mp hi
    omega
  · rintro ⟨hlo, hhi⟩
    exact ⟨c - r.lo.toNat, List.mem_range.mpr (by omega), by omega⟩

/-- Walking from a member of a small range comes past `d`. -/
def Varies (step : Nat → Nat) (s : Set) (d : Nat) : Prop :=
  ∃ r ∈ s.ranges, r.hi - r.lo ≤ 0x400 ∧ ∃ c : Nat, (r.lo ≤ c ∧ (c : Int) ≤ r.hi) ∧ Leads step c d

/-- A variant that is not listed is a member already. -/
theorem mem_variants_or (h : Permutes step) (hs : s.Proper) {d : Nat} :
    Covers s.ranges d ∨ d ∈ variants step s ↔ Covers s.ranges d ∨ Varies step s d := by
  have small : ∀ r ∈ s.ranges, (distance r.lo r.hi ≤ foldLimit ↔ r.hi - r.lo ≤ 0x400) := by
    intro r hr
    have := hs.bounded r hr
    rw [distance_eq (by omega) (by omega)]
    rfl
  unfold variants Varies
  simp only [List.mem_flatMap, List.mem_filter, decide_eq_true_eq]
  constructor
  · rintro (hd | ⟨r, ⟨hr, hsmall⟩, c, hc, hd⟩)
    · exact .inl hd
    · have bound := hs.within r hr
      rw [mem_members_iff bound.1 bound.2] at hc
      exact .inr ⟨r, hr, (small r hr).mp hsmall, c, hc, ((h.mem_orbit_iff (by omega)).mp hd).2⟩
  · rintro (hd | ⟨r, hr, hsmall, c, hc, hd⟩)
    · exact .inl hd
    · have bound := hs.within r hr
      by_cases same : d = c
      · exact .inl ⟨r, hr, same ▸ hc⟩
      · exact .inr ⟨r, ⟨hr, (small r hr).mpr hsmall⟩, c, (mem_members_iff bound.1 bound.2).mpr hc,
          (h.mem_orbit_iff (by omega)).mpr ⟨same, hd⟩⟩

/-- **Folding adds the orbits of the members of small ranges**, and nothing else.  A code point of
the result is a member of the set, or a variant that is listed and becomes a range of its own. -/
theorem covers_foldWith (h : Permutes step) (hs : s.Proper) (d : Nat) :
    Covers (s.foldWith step).ranges d ↔ Covers s.ranges d ∨ Varies step s d := by
  rw [← mem_variants_or h hs]
  unfold foldWith
  split
  · rename_i none
    simp [none]
  · have bounded := bounded_singles (variants_le h.bounded s)
    rw [covers_union hs (proper_ofRanges bounded), covers_ofRanges bounded]
    refine or_congr_right ?_
    constructor
    · rintro ⟨r, hr, hd⟩
      obtain ⟨c, hc, rfl⟩ := List.mem_map.mp hr
      obtain rfl : c = d := Int.ofNat.inj (Int.le_antisymm hd.1 hd.2)
      exact hc
    · exact fun hd => ⟨_, List.mem_map_of_mem hd, Int.le_refl _, Int.le_refl _⟩

/-! ## 4. Folding again

A range of the folded set is small or it is not.  If it is small and meets a range of the first
set, it holds all of that one, which was then small as well, and so its members were folded
before. -/

/-- Two ranges of a canonical set are the same or apart. -/
theorem Proper.eq_or_apart (hs : s.Proper) {q r : Range} (hq : q ∈ s.ranges) (hr : r ∈ s.ranges) :
    q = r ∨ Apart q r ∨ Apart r q := by
  have once : s.ranges.Pairwise fun a b => a = b ∨ Apart a b ∨ Apart b a :=
    hs.canonical.2.imp fun apart => .inr (.inl apart)
  have turned : s.ranges.Pairwise (flip fun a b => a = b ∨ Apart a b ∨ Apart b a) :=
    hs.canonical.2.imp fun apart => .inr (.inr apart)
  exact once.forall_of_forall_of_flip (fun _ _ => .inl rfl) turned hq hr

/-- An interval that a canonical set covers lies in the range that it meets. -/
theorem Proper.le_of_meets (hs : s.Proper) {q r : Range} (hr : r ∈ s.ranges)
    (covered : ∀ c, q.lo ≤ c → c ≤ q.hi → Covers s.ranges c) {c : Int}
    (hqc : q.lo ≤ c ∧ c ≤ q.hi) (hrc : r.lo ≤ c ∧ c ≤ r.hi) : r.lo ≤ q.lo ∧ q.hi ≤ r.hi := by
  -- Right before a range and right after it nothing is covered.
  have gap : ∀ e, Covers s.ranges e → e ≠ r.lo - 1 ∧ e ≠ r.hi + 1 := by
    rintro e ⟨x, hx, hxe⟩
    rcases hs.eq_or_apart hx hr with rfl | apart | apart
    · omega
    · have : x.hi + 1 < r.lo := apart
      omega
    · have : r.hi + 1 < x.lo := apart
      omega
  constructor
  · refine Decidable.byContradiction fun hlt => ?_
    exact (gap _ (covered (r.lo - 1) (by omega) (by omega))).1 rfl
  · refine Decidable.byContradiction fun hlt => ?_
    exact (gap _ (covered (r.hi + 1) (by omega) (by omega))).2 rfl

/-- What varies from the folded set varied before: a small range of the result that meets a range
of the set holds all of it. -/
theorem varies_of_foldWith (h : Permutes step) (hs : s.Proper) {d : Nat}
    (hd : Varies step (s.foldWith step) d) : Varies step s d := by
  obtain ⟨r, hr, small, c, hc, walk⟩ := hd
  rcases (covers_foldWith h hs c).mp ⟨r, hr, hc⟩ with ⟨q, hq, hqc⟩ | ⟨q, hq, hqsmall, e, he, first⟩
  · have inside := (proper_foldWith h.bounded hs).le_of_meets (q := q) hr ?_ hqc hc
    · exact ⟨q, hq, by omega, c, hqc, walk⟩
    · intro x hlo hhi
      have := hs.within q hq
      obtain ⟨n, rfl⟩ := Int.eq_ofNat_of_zero_le (show 0 ≤ x by omega)
      exact (covers_foldWith h hs n).mpr (.inl ⟨q, hq, hlo, hhi⟩)
  · exact ⟨q, hq, hqsmall, e, he, first.trans walk⟩

/-- **Folding again adds nothing.**  Each variant that a second round would add is in the orbit of
a character that was folded in the first one. -/
theorem foldWith_foldWith (h : Permutes step) (hs : s.Proper) :
    (s.foldWith step).foldWith step = s.foldWith step := by
  have once := proper_foldWith h.bounded hs
  refine (proper_foldWith h.bounded once).ext once fun c low high => ?_
  obtain ⟨d, rfl⟩ := Int.eq_ofNat_of_zero_le low
  rw [Bool.eq_iff_iff, (proper_foldWith h.bounded once).contains_iff, once.contains_iff,
    covers_foldWith h once]
  refine or_iff_left_of_imp fun hd => ?_
  exact (covers_foldWith h hs d).mpr (.inr (varies_of_foldWith h hs hd))

end Set

end Backtrack.CodePoint

namespace Backtrack.Unicode

/-! ## 5. Simple case folding permutes the characters

A stride is moved as a whole, so it is enough that no two strides are moved over each other and
that together they end where the strides started.  Both are questions about sets of numbers, here
the bits of one number (`comb`): one shift then moves a stride. -/

/-- The number with `n` bits set, every `gap`-th from the lowest on. -/
def comb (gap : Nat) : Nat → Nat
  | 0 => 0
  | n + 1 => comb gap n <<< gap ||| 1

theorem testBit_comb (gap m : Nat) : ∀ n, (comb gap n).testBit m = true ↔ ∃ i < n, m = i * gap
  | 0 => by simp [comb]
  | n + 1 => by
    rw [comb, Nat.testBit_or, Bool.or_eq_true, Nat.testBit_shiftLeft, Bool.and_eq_true,
      decide_eq_true_eq, testBit_comb gap (m - gap) n, Nat.testBit_one_eq_true_iff_self_eq_zero]
    constructor
    · rintro (⟨hle, i, hi, h⟩ | rfl)
      · exact ⟨i + 1, by omega, by rw [Nat.succ_mul]; omega⟩
      · exact ⟨0, by omega, by omega⟩
    · rintro ⟨i, hi, rfl⟩
      cases i with
      | zero => exact .inr (by omega)
      | succ i =>
        rw [Nat.succ_mul]
        exact .inl ⟨by omega, i, by omega, by omega⟩

/-- The bits that some numbers have between them. -/
def pool (ms : List Nat) : Nat := ms.foldr (· ||| ·) 0

theorem testBit_pool (i : Nat) : ∀ ms : List Nat,
    (pool ms).testBit i = true ↔ ∃ m ∈ ms, m.testBit i = true
  | [] => by simp [pool]
  | m :: ms => by
    have rest := testBit_pool i ms
    unfold pool at rest ⊢
    rw [List.foldr_cons, Nat.testBit_or, Bool.or_eq_true, rest]
    simp

/-- Whether no two of some numbers share a bit, and none of them has a bit of `seen`. -/
def disjointFrom : Nat → List Nat → Bool
  | _, [] => true
  | seen, m :: ms => seen &&& m == 0 && disjointFrom (seen ||| m) ms

theorem testBit_of_land_eq_zero {m n i : Nat} (h : m &&& n = 0) (hm : m.testBit i = true) :
    n.testBit i ≠ true := by
  intro hn
  have := Nat.testBit_and m n i
  rw [h, hm, hn, Nat.zero_testBit] at this
  exact Bool.noConfusion this

theorem pairwise_of_disjointFrom : ∀ {ms : List Nat} {seen : Nat}, disjointFrom seen ms = true →
    (∀ m ∈ ms, ∀ i, seen.testBit i = true → m.testBit i ≠ true) ∧
      ms.Pairwise fun m n => ∀ i, m.testBit i = true → n.testBit i ≠ true
  | [], _, _ => ⟨by simp, List.Pairwise.nil⟩
  | m :: ms, seen, h => by
    simp only [disjointFrom, Bool.and_eq_true, beq_iff_eq] at h
    obtain ⟨later, rest⟩ := pairwise_of_disjointFrom h.2
    have apart : ∀ n ∈ ms, ∀ i, seen.testBit i = true ∨ m.testBit i = true → n.testBit i ≠ true :=
      fun n hn i hi => later n hn i (by rwa [Nat.testBit_or, Bool.or_eq_true])
    refine ⟨fun n hn i hi => ?_, List.pairwise_cons.mpr ⟨fun n hn i hi => ?_, rest⟩⟩
    · rcases List.mem_cons.mp hn with rfl | hn
      · exact testBit_of_land_eq_zero h.1 hi
      · exact apart n hn i (.inl hi)
    · exact apart n hn i (.inr hi)

namespace FoldStride

/-- A bit for every place of the stride, counted from its first one. -/
def places (s : FoldStride) : Nat := comb s.step ((s.hi - s.lo) / s.step + 1)

/-- The code points on the stride. -/
def sources (s : FoldStride) : Nat := s.places <<< s.lo

/-- Their next case variants. -/
def targets (s : FoldStride) : Nat := s.places <<< (s.lo + s.shift).toNat

/-- The stride runs forwards, and it is not moved below zero. -/
def isForward (s : FoldStride) : Bool := s.lo ≤ s.hi && 0 ≤ s.lo + s.shift

theorem contains_iff {s : FoldStride} (h : s.isForward = true) {c : Nat} :
    s.contains c = true ↔ s.sources.testBit c = true := by
  simp only [isForward, Bool.and_eq_true, decide_eq_true_eq] at h
  rw [sources, places, Nat.testBit_shiftLeft, Bool.and_eq_true, decide_eq_true_eq, testBit_comb]
  simp only [contains, Bool.and_eq_true, decide_eq_true_eq, beq_iff_eq]
  constructor
  · rintro ⟨⟨low, high⟩, hmod⟩
    exact ⟨low, (c - s.lo) / s.step, Nat.lt_succ_of_le (Nat.div_le_div_right (by omega)),
      (Nat.div_mul_cancel (Nat.dvd_of_mod_eq_zero hmod)).symm⟩
  · rintro ⟨low, i, hi, heq⟩
    have : i * s.step ≤ s.hi - s.lo :=
      (Nat.mul_le_mul_right _ (Nat.le_of_lt_succ hi)).trans (Nat.div_mul_le_self _ _)
    exact ⟨⟨low, by omega⟩, by rw [heq, Nat.mul_mod_left]⟩

/-- A code point on the stride is moved to one of the targets. -/
theorem testBit_targets {s : FoldStride} (h : s.isForward = true) {c : Nat}
    (hc : s.contains c = true) : s.targets.testBit (c + s.shift).toNat = true := by
  rw [contains_iff h, sources, Nat.testBit_shiftLeft, Bool.and_eq_true, decide_eq_true_eq] at hc
  simp only [isForward, Bool.and_eq_true, decide_eq_true_eq] at h
  rw [targets, Nat.testBit_shiftLeft, Bool.and_eq_true, decide_eq_true_eq]
  refine ⟨by omega, ?_⟩
  rw [show (c + s.shift).toNat - (s.lo + s.shift).toNat = c - s.lo by omega]
  exact hc.2

end FoldStride

/-- The strides of the table run forwards, no two of them are moved to a common place, and together
they are moved to the places where they are. -/
theorem foldStrides_permute :
    foldStrides.all (·.isForward) = true ∧
      disjointFrom 0 (foldStrides.map FoldStride.targets) = true ∧
      pool (foldStrides.map FoldStride.targets) = pool (foldStrides.map FoldStride.sources) := by
  decide +kernel

/-- A code point is on a stride, and moved along with it, or it is not moved. -/
theorem simpleFold_cases (c : Nat) :
    (∃ s ∈ foldStrides, s.isForward = true ∧ s.contains c = true ∧
      simpleFold c = (c + s.shift).toNat) ∨
    ((∀ s ∈ foldStrides, s.contains c ≠ true) ∧ simpleFold c = c) := by
  unfold simpleFold
  split
  · rename_i s hs
    have mem := List.mem_of_find?_eq_some hs
    exact .inl ⟨s, mem, List.all_eq_true.mp foldStrides_permute.1 s mem,
      List.find?_some (p := fun s : FoldStride => s.contains c) hs, rfl⟩
  · rename_i none
    exact .inr ⟨List.find?_eq_none.mp none, rfl⟩

/-- What a stride is moved to is on a stride. -/
theorem exists_contains_target {s : FoldStride} (hs : s ∈ foldStrides) {d : Nat}
    (hd : s.targets.testBit d = true) : ∃ t ∈ foldStrides, t.contains d = true := by
  have listed := (testBit_pool d _).mpr ⟨_, List.mem_map_of_mem hs, hd⟩
  rw [foldStrides_permute.2.2, testBit_pool] at listed
  obtain ⟨m, hm, hbit⟩ := listed
  obtain ⟨t, ht, rfl⟩ := List.mem_map.mp hm
  exact ⟨t, ht, (FoldStride.contains_iff (List.all_eq_true.mp foldStrides_permute.1 t ht)).mpr hbit⟩

/-- Strides that are moved to a common place are the same. -/
theorem eq_of_common_target {s t : FoldStride} (hs : s ∈ foldStrides) (ht : t ∈ foldStrides)
    {d : Nat} (hsd : s.targets.testBit d = true) (htd : t.targets.testBit d = true) : s = t := by
  have apart := List.pairwise_map.mp (pairwise_of_disjointFrom foldStrides_permute.2.1).2
  have once : foldStrides.Pairwise fun s t =>
      s.targets.testBit d = true → t.targets.testBit d = true → s = t :=
    apart.imp fun h hs ht => absurd ht (h d hs)
  have turned : foldStrides.Pairwise (flip fun s t =>
      s.targets.testBit d = true → t.targets.testBit d = true → s = t) :=
    apart.imp fun h ht hs => absurd ht (h d hs)
  exact once.forall_of_forall_of_flip (fun _ _ _ _ => rfl) turned hs ht hsd htd

/-- **Simple case folding permutes the characters.**  That no two code points are moved to one
place is known of strides of the table, and a code point that is on no stride stays where no
stride leads. -/
theorem permutes_simpleFold : CodePoint.Permutes simpleFold where
  bounded _ := simpleFold_le
  injective c _ d _ heq := by
    rcases simpleFold_cases c with ⟨s, hs, fs, hc, ec⟩ | ⟨nc, ec⟩ <;>
      rcases simpleFold_cases d with ⟨t, ht, ft, hd, ed⟩ | ⟨nd, ed⟩
    · have tc := FoldStride.testBit_targets fs hc
      have td := FoldStride.testBit_targets ft hd
      rw [← ec, heq] at tc
      rw [← ed] at td
      obtain rfl := eq_of_common_target hs ht tc td
      simp only [FoldStride.isForward, FoldStride.contains, Bool.and_eq_true,
        decide_eq_true_eq] at fs hc hd
      omega
    · have tc := FoldStride.testBit_targets fs hc
      rw [← ec, heq, ed] at tc
      obtain ⟨t, ht, hd⟩ := exists_contains_target hs tc
      exact absurd hd (nd t ht)
    · have td := FoldStride.testBit_targets ft hd
      rw [← ed, ← heq, ec] at td
      obtain ⟨s, hs, hc⟩ := exists_contains_target ht td
      exact absurd hc (nc s hs)
    · rw [← ec, heq, ed]

end Backtrack.Unicode

namespace Backtrack.CodePoint.Set

/-! ## 6. Folding as a closure -/

theorem fold_fold {s : Set} (hs : s.Proper) : s.fold.fold = s.fold :=
  foldWith_foldWith Unicode.permutes_simpleFold hs

/-- **Folding is an idempotent closure.**  Along a step that permutes the characters every walk
comes back to its start, and the orbit of a character is what lies on the way.  The folded set is
canonical, has all members of the set, and beyond them exactly the characters that a walk from a
member of a range of at most `0x400` steps reaches; and folding it again changes nothing. -/
theorem foldWith_isClosure {step : Nat → Nat} (h : Permutes step) {s : Set} (hs : s.Proper) :
    (∀ c ≤ 0x10FFFF, ∃ n, step^[n + 1] c = c ∧ (∀ m < n, step^[m + 1] c ≠ c) ∧
      orbit step c = (List.range n).map fun m => step^[m + 1] c) ∧
    (s.foldWith step).Proper ∧
    (∀ c, s.contains c = true → (s.foldWith step).contains c = true) ∧
    (∀ c : Nat, s.contains c = false → ((s.foldWith step).contains c = true ↔
      ∃ r ∈ s.ranges, r.hi - r.lo ≤ 0x400 ∧
        ∃ m : Nat, (r.lo ≤ m ∧ (m : Int) ≤ r.hi) ∧ ∃ n, step^[n] m = c)) ∧
    (s.foldWith step).foldWith step = s.foldWith step := by
  have proper := proper_foldWith h.bounded hs
  refine ⟨fun c hc => h.exists_orbit_eq hc, proper, ?_, ?_, foldWith_foldWith h hs⟩
  · intro c hc
    rw [hs.contains_iff] at hc
    obtain ⟨r, hr, hrc⟩ := hc
    have := hs.within r hr
    obtain ⟨d, rfl⟩ := Int.eq_ofNat_of_zero_le (show 0 ≤ c by omega)
    rw [proper.contains_iff, covers_foldWith h hs]
    exact .inl ⟨r, hr, hrc⟩
  · intro c outside
    rw [← Bool.not_eq_true, hs.contains_iff] at outside
    rw [proper.contains_iff, covers_foldWith h hs, or_iff_right outside]
    exact Iff.rfl

/-- `[K\u0100-\u0900]` has the Kelvin sign after folding, two steps from the letter.  The wide range
is left alone. -/
theorem foldWith_isClosure_of_kelvin :
    Permutes Unicode.simpleFold ∧ Proper ⟨[⟨0x4B, 0x4B⟩, ⟨0x100, 0x900⟩]⟩ ∧
      (fold ⟨[⟨0x4B, 0x4B⟩, ⟨0x100, 0x900⟩]⟩).contains 0x212A = true ∧
      (fold ⟨[⟨0x4B, 0x4B⟩, ⟨0x100, 0x900⟩]⟩).fold = fold ⟨[⟨0x4B, 0x4B⟩, ⟨0x100, 0x900⟩]⟩ := by
  have proper : Proper ⟨[⟨0x4B, 0x4B⟩, ⟨0x100, 0x900⟩]⟩ :=
    ⟨⟨by decide, by decide⟩, by simp [Within]⟩
  obtain ⟨-, -, -, added, again⟩ := foldWith_isClosure Unicode.permutes_simpleFold proper
  refine ⟨Unicode.permutes_simpleFold, proper, (added 0x212A ?_).mpr ?_, again⟩
  · rw [← Bool.not_eq_true, proper.contains_iff]
    simp
  · exact ⟨⟨0x4B, 0x4B⟩, by simp, by decide, 0x4B, by decide, 2, by decide +kernel⟩

end Backtrack.CodePoint.Set
