/-
# Sets that are put together

A set is seldom written down at once: ranges are collected, and the sets they make are united,
intersected, cut out of one another and turned around.  A `Combination` says how a set came about,
and its value can be read in three ways.

* `Combination.set` is the set itself, by the operations of `Set`.
* `Combination.holds` asks the ranges it was made from, one code point at a time.
* `Combination.set?` is the set again, by operations that stop at the first sum or difference of ends
  that does not fit into 32 bits.  Where they do not stop, no sum wraps.

For characters the three agree, whatever the order of the ranges, their overlaps, and their
inversions (`Combination.set_denotes`).
-/
import Backtrack.Proofs.Algebra

namespace Backtrack.CodePoint

/-! ## 1. Operations that stop where a sum does not fit

Integers do not wrap, numbers of 32 bits do.  Each operation is written once more with every sum
and difference checked, and it stops at the first one that does not fit. -/

/-- A sum or difference of ends, unless it does not fit. -/
def fitting (n : Int) : Option Int := if wrap n = n then some n else none

theorem fitting_eq_some {n : Int} (least : -2147483648 ≤ n) (greatest : n ≤ 2147483647) :
    fitting n = some n :=
  if_pos (wrap_eq_self least greatest)

namespace Set

/-- The difference that tells which of two ranges comes first. -/
def difference? (r s : Range) : Option Int :=
  if r.lo = s.lo then fitting (r.hi - s.hi) else fitting (r.lo - s.lo)

/-- The ranges in increasing order.  Any two of them may be compared on the way. -/
def sorted? (ranges : List Range) : Option (List Range) :=
  if ∀ r ∈ ranges, ∀ s ∈ ranges, (difference? r s).isSome then some (sorted ranges) else none

/-- Melts sorted ranges into `current` for as long as they touch it. -/
def melt? (current : Range) : List Range → Option (List Range)
  | [] => some [current]
  | r :: rest => do
    let beyond ← fitting (current.hi + 1)
    if r.lo ≤ beyond then melt? ⟨current.lo, max current.hi r.hi⟩ rest
    else return current :: (← melt? r rest)

/-- The set of all code points that lie in one of `ranges`. -/
def ofRanges? (ranges : List Range) : Option Set := do
  match (← sorted? ranges).filter (!·.isInverted) with
  | [] => return empty
  | r :: rest => return ⟨← melt? r rest⟩

/-- The members of either set. -/
def union? (s o : Set) : Option Set :=
  if o.isEmpty then some s else if s.isEmpty then some o else ofRanges? (s.ranges ++ o.ranges)

/-- What `r` keeps before `o`. -/
def before? (r o : Range) : Option (List Range) :=
  if r.lo < o.lo then do return [⟨r.lo, ← fitting (o.lo - 1)⟩] else some []

/-- What `r` keeps once increasing ranges are cut out of it. -/
def cut? (r : Range) : List Range → Option (List Range)
  | [] => some (proper r)
  | o :: os =>
    if r.hi < o.lo then some (proper r)
    else if r.hi ≤ o.hi then do
      return (← before? r o) ++ proper ⟨← fitting (r.hi + 1), r.hi⟩
    else do
      return (← before? r o) ++ (← cut? ⟨← fitting (o.hi + 1), r.hi⟩ os)

/-- What an increasing list keeps once another one is cut out of it. -/
def remains? : List Range → List Range → Option (List Range)
  | [], _ => some []
  | r :: rs, os => do
    let near := os.dropWhile (·.hi < r.lo)
    return (← cut? r near) ++ (← remains? rs near)

/-- The members of `s` that are not in `o`. -/
def subtract? (s o : Set) : Option Set := do return ⟨← remains? s.ranges o.ranges⟩

/-! ## 2. They do not stop among characters

The ends are characters, and what is computed from them is off by one at most, or the difference
of two ends. -/

theorem sorted?_eq {rs : List Range} (h : Bounded rs) : sorted? rs = some (sorted rs) := by
  refine if_pos fun r hr s hs => ?_
  have hr := h r hr
  have hs := h s hs
  unfold difference?
  split
  · rw [fitting_eq_some (by omega) (by omega)]
    rfl
  · rw [fitting_eq_some (by omega) (by omega)]
    rfl

theorem melt?_eq {current : Range} {rest : List Range} (h : Meltable current rest) :
    melt? current rest = some (melt current rest) := by
  fun_induction melt current rest with
  | case1 => rfl
  | case2 c r rest touch ih =>
    have proper := h.proper c List.mem_cons_self
    have within := h.within c List.mem_cons_self
    rw [next_eq (by omega) (by omega)] at touch
    rw [melt?, fitting_eq_some (by omega) (by omega)]
    simpa [touch] using ih h.join
  | case3 c r rest apart ih =>
    have proper := h.proper c List.mem_cons_self
    have within := h.within c List.mem_cons_self
    rw [next_eq (by omega) (by omega)] at apart
    rw [melt?, fitting_eq_some (by omega) (by omega)]
    simp [apart, ih h.tail]

theorem ofRanges?_eq {rs : List Range} (h : Bounded rs) : ofRanges? rs = some (ofRanges rs) := by
  unfold ofRanges? ofRanges
  rw [sorted?_eq h, Option.bind_eq_bind, Option.bind_some]
  cases hs : (sorted rs).filter (!·.isInverted) with
  | nil => rfl
  | cons r rest =>
    dsimp only
    rw [melt?_eq (meltable_of_sorted h hs)]
    rfl

theorem union?_eq {s o : Set} (hs : s.Proper) (ho : o.Proper) :
    union? s o = some (s.union o) := by
  unfold union? union
  split
  · rfl
  · split
    · rfl
    · exact ofRanges?_eq (hs.bounded_append ho)

theorem before?_eq {r o : Range} (low : 0 ≤ o.lo) (high : o.lo ≤ 0x10FFFF) :
    before? r o = some (if r.lo < o.lo then [⟨r.lo, o.lo - 1⟩] else []) := by
  unfold before?
  rw [fitting_eq_some (by omega) (by omega)]
  split <;> rfl

theorem cut?_eq : ∀ (r : Range) (os : List Range), r.hi ≤ 0x10FFFF → (∀ o ∈ os, o.lo ≤ o.hi) →
    Within os → cut? r os = some (cut r os)
  | r, [], _, _, _ => rfl
  | r, o :: os, high, po, wo => by
    have proper := po o List.mem_cons_self
    have within := wo o List.mem_cons_self
    unfold cut? cut
    split
    · rfl
    rw [before?_eq (by omega) (by omega)]
    by_cases last : r.hi ≤ o.hi
    · rw [if_pos last, if_pos last, fitting_eq_some (by omega) (by omega),
        next_eq (by omega) (by omega)]
      rfl
    · have rest := cut?_eq ⟨o.hi + 1, r.hi⟩ os high (fun b hb => po b (List.mem_cons_of_mem _ hb))
        fun b hb => wo b (List.mem_cons_of_mem _ hb)
      rw [if_neg last, if_neg last, fitting_eq_some (by omega) (by omega)]
      simp [rest]

theorem remains?_eq : ∀ (rs os : List Range), Within rs → (∀ o ∈ os, o.lo ≤ o.hi) → Within os →
    remains? rs os = some (remains rs os)
  | [], _, _, _, _ => rfl
  | r :: rs, os, wr, po, wo => by
    have sub : ∀ o ∈ os.dropWhile (·.hi < r.lo), o ∈ os :=
      fun o ho => (List.dropWhile_suffix _).subset ho
    have po' := fun o ho => po o (sub o ho)
    have wo' : Within (os.dropWhile (·.hi < r.lo)) := fun o ho => wo o (sub o ho)
    have first := cut?_eq r _ (wr r List.mem_cons_self).2 po' wo'
    have rest := remains?_eq rs _ (fun s hs => wr s (List.mem_cons_of_mem _ hs)) po' wo'
    simp [remains?, remains, first, rest]

theorem subtract?_eq {s o : Set} (hs : s.Proper) (ho : o.Proper) :
    subtract? s o = some (s.subtract o) := by
  unfold subtract? subtract
  rw [remains?_eq _ _ hs.within ho.canonical.1 ho.within]
  rfl

end Set

/-! ## 3. Combinations

A combination is a tree of operations, and what is known of each operation is put together along
it.  Members are looked up in the ranges at its leaves. -/

/-- How a set is put together. -/
inductive Combination where
  | ofRanges (rs : List Range)
  | union (a b : Combination)
  | intersect (a b : Combination)
  | subtract (a b : Combination)
  | complement (a : Combination)
deriving Repr, DecidableEq

namespace Combination

/-- The set that is put together. -/
def set : Combination → Set
  | ofRanges rs => Set.ofRanges rs
  | union a b => a.set.union b.set
  | intersect a b => a.set.intersect b.set
  | subtract a b => a.set.subtract b.set
  | complement a => a.set.complement

/-- The set that is put together, unless a sum of ends does not fit.  Intersecting needs no sums. -/
def set? : Combination → Option Set
  | ofRanges rs => Set.ofRanges? rs
  | union a b => do Set.union? (← a.set?) (← b.set?)
  | intersect a b => do return (← a.set?).intersect (← b.set?)
  | subtract a b => do Set.subtract? (← a.set?) (← b.set?)
  | complement a => do Set.subtract? ⟨[⟨0, maxCodePoint⟩]⟩ (← a.set?)

/-- Whether a character belongs to the combination, by the ranges it is made from. -/
def holds : Combination → Int → Bool
  | ofRanges rs, c => rs.any (·.contains c)
  | union a b, c => a.holds c || b.holds c
  | intersect a b, c => a.holds c && b.holds c
  | subtract a b, c => a.holds c && !b.holds c
  | complement a, c => !a.holds c

/-- All ends it is made from are characters.  Ranges may be inverted. -/
def Bounded : Combination → Prop
  | ofRanges rs => CodePoint.Bounded rs
  | union a b => a.Bounded ∧ b.Bounded
  | intersect a b => a.Bounded ∧ b.Bounded
  | subtract a b => a.Bounded ∧ b.Bounded
  | complement a => a.Bounded

theorem proper_set : ∀ {e : Combination}, e.Bounded → e.set.Proper
  | ofRanges _, h => Set.proper_ofRanges h
  | union _ _, h => Set.proper_union (proper_set h.1) (proper_set h.2)
  | intersect _ _, h => Set.proper_intersect (proper_set h.1) (proper_set h.2)
  | subtract _ _, h => Set.proper_subtract (proper_set h.1) (proper_set h.2)
  | complement a, h => Set.proper_complement (proper_set (e := a) h)

theorem contains_ofRanges {rs : List Range} (h : CodePoint.Bounded rs) (c : Int) :
    (Set.ofRanges rs).contains c = rs.any (·.contains c) := by
  rw [Bool.eq_iff_iff, (Set.proper_ofRanges h).contains_iff, Set.covers_ofRanges h]
  simp [Covers, Range.contains]

theorem contains_set {c : Int} (low : 0 ≤ c) (high : c ≤ 0x10FFFF) :
    ∀ {e : Combination}, e.Bounded → e.set.contains c = e.holds c
  | ofRanges _, h => contains_ofRanges h c
  | union _ _, h => by
    rw [set, Set.contains_union (proper_set h.1) (proper_set h.2), contains_set low high h.1,
      contains_set low high h.2, holds]
  | intersect _ _, h => by
    rw [set, Set.contains_intersect (proper_set h.1) (proper_set h.2), contains_set low high h.1,
      contains_set low high h.2, holds]
  | subtract _ _, h => by
    rw [set, Set.contains_subtract (proper_set h.1) (proper_set h.2), contains_set low high h.1,
      contains_set low high h.2, holds]
  | complement a, h => by
    rw [set, Set.contains_complement (proper_set (e := a) h) low high,
      contains_set low high (e := a) h, holds]

theorem set?_eq : ∀ {e : Combination}, e.Bounded → e.set? = some e.set
  | ofRanges _, h => Set.ofRanges?_eq h
  | union _ _, h => by
    rw [set?, set?_eq h.1, set?_eq h.2]
    exact Set.union?_eq (proper_set h.1) (proper_set h.2)
  | intersect _ _, h => by
    rw [set?, set?_eq h.1, set?_eq h.2]
    rfl
  | subtract _ _, h => by
    rw [set?, set?_eq h.1, set?_eq h.2]
    exact Set.subtract?_eq (proper_set h.1) (proper_set h.2)
  | complement a, h => by
    rw [set?, set?_eq (e := a) h]
    exact Set.subtract?_eq Set.proper_universe (proper_set (e := a) h)

/-- **A set that is put together from ranges of characters** is in canonical form, with characters
for its ends; looking a character up in it answers what the ranges say; it is equal to another one
exactly if the two have the same characters; and no sum of ends wraps on the way. -/
theorem set_denotes (e : Combination) (h : e.Bounded) :
    e.set.Canonical ∧ Within e.set.ranges ∧
      (∀ c : Int, 0 ≤ c → c ≤ 0x10FFFF → e.set.contains c = e.holds c) ∧
      (∀ o : Combination, o.Bounded → (e.set = o.set ↔
        ∀ c : Int, 0 ≤ c → c ≤ 0x10FFFF → e.set.contains c = o.set.contains c)) ∧
      e.set? = some e.set := by
  have proper := proper_set h
  refine ⟨proper.canonical, proper.within, fun c low high => contains_set low high h, ?_,
    set?_eq h⟩
  intro o ho
  constructor
  · intro equal c _ _
    rw [equal]
  · exact proper.ext (proper_set ho)

/-- Everything but `b` to `d`, put together from ranges that touch, overlap and are inverted, up to
both ends of the characters. -/
theorem set_denotes_of_touching :
    let e := complement (subtract
      (ofRanges [⟨0x64, 0x65⟩, ⟨0x41, 0x40⟩, ⟨0x62, 0x63⟩, ⟨0x10FFFF, 0x10FFFF⟩, ⟨0x62, 0x64⟩])
      (union (ofRanges [⟨0x65, 0x65⟩]) (ofRanges [⟨0x10FFFF, 0x10FFFF⟩, ⟨0, 0⟩])))
    e.Bounded ∧ e.set = ⟨[⟨0, 0x61⟩, ⟨0x65, 0x10FFFF⟩]⟩ ∧ e.set.Canonical ∧
      e.holds 0x63 = false ∧ e.set.contains 0x63 = e.holds 0x63 ∧ e.set? = some e.set := by
  intro e
  have bounded : e.Bounded := by
    simp [e, Bounded, CodePoint.Bounded]
  obtain ⟨canonical, -, members, -, fits⟩ := set_denotes e bounded
  exact ⟨bounded, by decide, canonical, by decide, members 0x63 (by decide) (by decide), fits⟩

end Combination

end Backtrack.CodePoint
