/-
# What a requirement accepts, under its operations

A requirement is kept in a form that is seldom written out, and every operation picks the
cheapest way through a handful of cases.  This file says that all of those ways mean the same:
`exists_intersect` for what two leaves both accept, `exists_union` for what a class adds up.

As for sets, nothing holds of arbitrary data.  `Requirement.Proper` asks that the ranges are a
canonical set of characters and that every category has a table; then writing out cannot fail,
so each operation is stated to return, together with what it returns.

The last section goes back to the leaves of a pattern: what `Shape.IsSound` asks of a leaf is
enough for its requirement to exist and to be proper (`Shape.exists_requirement`), and for a class
the requirement is the sum of the parts (`CharClass.exists_requirement`).
-/
import Backtrack.Pattern.Compile
import Backtrack.Proofs.Unicode.Tables

namespace Backtrack

open CodePoint (Range Bounded Within)

/-! ## 1. Categories

A category is a name and a sign until it is written out.  Writing it out can fail only because the
name has no table. -/

/-- The name of the category has a table. -/
def Category.IsKnown (k : Category) : Prop := (Unicode.lookup? k.name).isSome = true

/-- Writing out a known category gives a proper set with the members of the category. -/
theorem Category.exists_resolve {k : Category} (h : k.IsKnown) :
    ∃ s, k.resolve = .ok s ∧ s.Proper ∧
      ∀ c : Int, 0 ≤ c → c ≤ 0x10FFFF → s.contains c = k.contains c := by
  obtain ⟨t, ht⟩ := Option.isSome_iff_exists.mp h
  have sound := Unicode.isSound_of_lookup? ht
  have proper := Unicode.Table.proper_set sound
  cases hn : k.negated with
  | false =>
    refine ⟨t.set, by simp [resolve, ht, hn], proper, ?_⟩
    intro c _ _
    simp [contains, ht, hn, Unicode.Table.contains_set sound]
  | true =>
    refine ⟨t.set.complement, by simp [resolve, ht, hn],
      CodePoint.Set.proper_complement proper, ?_⟩
    intro c low high
    simp [contains, ht, hn, CodePoint.Set.contains_complement proper low high,
      Unicode.Table.contains_set sound]

namespace Requirement

/-- Writing out categories one after the other adds their members. -/
theorem exists_resolveCategories : ∀ (ks : List Category) (s : CodePoint.Set), s.Proper →
    (∀ k ∈ ks, k.IsKnown) →
      ∃ t, resolveCategories s ks = .ok t ∧ t.Proper ∧ ∀ c : Int, 0 ≤ c → c ≤ 0x10FFFF →
        t.contains c = (s.contains c || ks.any (·.contains c))
  | [], s, hs, _ => ⟨s, rfl, hs, fun c _ _ => by simp⟩
  | k :: ks, s, hs, hk => by
    obtain ⟨u, hu, pu, cu⟩ := Category.exists_resolve (hk k List.mem_cons_self)
    obtain ⟨t, ht, pt, ct⟩ := exists_resolveCategories ks (s.union u)
      (CodePoint.Set.proper_union hs pu) fun l hl => hk l (List.mem_cons_of_mem _ hl)
    refine ⟨t, by simp only [resolveCategories, hu, ht], pt, ?_⟩
    intro c low high
    rw [ct c low high, CodePoint.Set.contains_union hs pu, cu c low high, List.any_cons,
      Bool.or_assoc]

/-! ## 2. Proper requirements

What every operation needs of its operands, and what it gives back: canonical ranges, and names
that have tables. -/

/-- The ranges are a canonical set of characters, and every category can be written out. -/
structure Proper (g : Requirement) : Prop where
  ranges : g.ranges.Proper
  known : ∀ k ∈ g.categories, k.IsKnown

/-- **A proper requirement can be written out**, as a proper set of what it accepts.  Each
category adds the set of its table, and a sign turns the whole around in the end. -/
theorem Proper.exists_resolve {g : Requirement} (h : g.Proper) :
    ∃ s, g.resolve = .ok s ∧ s.Proper ∧
      ∀ c : Int, 0 ≤ c → c ≤ 0x10FFFF → s.contains c = g.contains c := by
  obtain ⟨t, ht, pt, ct⟩ := exists_resolveCategories g.categories g.ranges h.ranges h.known
  cases hn : g.negated with
  | false =>
    refine ⟨t, by simp [resolve, ht, hn], pt, ?_⟩
    intro c low high
    simp [contains, hn, ct c low high]
  | true =>
    refine ⟨t.complement, by simp [resolve, ht, hn], CodePoint.Set.proper_complement pt,
      ?_⟩
    intro c low high
    simp [contains, hn, CodePoint.Set.contains_complement pt low high, ct c low high]

theorem proper_ofSet {s : CodePoint.Set} (h : s.Proper) (negated : Bool) :
    Proper ⟨negated, s, []⟩ :=
  ⟨h, by simp⟩

theorem proper_empty : empty.Proper := proper_ofSet CodePoint.Set.proper_empty false

@[simp] theorem contains_empty (c : Int) : empty.contains c = false := by
  simp [contains, empty]

/-- A requirement whose form shows that it is empty accepts nothing. -/
theorem contains_of_isEmpty {g : Requirement} (h : g.isEmpty = true) (p : g.Proper) (c : Int) :
    g.contains c = false := by
  simp only [isEmpty, Bool.and_eq_true, Bool.not_eq_true', List.isEmpty_iff] at h
  obtain ⟨⟨hn, hr⟩, hc⟩ := h
  have : g.ranges.contains c = false := by
    rw [← Bool.not_eq_true, p.ranges.contains_iff]
    exact CodePoint.Set.not_covers_of_isEmpty hr c
  simp [contains, hn, hc, this]

/-- Combining two written out requirements. -/
theorem exists_combine {op : CodePoint.Set → CodePoint.Set → CodePoint.Set}
    {f : Bool → Bool → Bool}
    (proper : ∀ {s t : CodePoint.Set}, s.Proper → t.Proper → (op s t).Proper)
    (mem : ∀ {s t : CodePoint.Set}, s.Proper → t.Proper → ∀ c,
      (op s t).contains c = f (s.contains c) (t.contains c))
    {g o : Requirement} (hg : g.Proper) (ho : o.Proper) :
    ∃ r, combine op g o = .ok r ∧ r.Proper ∧ ∀ c : Int, 0 ≤ c → c ≤ 0x10FFFF →
      r.contains c = f (g.contains c) (o.contains c) := by
  obtain ⟨s, hs, ps, cs⟩ := hg.exists_resolve
  obtain ⟨t, ht, pt, ct⟩ := ho.exists_resolve
  refine ⟨⟨false, op s t, []⟩, by simp only [combine, hs, ht], proper_ofSet (proper ps pt) _,
    ?_⟩
  intro c low high
  rw [← cs c low high, ← ct c low high, ← mem ps pt]
  simp [contains]

/-! ## 3. Intersection

There are several ways to intersect, by the signs and by whether there are categories.  They
differ in form and not in what is accepted. -/

/-- Requirements without categories are intersected by De Morgan's laws. -/
theorem contains_ofSet (negated : Bool) (s : CodePoint.Set) (c : Int) :
    contains ⟨negated, s, []⟩ c = (s.contains c != negated) := by
  simp [contains]

/-- **Two requirements have an intersection, and it accepts what both accept.**  The cases are
those of `intersect`, and all of them are about members in the end. -/
theorem exists_intersect {g o : Requirement} (hg : g.Proper) (ho : o.Proper) :
    ∃ r, g.intersect o = .ok r ∧ r.Proper ∧ ∀ c : Int, 0 ≤ c → c ≤ 0x10FFFF →
      r.contains c = (g.contains c && o.contains c) := by
  unfold intersect
  split
  · rename_i h
    exact ⟨g, rfl, hg, fun c _ _ => by rw [← h, Bool.and_self]⟩
  split
  · rename_i h
    refine ⟨empty, rfl, proper_empty, ?_⟩
    intro c _ _
    rcases (Bool.or_eq_true _ _).mp h with h | h
    · rw [contains_of_isEmpty h hg, contains_empty, Bool.false_and]
    · rw [contains_of_isEmpty h ho, contains_empty, Bool.and_false]
  split
  · exact exists_combine CodePoint.Set.proper_intersect CodePoint.Set.contains_intersect hg ho
  rename_i plain
  obtain ⟨n, s, ks⟩ := g
  obtain ⟨m, t, ls⟩ := o
  simp only [Bool.or_eq_true, Bool.not_eq_true', List.isEmpty_eq_false_iff, not_or,
    Decidable.not_not] at plain
  obtain ⟨rfl, rfl⟩ := plain
  have ps : s.Proper := hg.ranges
  have pt : t.Proper := ho.ranges
  match n, m with
  | false, false =>
    refine ⟨_, rfl, proper_ofSet (CodePoint.Set.proper_intersect ps pt) _, ?_⟩
    intro c _ _
    simp only [contains_ofSet, CodePoint.Set.contains_intersect ps pt, Bool.bne_false]
  | true, false =>
    refine ⟨_, rfl, proper_ofSet (CodePoint.Set.proper_subtract pt ps) _, ?_⟩
    intro c _ _
    simp only [contains_ofSet, CodePoint.Set.contains_subtract pt ps, Bool.bne_false,
      Bool.bne_true, Bool.and_comm]
  | false, true =>
    refine ⟨_, rfl, proper_ofSet (CodePoint.Set.proper_subtract ps pt) _, ?_⟩
    intro c _ _
    simp only [contains_ofSet, CodePoint.Set.contains_subtract ps pt, Bool.bne_false,
      Bool.bne_true]
  | true, true =>
    have pu := CodePoint.Set.proper_union ps pt
    refine ⟨_, rfl, ?_, ?_⟩
    · split
      · exact proper_empty
      · exact proper_ofSet pu _
    · intro c low high
      have union := CodePoint.Set.contains_union ps pt c
      split
      · rename_i h
        rw [CodePoint.Set.contains_of_isUniverse h low high] at union
        rw [contains_empty, contains_ofSet, contains_ofSet, Bool.bne_true, Bool.bne_true,
          ← Bool.not_or, ← union, Bool.not_true]
      · rw [contains_ofSet, contains_ofSet, contains_ofSet, union, Bool.bne_true, Bool.bne_true,
          Bool.bne_true, Bool.not_or]

/-! ## 4. Union

Unions of requirements that are not negated keep their categories as names, and any others are
written out first. -/

theorem mem_foldl_insertNew (ls : List Category) : ∀ (ks : List Category) (k : Category),
    k ∈ ls.foldl (fun out l => if out.contains l then out else out ++ [l]) ks ↔
      k ∈ ks ∨ k ∈ ls := by
  induction ls with
  | nil => simp
  | cons l ls ih =>
    intro ks k
    rw [List.foldl_cons, ih]
    split
    · rename_i h
      have h : l ∈ ks := List.contains_iff_mem.mp h
      constructor
      · rintro (h' | h')
        · exact Or.inl h'
        · exact Or.inr (List.mem_cons_of_mem _ h')
      · rintro (h' | h')
        · exact Or.inl h'
        · rcases List.mem_cons.mp h' with rfl | h'
          · exact Or.inl h
          · exact Or.inr h'
    · simp only [List.mem_append, List.mem_cons, List.not_mem_nil, or_false, or_assoc]

/-- Merging two lists of categories drops repetitions and nothing else. -/
theorem mem_mergeCategories {ks ls : List Category} {k : Category} :
    k ∈ mergeCategories ks ls ↔ k ∈ ks ∨ k ∈ ls := by
  rw [mergeCategories, List.mem_mergeSort, mem_foldl_insertNew]

theorem any_mergeCategories (ks ls : List Category) (c : Int) :
    (mergeCategories ks ls).any (·.contains c) =
      (ks.any (·.contains c) || ls.any (·.contains c)) := by
  rw [Bool.eq_iff_iff]
  simp only [List.any_eq_true, Bool.or_eq_true, mem_mergeCategories, or_and_right, exists_or]

/-- **Two requirements have a union, and it accepts what one of them accepts.** -/
theorem exists_union {g o : Requirement} (hg : g.Proper) (ho : o.Proper) :
    ∃ r, g.union o = .ok r ∧ r.Proper ∧ ∀ c : Int, 0 ≤ c → c ≤ 0x10FFFF →
      r.contains c = (g.contains c || o.contains c) := by
  unfold union
  split
  · rename_i h
    exact ⟨g, rfl, hg, fun c _ _ => by rw [contains_of_isEmpty h ho, Bool.or_false]⟩
  split
  · rename_i h
    exact ⟨o, rfl, ho, fun c _ _ => by rw [contains_of_isEmpty h hg, Bool.false_or]⟩
  split
  · rename_i h
    simp only [Bool.and_eq_true, Bool.not_eq_true'] at h
    refine ⟨_, rfl, ⟨CodePoint.Set.proper_union hg.ranges ho.ranges, ?_⟩, ?_⟩
    · intro k hk
      rcases mem_mergeCategories.mp hk with hk | hk
      · exact hg.known k hk
      · exact ho.known k hk
    · intro c _ _
      simp only [contains, h.1, h.2, Bool.bne_false, any_mergeCategories,
        CodePoint.Set.contains_union hg.ranges ho.ranges]
      rw [Bool.or_assoc, Bool.or_assoc, Bool.or_left_comm (List.any _ _)]
  · exact exists_combine CodePoint.Set.proper_union CodePoint.Set.contains_union hg ho

theorem Proper.negate {g : Requirement} (h : g.Proper) : g.negate.Proper := ⟨h.ranges, h.known⟩

theorem contains_negate (g : Requirement) (c : Int) : g.negate.contains c = !g.contains c := by
  simp [contains, Requirement.negate]

/-- Several requirements added up accept what one of them accepts. -/
theorem exists_addAll : ∀ (rs : List Requirement) (g : Requirement), g.Proper →
    (∀ r ∈ rs, r.Proper) →
      ∃ s, g.addAll rs = .ok s ∧ s.Proper ∧ ∀ c : Int, 0 ≤ c → c ≤ 0x10FFFF →
        s.contains c = (g.contains c || rs.any (·.contains c))
  | [], g, hg, _ => ⟨g, rfl, hg, fun c _ _ => by simp⟩
  | r :: rs, g, hg, hr => by
    obtain ⟨u, hu, pu, cu⟩ := exists_union hg (hr r List.mem_cons_self)
    obtain ⟨s, hs, ps, cs⟩ := exists_addAll rs u pu fun q hq => hr q (List.mem_cons_of_mem _ hq)
    refine ⟨s, by simp only [addAll, hu, hs], ps, ?_⟩
    intro c low high
    rw [cs c low high, cu c low high, List.any_cons, Bool.or_assoc]

end Requirement

/-! ## 5. Folding

Folding is done before a requirement is made, so all that is needed here is that it leads from
proper sets to proper sets. -/

namespace CodePoint

theorem orbitFrom_le {step : Nat → Nat} (h : ∀ c ≤ 0x10FFFF, step c ≤ 0x10FFFF) (start : Nat) :
    ∀ fuel c, c ≤ 0x10FFFF → ∀ d ∈ orbitFrom step start fuel c, d ≤ 0x10FFFF
  | 0, _, _ => by simp [orbitFrom]
  | fuel + 1, c, hc => by
    intro d hd
    unfold orbitFrom at hd
    split at hd
    · simp at hd
    · rcases List.mem_cons.mp hd with rfl | hd
      · exact hc
      · exact orbitFrom_le h start fuel (step c) (h c hc) d hd

theorem Set.members_le {r : Range} : ∀ c ∈ members r, c ≤ 0x10FFFF := by
  intro c hc
  obtain ⟨i, hi, rfl⟩ := List.mem_map.mp hc
  have := List.mem_range.mp hi
  rw [maxCodePoint] at this
  omega

/-- Case variants of the members of a set are characters, if one step leads to a character. -/
theorem Set.variants_le {step : Nat → Nat} (h : ∀ c ≤ 0x10FFFF, step c ≤ 0x10FFFF) (s : Set) :
    ∀ c ∈ variants step s, c ≤ 0x10FFFF := by
  intro c hc
  obtain ⟨r, -, hc⟩ := List.mem_flatMap.mp hc
  obtain ⟨d, hd, hc⟩ := List.mem_flatMap.mp hc
  exact orbitFrom_le h d _ _ (h d (members_le d hd)) c hc

/-- One range for each of some characters. -/
theorem bounded_singles {cs : List Nat} (h : ∀ c ∈ cs, c ≤ 0x10FFFF) :
    Bounded (cs.map fun c : Nat => Range.single c) := by
  intro r hr
  obtain ⟨c, hc, rfl⟩ := List.mem_map.mp hr
  have := h c hc
  simp only [Range.single]
  omega

theorem Set.proper_foldWith {step : Nat → Nat} (h : ∀ c ≤ 0x10FFFF, step c ≤ 0x10FFFF) {s : Set}
    (hs : s.Proper) : (s.foldWith step).Proper := by
  unfold foldWith
  split
  · exact hs
  · exact proper_union hs (proper_ofRanges (bounded_singles (variants_le h s)))

theorem Set.proper_fold {s : Set} (h : s.Proper) : s.fold.Proper :=
  proper_foldWith (fun _ => Unicode.simpleFold_le) h

end CodePoint

/-! ## 6. The requirement of a leaf

A leaf of a parsed pattern is sound, and from that its requirement is built without ever meeting a
name that has no table. -/

/-- What the requirement of a leaf relies on: its numbers are characters and the names of its
properties have tables. -/
def Shape.IsSound : Shape → Prop
  | .char c => c ≤ 0x10FFFF
  | .property p => (Unicode.lookup? p.name).isSome = true
  | .charClass k =>
    Bounded k.ranges ∧ ∀ p ∈ k.properties, (Unicode.lookup? p.2.name).isSome = true
  | _ => True

theorem ClassEscape.proper_requirement (e : ClassEscape) : e.requirement.Proper := by
  have bounded : ∀ rs : List Range, rs.all (fun r => 0 ≤ r.lo && r.lo ≤ 0x10FFFF && 0 ≤ r.hi &&
      r.hi ≤ 0x10FFFF) = true → Bounded rs := by
    intro rs h r hr
    have := List.all_eq_true.mp h r hr
    simp only [Bool.and_eq_true, decide_eq_true_eq] at this
    exact ⟨⟨this.1.1.1, this.1.1.2⟩, this.1.2, this.2⟩
  obtain ⟨kind, negated⟩ := e
  cases kind with
  | digit => exact Requirement.proper_ofSet (CodePoint.Set.proper_ofRanges (bounded _ rfl)) _
  | word => exact Requirement.proper_ofSet (CodePoint.Set.proper_ofRanges (bounded _ rfl)) _
  | space => exact Requirement.proper_ofSet (CodePoint.Set.proper_ofRanges (bounded _ rfl)) _

theorem PropertyEscape.proper_requirement {p : PropertyEscape}
    (h : (Unicode.lookup? p.name).isSome = true) : p.requirement.Proper :=
  ⟨CodePoint.Set.proper_empty, by simpa [requirement, Category.IsKnown] using h⟩

/-- **A class of characters and known properties has a requirement**, and it accepts what the sum
of its parts accepts, or everything else. -/
theorem CharClass.exists_requirement {k : CharClass} (bounded : Bounded k.ranges)
    (known : ∀ p ∈ k.properties, (Unicode.lookup? p.2.name).isSome = true) (ignoreCase : Bool) :
    ∃ g, k.requirement ignoreCase = .ok g ∧ g.Proper ∧ ∀ c : Int, 0 ≤ c → c ≤ 0x10FFFF →
      g.contains c = (((if ignoreCase then (CodePoint.Set.ofRanges k.ranges).fold
          else CodePoint.Set.ofRanges k.ranges).contains c ||
        (k.escapes.any (·.2.requirement.contains c) ||
          k.properties.any (·.2.requirement.contains c))) != k.negated) := by
  have written := CodePoint.Set.proper_ofRanges bounded
  have set : (if ignoreCase then (CodePoint.Set.ofRanges k.ranges).fold
      else CodePoint.Set.ofRanges k.ranges).Proper := by
    split
    · exact CodePoint.Set.proper_fold written
    · exact written
  obtain ⟨g, hg, pg, cg⟩ := Requirement.exists_addAll
    (k.escapes.map (·.2.requirement) ++ k.properties.map (·.2.requirement)) _
    (Requirement.proper_ofSet set false) (by
      intro r hr
      rcases List.mem_append.mp hr with hr | hr
      · obtain ⟨e, -, rfl⟩ := List.mem_map.mp hr
        exact e.2.proper_requirement
      · obtain ⟨p, hp, rfl⟩ := List.mem_map.mp hr
        exact PropertyEscape.proper_requirement (known p hp))
  have sum : ∀ c : Int, 0 ≤ c → c ≤ 0x10FFFF → g.contains c =
      ((if ignoreCase then (CodePoint.Set.ofRanges k.ranges).fold
          else CodePoint.Set.ofRanges k.ranges).contains c ||
        (k.escapes.any (·.2.requirement.contains c) ||
          k.properties.any (·.2.requirement.contains c))) := by
    intro c low high
    rw [cg c low high, Requirement.contains_ofSet, Bool.bne_false, List.any_append, List.any_map,
      List.any_map]
    rfl
  refine ⟨if k.negated then g.negate else g, by simp only [requirement, hg], ?_, ?_⟩
  · split
    · exact pg.negate
    · exact pg
  · intro c low high
    rw [← sum c low high]
    cases k.negated with
    | false => simp
    | true => simp [Requirement.contains_negate]

/-- **A sound leaf has a requirement, and a proper one.** -/
theorem Shape.exists_requirement {s : Shape} (h : s.IsSound) (flags : Flags) :
    ∃ g, s.requirement flags = .ok g ∧ g.Proper := by
  have single : ∀ c : Nat, c ≤ 0x10FFFF → (CodePoint.Set.ofRanges [Range.single c]).Proper := by
    intro c hc
    refine CodePoint.Set.proper_ofRanges ?_
    intro r hr
    rw [List.mem_singleton.mp hr]
    simp only [Range.single]
    omega
  cases s with
  | char c =>
    refine ⟨_, rfl, ?_⟩
    unfold Requirement.literal
    split
    · exact Requirement.proper_ofSet (CodePoint.Set.proper_fold (single c h)) _
    · exact Requirement.proper_ofSet (single c h) _
  | dot =>
    refine ⟨_, rfl, ?_⟩
    unfold Requirement.wildcard
    split
    · exact Requirement.proper_ofSet CodePoint.Set.proper_empty _
    · refine Requirement.proper_ofSet (CodePoint.Set.proper_ofRanges ?_) _
      intro r hr
      simp only [List.mem_cons, List.not_mem_nil, or_false] at hr
      rcases hr with rfl | rfl | rfl <;> decide
  | escape e => exact ⟨_, rfl, e.proper_requirement⟩
  | property p => exact ⟨_, rfl, PropertyEscape.proper_requirement h⟩
  | charClass k =>
    obtain ⟨g, hg, pg, -⟩ := CharClass.exists_requirement h.1 h.2 flags.ignoreCase
    exact ⟨g, hg, pg⟩

end Backtrack
