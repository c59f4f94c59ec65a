/-
# What a layout leaves alone

Places, separators and sequences of one element are matters of layout.  A walk lists the same nodes
without them, as far as groups, quantifiers and references go: what is read off each of those by
itself is the same in the same order (`filterMap_walk_separated`, `filterMap_walk_collapsed`), and
without places it is the same walk (`walk_bare`).

So a tree captures the same groups and repeats as much, whatever its layout.
-/
import Backtrack.Proofs.Pattern.Layout

namespace Backtrack

namespace Node

/-! ## 1. Places -/

mutual

theorem walk_bare : ∀ n : Node, n.bare.walk = n.walk.map bare
  | atom a => by
    obtain ⟨site, shape⟩ := a
    cases shape with
    | charClass k =>
      simp only [bare, Shape.bare, CharClass.bare, walk, List.map_cons, List.map_append,
        List.map_map]
      rfl
    | _ => rfl
  | anchor _ _ => rfl
  | reference _ => rfl
  | group g body => congrArg (group g.bare body.bare :: ·) (walk_bare body)
  | quantifier q body => congrArg (quantifier q.bare body.bare :: ·) (walk_bare body)
  | sequence _ ns => congrArg (sequence .blank (bareAll ns) :: ·) (walkAll_bareAll ns)
  | alternation _ ns => congrArg (alternation .blank (bareAll ns) :: ·) (walkAll_bareAll ns)

theorem walkAll_bareAll : ∀ ns : List Node, walkAll (bareAll ns) = (walkAll ns).map bare
  | [] => rfl
  | n :: ns => by
    rw [bareAll, walkAll, walkAll, List.map_append, walk_bare n, walkAll_bareAll ns]

end

/-! ## 2. Separators and sequences of one element -/

section

variable {β : Type} {f : Node → Option β}

theorem filterMap_walkAll_cons (n : Node) (ns : List Node) :
    (walkAll (n :: ns)).filterMap f = n.walk.filterMap f ++ (walkAll ns).filterMap f :=
  List.filterMap_append

theorem filterMap_cons_congr {n n' : Node} {ms ms' : List Node} (hn : f n' = f n)
    (hms : ms'.filterMap f = ms.filterMap f) : (n' :: ms').filterMap f = (n :: ms).filterMap f := by
  rw [List.filterMap_cons, List.filterMap_cons, hn, hms]

/-- What `f` reads off a node by itself is the same for a layout of its body, and nothing is read off
sequences and alternations. -/
structure Overlooks (f : Node → Option β) (t : Node → Node) : Prop where
  group : ∀ g body, f (.group g (t body)) = f (.group g body)
  quantifier : ∀ q body, f (.quantifier q (t body)) = f (.quantifier q body)
  sequence : ∀ s ns, f (.sequence s ns) = none
  alternation : ∀ s ns, f (.alternation s ns) = none

mutual

/-- **Separating leaves alone what is read off the nodes**, if nothing is read off separators. -/
theorem filterMap_walk_separated (h : Overlooks f separated) (hs : f separator = none) :
    ∀ n : Node, n.separated.walk.filterMap f = n.walk.filterMap f
  | atom _ => rfl
  | anchor _ _ => rfl
  | reference _ => rfl
  | group g body => filterMap_cons_congr (h.group g body) (filterMap_walk_separated h hs body)
  | quantifier q body =>
    filterMap_cons_congr (h.quantifier q body) (filterMap_walk_separated h hs body)
  | sequence s ns => by
    rw [separated, walk, walk, List.filterMap_cons_none (h.sequence _ _),
      List.filterMap_cons_none (h.sequence _ _), filterMap_walkAll_separated h hs ns]
  | alternation s ns => by
    rw [separated, walk, walk, List.filterMap_cons_none (h.alternation _ _),
      List.filterMap_cons_none (h.alternation _ _), filterMap_walkAll_separatedEach h hs ns]

theorem filterMap_walkAll_separated (h : Overlooks f separated) (hs : f separator = none) :
    ∀ ns : List Node, (walkAll (separatedAll ns)).filterMap f = (walkAll ns).filterMap f
  | [] => rfl
  | n :: ns => by
    have nothing : separator.walk.filterMap f = [] :=
      (List.filterMap_cons_none hs).trans (List.filterMap_cons_none (h.sequence _ _))
    have ih := filterMap_walkAll_separated h hs ns
    rw [separatedAll]
    split
    · rw [filterMap_walkAll_cons, filterMap_walkAll_cons, filterMap_walkAll_cons, nothing, ih,
        filterMap_walk_separated h hs n, List.nil_append]
    · rw [filterMap_walkAll_cons, filterMap_walkAll_cons, ih, filterMap_walk_separated h hs n]

theorem filterMap_walkAll_separatedEach (h : Overlooks f separated) (hs : f separator = none) :
    ∀ ns : List Node, (walkAll (separatedEach ns)).filterMap f = (walkAll ns).filterMap f
  | [] => rfl
  | n :: ns => by
    rw [separatedEach, filterMap_walkAll_cons, filterMap_walkAll_cons,
      filterMap_walk_separated h hs n, filterMap_walkAll_separatedEach h hs ns]

end

mutual

/-- **So does taking elements out of sequences.** -/
theorem filterMap_walk_collapsed (h : Overlooks f collapsed) :
    ∀ n : Node, n.collapsed.walk.filterMap f = n.walk.filterMap f
  | atom _ => rfl
  | anchor _ _ => rfl
  | reference _ => rfl
  | group g body => filterMap_cons_congr (h.group g body) (filterMap_walk_collapsed h body)
  | quantifier q body =>
    filterMap_cons_congr (h.quantifier q body) (filterMap_walk_collapsed h body)
  | sequence s ns => by
    have ih := filterMap_walkAll_collapsed h ns
    rw [walk, List.filterMap_cons_none (h.sequence _ _), collapsed]
    split
    · rename_i m hm
      rw [hm, filterMap_walkAll_cons] at ih
      exact (List.append_nil _).symm.trans ih
    · rw [walk, List.filterMap_cons_none (h.sequence _ _), ih]
  | alternation s ns => by
    rw [collapsed, walk, walk, List.filterMap_cons_none (h.alternation _ _),
      List.filterMap_cons_none (h.alternation _ _), filterMap_walkAll_collapsed h ns]

theorem filterMap_walkAll_collapsed (h : Overlooks f collapsed) :
    ∀ ns : List Node, (walkAll (collapsedAll ns)).filterMap f = (walkAll ns).filterMap f
  | [] => rfl
  | n :: ns => by
    rw [collapsedAll, filterMap_walkAll_cons, filterMap_walkAll_cons,
      filterMap_walk_collapsed h n, filterMap_walkAll_collapsed h ns]

end

end

/-! ## 3. Groups and repetitions -/

theorem captureIndexes_bare (n : Node) : captureIndexes n.bare.walk = captureIndexes n.walk := by
  rw [walk_bare, captureIndexes, List.filterMap_map, captureIndexes]
  congr 1
  funext m
  cases m <;> rfl

theorem captureIndexes_collapsed (n : Node) :
    captureIndexes n.collapsed.walk = captureIndexes n.walk :=
  filterMap_walk_collapsed ⟨fun _ _ => rfl, fun _ _ => rfl, fun _ _ => rfl, fun _ _ => rfl⟩ n

/-- The quantifiers without an upper bound. -/
def unbounded? : Node → Option Unit
  | quantifier q _ => if q.count.isUnbounded then some () else none
  | _ => none

theorem repeatsWithoutBound_eq (n : Node) :
    n.repeatsWithoutBound = !(n.walk.filterMap unbounded?).isEmpty := by
  rw [repeatsWithoutBound]
  induction n.walk with
  | nil => rfl
  | cons m ms ih =>
    rw [List.any_cons, ih, List.filterMap_cons]
    cases m with
    | quantifier q body => cases h : q.count.isUnbounded <;> simp [unbounded?, h]
    | _ => rfl

theorem repeatsWithoutBound_bare (n : Node) :
    n.bare.repeatsWithoutBound = n.repeatsWithoutBound := by
  rw [repeatsWithoutBound, walk_bare, List.any_map, repeatsWithoutBound]
  congr 1
  funext m
  cases m <;> rfl

theorem repeatsWithoutBound_separated (n : Node) :
    n.separated.repeatsWithoutBound = n.repeatsWithoutBound := by
  rw [repeatsWithoutBound_eq, repeatsWithoutBound_eq, filterMap_walk_separated
    ⟨fun _ _ => rfl, fun _ _ => rfl, fun _ _ => rfl, fun _ _ => rfl⟩ rfl]

theorem repeatsWithoutBound_collapsed (n : Node) :
    n.collapsed.repeatsWithoutBound = n.repeatsWithoutBound := by
  rw [repeatsWithoutBound_eq, repeatsWithoutBound_eq, filterMap_walk_collapsed
    ⟨fun _ _ => rfl, fun _ _ => rfl, fun _ _ => rfl, fun _ _ => rfl⟩]

end Node

end Backtrack
