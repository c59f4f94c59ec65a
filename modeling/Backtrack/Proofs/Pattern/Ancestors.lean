/-
# The nodes above a node

An index is one list of the nodes of a tree, each with the nodes that enclose it, and whatever is
asked of the index is read off that list.  Here the tree is asked itself: `Node.Ancestry` is the way
from a node up to the root, from children to parents.  `Pattern.agrees_of_parse` says that the index
of a parsed pattern gives the same answers (`Index.Agrees`).

A walk comes to the members of classes, too, which are no nodes of their own to an index.  As leaves
they look like any other leaf, and what tells them apart is their number (`Node.not_mem_members`).
So what a walk finds below a node is the node itself and the nodes that have it above them
(`Node.Ancestry.mem_walk_iff`).
-/
import Backtrack.Proofs.Pattern.Numbering
import Backtrack.Proofs.Pattern.Places

namespace Backtrack

namespace Node

/-! ## 1. Ancestors -/

/-- **The way up from a node to the root**: the nodes above the node, innermost first. -/
inductive Ancestry (root : Node) : List Node → Node → Prop
  | root : Ancestry root [] root
  | child {as : List Node} {n m : Node} (above : Ancestry root as n) (h : m ∈ n.children) :
    Ancestry root (n :: as) m

variable {root : Node}

theorem ancestry_of_mem_placed (n : Node) : ∀ {as : List Node} {p : Placed},
    root.Ancestry as n → p ∈ n.placed as → root.Ancestry p.enclosing p.node := by
  induction n using induction_children with
  | step n ih =>
    intro as p above hp
    rcases mem_placed.mp hp with rfl | ⟨m, hm, hp⟩
    · exact above
    · exact ih m hm (.child above hm) hp

/-- The index lists the nodes with all that is above them. -/
theorem mem_placed_iff {as : List Node} {n : Node} :
    ⟨n, as⟩ ∈ root.placed [] ↔ root.Ancestry as n := by
  constructor
  · exact ancestry_of_mem_placed root .root
  · intro h
    induction h with
    | root => exact mem_placed_self root []
    | child _ hm ih => exact placed_subset root ih (mem_placed_child hm _)

/-- All that is below a node is below the root. -/
theorem Ancestry.below_root {as : List Node} {n : Node} (h : root.Ancestry as n) :
    root.Below n := by
  induction h with
  | root => exact Below.refl root
  | child _ hm ih => exact ih.child hm

theorem Ancestry.mem {as : List Node} {n : Node} (h : root.Ancestry as n) : n ∈ root.walk :=
  h.below_root.mem

/-- What is above a node has the node, and all that is below it, in its walk. -/
theorem Ancestry.walk_subset {as : List Node} {n : Node} (h : root.Ancestry as n) :
    ∀ m ∈ as, n.walk ⊆ m.walk := by
  induction h with
  | root => simp
  | child _ hk ih =>
    have parent := walk_subset_of_mem_children hk
    exact List.forall_mem_cons.mpr ⟨parent, fun m hm k hk => ih m hm (parent hk)⟩

/-- What is above a node is a node of the tree, with its own way up. -/
theorem Ancestry.exists_above {as : List Node} {n : Node} (h : root.Ancestry as n) :
    ∀ m ∈ as, ∃ bs, root.Ancestry bs m := by
  induction h with
  | root => simp
  | child above _ ih => exact List.forall_mem_cons.mpr ⟨⟨_, above⟩, ih⟩

/-- There is one way up from a node. -/
theorem Ancestry.unique (h : root.IsDistinct) {as bs : List Node} {n : Node}
    (ha : root.Ancestry as n) (hb : root.Ancestry bs n) : as = bs :=
  congrArg Placed.enclosing
    (Index.eq_of_id h (mem_placed_iff.mpr ha) (mem_placed_iff.mpr hb) rfl)

/-- **No node of the index is a member of a class.**  Members have numbers of their own, as all
nodes of a parsed tree do. -/
theorem not_mem_members (h : root.IsDistinct) {as bs : List Node} {n m : Node}
    (hn : root.Ancestry as n) (hm : root.Ancestry bs m) : n ∉ m.members := by
  have nodup : root.walk.Nodup := h.of_map
  rw [walk_eq_flatMap root [], List.nodup_flatMap] at nodup
  obtain ⟨own, apart⟩ := nodup
  have hp := mem_placed_iff.mpr hn
  have hq := mem_placed_iff.mpr hm
  intro member
  by_cases same : (⟨n, as⟩ : Placed) = ⟨m, bs⟩
  · obtain ⟨rfl, rfl⟩ := Placed.mk.inj same
    exact (List.nodup_cons.mp (own _ hp)).1 member
  · have : Std.Symm (Function.onFun List.Disjoint fun p : Placed => p.node :: p.node.members) :=
      ⟨fun _ _ disjoint => List.disjoint_symm disjoint⟩
    have disjoint := apart.forall hp hq same
    exact disjoint List.mem_cons_self (List.mem_cons_of_mem _ member)

/-- **A walk comes from a node to those that have it above them**, and to the node itself.  In one
direction by induction on the way up, in the other one by looking for the child that has the node
in it. -/
theorem Ancestry.mem_walk_iff (h : root.IsDistinct) {as bs : List Node} {n m : Node}
    (hn : root.Ancestry as n) (hm : root.Ancestry bs m) : n ∈ m.walk ↔ m = n ∨ m ∈ as := by
  constructor
  · intro hw
    rw [walk_eq_flatMap m bs, List.mem_flatMap] at hw
    obtain ⟨p, hp, hw⟩ := hw
    have above := ancestry_of_mem_placed m hm hp
    rcases List.mem_cons.mp hw with rfl | member
    · obtain rfl := hn.unique h above
      rcases enclosing_of_mem_placed m hp with rfl | suffix
      · exact .inl rfl
      · exact .inr (suffix.subset List.mem_cons_self)
    · exact absurd member (not_mem_members h hn above)
  · rintro (rfl | hm)
    · exact m.mem_walk_self
    · exact hn.walk_subset m hm n.mem_walk_self

/-- The node is one of the index of the tree. -/
def Has (root n : Node) : Prop := ∃ as, root.Ancestry as n

theorem has_root (root : Node) : root.Has root := ⟨[], .root⟩

theorem Has.child {n m : Node} (h : root.Has n) (hm : m ∈ n.children) : root.Has m := by
  obtain ⟨as, above⟩ := h
  exact ⟨n :: as, above.child hm⟩

theorem Has.mem {n : Node} (h : root.Has n) : n ∈ root.walk := by
  obtain ⟨as, above⟩ := h
  exact above.mem

/-- A node has one parent. -/
theorem parent_unique (h : root.IsDistinct) {n m k : Node} (hn : root.Has n) (hm : root.Has m)
    (hkn : k ∈ n.children) (hkm : k ∈ m.children) : n = m := by
  obtain ⟨as, above⟩ := hn
  obtain ⟨bs, above'⟩ := hm
  exact (List.cons.inj ((above.child hkn).unique h (above'.child hkm))).1

/-- Only leaves are found by a walk and not by the index. -/
theorem has_of_mem {n : Node} (h : n ∈ root.walk) (ha : ∀ a, n ≠ .atom a) : root.Has n := by
  obtain ⟨p, hp, rfl⟩ := exists_placed ha root [] h
  exact ⟨_, ancestry_of_mem_placed root .root hp⟩

/-- A node of the index is the root, or one of the index of a child. -/
theorem Has.root_or_child {n : Node} (h : root.Has n) :
    n = root ∨ ∃ c ∈ root.children, c.Has n := by
  obtain ⟨as, above⟩ := h
  induction above with
  | root => exact .inl rfl
  | child _ hm ih =>
    rcases ih with rfl | ⟨c, hc, has⟩
    · exact .inr ⟨_, hm, has_root _⟩
    · exact .inr ⟨c, hc, has.child hm⟩

end Node

/-! ## 2. Questions -/

/-- The lookaround that a node is. -/
def Node.lookaround? : Node → Option Group
  | .group g _ => if g.isLookaround then some g else none
  | _ => none

/-- The answers of an index are those of the tree. -/
structure Index.Agrees (x : Index) (p : Pattern) : Prop where
  /-- A node contains what a walk comes to from there. -/
  contains : ∀ {as bs : List Node} {inner outer : Node}, p.root.Ancestry as inner →
    p.root.Ancestry bs outer → (x.contains outer.id inner.id = true ↔ inner ∈ outer.walk)
  /-- The parent of a node is the one node that has it right below. -/
  parent : ∀ {as : List Node} {n : Node}, p.root.Ancestry as n →
    ∀ m, x.parent? n.id = some m ↔ (∃ bs, p.root.Ancestry bs m) ∧ n ∈ m.children
  /-- Only the root has no parent. -/
  orphan : ∀ {as : List Node} {n : Node}, p.root.Ancestry as n →
    (x.parent? n.id = none ↔ n = p.root)
  /-- The lookarounds around a node are those above it, outermost first. -/
  lookarounds : ∀ {as : List Node} {n : Node}, p.root.Ancestry as n →
    x.lookarounds n.id = as.reverse.filterMap Node.lookaround?
  /-- The capture groups are numbered from one on. -/
  numbers : ∀ i, (∃ g body, x.group? i = some (g, body)) ↔ 1 ≤ i ∧ i ≤ p.captures
  /-- Under each number there is the group with that number. -/
  group : ∀ i g body, x.group? i = some (g, body) ↔
    .group g body ∈ p.root.walk ∧ g.isCapture = true ∧ g.index = i
  /-- There is a group where one starts, and just that one. -/
  groupAt : ∀ start g, x.groupAt? start = some g ↔ g ∈ groupsIn p.root.walk ∧ g.site.start = start

namespace Index

variable {root n m : Node} {as bs : List Node}

theorem enclosing_of_ancestry (h : root.IsDistinct) (hn : root.Ancestry as n) :
    (ofNode root).enclosing n.id = as :=
  enclosing_of_mem h (Node.mem_placed_iff.mpr hn)

theorem contains_iff_mem_walk (h : root.IsDistinct) (hn : root.Ancestry as n)
    (hm : root.Ancestry bs m) : (ofNode root).contains m.id n.id = true ↔ n ∈ m.walk := by
  rw [contains, enclosing_of_ancestry h hn, hn.mem_walk_iff h hm, Bool.or_eq_true, beq_iff_eq,
    List.any_eq_true]
  refine or_congr ⟨fun hid => Node.eq_of_id h hm.mem hn.mem hid, congrArg _⟩ ⟨?_, ?_⟩
  · rintro ⟨k, hk, hid⟩
    obtain ⟨_, above⟩ := hn.exists_above k hk
    exact Node.eq_of_id h above.mem hm.mem (beq_iff_eq.mp hid) ▸ hk
  · exact fun hm => ⟨m, hm, beq_self_eq_true _⟩

theorem parent?_of_ancestry (h : root.IsDistinct) (hn : root.Ancestry as n) :
    (ofNode root).parent? n.id = as.head? := by
  rw [parent?, enclosing_of_ancestry h hn]

theorem parent?_eq_some_iff (h : root.IsDistinct) (hn : root.Ancestry as n) :
    (ofNode root).parent? n.id = some m ↔ (∃ bs, root.Ancestry bs m) ∧ n ∈ m.children := by
  constructor
  · intro parent
    rw [parent?_of_ancestry h hn] at parent
    cases hn with
    | root => cases parent
    | child above hk =>
      obtain rfl := Option.some.inj parent
      exact ⟨⟨_, above⟩, hk⟩
  · rintro ⟨⟨bs, above⟩, hk⟩
    rw [parent?_of_ancestry h (.child above hk), List.head?_cons]

theorem parent?_eq_none_iff (h : root.IsDistinct) (hn : root.Ancestry as n) :
    (ofNode root).parent? n.id = none ↔ n = root := by
  rw [parent?_of_ancestry h hn, List.head?_eq_none_iff]
  constructor
  · rintro rfl
    cases hn
    rfl
  · rintro rfl
    exact hn.unique h .root

theorem lookarounds_of_ancestry (h : root.IsDistinct) (hn : root.Ancestry as n) :
    (ofNode root).lookarounds n.id = as.reverse.filterMap Node.lookaround? := by
  rw [lookarounds, enclosing_of_ancestry h hn, List.filterMap_reverse]
  rfl

theorem group?_eq_some_iff (h : root.IsDistinct) (captures : (captureIndexes root.walk).Nodup)
    {i : Nat} {g : Group} {body : Node} : (ofNode root).group? i = some (g, body) ↔
      .group g body ∈ root.walk ∧ g.isCapture = true ∧ g.index = i := by
  refine ⟨mem_of_group?, ?_⟩
  rintro ⟨hg, capture, rfl⟩
  obtain ⟨g', body', found⟩ := exists_group? (mem_captureIndexes.mpr ⟨g, body, hg, capture, rfl⟩)
  obtain ⟨hg', capture', index⟩ := mem_of_group? found
  rw [captureIndexes_eq_map] at captures
  obtain rfl := List.inj_on_of_nodup_map captures (mem_captureGroups.mpr ⟨capture', body', hg'⟩)
    (mem_captureGroups.mpr ⟨capture, body, hg⟩) index
  obtain ⟨-, rfl⟩ := Node.group.inj (Node.eq_of_id h hg' hg rfl)
  exact found

/-- A group that is found is in the tree, and starts at the byte asked for. -/
theorem mem_of_groupAt? {start : Nat} {g : Group} (h : (ofNode root).groupAt? start = some g) :
    g ∈ groupsIn root.walk ∧ g.site.start = start := by
  obtain ⟨p, hp, hg⟩ := List.exists_of_findSome?_eq_some h
  have mem := Node.mem_walk_of_mem_placed root hp
  split at hg
  · rename_i hn
    split at hg
    · rename_i hs
      obtain rfl := Option.some.inj hg
      exact ⟨mem_groupsIn.mpr ⟨_, hn ▸ mem⟩, beq_iff_eq.mp hs⟩
    · cases hg
  · cases hg

/-- Wherever a group starts, one is found. -/
theorem exists_groupAt? {g : Group} (h : g ∈ groupsIn root.walk) :
    ∃ g', (ofNode root).groupAt? g.site.start = some g' := by
  obtain ⟨body, hb⟩ := mem_groupsIn.mp h
  obtain ⟨p, hp, hn⟩ := Node.exists_placed (by simp) root [] hb
  cases hf : (ofNode root).groupAt? g.site.start with
  | some g' => exact ⟨g', rfl⟩
  | none =>
    have := List.findSome?_eq_none_iff.mp hf p hp
    simp [hn] at this

end Index

/-! ## 3. Parsed patterns -/

/-- **The index of a parsed pattern agrees with its tree.** -/
theorem Pattern.agrees_of_parse {source : Bytes} {flags : Flags} {p : Pattern}
    (h : parse source flags = .ok p) : (Index.ofNode p.root).Agrees p := by
  obtain ⟨-, distinct, captures⟩ := isWellFormed_of_parse h
  obtain ⟨spelled, -⟩ := spelled_of_parse h
  refine ⟨Index.contains_iff_mem_walk distinct, fun hn _ => Index.parent?_eq_some_iff distinct hn,
    Index.parent?_eq_none_iff distinct, Index.lookarounds_of_ancestry distinct, fun i => ?_,
    fun _ _ _ => Index.group?_eq_some_iff distinct captures,
    fun start g => ⟨Index.mem_of_groupAt?, ?_⟩⟩
  · have numbered : i ∈ captureIndexes p.root.walk ↔ 1 ≤ i ∧ i ≤ p.captures := by
      rw [spelled.indexes, List.mem_range'_1]
      omega
    rw [← numbered]
    constructor
    · rintro ⟨g, body, found⟩
      obtain ⟨hg, capture, rfl⟩ := Index.mem_of_group? found
      exact mem_captureIndexes.mpr ⟨g, body, hg, capture, rfl⟩
    · exact Index.exists_group?
  · rintro ⟨hg, rfl⟩
    obtain ⟨g', found⟩ := Index.exists_groupAt? hg
    obtain ⟨hg', start⟩ := Index.mem_of_groupAt? found
    rw [found, eq_of_start h hg' hg start]

/-- In `(a)(?=(b)(?!([c\d])))d` the third group stands behind two lookarounds, the outer one first,
and the `\d` has a number but no place in the index. -/
theorem Pattern.agrees_of_parse_of_lookarounds :
    ∃ p, parse (Bytes.ofString "(a)(?=(b)(?!([c\\d])))d") {} = .ok p ∧
      (Index.ofNode p.root).Agrees p ∧
      ((Index.ofNode p.root).lookarounds 7).map (·.kind) = [.lookahead, .negativeLookahead] ∧
      (p.root.walk.map Node.id).contains 5 ∧ ((Index.ofNode p.root).find? 5).isNone := by
  let p : Pattern :=
    { source := Bytes.ofString "(a)(?=(b)(?!([c\\d])))d"
      flags := {}
      root := .sequence ⟨12, 0, 22⟩
        [.group ⟨⟨2, 0, 3⟩, .capture, 1, []⟩ (.atom ⟨⟨1, 1, 2⟩, .char 97⟩),
          .group ⟨⟨10, 3, 21⟩, .lookahead, 0, []⟩ (.sequence ⟨9, 6, 20⟩
            [.group ⟨⟨4, 6, 9⟩, .capture, 2, []⟩ (.atom ⟨⟨3, 7, 8⟩, .char 98⟩),
              .group ⟨⟨8, 9, 20⟩, .negativeLookahead, 0, []⟩
                (.group ⟨⟨7, 12, 19⟩, .capture, 3, []⟩
                  (.atom ⟨⟨6, 13, 18⟩, .charClass ⟨false, [⟨99, 99⟩],
                    [(⟨5, 15, 17⟩, ⟨.digit, false⟩)], []⟩⟩))]),
          .atom ⟨⟨11, 21, 22⟩, .char 100⟩]
      captures := 3 }
  have parsed : parse (Bytes.ofString "(a)(?=(b)(?!([c\\d])))d") {} = .ok p := by
    with_unfolding_all rfl
  exact ⟨p, parsed, agrees_of_parse parsed, by decide, by decide, by decide⟩

end Backtrack
