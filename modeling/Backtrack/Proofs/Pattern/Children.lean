/-
# The nodes right below a node

A walk and an index both go down a tree from parents to children, and say so kind by kind.  Here
the kinds are left behind: a node has children (`Node.children`), what a node has if its children
have it all nodes have (`Node.induction_children`), and both lists are those of the children one
after the other, with the node itself in front (`Node.walk_eq`, `Node.mem_placed`).

The two lists differ in the members of classes.  A walk comes to them, and they are no nodes of
their own to an index (`Node.walk_eq_flatMap`).
-/
import Mathlib.Data.List.Basic
import Backtrack.Pattern.Index
import Backtrack.Proofs.Pattern.Trees

namespace Backtrack

namespace Node

/-! ## 1. Children -/

/-- The nodes right below a node.  Members of classes are none. -/
def children : Node → List Node
  | atom _ => []
  | anchor _ _ => []
  | reference _ => []
  | group _ body => [body]
  | quantifier _ body => [body]
  | sequence _ ns => ns
  | alternation _ ns => ns

/-- The members of a class, as leaves. -/
def members : Node → List Node
  | atom a => (atom a).walk.tail
  | _ => []

mutual

/-- What a node has if all nodes right below it have it, every node has. -/
@[elab_as_elim]
theorem induction_children {P : Node → Prop} (step : ∀ n, (∀ m ∈ n.children, P m) → P n) :
    ∀ n, P n
  | atom _ => step _ (by simp [children])
  | anchor _ _ => step _ (by simp [children])
  | reference _ => step _ (by simp [children])
  | group _ body => step _ (List.forall_mem_singleton.mpr (induction_children step body))
  | quantifier _ body => step _ (List.forall_mem_singleton.mpr (induction_children step body))
  | sequence _ ns => step _ (induction_children_all step ns)
  | alternation _ ns => step _ (induction_children_all step ns)

theorem induction_children_all {P : Node → Prop} (step : ∀ n, (∀ m ∈ n.children, P m) → P n) :
    ∀ ns : List Node, ∀ m ∈ ns, P m
  | [] => by simp
  | n :: ns =>
    List.forall_mem_cons.mpr ⟨induction_children step n, induction_children_all step ns⟩

end

theorem walk_eq (n : Node) : n.walk = n :: (n.members ++ walkAll n.children) := by
  cases n with
  | atom a =>
    rw [members, children, walkAll, List.append_nil, walk]
    split <;> rfl
  | group g body => simp [walk, members, children, walkAll]
  | quantifier q body => simp [walk, members, children, walkAll]
  | _ => rfl

/-- What a walk comes to below a node it comes to below the parent. -/
theorem walk_subset_of_mem_children {m n : Node} (h : m ∈ n.children) : m.walk ⊆ n.walk := by
  rw [walk_eq n]
  exact fun k hk => List.mem_cons_of_mem _ (List.mem_append_right _ (mem_walkAll.mpr ⟨m, h, hk⟩))

theorem exists_atom_of_mem_members {n m : Node} (h : m ∈ n.members) : ∃ a, m = atom a := by
  cases n with
  | atom a => exact exists_atom_of_mem_walk (List.mem_of_mem_tail h)
  | _ => cases h

theorem walk_of_mem_members {n m : Node} (h : m ∈ n.members) : m.walk = [m] := by
  cases n with
  | atom a =>
    rw [members, walk] at h
    split at h
    · simp only [List.tail_cons, List.mem_append, List.mem_map] at h
      obtain ⟨e, -, rfl⟩ | ⟨e, -, rfl⟩ := h <;> rfl
    · cases h
  | _ => cases h

/-! ## 2. Entries of the index -/

theorem placedAll_eq_flatMap (enclosing : List Node) : ∀ ns : List Node,
    placedAll enclosing ns = ns.flatMap (placed enclosing)
  | [] => rfl
  | n :: ns => by rw [placedAll, placedAll_eq_flatMap enclosing ns, List.flatMap_cons]

theorem placed_eq (n : Node) (enclosing : List Node) :
    n.placed enclosing = ⟨n, enclosing⟩ :: n.children.flatMap (placed (n :: enclosing)) := by
  rw [← placedAll_eq_flatMap]
  cases n <;> simp [placed, placedAll, children]

/-- An entry below a node is that of the node, or one below a child. -/
theorem mem_placed {n : Node} {enclosing : List Node} {p : Placed} :
    p ∈ n.placed enclosing ↔
      p = ⟨n, enclosing⟩ ∨ ∃ m ∈ n.children, p ∈ m.placed (n :: enclosing) := by
  rw [placed_eq, List.mem_cons, List.mem_flatMap]

theorem mem_placed_self (n : Node) (enclosing : List Node) :
    ⟨n, enclosing⟩ ∈ n.placed enclosing :=
  mem_placed.mpr (.inl rfl)

theorem mem_placed_child {n m : Node} (h : m ∈ n.children) (enclosing : List Node) :
    ⟨m, n :: enclosing⟩ ∈ n.placed enclosing :=
  mem_placed.mpr (.inr ⟨m, h, mem_placed_self m _⟩)

/-- The entries below an entry are entries, too. -/
theorem placed_subset {p : Placed} (n : Node) : ∀ {enclosing : List Node},
    p ∈ n.placed enclosing → p.node.placed p.enclosing ⊆ n.placed enclosing := by
  induction n using induction_children with
  | step n ih =>
    intro enclosing h
    rcases mem_placed.mp h with rfl | ⟨m, hm, h⟩
    · exact List.Subset.refl _
    · exact fun q hq => mem_placed.mpr (.inr ⟨m, hm, ih m hm h hq⟩)

/-- What was around a tree is around all of its nodes, and the tree itself is around all of them
but itself. -/
theorem enclosing_of_mem_placed {p : Placed} (n : Node) : ∀ {enclosing : List Node},
    p ∈ n.placed enclosing → p = ⟨n, enclosing⟩ ∨ n :: enclosing <:+ p.enclosing := by
  induction n using induction_children with
  | step n ih =>
    intro enclosing h
    refine (mem_placed.mp h).imp_right ?_
    rintro ⟨m, hm, h⟩
    rcases ih m hm h with rfl | suffix
    · exact List.suffix_refl _
    · exact (List.suffix_cons _ _).trans suffix

/-- **A walk comes to the nodes of the index**, to each with its members.  The members of a class
come after the class, and no other node has members. -/
theorem walk_eq_flatMap (n : Node) : ∀ enclosing : List Node,
    n.walk = (n.placed enclosing).flatMap fun p => p.node :: p.node.members := by
  induction n using induction_children with
  | step n ih =>
    intro enclosing
    have below : walkAll n.children = (n.children.flatMap (placed (n :: enclosing))).flatMap
        fun p => p.node :: p.node.members := by
      rw [walkAll_eq_flatMap, List.flatMap_assoc]
      exact List.flatMap_congr fun m hm => ih m hm (n :: enclosing)
    rw [walk_eq, placed_eq, List.flatMap_cons, below, List.cons_append]

/-- A node of the index is one that the walk comes to. -/
theorem mem_walk_of_mem_placed (n : Node) {enclosing : List Node} {p : Placed}
    (h : p ∈ n.placed enclosing) : p.node ∈ n.walk := by
  rw [walk_eq_flatMap n enclosing]
  exact List.mem_flatMap.mpr ⟨p, h, List.mem_cons_self⟩

/-- Every node of the tree has a place in the index, except that members of classes have none. -/
theorem exists_placed {m : Node} (hm : ∀ a, m ≠ atom a) (n : Node) (enclosing : List Node)
    (h : m ∈ n.walk) : ∃ p ∈ n.placed enclosing, p.node = m := by
  rw [walk_eq_flatMap n enclosing, List.mem_flatMap] at h
  obtain ⟨p, hp, h⟩ := h
  rcases List.mem_cons.mp h with rfl | member
  · exact ⟨p, hp, rfl⟩
  · obtain ⟨a, rfl⟩ := exists_atom_of_mem_members member
    exact absurd rfl (hm a)

/-- The index lists nodes in the order of the walk, leaving members of classes out. -/
theorem placed_sublist (n : Node) (enclosing : List Node) :
    ((n.placed enclosing).map (·.node)).Sublist n.walk := by
  rw [walk_eq_flatMap n enclosing]
  induction n.placed enclosing with
  | nil => exact List.Sublist.refl _
  | cons p ps ih => exact (ih.trans (List.sublist_append_right _ _)).cons_cons p.node

/-- What is around a node has the node in it. -/
theorem mem_walk_of_mem_enclosing {p : Placed} {m : Node} (n : Node) :
    ∀ {enclosing : List Node}, p ∈ n.placed enclosing → m ∈ p.enclosing →
      m ∈ enclosing ∨ m ∈ n.walk ∧ p.node ∈ m.walk := by
  induction n using induction_children with
  | step n ih =>
    intro enclosing h hm
    rcases mem_placed.mp h with rfl | ⟨k, hk, below⟩
    · exact .inl hm
    · rcases ih k hk below hm with hm | ⟨hm, hp⟩
      · rcases List.mem_cons.mp hm with rfl | hm
        · exact .inr ⟨mem_walk_self _, mem_walk_of_mem_placed _ h⟩
        · exact .inl hm
      · exact .inr ⟨walk_subset_of_mem_children hk hm, hp⟩

end Node

end Backtrack
