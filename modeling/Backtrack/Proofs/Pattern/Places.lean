/-
# Places in a tree

The index lists the nodes of a tree together with the nodes around them.  Since no two nodes have
the same number, what the index finds under the number of a node is that node with all that is
around it (`Index.find?_of_mem`), and a node is an element of one sequence or the body of one
quantifier, but not both (`Node.ne_element`).

So the questions asked of an index are questions about the tree: what lies in the body of a group
has the group around it (`Index.mem_enclosing_of_mem_walk`), and what is around a node has the
node in it (`Index.mem_walk_of_mem_enclosing`).
-/
import Mathlib.Data.List.Nodup
import Backtrack.Pattern.Downgrade
import Backtrack.Proofs.Derivation.Memory

namespace Backtrack

/-! ## 1. Distinct numbers -/

/-- No two nodes of the tree have the same number. -/
def Node.IsDistinct (root : Node) : Prop := (root.walk.map Node.id).Nodup

namespace Index

variable {root : Node}

/-- Entries with the same number are the same entry. -/
theorem eq_of_id (h : root.IsDistinct) {p q : Placed} (hp : p ∈ (ofNode root).nodes)
    (hq : q ∈ (ofNode root).nodes) (hid : p.node.id = q.node.id) : p = q := by
  have nodup : ((root.placed []).map (·.node.id)).Nodup := by
    have := ((Node.placed_sublist root []).map Node.id).nodup h
    rwa [List.map_map] at this
  exact List.inj_on_of_nodup_map nodup hp hq hid

/-- **The index finds a node with what is around it.**  The index lists all nodes, and no two of
them have the same number. -/
theorem find?_of_mem (h : root.IsDistinct) {p : Placed} (hp : p ∈ (ofNode root).nodes) :
    (ofNode root).find? p.node.id = some p := by
  cases hf : (ofNode root).find? p.node.id with
  | none =>
    have := List.find?_eq_none.mp hf p hp
    simp at this
  | some q =>
    have hq := List.find?_some hf
    rw [eq_of_id h (List.mem_of_find?_eq_some hf) hp (by simpa using hq)]

theorem enclosing_of_mem (h : root.IsDistinct) {p : Placed} (hp : p ∈ (ofNode root).nodes) :
    (ofNode root).enclosing p.node.id = p.enclosing := by
  rw [enclosing, find?_of_mem h hp]
  rfl

end Index

namespace Node

variable {root : Node}

/-- Nodes with the same number are the same node. -/
theorem eq_of_id (h : root.IsDistinct) {m n : Node} (hm : m ∈ root.walk) (hn : n ∈ root.walk)
    (hid : m.id = n.id) : m = n :=
  List.inj_on_of_nodup_map h hm hn hid

/-- The body of a quantifier is no element of a sequence: what is around a node is around it
once. -/
theorem ne_element (h : root.IsDistinct) {q : Quantifier} {s : Site} {body m : Node}
    {ns : List Node} (hq : quantifier q body ∈ root.walk) (hs : sequence s ns ∈ root.walk)
    (hm : m ∈ ns) : body.id ≠ m.id := by
  intro hid
  obtain ⟨p, hp, hpn⟩ := exists_placed (by simp) root [] hq
  obtain ⟨p', hp', hpn'⟩ := exists_placed (by simp) root [] hs
  have below : ⟨body, quantifier q body :: p.enclosing⟩ ∈ (Index.ofNode root).nodes := by
    refine placed_subset root hp ?_
    rw [hpn]
    exact mem_placed_child List.mem_cons_self _
  have below' : ⟨m, sequence s ns :: p'.enclosing⟩ ∈ (Index.ofNode root).nodes := by
    refine placed_subset root hp' ?_
    rw [hpn']
    exact mem_placed_child hm _
  have := congrArg (fun p => p.enclosing.head?) (Index.eq_of_id h below below' hid)
  simp at this

end Node

/-! ## 2. Quantifiers and references -/

/-- The quantifiers among some nodes. -/
def quantifiersIn (ns : List Node) : List Quantifier :=
  ns.filterMap fun
    | .quantifier q _ => some q
    | _ => none

theorem quantifiersIn_append (ns ms : List Node) :
    quantifiersIn (ns ++ ms) = quantifiersIn ns ++ quantifiersIn ms := List.filterMap_append

/-- What is picked out of a list has the names that it has there. -/
theorem map_filterMap_sublist {α β γ : Type} {pick : α → Option β} {name : β → γ} {name' : α → γ}
    (same : ∀ a b, pick a = some b → name b = name' a) :
    ∀ as : List α, ((as.filterMap pick).map name).Sublist (as.map name')
  | [] => .slnil
  | a :: as => by
    have ih := map_filterMap_sublist same as
    rw [List.filterMap_cons]
    split
    · exact ih.cons _
    · rename_i b hb
      rw [List.map_cons, List.map_cons, same a b hb]
      exact ih.cons_cons _

theorem map_quantifiersIn_sublist (ns : List Node) :
    ((quantifiersIn ns).map (·.site.id)).Sublist (ns.map Node.id) := by
  refine map_filterMap_sublist (fun n q h => ?_) ns
  split at h
  · obtain rfl := Option.some.inj h
    rfl
  · cases h

theorem Downgrade.map_references_sublist (root : Node) :
    ((references root).map (·.site.id)).Sublist (root.walk.map Node.id) := by
  refine map_filterMap_sublist (fun n r h => ?_) root.walk
  split at h
  · obtain rfl := Option.some.inj h
    rfl
  · cases h

/-! ## 3. Questions -/

namespace Index

variable {root : Node}

/-- **What lies in the body of a group has the group around it.** -/
theorem mem_enclosing_of_mem_walk (h : root.IsDistinct) {g : Group} {body n : Node}
    (hg : .group g body ∈ root.walk) (hn : n ∈ body.walk) (ha : ∀ a, n ≠ .atom a) :
    .group g body ∈ (ofNode root).enclosing n.id := by
  obtain ⟨p, hp, hpn⟩ := Node.exists_placed (by simp) root [] hg
  obtain ⟨q, hq, rfl⟩ := Node.exists_placed ha body (.group g body :: p.enclosing) hn
  have mem : q ∈ (ofNode root).nodes := by
    refine Node.placed_subset root hp ?_
    rw [hpn]
    exact Node.mem_placed.mpr (.inr ⟨body, List.mem_cons_self, hq⟩)
  rw [enclosing_of_mem h mem]
  rcases Node.enclosing_of_mem_placed body hq with rfl | suffix
  · exact List.mem_cons_self
  · exact suffix.subset (List.mem_cons_of_mem _ List.mem_cons_self)

/-- **What is around a node has the node in it.** -/
theorem mem_walk_of_mem_enclosing (h : root.IsDistinct) {n m : Node} (hn : n ∈ root.walk)
    (ha : ∀ a, n ≠ .atom a) (hm : m ∈ (ofNode root).enclosing n.id) :
    m ∈ root.walk ∧ n ∈ m.walk := by
  obtain ⟨p, hp, rfl⟩ := Node.exists_placed ha root [] hn
  rw [enclosing_of_mem h hp] at hm
  exact (Node.mem_walk_of_mem_enclosing root hp hm).resolve_left (by simp)

/-- A reference lies in a group when it lies in its body. -/
theorem contains_iff (h : root.IsDistinct) {g : Group} {body : Node} {r : Reference}
    (hg : .group g body ∈ root.walk) (hr : .reference r ∈ root.walk) :
    (ofNode root).contains g.site.id r.site.id = true ↔ .reference r ∈ body.walk := by
  have ne : g.site.id ≠ r.site.id := by
    intro hid
    cases Node.eq_of_id h hg hr hid
  rw [contains, Bool.or_eq_true, beq_iff_eq, List.any_eq_true]
  constructor
  · rintro (hid | ⟨m, hm, hid⟩)
    · exact absurd hid ne
    · obtain ⟨hmr, hrm⟩ := mem_walk_of_mem_enclosing h hr (by simp) hm
      obtain rfl := Node.eq_of_id h hmr hg (beq_iff_eq.mp hid)
      exact (List.mem_cons.mp hrm).resolve_left (by simp)
  · intro hb
    exact .inr ⟨_, mem_enclosing_of_mem_walk h hg hb (by simp), beq_self_eq_true _⟩

/-- The lookarounds around a node. -/
theorem mem_lookarounds {x : Index} {id : Nat} {look : Group} :
    look ∈ x.lookarounds id ↔ look.isLookaround = true ∧ ∃ b, .group look b ∈ x.enclosing id := by
  rw [lookarounds, List.mem_reverse, List.mem_filterMap]
  constructor
  · rintro ⟨n, hn, he⟩
    split at he
    · rename_i g b
      split at he
      · rename_i hl
        obtain rfl := Option.some.inj he
        exact ⟨hl, b, hn⟩
      · cases he
    · cases he
  · rintro ⟨hl, b, hb⟩
    exact ⟨_, hb, by simp [hl]⟩

/-- A group that is found is in the tree, and captures under the number asked for. -/
theorem mem_of_group? {i : Nat} {g : Group} {body : Node}
    (h : (ofNode root).group? i = some (g, body)) :
    .group g body ∈ root.walk ∧ g.isCapture = true ∧ g.index = i := by
  obtain ⟨p, hp, hg⟩ := List.exists_of_findSome?_eq_some h
  have mem := Node.mem_walk_of_mem_placed root hp
  split at hg
  · rename_i hn
    split at hg
    · rename_i hc
      obtain ⟨rfl, rfl⟩ := Prod.mk.inj (Option.some.inj hg)
      rw [Bool.and_eq_true, beq_iff_eq] at hc
      exact ⟨hn ▸ mem, hc⟩
    · cases hg
  · cases hg

end Index

/-- A group in the body of a positive lookaround is behind it. -/
theorem Downgrade.behindPositiveLookaround_of_mem {root : Node} (h : root.IsDistinct)
    {look g : Group} {b body : Node} (hl : .group look b ∈ root.walk)
    (hk : look.isLookaround = true) (hp : look.kind.isNegative = false)
    (hg : .group g body ∈ b.walk) :
    behindPositiveLookaround (Index.ofNode root) g = true := by
  rw [behindPositiveLookaround, List.any_eq_true]
  refine ⟨look, Index.mem_lookarounds.mpr ⟨hk, b, ?_⟩, by rw [hp]; rfl⟩
  exact Index.mem_enclosing_of_mem_walk h hl hg (by simp)

end Backtrack
