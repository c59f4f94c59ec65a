/-
# Which nodes are written

A tree is written under a revision by going from node to node, and into the bodies of groups to copy
them.  Here is the same with a test put before every node that is come to, the members of classes
included; writing stops at the first node that does not pass (`Revision.visit`).  What is left out
is not come to.

However the test is chosen, it makes no difference if the nodes of the tree pass it
(`Revision.visit_eq`).  So only those are written: the copies are of bodies of the tree as well.
-/
import Backtrack.Proofs.Pattern.Suited

namespace Backtrack

namespace Revision

/-- Goes on at a node that passes. -/
def demand {α : Type} (test : Node → Bool) (n : Node) (written : Except Node α) : Except Node α :=
  if test n then written else .error n

theorem demand_of_test {α : Type} {test : Node → Bool} {n : Node} (h : test n = true)
    (written : Except Node α) : demand test n written = written :=
  if_pos h

mutual

/-- The tokens of a tree while some groups are being copied, or the first node that fails the
test. -/
def visit (w : Revision) (test : Node → Bool) (kept copying : List Nat) :
    Node → Except Node (List Piece)
  | .atom a =>
    match (Node.atom a).walk.find? (!test ·) with
    | some m => .error m
    | none => .ok [⟨.leaf a.shape, false⟩]
  | .anchor s k => demand test (.anchor s k) (.ok [⟨.anchor k, false⟩])
  | .reference r =>
    demand test (.reference r) (
      if _hc : copying.contains r.index then .ok emptyGroup
      else
        match _h : w.find? r with
        | some s =>
          (visit w test kept (r.index :: copying) s.body).map fun ps =>
            ⟨.opening .nonCapture [], s.atomic⟩ :: (ps ++ [⟨.closing, false⟩])
        | none => .ok [⟨referenceToken kept copying r, false⟩])
  | .group g body =>
    if w.omitted.contains g.site.id then .ok []
    else
      demand test (.group g body) ((visit w test kept copying body).map fun ps =>
        ⟨openingToken copying g, false⟩ :: (ps ++ [⟨.closing, false⟩]))
  | .quantifier q body =>
    demand test (.quantifier q body) ((visit w test kept copying body).map fun ps =>
      ps ++ [⟨.count q.count, false⟩])
  | .sequence s ns => demand test (.sequence s ns) (visitAll w test kept copying ns)
  | .alternation s ns => demand test (.alternation s ns) (visitBetween w test kept copying ns)
termination_by n => ((w.available copying).length, sizeOf n)
decreasing_by
  all_goals first
    | exact Prod.Lex.left _ _ (available_lt _h _hc)
    | (apply Prod.Lex.right; simp only [Node.group.sizeOf_spec, Node.quantifier.sizeOf_spec,
        Node.sequence.sizeOf_spec, Node.alternation.sizeOf_spec]; omega)

/-- The same for several trees in a row. -/
def visitAll (w : Revision) (test : Node → Bool) (kept copying : List Nat) :
    List Node → Except Node (List Piece)
  | [] => .ok []
  | n :: ns =>
    (visit w test kept copying n).bind fun ps =>
      (visitAll w test kept copying ns).map fun qs => ps ++ qs
termination_by ns => ((w.available copying).length, sizeOf ns)
decreasing_by
  all_goals (apply Prod.Lex.right; simp only [List.cons.sizeOf_spec]; omega)

/-- The same for several trees with bars between them. -/
def visitBetween (w : Revision) (test : Node → Bool) (kept copying : List Nat) :
    List Node → Except Node (List Piece)
  | [] => .ok []
  | [n] => visit w test kept copying n
  | n :: m :: ns =>
    (visit w test kept copying n).bind fun ps =>
      (visitBetween w test kept copying (m :: ns)).map fun qs => ps ++ ⟨.bar, false⟩ :: qs
termination_by ns => ((w.available copying).length, sizeOf ns)
decreasing_by
  all_goals (apply Prod.Lex.right; simp only [List.cons.sizeOf_spec, List.nil.sizeOf_spec]; omega)

end

variable {test : Node → Bool} {w : Revision} {kept copying : List Nat}

/-- Whether trees are written in full while some groups are being copied, if all of their nodes pass
the test. -/
def Passes (w : Revision) (test : Node → Bool) (kept copying : List Nat) : Prop :=
  ∀ n : Node, (∀ m ∈ n.walk, test m = true) →
    w.visit test kept copying n = .ok (w.pieces kept copying n)

mutual

theorem visit_step (bodies : ∀ r s, w.find? r = some s → ∀ m ∈ s.body.walk, test m = true)
    (ih : w.Copies copying (w.Passes test kept)) : ∀ n : Node, (∀ m ∈ n.walk, test m = true) →
      w.visit test kept copying n = .ok (w.pieces kept copying n)
  | .atom a, h => by
    have none : (Node.atom a).walk.find? (!test ·) = none :=
      List.find?_eq_none.mpr fun m hm => by simp [h m hm]
    rw [visit, none, pieces]
  | .anchor s k, h => by
    rw [visit, pieces, demand_of_test (h _ (Node.mem_walk_self _))]
  | .reference r, h => by
    rw [visit, demand_of_test (h _ (Node.mem_walk_self _))]
    by_cases hc : copying.contains r.index = true
    · rw [dif_pos hc, pieces_copied hc]
    rw [dif_neg hc]
    split
    · rename_i s hs
      rw [ih r s hc hs s.body (bodies r s hs), pieces_copy hc hs]
      rfl
    · rename_i hs
      rw [pieces_kept hc hs]
  | .group g body, h => by
    rw [visit, pieces]
    split
    · rfl
    · rw [demand_of_test (h _ (Node.mem_walk_self _)),
        visit_step bodies ih body fun m hm => h m (List.mem_cons_of_mem _ hm)]
      rfl
  | .quantifier q body, h => by
    rw [visit, pieces, demand_of_test (h _ (Node.mem_walk_self _)),
      visit_step bodies ih body fun m hm => h m (List.mem_cons_of_mem _ hm)]
    rfl
  | .sequence s ns, h => by
    rw [visit, pieces, demand_of_test (h _ (Node.mem_walk_self _))]
    exact visitAll_step bodies ih ns fun m hm => h m (List.mem_cons_of_mem _ hm)
  | .alternation s ns, h => by
    rw [visit, pieces, demand_of_test (h _ (Node.mem_walk_self _))]
    exact visitBetween_step bodies ih ns fun m hm => h m (List.mem_cons_of_mem _ hm)

theorem visitAll_step (bodies : ∀ r s, w.find? r = some s → ∀ m ∈ s.body.walk, test m = true)
    (ih : w.Copies copying (w.Passes test kept)) : ∀ ns : List Node,
      (∀ m ∈ Node.walkAll ns, test m = true) →
      w.visitAll test kept copying ns = .ok (w.piecesAll kept copying ns)
  | [], _ => by rw [visitAll, piecesAll]
  | n :: ns, h => by
    obtain ⟨hn, hns⟩ := List.forall_mem_append.mp h
    rw [visitAll, piecesAll, visit_step bodies ih n hn, visitAll_step bodies ih ns hns]
    rfl

theorem visitBetween_step (bodies : ∀ r s, w.find? r = some s → ∀ m ∈ s.body.walk, test m = true)
    (ih : w.Copies copying (w.Passes test kept)) : ∀ ns : List Node,
      (∀ m ∈ Node.walkAll ns, test m = true) →
      w.visitBetween test kept copying ns = .ok (w.piecesBetween kept copying ns)
  | [], _ => by rw [visitBetween, piecesBetween]
  | [n], h => by
    obtain ⟨hn, -⟩ := List.forall_mem_append.mp h
    rw [visitBetween, piecesBetween, visit_step bodies ih n hn]
  | n :: m :: ns, h => by
    obtain ⟨hn, hns⟩ := List.forall_mem_append.mp h
    rw [visitBetween, piecesBetween, visit_step bodies ih n hn,
      visitBetween_step bodies ih (m :: ns) hns]
    rfl

end

/-- **Only nodes of the tree are written**: a test that they pass makes no difference.  The test
would stop at the first node that is none of the tree, and there is no such node. -/
theorem visit_eq {root : Node} (respects : w.Respects root)
    (passed : ∀ m ∈ root.walk, test m = true) :
    w.visit test kept [] root = .ok (w.pieces kept [] root) := by
  have bodies : ∀ r s, w.find? r = some s → ∀ m ∈ s.body.walk, test m = true := by
    intro r s hs m hm
    obtain ⟨g, hg, -, -⟩ := respects.target r s hs
    exact passed m ((Node.below_of_mem hg).group m hm)
  exact w.copying_induction (fun _ ih => visit_step bodies ih) [] root passed

end Revision

end Backtrack
