/-
# When a report says that a pattern was downgraded

A report compares two sources, that of the pattern and that of what was searched, and downgrading
says by itself whether it has replaced anything.  Where it has not, it hands on the pattern and so
its source.  Where it has, the sources must differ, and that is not plain: a copy may be as long as
what it replaces, and what is left out may hold more than what is put in.

What tells the two apart are the groups that capture nothing.  Every reference that is replaced
becomes one.  None is lost: a lookahead is left out only if the reference right after it becomes a
copy of what the lookahead holds, and the copy has its groups (`Downgrade.countP_le`).  A text has
as many of them as its tree, so the revised text is another one than that of the tree
(`Pattern.textOf_written_ne`).
-/
import Backtrack.Proofs.Pattern.Ancestors
import Backtrack.Proofs.Pattern.Downgrading
import Backtrack.Proofs.Pattern.Openings
import Backtrack.Report.Basic

namespace Backtrack

/-! ## 1. Walks in walks

To count in a tree what stands in one place and is written in another, walks are compared as lists
that contain each other. -/

namespace Node

theorem sublist_walkAll (ns : List Node) : ns.Sublist (walkAll ns) := by
  induction ns with
  | nil => exact List.Sublist.refl _
  | cons n ns ih =>
    rw [walkAll, walk_eq, List.cons_append]
    exact (ih.trans (List.sublist_append_right _ _)).cons_cons n

/-- The walk from a child is part of the walk from the parent. -/
theorem sublist_walk_of_mem_children {n m : Node} (h : m ∈ n.children) :
    m.walk.Sublist n.walk := by
  obtain ⟨before, after, split⟩ := List.append_of_mem h
  rw [walk_eq n, split, walkAll_append, walkAll]
  exact (((List.sublist_append_left _ _).trans (List.sublist_append_right _ _)).trans
    (List.sublist_append_right _ _)).cons _

theorem Has.sublist {n m : Node} (h : n.Has m) : m.walk.Sublist n.walk := by
  obtain ⟨as, above⟩ := h
  induction above with
  | root => exact List.Sublist.refl _
  | child _ hm ih => exact (sublist_walk_of_mem_children hm).trans ih

variable {root : Node}

theorem IsDistinct.of_has (h : root.IsDistinct) {n : Node} (hn : root.Has n) : n.IsDistinct :=
  (hn.sublist.map id).nodup h

/-- What a node has if everything below it has it, every node has. -/
theorem induction_below {P : Node → Prop}
    (step : ∀ n, (∀ c ∈ n.children, ∀ m, c.Has m → P m) → P n) (n : Node) : P n := by
  have all : ∀ m, n.Has m → P m := by
    induction n using induction_children with
    | step n ih =>
      have own : P n := step n fun c hc m hm => ih c hc m hm
      intro m hm
      rcases hm.root_or_child with rfl | ⟨c, hc, hm⟩
      · exact own
      · exact ih c hc m hm
  exact all n n.has_root

end Node

/-! ## 2. What is counted

Counted are the groups that capture nothing, and the references that will become such groups. -/

/-- Whether a node is a group that captures nothing. -/
def Node.isNonCapture : Node → Bool
  | .group g _ => g.kind == .nonCapture
  | _ => false

/-- Whether a node stands for a group that captures nothing, as it is or once it is replaced. -/
def Revision.becomesNonCapture (w : Revision) : Node → Bool
  | .reference r => (w.find? r).isSome
  | n => n.isNonCapture

/-- The groups of a tree that capture nothing are openings of that kind. -/
theorem Node.countP_isNonCapture (n : Node) :
    n.walk.countP isNonCapture = (n.tokens.filterMap Token.kind?).count .nonCapture := by
  rw [filterMap_kind?_tokens, List.count_eq_countP, List.countP_map, groupsIn,
    List.countP_filterMap]
  congr 1
  funext m
  cases m <;> simp [isNonCapture]

/-- As many are counted in one walk as in another if that holds below, and of the nodes on top. -/
theorem Node.countP_cons_le {f f' : Node → Bool} {n n' : Node} {ns ns' : List Node}
    (top : f n = true → f' n' = true) (below : ns.countP f ≤ ns'.countP f') :
    (n :: ns).countP f ≤ (n' :: ns').countP f' := by
  rw [List.countP_cons, List.countP_cons]
  by_cases h : f n = true
  · rw [if_pos h, if_pos (top h)]
    omega
  · rw [if_neg h]
    omega

/-- In a leaf there is nothing to count. -/
theorem Node.countP_walk_atom {f : Node → Bool} (h : ∀ b, f (.atom b) = false) (a : Atom) :
    (atom a).walk.countP f = 0 := by
  refine List.countP_eq_zero.mpr fun m hm => ?_
  obtain ⟨b, rfl⟩ := exists_atom_of_mem_walk hm
  simp [h b]

namespace Downgrade

/-! ## 3. Pairs among elements

A lookahead is left out only together with a reference that is replaced right behind it.  So in a
sequence the loss of the one can be set off against the other. -/

variable {root n : Node} {ns : List Node}

/-- The number of a pair is that of its first node. -/
theorem id_of_atomicPair? {a b : Node} {pair : AtomicPair} (h : atomicPair? a b = some pair) :
    pair.lookahead.site.id = a.id := by
  obtain ⟨capture, rfl, -⟩ := atomicPair?_eq_some h
  rfl

/-- A pair among some elements is made of the first two, or is among the others. -/
theorem mem_pairsIn_cons {pair : AtomicPair} :
    pair ∈ pairsIn (n :: ns) ↔
      (∃ m rest, ns = m :: rest ∧ atomicPair? n m = some pair) ∨ pair ∈ pairsIn ns := by
  cases ns with
  | nil => simp [pairsIn]
  | cons m rest => simp [pairsIn]

/-- Whether what is left out of some elements of a tree stands right before its reference. -/
structure Answered (root : Node) (ns : List Node) : Prop where
  distinct : (ns.map Node.id).Nodup
  known : ∀ pair ∈ pairsIn ns, pair ∈ atomicPairs root
  paired : ∀ n ∈ ns, (revisionOf root).omits n = true →
    ∃ pair ∈ pairsIn ns, pair.lookahead.site.id = n.id

theorem Answered.tail (h : Answered root (n :: ns)) : Answered root ns := by
  obtain ⟨fresh, distinct⟩ := List.nodup_cons.mp h.distinct
  refine ⟨distinct, fun pair hp => h.known pair (mem_pairsIn_cons.mpr (.inr hp)), fun m hm ho => ?_⟩
  obtain ⟨pair, hp, hid⟩ := h.paired m (List.mem_cons_of_mem _ hm) ho
  rcases mem_pairsIn_cons.mp hp with ⟨m', rest, rfl, he⟩ | hp
  · rw [id_of_atomicPair? he] at hid
    exact absurd (hid ▸ List.mem_map_of_mem hm) fresh
  · exact ⟨pair, hp, hid⟩

/-- After what is left out comes its reference. -/
theorem Answered.head (h : Answered root (n :: ns)) (ho : (revisionOf root).omits n = true) :
    ∃ pair ∈ atomicPairs root, ∃ m rest, ns = m :: rest ∧ atomicPair? n m = some pair := by
  obtain ⟨fresh, -⟩ := List.nodup_cons.mp h.distinct
  obtain ⟨pair, hp, hid⟩ := h.paired n List.mem_cons_self ho
  rcases mem_pairsIn_cons.mp hp with neighbour | hp'
  · exact ⟨pair, h.known pair hp, neighbour⟩
  · obtain ⟨a, ha, b, -, he⟩ := exists_of_mem_pairsIn hp'
    rw [id_of_atomicPair? he] at hid
    exact absurd (hid ▸ List.mem_map_of_mem ha) fresh

/-- In a tree everything that is left out is answered. -/
theorem answered_of_has (h : root.IsDistinct) {s : Site} (hs : root.Has (.sequence s ns)) :
    Answered root ns := by
  refine ⟨((Node.sublist_walkAll ns).map Node.id).nodup (List.nodup_cons.mp (h.of_has hs)).2,
    fun pair hp => List.mem_flatMap.mpr ⟨_, hs.mem, hp⟩, fun n hn ho => ?_⟩
  have mem := (hs.child hn).mem
  cases n with
  | group g body =>
    rw [Revision.omits, List.contains_iff_mem] at ho
    obtain ⟨pair, hp, hid⟩ := List.mem_map.mp ho
    obtain ⟨k, hk, hp⟩ := List.mem_flatMap.mp hp
    split at hp
    · rename_i s' ns'
      have hs' : root.Has (.sequence s' ns') := Node.has_of_mem hk (by simp)
      obtain ⟨a, ha, b, -, he⟩ := exists_of_mem_pairsIn hp
      -- The node has one parent, so the sequence of the pair is this one.
      obtain rfl := Node.eq_of_id h (hs'.child ha).mem mem ((id_of_atomicPair? he).symm.trans hid)
      obtain ⟨-, rfl⟩ := Node.sequence.inj (Node.parent_unique h hs' hs ha hn)
      exact ⟨pair, hp, hid⟩
    · cases hp
  | _ => cases ho

/-- Nothing is left out but elements of sequences. -/
theorem omits_child (h : root.IsDistinct) {m : Node} (hm : root.Has m) (hn : n ∈ m.children)
    (other : ∀ s ns, m ≠ .sequence s ns) : (revisionOf root).omits n = false := by
  refine Bool.eq_false_iff.mpr fun ho => ?_
  obtain ⟨look, body, s, ns, -, -, hs, hns⟩ := exists_of_omits h (hm.child hn).mem ho
  exact other s ns (Node.parent_unique h hm (Node.has_of_mem hs (by simp)) hn hns)

theorem omits_root (h : root.IsDistinct) : (revisionOf root).omits root = false := by
  refine Bool.eq_false_iff.mpr fun ho => ?_
  obtain ⟨look, body, s, ns, -, -, hs, hns⟩ := exists_of_omits h root.mem_walk_self ho
  obtain ⟨as, above⟩ := Node.has_of_mem hs (by simp)
  cases (above.child hns).unique h .root

/-- The reference of a pair is replaced by the body of the pair. -/
theorem find?_of_pair (h : root.IsDistinct) (captures : (captureIndexes root.walk).Nodup)
    {pair : AtomicPair} (hp : pair ∈ atomicPairs root) :
    ∃ s, (revisionOf root).find? pair.reference = some s ∧ s.body = pair.body := by
  obtain ⟨s, hs, -⟩ := exists_atomic_of_pair hp
  obtain ⟨g, hg, hc, hi⟩ := target_of_find? hs
  obtain ⟨t, ns, capture, ht, hl, -, -, hc', hi'⟩ := exists_of_mem_atomicPairs hp
  have hm := (Node.below_of_mem (mem_walk_of_element ht hl)).group.mem
  have found := (Index.group?_eq_some_iff h captures).mpr ⟨hg, hc, hi⟩
  have found' := (Index.group?_eq_some_iff h captures).mpr ⟨hm, hc', hi'⟩
  exact ⟨s, hs, congrArg Prod.snd (Option.some.inj (found.symm.trans found'))⟩

/-! ## 4. No group is lost

The induction is over the tree, with the groups that are being copied as a parameter.  None of
them is in the node, so that no copy in it is cut short.  In a sequence a pair is counted as a
whole. -/

/-- Whether as many groups that capture nothing are written for a node as it stands for.  The groups
that are being copied are not in the node. -/
def Keeps (root : Node) (kept : List Nat) (n : Node) : Prop :=
  ∀ copying, root.Has n → (revisionOf root).omits n = false →
    (captureIndexes n.walk).Disjoint copying →
      n.walk.countP (revisionOf root).becomesNonCapture ≤
        ((revisionOf root).revised kept copying n).walk.countP Node.isNonCapture

variable {kept copying : List Nat}

theorem disjoint_walkAll (free : (captureIndexes (Node.walkAll (n :: ns))).Disjoint copying) :
    (captureIndexes n.walk).Disjoint copying ∧
      (captureIndexes (Node.walkAll ns)).Disjoint copying := by
  rwa [Node.captureIndexes_walkAll_cons, List.disjoint_append_left] at free

theorem disjoint_child {m : Node} (hm : m ∈ n.children)
    (free : (captureIndexes n.walk).Disjoint copying) :
    (captureIndexes m.walk).Disjoint copying :=
  List.disjoint_of_subset_left ((Node.sublist_walk_of_mem_children hm).filterMap _).subset free

/-- **A pair becomes a copy of what it holds**, which is one group more. -/
theorem countP_pair (h : root.IsDistinct) (captures : (captureIndexes root.walk).Nodup)
    {m : Node} {pair : AtomicPair} (hp : pair ∈ atomicPairs root)
    (he : atomicPair? n m = some pair) (hn : root.Has n)
    (ih : ∀ k, n.Has k → Keeps root kept k) (free : (captureIndexes n.walk).Disjoint copying) :
    (revisionOf root).omits m = false ∧
      n.walk.countP (revisionOf root).becomesNonCapture +
          m.walk.countP (revisionOf root).becomesNonCapture ≤
        ((revisionOf root).revised kept copying m).walk.countP Node.isNonCapture := by
  obtain ⟨capture, rfl, rfl, look, hc, hi⟩ := atomicPair?_eq_some he
  obtain ⟨s, hs, body⟩ := find?_of_pair h captures hp
  have inner := disjoint_child List.mem_cons_self free
  have hg : (Node.group pair.lookahead (.group capture pair.body)).Has (.group capture pair.body) :=
    (Node.has_root _).child List.mem_cons_self
  have hcapture : root.Has (.group capture pair.body) := hn.child List.mem_cons_self
  -- The group is not being copied, and no group in it has its number.
  have index : captureIndexes (Node.group capture pair.body).walk =
      capture.index :: captureIndexes pair.body.walk := by
    rw [Node.captureIndexes_group, if_pos hc]
    rfl
  have nodup := (hcapture.sublist.filterMap _).nodup captures
  change (captureIndexes _).Nodup at nodup
  rw [index] at inner nodup
  rw [hi] at inner nodup
  obtain ⟨fresh, -⟩ := List.nodup_cons.mp nodup
  obtain ⟨outside, inner⟩ := List.disjoint_cons_left.mp inner
  have copy := ih pair.body (hg.child List.mem_cons_self) (pair.reference.index :: copying)
    (hcapture.child List.mem_cons_self)
    (omits_child h hcapture List.mem_cons_self (by simp))
    (List.disjoint_cons_right.mpr ⟨fresh, inner⟩)
  have lookahead : (revisionOf root).becomesNonCapture
      (.group pair.lookahead (.group capture pair.body)) = false := by
    simp [Revision.becomesNonCapture, Node.isNonCapture, look]
  have plain : (revisionOf root).becomesNonCapture (.group capture pair.body) = false := by
    simp only [Group.isCapture, beq_iff_eq] at hc
    simp [Revision.becomesNonCapture, Node.isNonCapture, hc]
  have replaced : (revisionOf root).becomesNonCapture (.reference pair.reference) = true := by
    simp [Revision.becomesNonCapture, hs]
  refine ⟨rfl, ?_⟩
  rw [Revision.revised_copy (by simpa using outside) hs, body]
  simp only [Node.walk, List.countP_cons, List.countP_nil, lookahead, plain, replaced,
    Node.isNonCapture, beq_self_eq_true, if_true]
  simpa using copy

/-- In a sequence no group is lost: what is left out is counted with the reference after it. -/
theorem countP_revisedAll (h : root.IsDistinct) (captures : (captureIndexes root.walk).Nodup) :
    ∀ ns : List Node, Answered root ns → (∀ n ∈ ns, root.Has n) →
      (∀ n ∈ ns, ∀ k, n.Has k → Keeps root kept k) →
      (captureIndexes (Node.walkAll ns)).Disjoint copying →
      (Node.walkAll ns).countP (revisionOf root).becomesNonCapture ≤
        (Node.walkAll ((revisionOf root).revisedAll kept copying ns)).countP Node.isNonCapture
  | [], _, _, _, _ => by simp [Node.walkAll]
  | n :: ns, answered, has, ih, free => by
    obtain ⟨own, others⟩ := disjoint_walkAll free
    have hn := List.mem_cons_self (a := n) (l := ns)
    rw [Revision.revisedAll, Node.walkAll, List.countP_append]
    split
    · rename_i ho
      obtain ⟨pair, hp, m, rest, rfl, he⟩ := answered.head ho
      obtain ⟨stays, counted⟩ := countP_pair h captures hp he (has n hn) (ih n hn) own
      obtain ⟨-, others⟩ := disjoint_walkAll others
      have := countP_revisedAll h captures rest answered.tail.tail
        (fun k hk => has k (by simp [hk])) (fun k hk => ih k (by simp [hk])) others
      rw [Revision.revisedAll, stays, Node.walkAll, List.countP_append, if_neg (by simp),
        Node.walkAll, List.countP_append]
      omega
    · rename_i ho
      have first := ih n hn n n.has_root copying (has n hn) (by simpa using ho) own
      have := countP_revisedAll h captures ns answered.tail
        (fun k hk => has k (by simp [hk])) (fun k hk => ih k (by simp [hk])) others
      rw [Node.walkAll, List.countP_append]
      omega

/-- Nor is one lost among alternatives, none of which is left out. -/
theorem countP_revisedEach : ∀ ns : List Node, (∀ n ∈ ns, root.Has n) →
    (∀ n ∈ ns, (revisionOf root).omits n = false) → (∀ n ∈ ns, Keeps root kept n) →
      (captureIndexes (Node.walkAll ns)).Disjoint copying →
      (Node.walkAll ns).countP (revisionOf root).becomesNonCapture ≤
        (Node.walkAll ((revisionOf root).revisedEach kept copying ns)).countP Node.isNonCapture
  | [], _, _, _, _ => by simp [Node.walkAll]
  | n :: ns, has, stay, keep, free => by
    obtain ⟨own, others⟩ := disjoint_walkAll free
    rw [List.forall_mem_cons] at has stay keep
    have first := keep.1 copying has.1 stay.1 own
    have := countP_revisedEach ns has.2 stay.2 keep.2 others
    rw [Revision.revisedEach, Node.walkAll, Node.walkAll, List.countP_append, List.countP_append]
    omega

/-- What a reference is replaced by is a group that captures nothing. -/
theorem countP_reference (w : Revision) (kept copying : List Nat) (r : Reference) :
    (Node.reference r).walk.countP w.becomesNonCapture ≤
      (w.revised kept copying (.reference r)).walk.countP Node.isNonCapture := by
  rw [Node.walk, List.countP_singleton]
  by_cases hc : copying.contains r.index = true
  · rw [Revision.revised_copied hc]
    split
    · decide
    · exact Nat.zero_le _
  · cases hs : w.find? r with
    | none => simp [Revision.becomesNonCapture, hs]
    | some s =>
      rw [Revision.revised_copy hc hs, Node.walk, List.countP_cons_of_pos rfl]
      split <;> omega

/-- A group that captures nothing still does not. -/
theorem kind_regroup {g : Group} (h : (g.kind == .nonCapture) = true) :
    ((Revision.regroup kept copying g).kind == .nonCapture) = true := by
  rw [beq_iff_eq] at h
  simp [Revision.regroup, Group.isCapture, h]

/-- **Every node keeps its groups that capture nothing.**  By induction over the tree; sequences
are the case that takes more, as they lose elements. -/
theorem keeps (h : root.IsDistinct) (captures : (captureIndexes root.walk).Nodup) (n : Node) :
    Keeps root kept n := by
  induction n using Node.induction_below with
  | step n below =>
    intro copying hn ho free
    have own : ∀ c ∈ n.children, Keeps root kept c := fun c hc => below c hc c c.has_root
    cases n with
    | atom a =>
      rw [Node.countP_walk_atom fun _ => rfl]
      exact Nat.zero_le _
    | anchor s k => simp [Node.walk, Revision.becomesNonCapture, Node.isNonCapture]
    | reference r => exact countP_reference _ kept copying r
    | group g body =>
      have hb : body ∈ (Node.group g body).children := List.mem_cons_self
      have inner := own body hb copying (hn.child hb) (omits_child h hn hb (by simp))
        (disjoint_child hb free)
      rw [Revision.revised, if_neg (by simpa [Revision.omits] using ho), Node.walk, Node.walk]
      exact Node.countP_cons_le kind_regroup inner
    | quantifier q body =>
      have hb : body ∈ (Node.quantifier q body).children := List.mem_cons_self
      have inner := own body hb copying (hn.child hb) (omits_child h hn hb (by simp))
        (disjoint_child hb free)
      rw [Revision.revised, Node.walk, Node.walk]
      exact Node.countP_cons_le id inner
    | sequence s ns =>
      have inner := countP_revisedAll h captures ns (answered_of_has h hn)
        (fun _ hm => hn.child hm) below free
      rw [Revision.revised, Node.walk, Node.walk]
      exact Node.countP_cons_le id inner
    | alternation s ns =>
      have inner := countP_revisedEach ns (fun _ hm => hn.child hm)
        (fun _ hm => omits_child h hn hm (by simp)) own free
      rw [Revision.revised, Node.walk, Node.walk]
      exact Node.countP_cons_le id inner

/-- **No group that captures nothing is lost**, and each reference that is replaced becomes one. -/
theorem countP_le (h : root.IsDistinct) (captures : (captureIndexes root.walk).Nodup) :
    root.walk.countP (revisionOf root).becomesNonCapture ≤
      ((revisionOf root).revised kept [] root).walk.countP Node.isNonCapture :=
  keeps h captures root [] root.has_root (omits_root h) (List.disjoint_nil_right _)

/-- If a reference is replaced, then the tree stands for more of these groups than it has. -/
theorem countP_lt {w : Revision} {r : Reference} (hr : .reference r ∈ root.walk)
    (replaced : (w.find? r).isSome = true) :
    root.walk.countP Node.isNonCapture < root.walk.countP w.becomesNonCapture := by
  obtain ⟨before, after, split⟩ := List.append_of_mem hr
  have le : ∀ ns : List Node, ns.countP Node.isNonCapture ≤ ns.countP w.becomesNonCapture :=
    fun ns => List.countP_mono_left fun n _ h => by
      cases n with
      | reference => cases h
      | _ => exact h
  have first := le before
  have last := le after
  rw [split, List.countP_append, List.countP_append,
    List.countP_cons_of_neg (by simp [Node.isNonCapture]),
    List.countP_cons_of_pos (by exact replaced)]
  omega

/-- What is replaced is a reference of the tree. -/
theorem exists_replaced (changed : (revisionOf root).substitutions ≠ []) :
    ∃ r, .reference r ∈ root.walk ∧ ((revisionOf root).find? r).isSome = true := by
  obtain ⟨s, hs⟩ := List.exists_mem_of_ne_nil _ changed
  have found : ((revisionOf root).find? s.reference).isSome = true :=
    List.find?_isSome.mpr ⟨s, hs, beq_self_eq_true _⟩
  refine ⟨s.reference, ?_, found⟩
  rcases List.mem_append.mp hs with hs | hs
  · obtain ⟨pair, hp, rfl⟩ := List.mem_map.mp hs
    obtain ⟨t, ns, -, ht, -, hr, -⟩ := exists_of_mem_atomicPairs hp
    exact mem_walk_of_element ht hr
  · obtain ⟨r, hr, hs⟩ := List.mem_filterMap.mp hs
    split at hs
    · cases hs
    · obtain ⟨body, -, rfl⟩ := Option.map_eq_some_iff.mp hs
      exact mem_references.mp hr

end Downgrade

/-! ## 5. What a report compares

A report has only the two texts to compare.  Texts that differ are told by a number that is known
of both. -/

section Parsed

variable {source : Bytes} {flags : Flags} {p : Pattern}

/-- What is read from the revised text has the groups of the revised tree, and separators. -/
theorem Pattern.countP_revised_le {w : Revision} {captures : Nat} {q : Pattern}
    (respects : w.Respects p.root) (spelled : p.root.Spelled flags captures)
    (hq : parse (Revision.textOf (w.written p.root)) flags = .ok q) :
    (w.revised (w.kept p.root) [] p.root).walk.countP Node.isNonCapture ≤
      q.root.walk.countP Node.isNonCapture := by
  rw [Node.countP_isNonCapture, Node.countP_isNonCapture, kinds_of_written respects spelled hq]
  exact ((Token.sublist_separate _).filterMap Token.kind?).count_le .nonCapture

/-- **The revised text is another one**, since it has more groups that capture nothing.  Equal
texts would have equal trees, and equal numbers of these groups. -/
theorem Pattern.textOf_written_ne (h : parse source flags = .ok p)
    (changed : (Downgrade.revisionOf p.root).substitutions ≠ []) :
    Revision.textOf ((Downgrade.revisionOf p.root).written p.root) ≠ p.source := by
  obtain ⟨-, distinct, captures⟩ := isWellFormed_of_parse h
  obtain ⟨r, hr, replaced⟩ := Downgrade.exists_replaced changed
  intro same
  -- The text would be read as the tree that was revised, and so have no more groups.
  have again : parse (Revision.textOf ((Downgrade.revisionOf p.root).written p.root)) flags =
      .ok p := by
    rw [same, source_of_parse h, h]
  have more := calc
    p.root.walk.countP Node.isNonCapture
      < p.root.walk.countP (Downgrade.revisionOf p.root).becomesNonCapture :=
        Downgrade.countP_lt hr replaced
    _ ≤ ((Downgrade.revisionOf p.root).revised ((Downgrade.revisionOf p.root).kept p.root) []
          p.root).walk.countP Node.isNonCapture := Downgrade.countP_le distinct captures
    _ ≤ p.root.walk.countP Node.isNonCapture :=
        countP_revised_le (Downgrade.respects_revisionOf distinct) (spelled_of_parse h).1 again
  exact Nat.lt_irrefl _ more

/-- What downgrading hands on has the source of the pattern exactly if nothing is replaced. -/
theorem Pattern.source_eq_iff_of_downgrade (h : parse source flags = .ok p) {d : Downgraded}
    (hd : p.downgrade = .ok d) : p.source = d.pattern.source ↔ d.changed = false := by
  rcases exists_of_downgrade hd with ⟨-, rfl⟩ | ⟨changed, q, hq, rfl⟩
  · exact iff_of_true rfl rfl
  · refine iff_of_false (fun same => textOf_written_ne h changed ?_) (by simp)
    rw [same, source_of_parse hq]

/-- A report comes of valid settings, and is made of what was searched: the pattern itself, or what
it was downgraded to. -/
theorem Pattern.check_eq_ok_iff {s : Settings} {watch : Search.Watch} {report : Report} :
    (p.check s watch).2 = .ok report ↔ s.invalid? = none ∧
      ∃ d, (if s.downgrade then p.downgrade else .ok ⟨p, false, []⟩) = .ok d ∧
        ∃ res, Search.outcome d.pattern (s.searchOptions d.atomicOffsets watch) = .ok res ∧
          Report.aggregate p.source d.pattern res s.budget.maxBacktracks = report := by
  rw [check]
  constructor
  · intro h
    split at h
    · cases h
    · rename_i valid
      split at h
      · cases h
      · rename_i d hd
        dsimp only at h
        split at h
        · cases h
        · rename_i res searched
          exact ⟨valid, d, hd, res, searched, Except.ok.inj h⟩
  · rintro ⟨valid, d, hd, res, searched, rfl⟩
    simp only [valid, hd, search, searched]

/-- **A report says that a pattern was downgraded exactly if it was**: if the settings ask for it
and downgrading has replaced a reference.  Then the revised text is not that of the pattern. -/
theorem Report.downgraded_iff_changed (h : Pattern.parse source flags = .ok p) :
    (∀ (s : Settings) (watch : Search.Watch) (report : Report),
      (p.check s watch).2 = .ok report →
        (report.downgraded = true ↔
          s.downgrade = true ∧ ∃ d, p.downgrade = .ok d ∧ d.changed = true)) ∧
    ((Downgrade.revisionOf p.root).substitutions ≠ [] →
      Revision.textOf ((Downgrade.revisionOf p.root).written p.root) ≠ p.source) := by
  refine ⟨fun s watch report checked => ?_, Pattern.textOf_written_ne h⟩
  obtain ⟨-, d, hd, res, -, rfl⟩ := Pattern.check_eq_ok_iff.mp checked
  have downgraded : (Report.aggregate p.source d.pattern res s.budget.maxBacktracks).downgraded =
      (p.source != d.pattern.source) := rfl
  rw [downgraded, bne_iff_ne]
  cases asked : s.downgrade with
  | false =>
    rw [asked] at hd
    obtain rfl := Except.ok.inj hd
    simp
  | true =>
    rw [asked, if_pos rfl] at hd
    rw [Ne, Pattern.source_eq_iff_of_downgrade h hd, Bool.not_eq_false, hd]
    simp

/-- What is left out of `(?=((?:a)))\1` holds as many groups that capture nothing as are put in
around the copy: `(?:(?:a))`.  By the first group alone the texts already differ. -/
theorem Report.downgraded_iff_changed_of_pair :
    ∃ p report, Pattern.parse (Bytes.ofString "(?=((?:a)))\\1") {} = .ok p ∧
      (p.check {} .still).2 = .ok report ∧ report.downgraded = true ∧
      Revision.textOf ((Downgrade.revisionOf p.root).written p.root) ≠ p.source := by
  let body : Node := .group ⟨⟨2, 4, 9⟩, .nonCapture, 0, []⟩ (.atom ⟨⟨1, 7, 8⟩, .char 97⟩)
  let r : Reference := ⟨⟨5, 11, 13⟩, 1, []⟩
  let p : Pattern :=
    { source := Bytes.ofString "(?=((?:a)))\\1"
      flags := {}
      root := .sequence ⟨6, 0, 13⟩
        [.group ⟨⟨4, 0, 11⟩, .lookahead, 0, []⟩ (.group ⟨⟨3, 3, 10⟩, .capture, 1, []⟩ body),
          .reference r]
      captures := 1 }
  let w : Revision := ⟨[4], [⟨r, body, true⟩]⟩
  let ps : List Piece := [⟨.opening .nonCapture [], true⟩, ⟨.opening .nonCapture [], false⟩,
    ⟨.leaf (.char 97), false⟩, ⟨.closing, false⟩, ⟨.closing, false⟩]
  let q : Pattern :=
    { source := Bytes.ofString "(?:(?:a))"
      flags := {}
      root := .group ⟨⟨3, 0, 9⟩, .nonCapture, 0, []⟩
        (.group ⟨⟨2, 3, 8⟩, .nonCapture, 0, []⟩ (.atom ⟨⟨1, 6, 7⟩, .char 97⟩))
      captures := 0 }
  have parsed : Pattern.parse (Bytes.ofString "(?=((?:a)))\\1") {} = .ok p := by
    with_unfolding_all rfl
  have pieces : w.pieces (w.kept p.root) [] p.root = ps := by
    have omitted : w.omitted = [4] := rfl
    have copy : w.pieces [] [] (.reference r) = ps := by
      rw [Revision.pieces_copy (by decide) (s := ⟨r, body, true⟩) rfl]
      simp [body, ps, Revision.pieces, omitted, Revision.openingToken, Group.isCapture]
    rw [show w.kept p.root = [] from rfl]
    simp [p, Revision.pieces, Revision.piecesAll, omitted, copy]
  have read : Pattern.parse (Revision.textOf (Revision.separate ps)) p.flags = .ok q := by
    with_unfolding_all rfl
  have downgraded := Pattern.downgrade_of_pieces (w := w) rfl rfl pieces read
  have offsets : Revision.atomicOffsets 0 (Revision.separate ps) = [0] := rfl
  have ends :
      (Search.outcome q (Settings.searchOptions {} [0] .still)).toOption.isSome = true := by
    decide +kernel
  cases searched : Search.outcome q (Settings.searchOptions {} [0] .still) with
  | error e =>
    rw [searched] at ends
    cases ends
  | ok res =>
    rw [← offsets] at searched
    have checked := (Pattern.check_eq_ok_iff (p := p) (s := {})).mpr
      ⟨rfl, _, downgraded, res, searched, rfl⟩
    obtain ⟨reports, differs⟩ := Report.downgraded_iff_changed parsed
    exact ⟨p, _, parsed, checked, (reports _ _ _ checked).mpr ⟨rfl, _, downgraded, rfl⟩,
      differs (List.cons_ne_nil _ _)⟩

end Parsed

end Backtrack
