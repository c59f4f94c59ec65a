/-
# Which group a copy is of

A substitution has the reference it is for and the body that is copied, and not the group.  The
table here has the group as well (`Downgrade.copyTable`); without it the table is the revision of
the tree (`Downgrade.revision_copyTable`).

Whether a copy may begin is asked of the number of the reference, and what counts as being copied is
the group.  For a parsed pattern the two are the same (`Downgrade.index_of_find?`), since the group
is one of the tree with that number (`Downgrade.IsCopyOf`).
-/
import Backtrack.Proofs.Pattern.Ancestors
import Backtrack.Proofs.Pattern.Downgrading

namespace Backtrack

/-! ## 1. The table -/

/-- A reference that is replaced, and the group whose body is copied for it. -/
structure Copy where
  reference : Reference
  group : Group
  body : Node
  atomic : Bool
deriving Repr

/-- What is written in place of the reference. -/
def Copy.substitution (c : Copy) : Substitution := ⟨c.reference, c.body, c.atomic⟩

/-- What to leave out and what to copy. -/
structure CopyTable where
  omitted : List Nat
  copies : List Copy
deriving Repr

namespace CopyTable

/-- The copy for a reference. -/
def find? (t : CopyTable) (r : Reference) : Option Copy :=
  t.copies.find? fun c => c.reference == r

/-- The table without the groups. -/
def revision (t : CopyTable) : Revision := ⟨t.omitted, t.copies.map Copy.substitution⟩

theorem find?_revision (t : CopyTable) (r : Reference) :
    t.revision.find? r = (t.find? r).map Copy.substitution := by
  rw [Revision.find?, revision, List.find?_map]
  rfl

end CopyTable

namespace Downgrade

/-- The copy of the group in the lookahead, if two neighbours are an atomic pair. -/
def pairCopy? : Node → Node → Option Copy
  | .group look (.group capture body), .reference r =>
    if look.kind == .lookahead && capture.isCapture && r.index == capture.index then
      some ⟨r, capture, body, true⟩
    else none
  | _, _ => none

/-- The copies for the atomic pairs of a tree. -/
def pairCopies (root : Node) : List Copy :=
  root.walk.flatMap fun
    | .sequence _ ns => (ns.zip ns.tail).filterMap fun p => pairCopy? p.1 p.2
    | _ => []

/-- The copy of the group of a reference, if it has to be copied. -/
def plainCopy? (x : Index) (r : Reference) : Option Copy :=
  (x.group? r.index).bind fun g => (copyOf? x r).map fun _ => ⟨r, g.1, g.2, false⟩

/-- What is left out and copied in a tree. -/
def copyTable (root : Node) : CopyTable :=
  let pairs := pairCopies root
  ⟨(atomicPairs root).map (·.lookahead.site.id),
    pairs ++ (references root).filterMap fun r =>
      if pairs.any (·.reference == r) then none else plainCopy? (Index.ofNode root) r⟩

/-- The substitution for an atomic pair. -/
def AtomicPair.substitution (p : AtomicPair) : Substitution := ⟨p.reference, p.body, true⟩

theorem map_pairCopy? (a b : Node) :
    (pairCopy? a b).map Copy.substitution = (atomicPair? a b).map AtomicPair.substitution := by
  unfold pairCopy?
  split
  · rename_i look capture body r
    rw [atomicPair?]
    split <;> rfl
  · rename_i other
    unfold atomicPair?
    split
    · exact (other _ _ _ _ rfl rfl).elim
    · rfl

theorem map_substitution_neighbours (ns : List Node) :
    ((ns.zip ns.tail).filterMap fun p => pairCopy? p.1 p.2).map Copy.substitution =
      (pairsIn ns).map AtomicPair.substitution := by
  induction ns with
  | nil => rfl
  | cons a ns ih =>
    cases ns with
    | nil => rfl
    | cons b rest =>
      have first := map_pairCopy? a b
      rw [List.tail_cons] at ih
      rw [List.tail_cons, List.zip_cons_cons, List.filterMap_cons, pairsIn, List.map_append, ← ih]
      cases hc : pairCopy? a b <;> cases hp : atomicPair? a b <;> simp_all

theorem map_substitution_pairCopies (root : Node) :
    (pairCopies root).map Copy.substitution = (atomicPairs root).map AtomicPair.substitution := by
  rw [pairCopies, atomicPairs, List.map_flatMap, List.map_flatMap]
  refine List.flatMap_congr fun n _ => ?_
  cases n with
  | sequence _ ns => exact map_substitution_neighbours ns
  | _ => rfl

theorem map_plainCopy? (x : Index) (r : Reference) :
    (plainCopy? x r).map Copy.substitution =
      (copyOf? x r).map fun body => (⟨r, body, false⟩ : Substitution) := by
  unfold plainCopy? copyOf?
  cases x.group? r.index with
  | none => rfl
  | some g =>
    dsimp only [Option.bind_some]
    split
    · rfl
    · split <;> rfl

/-- **The table is the revision of the tree**, with the groups the bodies are of. -/
theorem revision_copyTable (root : Node) : (copyTable root).revision = revisionOf root := by
  have pairs := map_substitution_pairCopies root
  have known : ∀ r, (pairCopies root).any (·.reference == r) =
      ((atomicPairs root).map AtomicPair.substitution).any (·.reference == r) := by
    intro r
    rw [← pairs, List.any_map]
    rfl
  rw [CopyTable.revision, copyTable, revisionOf]
  simp only [List.map_append, List.map_filterMap]
  congr 1
  congr 1
  refine List.filterMap_congr fun r _ => ?_
  rw [known, apply_ite (Option.map Copy.substitution), map_plainCopy?]
  rfl

/-! ## 2. Groups in the table -/

variable {root : Node}

/-- What stands in the table for a reference is a group of the tree, with the number of the
reference. -/
structure IsCopyOf (root : Node) (r : Reference) (c : Copy) : Prop where
  mem : .group c.group c.body ∈ root.walk
  captures : c.group.isCapture = true
  index : c.group.index = r.index

theorem isCopyOf_of_pairCopy? {a b : Node} {c : Copy} (h : pairCopy? a b = some c)
    (ha : a ∈ root.walk) : IsCopyOf root c.reference c := by
  unfold pairCopy? at h
  split at h
  · split at h
    · rename_i hc
      obtain rfl := Option.some.inj h
      simp only [Bool.and_eq_true, beq_iff_eq] at hc
      exact ⟨(Node.below_of_mem ha).group.mem, hc.1.2, hc.2.symm⟩
    · cases h
  · cases h

theorem isCopyOf_of_plainCopy? {r : Reference} {c : Copy}
    (h : plainCopy? (Index.ofNode root) r = some c) : IsCopyOf root c.reference c := by
  obtain ⟨⟨g, body⟩, hg, hc⟩ := Option.bind_eq_some_iff.mp h
  obtain ⟨-, -, rfl⟩ := Option.map_eq_some_iff.mp hc
  obtain ⟨hm, captures, index⟩ := Index.mem_of_group? hg
  exact ⟨hm, captures, index⟩

theorem isCopyOf_of_mem {c : Copy} (h : c ∈ (copyTable root).copies) :
    IsCopyOf root c.reference c := by
  rcases List.mem_append.mp h with h | h
  · obtain ⟨n, hn, hp⟩ := List.mem_flatMap.mp h
    split at hp
    · rename_i s ns
      obtain ⟨⟨a, b⟩, hab, he⟩ := List.mem_filterMap.mp hp
      exact isCopyOf_of_pairCopy? he (mem_walk_of_element hn (List.of_mem_zip hab).1)
    · cases hp
  · obtain ⟨r, -, hr⟩ := List.mem_filterMap.mp h
    split at hr
    · cases hr
    · exact isCopyOf_of_plainCopy? hr

/-- A body is that of one group. -/
theorem IsCopyOf.group_eq (distinct : root.IsDistinct) {r r' : Reference} {c c' : Copy}
    (h : IsCopyOf root r c) (h' : IsCopyOf root r' c') (same : c.body.id = c'.body.id) :
    c.group = c'.group := by
  have has := Node.has_of_mem h.mem (by simp)
  have has' := Node.has_of_mem h'.mem (by simp)
  have below : ∀ g body, body ∈ (Node.group g body).children := by simp [Node.children]
  have body := Node.eq_of_id distinct (has.child (below _ _)).mem (has'.child (below _ _)).mem same
  exact (Node.group.inj
    (Node.parent_unique distinct has has' (below _ _) (body ▸ below _ _))).1

/-- **No reference stands for a group with another number.**  The table is filled by looking for
the group with the number of the reference. -/
theorem index_of_find? {r : Reference} {c : Copy} (h : (copyTable root).find? r = some c) :
    c.group.index = r.index := by
  obtain rfl : c.reference = r := by simpa using List.find?_some h
  exact (isCopyOf_of_mem (List.mem_of_find?_eq_some h)).index

end Downgrade

end Backtrack
