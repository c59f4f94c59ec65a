/-
# What references point to after downgrading

Downgrading numbers the groups anew that remain, and writes each reference that remains with the new
number of its group.  That succeeds, and each reference is read as one to the group it was to, if
and only if the groups of all references that are written remain
(`Pattern.exists_downgrade_iff_isAnchored`).

The condition is on what is written, copies included.  A reference that is not written needs no
group; and one that is written from inside a copy needs a group outside of copies, since nothing
captures in a copy.  Two kinds of references can fail it (`Downgrade.isAnchored_of_isOutside`):
those to no group at all, and those that lie in the group they name, inside of a lookahead that is
left out.  `Pattern.downgrade_misses_targets` has one of the second kind for which downgrading gives
up, and one that comes to name another group.
-/
import Mathlib.Data.List.Forall2
import Backtrack.Proofs.Pattern.Downgrading

namespace Backtrack

namespace Downgrade

/-! ## 1. The references of a tree as it is read again

What is read again has other places and more groups than what was written, but the same
references. -/

mutual

/-- The references of a tree without places. -/
theorem references_bare : ∀ n : Node, references n.bare = (references n).map Reference.bare
  | .atom a => by
    rw [Node.bare, references_atom, references_atom]
    rfl
  | .anchor _ _ => rfl
  | .reference _ => rfl
  | .group _ body => references_bare body
  | .quantifier _ body => references_bare body
  | .sequence _ ns => by
    rw [Node.bare, references_sequence, references_sequence, references_bareAll ns]
  | .alternation _ ns => by
    rw [Node.bare, references_alternation, references_alternation, references_bareAll ns]

theorem references_bareAll : ∀ ns : List Node,
    (Node.bareAll ns).flatMap references = (ns.flatMap references).map Reference.bare
  | [] => rfl
  | n :: ns => by
    rw [Node.bareAll, List.flatMap_cons, List.flatMap_cons, List.map_append, references_bare n,
      references_bareAll ns]

end

mutual

theorem references_collapsed : ∀ n : Node, references n.collapsed = references n
  | .atom _ => rfl
  | .anchor _ _ => rfl
  | .reference _ => rfl
  | .group _ body => references_collapsed body
  | .quantifier _ body => references_collapsed body
  | .sequence _ ns => by
    have ih := references_collapsedAll ns
    rw [Node.collapsed, references_sequence, ← ih]
    split
    · rename_i n hn
      rw [hn, List.flatMap_singleton]
    · rw [references_sequence]
  | .alternation _ ns => by
    rw [Node.collapsed, references_alternation, references_alternation, references_collapsedAll ns]

theorem references_collapsedAll : ∀ ns : List Node,
    (Node.collapsedAll ns).flatMap references = ns.flatMap references
  | [] => rfl
  | n :: ns => by
    rw [Node.collapsedAll, List.flatMap_cons, List.flatMap_cons, references_collapsed n,
      references_collapsedAll ns]

end

mutual

/-- Separators refer to nothing. -/
theorem references_separated : ∀ n : Node, references n.separated = references n
  | .atom _ => rfl
  | .anchor _ _ => rfl
  | .reference _ => rfl
  | .group _ body => references_separated body
  | .quantifier _ body => references_separated body
  | .sequence _ ns => by
    rw [Node.separated, references_sequence, references_sequence, references_separatedAll ns]
  | .alternation _ ns => by
    rw [Node.separated, references_alternation, references_alternation,
      references_separatedEach ns]

theorem references_separatedAll : ∀ ns : List Node,
    (Node.separatedAll ns).flatMap references = ns.flatMap references
  | [] => rfl
  | n :: ns => by
    have separator : references Node.separator = [] := rfl
    rw [Node.separatedAll]
    split
    · rw [List.flatMap_cons, List.flatMap_cons, List.flatMap_cons, separator, List.nil_append,
        references_separated n, references_separatedAll ns]
    · rw [List.flatMap_cons, List.flatMap_cons, references_separated n, references_separatedAll ns]

theorem references_separatedEach : ∀ ns : List Node,
    (Node.separatedEach ns).flatMap references = ns.flatMap references
  | [] => rfl
  | n :: ns => by
    rw [Node.separatedEach, List.flatMap_cons, List.flatMap_cons, references_separated n,
      references_separatedEach ns]

end

/-! ## 2. Targets

A reference is to a group by number, and numbers change.  So what is kept is said with the list of
groups that remain: a new number is the place of the old one in it. -/

/-- The second reference is to the new number of the group that the first one is to: the groups that
remain are `kept`, in this order. -/
def Retargets (kept : List Nat) (r r' : Reference) : Prop :=
  1 ≤ r'.index ∧ kept[r'.index - 1]? = some r.index

/-- The second pattern is the first one downgraded: its tree is the revised tree, its groups are
those that remain, and its references are those that were written, each to the group it was to. -/
structure KeepsTargets (p q : Pattern) : Prop where
  captures : q.captures = ((revisionOf p.root).kept p.root).length
  tree : q.root.bare = ((revisionOf p.root).revised ((revisionOf p.root).kept p.root) []
    p.root).separated.collapsed.bare
  targets : List.Forall₂ (Retargets ((revisionOf p.root).kept p.root))
    ((revisionOf p.root).leftovers p.root) (references q.root)

/-- The groups of all references that are written remain.  Nothing is written if there is nothing to
replace. -/
def IsAnchored (root : Node) : Prop :=
  (revisionOf root).substitutions ≠ [] →
    ∀ r ∈ (revisionOf root).leftovers root, r.index ∈ (revisionOf root).kept root

variable {kept : List Nat}

theorem retargets_of_bare {r r' : Reference} (hr : r.index ∈ kept)
    (h : r'.bare = (Revision.renumbered kept r).bare) : Retargets kept r r' := by
  obtain ⟨k, hk, number, -⟩ := Revision.renumber_of_mem hr
  obtain ⟨hlt, place, -⟩ := List.idxOf?_eq_some_iff.mp hk
  have index : r'.index = k + 1 := (congrArg Reference.index h).trans number
  refine ⟨by omega, ?_⟩
  rw [index, Nat.add_sub_cancel, List.getElem?_eq_getElem hlt, place]

/-- References that come from the references of the revised tree keep their targets. -/
theorem forall₂_retargets : ∀ {ls rs : List Reference}, (∀ l ∈ ls, l.index ∈ kept) →
    rs.map Reference.bare = (ls.map (Revision.renumbered kept)).map Reference.bare →
    List.Forall₂ (Retargets kept) ls rs
  | [], [], _, _ => .nil
  | [], _ :: _, _, h => by simp at h
  | _ :: _, [], _, h => by simp at h
  | l :: ls, r :: rs, hl, h => by
    simp only [List.map_cons, List.cons.injEq] at h
    obtain ⟨head, tail⟩ := h
    exact .cons (retargets_of_bare (hl l List.mem_cons_self) head)
      (forall₂_retargets (fun l' hl' => hl l' (List.mem_cons_of_mem _ hl')) tail)

/-- A reference that keeps its target has one that remains. -/
theorem mem_kept_of_forall₂ {ls rs : List Reference} (h : List.Forall₂ (Retargets kept) ls rs) :
    ∀ l ∈ ls, l.index ∈ kept := by
  induction h with
  | nil => simp
  | cons head _ ih => exact List.forall_mem_cons.mpr ⟨List.mem_of_getElem? head.2, ih⟩

/-- A tree that is read again as the revised tree has the references of the revised tree. -/
theorem references_of_tree {w : Revision} {root root' : Node}
    (h : root'.bare = (w.revised kept [] root).separated.collapsed.bare) :
    (references root').map Reference.bare =
      ((w.leftovers root).map (Revision.renumbered kept)).map Reference.bare := by
  rw [← references_bare, h, references_bare, references_collapsed, references_separated,
    Revision.references_revised]

/-! ## 3. Which references miss their group

The group of a reference that remains can be missing only if it is left out together with the
lookahead of a pair.  References to it from outside are replaced, which leaves those from inside
of the group. -/

variable {root : Node}

/-- A reference that is not replaced lies in its group, if that is inside of a positive lookaround. -/
theorem mem_body_of_behind (h : root.IsDistinct) {r : Reference} (hr : .reference r ∈ root.walk)
    {g : Group} {body : Node} (hg : (Index.ofNode root).group? r.index = some (g, body))
    (behind : behindPositiveLookaround (Index.ofNode root) g = true)
    (copy : copyOf? (Index.ofNode root) r = none) : .reference r ∈ body.walk := by
  obtain ⟨hm, -, -⟩ := Index.mem_of_group? hg
  refine (Index.contains_iff h hm hr).mp ?_
  rw [copyOf?, hg] at copy
  dsimp only at copy
  split at copy
  · assumption
  · rw [behind, Bool.true_or, if_pos rfl] at copy
    cases copy

/-- **Where references keep their groups.**  It is enough that each reference has a group, and that
none lies in the group it names, in the lookaheads that are left out. -/
theorem isAnchored_of_isOutside {flags : Flags} {n : Nat} (h : root.IsDistinct)
    (spelled : root.Spelled flags n) (known : ∀ r ∈ references root, 1 ≤ r.index)
    (outside : ∀ n ∈ root.walk, (revisionOf root).omits n = true → IsOutside n) :
    IsAnchored root := by
  intro _ l hl
  obtain ⟨r, hr, hf, hi, -⟩ := Revision.exists_of_mem_leftovers (respects_revisionOf h) hl
  obtain ⟨g, body, hg⟩ := Index.exists_group?
    (mem_captureIndexes_of_pos spelled hr (known r (mem_references.mpr hr)))
  obtain ⟨hm, hc, hgi⟩ := Index.mem_of_group? hg
  rw [hi, ← hgi]
  refine (mem_kept_or_omitted h hm hc).resolve_right ?_
  rintro ⟨look, b, hlook, hk, ho, hgb⟩
  have behind := behindPositiveLookaround_of_mem h hlook (by rw [Group.isLookaround, hk]; rfl)
    (by rw [hk]; rfl) hgb
  have inner := mem_body_of_behind h hr hg behind (copyOf?_eq_none hr hf)
  have below : Node.group g body ∈ (Node.group look b).walk := List.mem_cons_of_mem _ hgb
  refine outside _ hlook ho r (mem_references.mpr ?_) _ below ?_ (mem_references.mpr ?_)
  · exact (Node.below_of_mem below).group _ inner
  · simp [captures, hc, hgi]
  · exact List.mem_cons_of_mem _ inner

end Downgrade

/-! ## 4. Downgrading

If all groups remain, the revised tree can be written, and reading it again gives the references.
If one is missing, a number or a name is written whose group is gone, and the text is refused or
has a reference to another group. -/

namespace Pattern

open Downgrade

/-- **Downgrading succeeds and redirects no reference** if and only if the groups of all references
that are written remain. -/
theorem exists_downgrade_iff_isAnchored {source : Bytes} {flags : Flags} {p : Pattern}
    (h : parse source flags = .ok p) (limit : source.length < numberLimit) :
    (∃ d, p.downgrade = .ok d ∧ (d.changed = false → d.pattern = p) ∧
        (d.changed = true → KeepsTargets p d.pattern)) ↔
      IsAnchored p.root := by
  constructor
  · rintro ⟨d, hd, -, keeps⟩ replaced l hl
    have changed : d.changed = true := by
      rw [changed_of_downgrade hd, List.isEmpty_eq_false_iff.mpr replaced]
      rfl
    exact mem_kept_of_forall₂ (keeps changed).targets l hl
  · intro anchored
    cases hs : (revisionOf p.root).substitutions with
    | nil => exact ⟨⟨p, false, []⟩, by simp [downgrade, hs], fun _ => rfl, nofun⟩
    | cons s ss =>
      have remains := anchored (by simp [hs])
      have respects := respects_revisionOf (isWellFormed_of_parse h).distinct
      obtain ⟨d, hd, same, changed⟩ := downgrade_of_writable (flags_of_parse h ▸
        respects.writable remains (spelled_of_parse h).1
          (Nat.lt_of_le_of_lt (captures_le h) limit))
      refine ⟨d, hd, same, fun hc => ?_⟩
      obtain ⟨-, captures, tree⟩ := changed hc
      exact ⟨captures, tree, forall₂_retargets remains (references_of_tree tree)⟩

/-- In `(?=(a))\1(b\2)` the first group goes, and the second one becomes the first.  The reference
in it names it under its new number. -/
theorem exists_downgrade_of_own_group :
    ∃ p d, parse (Bytes.ofString "(?=(a))\\1(b\\2)") {} = .ok p ∧ IsAnchored p.root ∧
      p.downgrade = .ok d ∧ d.changed = true ∧ (revisionOf p.root).kept p.root = [2] ∧
      KeepsTargets p d.pattern := by
  let p : Pattern :=
    { source := Bytes.ofString "(?=(a))\\1(b\\2)"
      flags := {}
      root := .sequence ⟨9, 0, 14⟩
        [.group ⟨⟨3, 0, 7⟩, .lookahead, 0, []⟩
            (.group ⟨⟨2, 3, 6⟩, .capture, 1, []⟩ (.atom ⟨⟨1, 4, 5⟩, .char 97⟩)),
          .reference ⟨⟨4, 7, 9⟩, 1, []⟩,
          .group ⟨⟨8, 9, 14⟩, .capture, 2, []⟩
            (.sequence ⟨7, 10, 13⟩
              [.atom ⟨⟨5, 10, 11⟩, .char 98⟩, .reference ⟨⟨6, 11, 13⟩, 2, []⟩])]
      captures := 2 }
  have parsed : parse (Bytes.ofString "(?=(a))\\1(b\\2)") {} = .ok p := by
    with_unfolding_all rfl
  have anchored : IsAnchored p.root :=
    isAnchored_of_isOutside (isWellFormed_of_parse parsed).distinct (spelled_of_parse parsed).1
      (by decide) (by decide)
  obtain ⟨d, hd, -, keeps⟩ := (exists_downgrade_iff_isAnchored parsed (by decide)).mpr anchored
  have changed : d.changed = true := by
    rw [changed_of_downgrade hd]
    decide
  exact ⟨p, d, parsed, anchored, hd, changed, rfl, keeps changed⟩

/-! ## 5. References that miss their group -/

/-- The source is that of a pattern that downgrading fails on. -/
def FailsToDowngrade (source : Bytes) (flags : Flags) : Prop :=
  ∃ p e, parse source flags = .ok p ∧ p.downgrade = .error e

/-- The source has a reference that downgrading takes to another group. -/
def Redirects (source : Bytes) (flags : Flags) : Prop :=
  ∃ p d r r' i, parse source flags = .ok p ∧ p.downgrade = .ok d ∧ d.changed = true ∧
    (revisionOf p.root).leftovers p.root = [r] ∧ references d.pattern.root = [r'] ∧
    ((revisionOf p.root).kept p.root)[r'.index - 1]? = some i ∧ i ≠ r.index

namespace Missed

/-! Both patterns that follow begin with `(?=((b\2)))\1`.  The copy of the first group has the second
one in it, and takes the reference in the second group along. -/

/-- The reference in the group that it names. -/
def inner : Reference := ⟨⟨2, 6, 8⟩, 2, []⟩

/-- The body of the first group. -/
def body : Node :=
  .group ⟨⟨4, 4, 9⟩, .capture, 2, []⟩
    (.sequence ⟨3, 5, 8⟩ [.atom ⟨⟨1, 5, 6⟩, .char 98⟩, .reference inner])

/-- The lookahead that goes. -/
def lookahead : Node :=
  .group ⟨⟨6, 0, 11⟩, .lookahead, 0, []⟩ (.group ⟨⟨5, 3, 10⟩, .capture, 1, []⟩ body)

/-- The reference that is replaced. -/
def outer : Reference := ⟨⟨7, 11, 13⟩, 1, []⟩

def revision : Revision := ⟨[6], [⟨outer, body, true⟩]⟩

/-- What is written for it, `(?:(?:b\2))`. -/
def copy : List Piece :=
  [⟨.opening .nonCapture [], true⟩, ⟨.opening .nonCapture [], false⟩, ⟨.leaf (.char 98), false⟩,
    ⟨.reference 2 [], false⟩, ⟨.closing, false⟩, ⟨.closing, false⟩]

/-- The second group is gone, and its number is written nonetheless. -/
theorem pieces_outer {kept : List Nat} (gone : 2 ∉ kept) :
    revision.pieces kept [] (.reference outer) = copy := by
  have omitted : revision.omitted = [6] := rfl
  have same : Revision.renumber kept 2 = 2 := by
    rw [Revision.renumber, List.idxOf?_eq_none_iff.mpr gone]
  have stays : revision.pieces kept [outer.index] (.reference inner) =
      [⟨.reference 2 [], false⟩] := by
    rw [Revision.pieces_kept (by decide) rfl]
    simp [Revision.referenceToken, inner, outer, same]
  rw [Revision.pieces_copy (by decide) (s := ⟨outer, body, true⟩) rfl]
  simp [body, copy, Revision.pieces, Revision.piecesAll, omitted, stays, Revision.openingToken,
    Group.isCapture]

theorem pieces_lookahead (kept : List Nat) : revision.pieces kept [] lookahead = [] := by
  have omitted : revision.omitted = [6] := rfl
  simp [lookahead, Revision.pieces, omitted]

end Missed

/-- In this pattern no group is left.  The number that is written names none. -/
theorem failsToDowngrade_of_nested :
    FailsToDowngrade (Bytes.ofString "(?=((b\\2)))\\1") { unicode := true } := by
  let p : Pattern :=
    { source := Bytes.ofString "(?=((b\\2)))\\1"
      flags := { unicode := true }
      root := .sequence ⟨8, 0, 13⟩ [Missed.lookahead, .reference Missed.outer]
      captures := 2 }
  have parsed : parse (Bytes.ofString "(?=((b\\2)))\\1") { unicode := true } = .ok p := by
    with_unfolding_all rfl
  have pieces : Missed.revision.pieces (Missed.revision.kept p.root) [] p.root = Missed.copy := by
    have kept : Missed.revision.kept p.root = [] := rfl
    rw [kept]
    simp [p, Revision.pieces, Revision.piecesAll, Missed.pieces_lookahead,
      @Missed.pieces_outer [] (by decide)]
  let e : SyntaxError :=
    ⟨Bytes.ofString "(?:(?:b\\2))", 7, .undefinedGroup (Bytes.ofString "2")⟩
  have refused : parse (Revision.textOf (Revision.separate Missed.copy)) p.flags = .error e := by
    with_unfolding_all rfl
  have failed : p.downgrade =
      .error ⟨p.source, Revision.textOf (Revision.separate Missed.copy), e⟩ := by
    rw [downgrade_eq_of_pieces (w := Missed.revision) rfl rfl pieces, refused]
  exact ⟨p, _, parsed, failed⟩

/-- In this one two more groups follow, and the second of them has the number now. -/
theorem redirects_of_nested :
    Redirects (Bytes.ofString "(?=((b\\2)))\\1(c)(d)") {} := by
  let p : Pattern :=
    { source := Bytes.ofString "(?=((b\\2)))\\1(c)(d)"
      flags := {}
      root := .sequence ⟨12, 0, 19⟩
        [Missed.lookahead, .reference Missed.outer,
          .group ⟨⟨9, 13, 16⟩, .capture, 3, []⟩ (.atom ⟨⟨8, 14, 15⟩, .char 99⟩),
          .group ⟨⟨11, 16, 19⟩, .capture, 4, []⟩ (.atom ⟨⟨10, 17, 18⟩, .char 100⟩)]
      captures := 4 }
  let ps : List Piece := Missed.copy ++
    [⟨.opening .capture [], false⟩, ⟨.leaf (.char 99), false⟩, ⟨.closing, false⟩,
      ⟨.opening .capture [], false⟩, ⟨.leaf (.char 100), false⟩, ⟨.closing, false⟩]
  let q : Pattern :=
    { source := Bytes.ofString "(?:(?:b\\2))(c)(d)"
      flags := {}
      root := .sequence ⟨10, 0, 17⟩
        [.group ⟨⟨5, 0, 11⟩, .nonCapture, 0, []⟩
            (.group ⟨⟨4, 3, 10⟩, .nonCapture, 0, []⟩
              (.sequence ⟨3, 6, 9⟩
                [.atom ⟨⟨1, 6, 7⟩, .char 98⟩, .reference ⟨⟨2, 7, 9⟩, 2, []⟩])),
          .group ⟨⟨7, 11, 14⟩, .capture, 1, []⟩ (.atom ⟨⟨6, 12, 13⟩, .char 99⟩),
          .group ⟨⟨9, 14, 17⟩, .capture, 2, []⟩ (.atom ⟨⟨8, 15, 16⟩, .char 100⟩)]
      captures := 2 }
  have parsed : parse (Bytes.ofString "(?=((b\\2)))\\1(c)(d)") {} = .ok p := by
    with_unfolding_all rfl
  have omitted : Missed.revision.omitted = [6] := rfl
  have pieces : Missed.revision.pieces (Missed.revision.kept p.root) [] p.root = ps := by
    have kept : Missed.revision.kept p.root = [3, 4] := rfl
    rw [kept]
    simp [p, ps, Revision.pieces, Revision.piecesAll, omitted, Missed.pieces_lookahead,
      @Missed.pieces_outer [3, 4] (by decide), Revision.openingToken, Group.isCapture]
  have leftovers : Missed.revision.leftovers p.root = [Missed.inner] := by
    have copied : Missed.revision.revised [] [Missed.outer.index] (.reference Missed.inner) =
        .reference Missed.inner :=
      Revision.revised_kept (by decide) rfl
    have found : Missed.revision.find? Missed.outer = some ⟨Missed.outer, Missed.body, true⟩ := rfl
    rw [Revision.leftovers]
    simp [p, Missed.lookahead, Missed.body, Revision.revised, Revision.revisedAll,
      Revision.omits, omitted, Revision.revised_copy _ found, copied]
    rfl
  have written : parse (Revision.textOf (Revision.separate ps)) p.flags = .ok q := by
    with_unfolding_all rfl
  have downgraded : p.downgrade =
      .ok ⟨q, true, Revision.atomicOffsets 0 (Revision.separate ps)⟩ := by
    rw [downgrade_eq_of_pieces (w := Missed.revision) rfl rfl pieces, written]
  exact ⟨p, _, Missed.inner, ⟨⟨2, 7, 9⟩, 2, []⟩, 4, parsed, downgraded, rfl, leftovers, rfl, rfl,
    by decide⟩

/-- **Downgrading can fail, and can redirect a reference**, if a copy takes along a reference that
lies in the group it names. -/
theorem downgrade_misses_targets :
    FailsToDowngrade (Bytes.ofString "(?=((b\\2)))\\1") { unicode := true } ∧
      Redirects (Bytes.ofString "(?=((b\\2)))\\1(c)(d)") {} :=
  ⟨failsToDowngrade_of_nested, redirects_of_nested⟩

end Pattern

end Backtrack
