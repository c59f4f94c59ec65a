/-
# The tree under a revision

A revision is carried out while the tree is written: `Revision.pieces` lists tokens, and no tree has
them until they are read again.  `Revision.revised` says what tree that is.

* What is left out is gone from the sequence it stood in.
* A reference that is replaced is a group that captures nothing, around the revised body of its
  group.  In such a copy nothing captures, and a reference to a group whose body is being copied is
  the empty group.
* The groups that remain are numbered in their order, and references that remain point to the same
  groups as before (`Revision.redirect`).

The tokens that are written are the tokens of that tree (`Revision.unresolved_pieces`), its capture
groups are those that remain (`Revision.captureGroups_revised`), and its references are those that
remain, each to the new number of its group (`Revision.references_revised`).  Copies nest, but never in a
copy of the same group, so all statements about revised trees are by induction on what can still be
copied (`Revision.copying_induction`) and then on the tree.
-/
import Backtrack.Proofs.Pattern.Spelling

namespace Backtrack

namespace Revision

/-! ## 1. The revised tree

It is defined along the same two recursions as what is written: into the tree, and from a
reference into the body of its group, which is not below it.  The second one ends as a group is
not copied inside of its own copy. -/

/-- A group as it remains: inside a copy nothing captures, elsewhere groups are numbered anew. -/
def regroup (kept copying : List Nat) (g : Group) : Group :=
  if g.isCapture then
    if copying.isEmpty then { g with index := renumber kept g.index }
    else ⟨g.site, .nonCapture, 0, []⟩
  else g

/-- A reference that remains points to its group under the new number, inside a copy by that number
alone. -/
def redirect (kept copying : List Nat) (r : Reference) : Reference :=
  ⟨r.site, renumber kept r.index, if copying.isEmpty then r.name else []⟩

/-- Whether a node is left out. -/
def omits (w : Revision) : Node → Bool
  | .group g _ => w.omitted.contains g.site.id
  | _ => false

mutual

/-- The tree under a revision, while the groups in `copying` are being copied. -/
def revised (w : Revision) (kept copying : List Nat) : Node → Node
  | .atom a => .atom a
  | .anchor s k => .anchor s k
  | .reference r =>
    if _hc : copying.contains r.index then Node.separator
    else
      match _h : w.find? r with
      | some s =>
        .group ⟨r.site, .nonCapture, 0, []⟩ (revised w kept (r.index :: copying) s.body)
      | none => .reference (redirect kept copying r)
  | .group g body =>
    if w.omitted.contains g.site.id then .sequence g.site []
    else .group (regroup kept copying g) (revised w kept copying body)
  | .quantifier q body => .quantifier q (revised w kept copying body)
  | .sequence s ns => .sequence s (revisedAll w kept copying ns)
  | .alternation s ns => .alternation s (revisedEach w kept copying ns)
termination_by n => ((w.available copying).length, sizeOf n)
decreasing_by
  all_goals first
    | exact Prod.Lex.left _ _ (available_lt _h _hc)
    | (apply Prod.Lex.right; simp only [Node.group.sizeOf_spec, Node.quantifier.sizeOf_spec,
        Node.sequence.sizeOf_spec, Node.alternation.sizeOf_spec]; omega)

/-- The elements of a sequence under a revision, less those that are left out. -/
def revisedAll (w : Revision) (kept copying : List Nat) : List Node → List Node
  | [] => []
  | n :: ns =>
    if w.omits n then revisedAll w kept copying ns
    else revised w kept copying n :: revisedAll w kept copying ns
termination_by ns => ((w.available copying).length, sizeOf ns)
decreasing_by
  all_goals (apply Prod.Lex.right; simp only [List.cons.sizeOf_spec]; omega)

/-- Several trees under a revision. -/
def revisedEach (w : Revision) (kept copying : List Nat) : List Node → List Node
  | [] => []
  | n :: ns => revised w kept copying n :: revisedEach w kept copying ns
termination_by ns => ((w.available copying).length, sizeOf ns)
decreasing_by
  all_goals (apply Prod.Lex.right; simp only [List.cons.sizeOf_spec]; omega)

end

section Equations

variable {w : Revision} {kept copying : List Nat} {r : Reference}

theorem revised_copied (hc : copying.contains r.index = true) :
    w.revised kept copying (.reference r) = Node.separator := by
  rw [revised, dif_pos hc]

theorem revised_copy (hc : ¬copying.contains r.index = true) {s : Substitution}
    (hs : w.find? r = some s) :
    w.revised kept copying (.reference r) =
      .group ⟨r.site, .nonCapture, 0, []⟩ (w.revised kept (r.index :: copying) s.body) := by
  rw [revised, dif_neg hc]
  split
  · rename_i s' hs'
    obtain rfl := Option.some.inj (hs.symm.trans hs')
    rfl
  · rename_i hs'
    rw [hs] at hs'
    cases hs'

theorem revised_kept (hc : ¬copying.contains r.index = true) (hs : w.find? r = none) :
    w.revised kept copying (.reference r) = .reference (redirect kept copying r) := by
  rw [revised, dif_neg hc]
  split
  · rename_i s' hs'
    rw [hs] at hs'
    cases hs'
  · rfl

theorem pieces_copied (hc : copying.contains r.index = true) :
    w.pieces kept copying (.reference r) = emptyGroup := by
  rw [pieces, dif_pos hc]

theorem pieces_copy (hc : ¬copying.contains r.index = true) {s : Substitution}
    (hs : w.find? r = some s) :
    w.pieces kept copying (.reference r) = ⟨.opening .nonCapture [], s.atomic⟩ ::
      (w.pieces kept (r.index :: copying) s.body ++ [⟨.closing, false⟩]) := by
  rw [pieces, dif_neg hc]
  split
  · rename_i s' hs'
    obtain rfl := Option.some.inj (hs.symm.trans hs')
    rfl
  · rename_i hs'
    rw [hs] at hs'
    cases hs'

theorem pieces_kept (hc : ¬copying.contains r.index = true) (hs : w.find? r = none) :
    w.pieces kept copying (.reference r) = [⟨referenceToken kept copying r, false⟩] := by
  rw [pieces, dif_neg hc]
  split
  · rename_i s' hs'
    rw [hs] at hs'
    cases hs'
  · rfl

end Equations

/-- Something that holds of every copy that may be begun. -/
def Copies (w : Revision) (copying : List Nat) (motive : List Nat → Prop) : Prop :=
  ∀ r s, ¬copying.contains r.index = true → w.find? r = some s → motive (r.index :: copying)

/-- **Copies in copies end.**  What holds while some groups are being copied, provided that it holds
once one more is, holds. -/
theorem copying_induction (w : Revision) {motive : List Nat → Prop}
    (step : ∀ copying, w.Copies copying motive → motive copying) (copying : List Nat) :
    motive copying := by
  induction hk : (w.available copying).length using Nat.strong_induction_on generalizing copying with
  | _ k ih =>
    refine step copying fun r s hc hs => ih _ ?_ _ rfl
    exact hk ▸ available_lt hs hc

end Revision

/-! ## 2. Its tokens

One token differs.  A reference by name is written by name, and which number goes with the name is
known only when the text is read again.  So tokens are compared without these numbers, and the
text does not show them. -/

/-- The token without the number that its name stands for. -/
def Token.unresolved : Token → Token
  | .reference _ (b :: name) => .reference 0 (b :: name)
  | t => t

namespace Token

theorem text_unresolved (t : Token) : t.unresolved.text = t.text := by
  unfold unresolved
  split <;> rfl

theorem gap_unresolved (t u : Option Token) :
    gap (t.map unresolved) (u.map unresolved) = gap t u := by
  cases t with
  | none => rfl
  | some t =>
    cases u with
    | none => rfl
    | some u =>
      have numeric : t.unresolved.isNumeric = t.isNumeric := by
        unfold unresolved
        split <;> rfl
      have digit : u.unresolved.isDigit = u.isDigit := by
        unfold unresolved
        split <;> rfl
      simp only [gap, Option.map_some, Revision.runsTogether_eq, numeric, digit]

theorem separate_unresolved (ts : List Token) :
    separate (ts.map unresolved) = (separate ts).map unresolved := by
  induction ts with
  | nil => rfl
  | cons t ts ih =>
    have gap : (gap (some t) ts.head?).map unresolved = gap (some t) ts.head? := by
      unfold Token.gap
      split
      · split <;> rfl
      · rfl
    have := gap_unresolved (some t) ts.head?
    rw [List.map_cons, separate, ih, separate, List.map_cons, List.map_append, gap, ← this,
      List.head?_map]
    rfl

/-- Tokens that differ in the numbers of names alone are written the same way. -/
theorem flatMap_text_separate {ts us : List Token} (h : ts.map unresolved = us.map unresolved) :
    (separate ts).flatMap text = (separate us).flatMap text := by
  have text : ∀ ts, (separate ts).flatMap text = (separate (ts.map unresolved)).flatMap text := by
    intro ts
    rw [separate_unresolved, List.flatMap_map]
    exact congrArg (List.flatMap · _) (funext fun t => (text_unresolved t).symm)
  rw [text, h, ← text]

end Token

namespace Revision

variable {w : Revision} {kept : List Nat}

theorem openingToken_eq (kept copying : List Nat) (g : Group) :
    openingToken copying g =
      .opening (regroup kept copying g).kind (regroup kept copying g).name := by
  unfold openingToken regroup
  cases hc : g.isCapture with
  | false => rfl
  | true => cases copying <;> rfl

theorem unresolved_referenceToken (copying : List Nat) (r : Reference) :
    (referenceToken kept copying r).unresolved =
      (Token.reference (redirect kept copying r).index
        (redirect kept copying r).name).unresolved := by
  unfold referenceToken redirect
  cases copying with
  | nil => obtain ⟨site, index, _ | ⟨b, name⟩⟩ := r <;> rfl
  | cons => rfl

/-- Whether the tokens of trees are those of the revised trees, while some groups are being
copied. -/
def Agrees (w : Revision) (kept copying : List Nat) : Prop :=
  ∀ n, (w.pieces kept copying n).map (·.token.unresolved) =
    (w.revised kept copying n).tokens.map Token.unresolved

variable {copying : List Nat}

mutual

theorem unresolved_pieces_step (ih : w.Copies copying (w.Agrees kept)) : ∀ n : Node,
    (w.pieces kept copying n).map (·.token.unresolved) =
      (w.revised kept copying n).tokens.map Token.unresolved
  | .atom a => by
    rw [pieces, revised]
    rfl
  | .anchor _ k => by
    rw [pieces, revised]
    rfl
  | .reference r => by
    by_cases hc : copying.contains r.index = true
    · rw [pieces_copied hc, revised_copied hc]
      rfl
    · cases hs : w.find? r with
      | some s =>
        simp only [pieces_copy hc hs, revised_copy hc hs, List.map_cons, List.map_append,
          List.map_nil, Node.tokens, ih r s hc hs s.body]
      | none =>
        rw [pieces_kept hc hs, revised_kept hc hs, List.map_singleton, unresolved_referenceToken]
        rfl
  | .group g body => by
    rw [pieces, revised]
    split
    · rfl
    · simp only [List.map_cons, List.map_append, List.map_nil, Node.tokens,
        unresolved_pieces_step ih body, openingToken_eq kept]
  | .quantifier q body => by
    rw [pieces, revised, Node.tokens, List.map_append, List.map_append,
      unresolved_pieces_step ih body]
    rfl
  | .sequence _ ns => by
    rw [pieces, revised, Node.tokens, unresolved_piecesAll_step ih ns]
  | .alternation _ ns => by
    rw [pieces, revised, Node.tokens, unresolved_piecesBetween_step ih ns]

theorem unresolved_piecesAll_step (ih : w.Copies copying (w.Agrees kept)) : ∀ ns : List Node,
    (w.piecesAll kept copying ns).map (·.token.unresolved) =
      (Node.tokensAll (w.revisedAll kept copying ns)).map Token.unresolved
  | [] => by
    rw [piecesAll, revisedAll]
    rfl
  | n :: ns => by
    rw [piecesAll, revisedAll, List.map_append, unresolved_piecesAll_step ih ns,
      unresolved_pieces_step ih n]
    split
    -- What is left out has no tokens.
    · rename_i ho
      cases n with
      | group g body =>
        rw [revised, if_pos (by exact ho)]
        rfl
      | _ => cases ho
    · rw [Node.tokensAll, List.map_append]

theorem unresolved_piecesBetween_step (ih : w.Copies copying (w.Agrees kept)) : ∀ ns : List Node,
    (w.piecesBetween kept copying ns).map (·.token.unresolved) =
      (Node.tokensBetween (w.revisedEach kept copying ns)).map Token.unresolved
  | [] => by
    rw [piecesBetween, revisedEach]
    rfl
  | [n] => by
    rw [piecesBetween, revisedEach, revisedEach, Node.tokensBetween, unresolved_pieces_step ih n]
  | n :: m :: ns => by
    have ih' := unresolved_piecesBetween_step ih (m :: ns)
    rw [revisedEach] at ih'
    rw [piecesBetween, revisedEach, revisedEach, Node.tokensBetween, List.map_append,
      List.map_append, List.map_cons, List.map_cons, unresolved_pieces_step ih n, ih']

end

/-- **The tokens that are written are those of the revised tree**, up to the numbers that names
stand for.  By induction on what can still be copied, and then on the tree. -/
theorem unresolved_pieces (copying : List Nat) (n : Node) :
    (w.pieces kept copying n).map (·.token.unresolved) =
      (w.revised kept copying n).tokens.map Token.unresolved :=
  w.copying_induction (fun _ ih => unresolved_pieces_step ih) copying n

/-- The text of a tree under a revision is that of the revised tree. -/
theorem textOf_written (root : Node) :
    textOf (w.written root) =
      (Token.separate (w.revised (w.kept root) [] root).tokens).flatMap Token.text := by
  have agrees : ((w.pieces (w.kept root) [] root).map (·.token)).map Token.unresolved =
      (w.revised (w.kept root) [] root).tokens.map Token.unresolved := by
    rw [List.map_map]
    exact unresolved_pieces [] root
  rw [← Token.flatMap_text_separate agrees, ← Token.map_separate, textOf, written,
    List.flatMap_map]

end Revision
/-! ## 3. The groups that remain

The numbers of a revised tree are given in the order of its groups, so it has to be known which
these are.  Copies capture nothing; the groups of the revised tree are those outside of copies
that are not left out. -/

/-- The capture groups among some nodes. -/
def captureGroups (ns : List Node) : List Group :=
  ns.filterMap fun
    | .group g _ => if g.isCapture then some g else none
    | _ => none

theorem captureIndexes_eq_map (ns : List Node) :
    captureIndexes ns = (captureGroups ns).map (·.index) := by
  rw [captureIndexes, captureGroups, List.map_filterMap]
  congr 1
  funext n
  cases n with
  | group g body => cases h : g.isCapture <;> simp [h]
  | _ => rfl

theorem captureGroups_append (ns ms : List Node) :
    captureGroups (ns ++ ms) = captureGroups ns ++ captureGroups ms :=
  List.filterMap_append

theorem mem_captureGroups {g : Group} {ns : List Node} :
    g ∈ captureGroups ns ↔ g.isCapture = true ∧ ∃ body, .group g body ∈ ns := by
  rw [captureGroups, List.mem_filterMap]
  constructor
  · rintro ⟨n, hn, he⟩
    split at he
    · rename_i g' body
      split at he
      · rename_i hg
        obtain rfl := Option.some.inj he
        exact ⟨hg, body, hn⟩
      · cases he
    · cases he
  · rintro ⟨hg, body, hb⟩
    exact ⟨_, hb, by simp [hg]⟩

namespace Node

theorem captureGroups_atom (a : Atom) : captureGroups (atom a).walk = [] :=
  filterMap_walk_atom (fun _ => rfl) a

theorem captureGroups_group (g : Group) (body : Node) :
    captureGroups (group g body).walk =
      (if g.isCapture then [g] else []) ++ captureGroups body.walk := by
  rw [walk, captureGroups]
  cases h : g.isCapture with
  | false => exact List.filterMap_cons_none (by simp [h])
  | true => exact List.filterMap_cons_some (by simp [h])

theorem captureGroups_walkAll_cons (n : Node) (ns : List Node) :
    captureGroups (walkAll (n :: ns)) = captureGroups n.walk ++ captureGroups (walkAll ns) :=
  captureGroups_append _ _

/-- The names that a source gives to its groups are the names of the groups. -/
theorem filterMap_groupName?_tokens (n : Node) :
    n.tokens.filterMap Token.groupName? = (captureGroups n.walk).map (·.name) := by
  have others : ∀ t : Token, t.isOwn = false → t.groupName? = none := fun t ht => by
    cases t with
    | opening => cases ht
    | _ => rfl
  rw [filterMap_tokens others, captureGroups, List.map_filterMap]
  refine List.filterMap_congr fun m _ => ?_
  cases m with
  | group g body =>
    obtain ⟨site, kind, index, name⟩ := g
    cases kind <;> rfl
  | _ => rfl

end Node

namespace Revision

variable {w : Revision} {kept copying : List Nat}

mutual

/-- The capture groups that are written outside of copies, in order. -/
def keptGroups (w : Revision) : Node → List Group
  | .atom _ => []
  | .anchor _ _ => []
  | .reference _ => []
  | .group g body =>
    if w.omitted.contains g.site.id then []
    else (if g.isCapture then [g] else []) ++ w.keptGroups body
  | .quantifier _ body => w.keptGroups body
  | .sequence _ ns => w.keptGroupsAll ns
  | .alternation _ ns => w.keptGroupsAll ns

/-- The same for several trees. -/
def keptGroupsAll (w : Revision) : List Node → List Group
  | [] => []
  | n :: ns => w.keptGroups n ++ w.keptGroupsAll ns

end

mutual

/-- Groups are numbered in the order in which they remain. -/
theorem kept_eq_map : ∀ n : Node, w.kept n = (w.keptGroups n).map (·.index)
  | .atom _ => rfl
  | .anchor _ _ => rfl
  | .reference _ => rfl
  | .group g body => by
    rw [kept, keptGroups, kept_eq_map body]
    split
    · rfl
    · cases g.isCapture <;> rfl
  | .quantifier _ body => kept_eq_map body
  | .sequence _ ns => keptAll_eq_map ns
  | .alternation _ ns => keptAll_eq_map ns

theorem keptAll_eq_map : ∀ ns : List Node,
    w.keptAll ns = (w.keptGroupsAll ns).map (·.index)
  | [] => rfl
  | n :: ns => by
    rw [keptAll, keptGroupsAll, List.map_append, kept_eq_map n, keptAll_eq_map ns]

end

mutual

/-- The groups that remain are groups of the tree. -/
theorem keptGroups_sublist : ∀ n : Node, (w.keptGroups n).Sublist (captureGroups n.walk)
  | .atom _ => List.nil_sublist _
  | .anchor _ _ => List.nil_sublist _
  | .reference _ => List.nil_sublist _
  | .group g body => by
    rw [keptGroups, Node.captureGroups_group]
    split
    · exact List.nil_sublist _
    · exact (keptGroups_sublist body).append_left _
  | .quantifier _ body => keptGroups_sublist body
  | .sequence _ ns => keptGroupsAll_sublist ns
  | .alternation _ ns => keptGroupsAll_sublist ns

theorem keptGroupsAll_sublist : ∀ ns : List Node,
    (w.keptGroupsAll ns).Sublist (captureGroups (Node.walkAll ns))
  | [] => List.Sublist.refl _
  | n :: ns => by
    rw [keptGroupsAll, Node.captureGroups_walkAll_cons]
    exact (keptGroups_sublist n).append (keptGroupsAll_sublist ns)

end

theorem kept_sublist (n : Node) : (w.kept n).Sublist (captureIndexes n.walk) := by
  rw [kept_eq_map, captureIndexes_eq_map]
  exact (keptGroups_sublist n).map _

theorem isCapture_regroup (g : Group) :
    (regroup kept copying g).isCapture = (g.isCapture && copying.isEmpty) := by
  unfold regroup
  cases hc : g.isCapture with
  | false => simp [hc]
  | true =>
    cases copying with
    | nil => simpa [Group.isCapture] using hc
    | cons => simp [Group.isCapture]

/-- The capture groups of a revised tree, while some groups are being copied. -/
def remaining (kept copying : List Nat) (gs : List Group) : List Group :=
  if copying.isEmpty then gs.map (regroup kept []) else []

/-- Whether the groups of revised trees are those that remain, while some groups are being
copied. -/
def Captures (w : Revision) (kept copying : List Nat) : Prop :=
  ∀ n, captureGroups (w.revised kept copying n).walk = remaining kept copying (w.keptGroups n)

theorem remaining_nil : remaining kept copying [] = [] := by
  unfold remaining
  split <;> rfl

theorem remaining_append (gs hs : List Group) :
    remaining kept copying (gs ++ hs) =
      remaining kept copying gs ++ remaining kept copying hs := by
  unfold remaining
  split
  · exact List.map_append
  · rfl

mutual

theorem captureGroups_revised_step (ih : w.Copies copying (w.Captures kept)) : ∀ n : Node,
    captureGroups (w.revised kept copying n).walk = remaining kept copying (w.keptGroups n)
  | .atom a => by
    rw [revised, Node.captureGroups_atom, keptGroups, remaining_nil]
  | .anchor _ _ => by
    rw [revised, keptGroups, remaining_nil]
    rfl
  | .reference r => by
    rw [keptGroups, remaining_nil]
    by_cases hc : copying.contains r.index = true
    · rw [revised_copied hc]
      rfl
    · cases hs : w.find? r with
      | some s =>
        rw [revised_copy hc hs, Node.captureGroups_group, ih r s hc hs s.body]
        rfl
      | none =>
        rw [revised_kept hc hs]
        rfl
  | .group g body => by
    rw [revised, keptGroups]
    split
    · rw [remaining_nil]
      rfl
    · rw [Node.captureGroups_group, captureGroups_revised_step ih body, isCapture_regroup,
        remaining_append]
      congr 1
      unfold remaining
      cases g.isCapture <;> cases copying <;> rfl
  | .quantifier _ body => by
    rw [revised, keptGroups]
    exact captureGroups_revised_step ih body
  | .sequence _ ns => by
    rw [revised, keptGroups]
    exact captureGroups_revisedAll_step ih ns
  | .alternation _ ns => by
    rw [revised, keptGroups]
    exact captureGroups_revisedEach_step ih ns

theorem captureGroups_revisedAll_step (ih : w.Copies copying (w.Captures kept)) :
    ∀ ns : List Node, captureGroups (Node.walkAll (w.revisedAll kept copying ns)) =
      remaining kept copying (w.keptGroupsAll ns)
  | [] => by
    rw [revisedAll, keptGroupsAll, remaining_nil]
    rfl
  | n :: ns => by
    rw [revisedAll, keptGroupsAll, remaining_append, ← captureGroups_revisedAll_step ih ns,
      ← captureGroups_revised_step ih n]
    split
    -- What is left out has no groups.
    · rename_i ho
      cases n with
      | group g body =>
        rw [revised, if_pos (by exact ho)]
        rfl
      | _ => cases ho
    · rw [Node.captureGroups_walkAll_cons]

theorem captureGroups_revisedEach_step (ih : w.Copies copying (w.Captures kept)) :
    ∀ ns : List Node, captureGroups (Node.walkAll (w.revisedEach kept copying ns)) =
      remaining kept copying (w.keptGroupsAll ns)
  | [] => by
    rw [revisedEach, keptGroupsAll, remaining_nil]
    rfl
  | n :: ns => by
    rw [revisedEach, keptGroupsAll, remaining_append, Node.captureGroups_walkAll_cons,
      captureGroups_revised_step ih n, captureGroups_revisedEach_step ih ns]

end

theorem captures (w : Revision) (kept copying : List Nat) : w.Captures kept copying :=
  w.copying_induction (fun _ ih => captureGroups_revised_step ih) copying

/-- **The groups of the revised tree are those that remain, numbered anew.**  Outside of copies a
group that remains is written as a group, and in copies it captures nothing. -/
theorem captureGroups_revised (root : Node) :
    captureGroups (w.revised kept [] root).walk = (w.keptGroups root).map (regroup kept []) :=
  w.captures kept [] root

/-- Nothing captures in a copy. -/
theorem captureGroups_copy (hc : copying ≠ []) (n : Node) :
    captureGroups (w.revised kept copying n).walk = [] := by
  rw [w.captures kept copying n, remaining, if_neg (by simpa using hc)]

end Revision

/-! ## 4. The references that remain

References in copies remain as well, and they are the reason why this cannot be read off the
tree.  They are listed with the numbers their groups had, by revising without any new numbers. -/

namespace Downgrade

theorem references_atom (a : Atom) : references (.atom a) = [] :=
  Node.filterMap_walk_atom (fun _ => rfl) a

theorem references_walkAll (ns : List Node) :
    ((Node.walkAll ns).filterMap fun
      | .reference r => some r
      | _ => none) = ns.flatMap references := by
  rw [Node.walkAll_eq_flatMap, List.filterMap_flatMap]
  rfl

theorem references_sequence (s : Site) (ns : List Node) :
    references (.sequence s ns) = ns.flatMap references :=
  references_walkAll ns

theorem references_alternation (s : Site) (ns : List Node) :
    references (.alternation s ns) = ns.flatMap references :=
  references_walkAll ns

end Downgrade

namespace Revision

open Downgrade (references references_atom references_sequence references_alternation)

variable {w : Revision} {kept copying : List Nat}

/-- A reference to the new number of its group. -/
def renumbered (kept : List Nat) (r : Reference) : Reference :=
  { r with index := renumber kept r.index }

/-- The references that remain under a revision, in the order in which they are written, and still
with the numbers that their groups had. -/
def leftovers (w : Revision) (root : Node) : List Reference := references (w.revised [] [] root)

/-- Whether the references of revised trees are those that remain, while some groups are being
copied. -/
def Refers (w : Revision) (kept copying : List Nat) : Prop :=
  ∀ n, references (w.revised kept copying n) =
    (references (w.revised [] copying n)).map (renumbered kept)

mutual

theorem references_revised_step (ih : w.Copies copying (w.Refers kept)) : ∀ n : Node,
    references (w.revised kept copying n) =
      (references (w.revised [] copying n)).map (renumbered kept)
  | .atom a => by
    rw [revised, revised, references_atom, List.map_nil]
  | .anchor _ _ => by
    rw [revised, revised]
    rfl
  | .reference r => by
    by_cases hc : copying.contains r.index = true
    · rw [revised_copied hc, revised_copied hc]
      rfl
    · cases hs : w.find? r with
      | some s =>
        rw [revised_copy hc hs, revised_copy hc hs]
        exact ih r s hc hs s.body
      | none =>
        rw [revised_kept hc hs, revised_kept hc hs]
        rfl
  | .group g body => by
    rw [revised, revised]
    split
    · rfl
    · exact references_revised_step ih body
  | .quantifier _ body => by
    rw [revised, revised]
    exact references_revised_step ih body
  | .sequence _ ns => by
    rw [revised, revised, references_sequence, references_sequence]
    exact references_revisedAll_step ih ns
  | .alternation _ ns => by
    rw [revised, revised, references_alternation, references_alternation]
    exact references_revisedEach_step ih ns

theorem references_revisedAll_step (ih : w.Copies copying (w.Refers kept)) : ∀ ns : List Node,
    (w.revisedAll kept copying ns).flatMap references =
      ((w.revisedAll [] copying ns).flatMap references).map (renumbered kept)
  | [] => by
    rw [revisedAll, revisedAll]
    rfl
  | n :: ns => by
    have rest := references_revisedAll_step ih ns
    rw [revisedAll, revisedAll]
    split
    · exact rest
    · rw [List.flatMap_cons, List.flatMap_cons, List.map_append, rest,
        references_revised_step ih n]

theorem references_revisedEach_step (ih : w.Copies copying (w.Refers kept)) : ∀ ns : List Node,
    (w.revisedEach kept copying ns).flatMap references =
      ((w.revisedEach [] copying ns).flatMap references).map (renumbered kept)
  | [] => by
    rw [revisedEach, revisedEach]
    rfl
  | n :: ns => by
    rw [revisedEach, revisedEach, List.flatMap_cons, List.flatMap_cons, List.map_append,
      references_revised_step ih n, references_revisedEach_step ih ns]

end

/-- **The references of the revised tree are those that remain, to the new numbers.**  Those in
copies are among them: they are written as often as they are copied. -/
theorem references_revised (root : Node) :
    references (w.revised kept [] root) = (w.leftovers root).map (renumbered kept) :=
  w.copying_induction (motive := w.Refers kept) (fun _ ih => references_revised_step ih) [] root

end Revision

end Backtrack
