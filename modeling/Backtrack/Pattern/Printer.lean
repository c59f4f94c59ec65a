/-
# Writing a tree

A tree is written as tokens, and tokens as bytes.  A tree can be written as it is, or under a
*revision*, which leaves some lookaheads out and replaces some references by a copy of the body
of the group they refer to.  Inside a copy

* capture groups no longer capture and names are not used,
* references that are themselves replaced are copied in turn,
* a reference to a group whose copy is being written is the empty group.

The last rule ends the recursion: copies never nest in a copy of the same group, so every
further copy has one group less to choose from, and otherwise the tree gets smaller.

Capture groups that remain are numbered anew in the order in which they are written.  A digit
right after a numeric reference would be read as part of it, so an empty group is put between
the two (`separate`).
-/
import Backtrack.Pattern.Token

namespace Backtrack

/-- A reference that is replaced by a copy of its group's body. -/
structure Substitution where
  reference : Reference
  body : Node
  atomic : Bool
deriving Repr

/-- What to leave out and what to replace. -/
structure Revision where
  omitted : List Nat
  substitutions : List Substitution
deriving Repr

namespace Revision

/-- Writes a tree as it is. -/
def identity : Revision := ⟨[], []⟩

/-- The substitution of a reference. -/
def find? (w : Revision) (r : Reference) : Option Substitution :=
  w.substitutions.find? fun s => s.reference == r

/-- The groups that can still be copied while those in `copying` are being copied. -/
def available (w : Revision) (copying : List Nat) : List Nat :=
  (w.substitutions.map (·.reference.index)).filter fun i => !copying.contains i

theorem mem_of_find? {w : Revision} {r : Reference} {s : Substitution} (h : w.find? r = some s) :
    r.index ∈ w.substitutions.map (·.reference.index) := by
  have hm := List.mem_of_find?_eq_some h
  have hr := List.find?_some h
  simp only [beq_iff_eq] at hr
  exact List.mem_map.2 ⟨s, hm, by rw [hr]⟩

/-- Starting a copy leaves fewer groups to copy. -/
theorem available_lt {w : Revision} {r : Reference} {s : Substitution} {copying : List Nat}
    (h : w.find? r = some s) (hc : ¬ copying.contains r.index = true) :
    (w.available (r.index :: copying)).length < (w.available copying).length := by
  have hm := mem_of_find? h
  revert hm
  unfold available
  generalize w.substitutions.map (·.reference.index) = l
  intro hm
  have hsub : (l.filter fun i => !(r.index :: copying).contains i) =
      (l.filter fun i => !copying.contains i).filter fun i => i != r.index := by
    rw [List.filter_filter]
    congr 1
    funext i
    simp only [List.contains_cons, Bool.not_or]
    rfl
  rw [hsub]
  have hmem : r.index ∈ l.filter fun i => !copying.contains i :=
    List.mem_filter.2 ⟨hm, by simpa using hc⟩
  exact List.length_filter_lt_length_iff_exists.2 ⟨r.index, hmem, by simp⟩

end Revision

/-- A token as it is written, marked when it opens an atomic copy. -/
structure Piece where
  token : Token
  atomic : Bool := false
deriving Repr, DecidableEq

namespace Revision

/-! ## 1. Renumbering -/

mutual

/-- The numbers of the capture groups that are written outside of copies, in order. -/
def kept (w : Revision) : Node → List Nat
  | .atom _ => []
  | .anchor _ _ => []
  | .reference _ => []
  | .group g body =>
    if w.omitted.contains g.site.id then []
    else if g.isCapture then g.index :: w.kept body
    else w.kept body
  | .quantifier _ body => w.kept body
  | .sequence _ ns => w.keptAll ns
  | .alternation _ ns => w.keptAll ns

/-- The same for several trees. -/
def keptAll (w : Revision) : List Node → List Nat
  | [] => []
  | n :: ns => w.kept n ++ w.keptAll ns

end

/-- The new number of a group; a group that is not written keeps its old one. -/
def renumber (kept : List Nat) (index : Nat) : Nat :=
  match kept.idxOf? index with
  | some i => i + 1
  | none => index

/-! ## 2. Tokens of a tree -/

/-- The empty group. -/
def emptyGroup : List Piece := [⟨.opening .nonCapture [], false⟩, ⟨.closing, false⟩]

/-- The opening of a group; inside a copy nothing captures. -/
def openingToken (copying : List Nat) (g : Group) : Token :=
  if g.isCapture && !copying.isEmpty then .opening .nonCapture [] else .opening g.kind g.name

/-- A reference that stays one; inside a copy it is written by number. -/
def referenceToken (kept copying : List Nat) (r : Reference) : Token :=
  if copying.isEmpty && !r.name.isEmpty then .reference r.index r.name
  else .reference (renumber kept r.index) []

mutual

/-- The tokens of a tree while the groups in `copying` are being copied. -/
def pieces (w : Revision) (kept copying : List Nat) : Node → List Piece
  | .atom a => [⟨.leaf a.shape, false⟩]
  | .anchor _ k => [⟨.anchor k, false⟩]
  | .reference r =>
    if _hc : copying.contains r.index then emptyGroup
    else
      match _h : w.find? r with
      | some s =>
        ⟨.opening .nonCapture [], s.atomic⟩ ::
          (pieces w kept (r.index :: copying) s.body ++ [⟨.closing, false⟩])
      | none => [⟨referenceToken kept copying r, false⟩]
  | .group g body =>
    if w.omitted.contains g.site.id then []
    else ⟨openingToken copying g, false⟩ :: (pieces w kept copying body ++ [⟨.closing, false⟩])
  | .quantifier q body => pieces w kept copying body ++ [⟨.count q.count, false⟩]
  | .sequence _ ns => piecesAll w kept copying ns
  | .alternation _ ns => piecesBetween w kept copying ns
termination_by n => ((w.available copying).length, sizeOf n)
decreasing_by
  all_goals first
    | exact Prod.Lex.left _ _ (available_lt _h _hc)
    | (apply Prod.Lex.right; simp only [Node.group.sizeOf_spec, Node.quantifier.sizeOf_spec,
        Node.sequence.sizeOf_spec, Node.alternation.sizeOf_spec]; omega)

/-- The tokens of several trees in a row. -/
def piecesAll (w : Revision) (kept copying : List Nat) : List Node → List Piece
  | [] => []
  | n :: ns => pieces w kept copying n ++ piecesAll w kept copying ns
termination_by ns => ((w.available copying).length, sizeOf ns)
decreasing_by
  all_goals (apply Prod.Lex.right; simp only [List.cons.sizeOf_spec]; omega)

/-- The tokens of several trees with bars between them. -/
def piecesBetween (w : Revision) (kept copying : List Nat) : List Node → List Piece
  | [] => []
  | [n] => pieces w kept copying n
  | n :: m :: ns =>
    pieces w kept copying n ++ ⟨.bar, false⟩ :: piecesBetween w kept copying (m :: ns)
termination_by ns => ((w.available copying).length, sizeOf ns)
decreasing_by
  all_goals (apply Prod.Lex.right; simp only [List.cons.sizeOf_spec, List.nil.sizeOf_spec]; omega)

end

/-! ## 3. Bytes of tokens -/

/-- A numeric reference followed by the character of a digit. -/
def runsTogether : Token → Token → Bool
  | .reference _ [], .leaf (.char c) => '0'.toNat ≤ c && c ≤ '9'.toNat
  | _, _ => false

/-- Puts the empty group between a numeric reference and a digit. -/
def separate : List Piece → List Piece
  | [] => []
  | [p] => [p]
  | p :: q :: rest =>
    if runsTogether p.token q.token then p :: (emptyGroup ++ separate (q :: rest))
    else p :: separate (q :: rest)

/-- All tokens of a tree as they are written. -/
def written (w : Revision) (root : Node) : List Piece :=
  separate (w.pieces (w.kept root) [] root)

/-- The bytes of tokens. -/
def textOf (ps : List Piece) : Bytes := ps.flatMap (·.token.text)

/-- The offsets at which atomic copies open, when the tokens are written from `pos` on. -/
def atomicOffsets (pos : Nat) : List Piece → List Nat
  | [] => []
  | p :: ps =>
    let later := atomicOffsets (pos + p.token.text.length) ps
    if p.atomic then pos :: later else later

end Revision

/-- The source of a tree. -/
def Node.render (n : Node) : Bytes := Revision.textOf (Revision.identity.written n)

end Backtrack
