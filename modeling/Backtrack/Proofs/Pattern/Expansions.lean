/-
# Where atomic copies open

Downgrading hands on the offsets of its atomic copies, taken from the length of what has been
written when a copy begins.  The text is then parsed by itself, so that an offset is of use only if
a group opens there and is the right one.

`Revision.expansions` lists the references that are expanded, those in copies included, each with
the references it is expanded inside of and with the number of tokens before it.  The offsets are
one for each expansion of the reference of a pair, in this order (`Pattern.marks_of_downgrade`):
nothing is put between the tokens before a copy and its opening, since separators only stand before
digits.
-/
import Backtrack.Proofs.Pattern.Ancestors
import Backtrack.Proofs.Pattern.Downgrading
import Backtrack.Proofs.Pattern.Openings

namespace Backtrack

/-! ## 1. Expansions

The list is made by the same recursion as the tokens, with the number of tokens written before as
a parameter.  A reference may come up many times, once for each copy that it is in. -/

/-- A reference that is expanded: the number of tokens written before its copy, the references
whose copies it is expanded inside of, innermost first, and the reference itself. -/
structure Expansion where
  position : Nat
  inside : List Reference
  reference : Reference
deriving Repr, DecidableEq

namespace Revision

/-- The groups that are being copied inside of some expanded references. -/
def copied (inside : List Reference) : List Nat := inside.map (·.index)

mutual

/-- The expansions in a tree that is written after `position` tokens, inside of some expanded
references. -/
def expansions (w : Revision) (kept : List Nat) (position : Nat) (inside : List Reference) :
    Node → List Expansion
  | .atom _ => []
  | .anchor _ _ => []
  | .reference r =>
    if _hc : (copied inside).contains r.index then []
    else
      match _h : w.find? r with
      | some s => ⟨position, inside, r⟩ :: expansions w kept (position + 1) (r :: inside) s.body
      | none => []
  | .group g body =>
    if w.omitted.contains g.site.id then [] else expansions w kept (position + 1) inside body
  | .quantifier _ body => expansions w kept position inside body
  | .sequence _ ns => expansionsAll w kept position inside ns
  | .alternation _ ns => expansionsBetween w kept position inside ns
termination_by n => ((w.available (copied inside)).length, sizeOf n)
decreasing_by
  all_goals first
    | exact Prod.Lex.left _ _ (available_lt _h _hc)
    | (apply Prod.Lex.right; simp only [Node.group.sizeOf_spec, Node.quantifier.sizeOf_spec,
        Node.sequence.sizeOf_spec, Node.alternation.sizeOf_spec]; omega)

/-- The expansions in several trees in a row. -/
def expansionsAll (w : Revision) (kept : List Nat) (position : Nat) (inside : List Reference) :
    List Node → List Expansion
  | [] => []
  | n :: ns =>
    expansions w kept position inside n ++
      expansionsAll w kept (position + (w.pieces kept (copied inside) n).length) inside ns
termination_by ns => ((w.available (copied inside)).length, sizeOf ns)
decreasing_by
  all_goals (apply Prod.Lex.right; simp only [List.cons.sizeOf_spec]; omega)

/-- The expansions in several trees with bars between them. -/
def expansionsBetween (w : Revision) (kept : List Nat) (position : Nat) (inside : List Reference) :
    List Node → List Expansion
  | [] => []
  | n :: ns =>
    expansions w kept position inside n ++
      expansionsBetween w kept (position + (w.pieces kept (copied inside) n).length + 1) inside ns
termination_by ns => ((w.available (copied inside)).length, sizeOf ns)
decreasing_by
  all_goals (apply Prod.Lex.right; simp only [List.cons.sizeOf_spec]; omega)

end

variable {w : Revision} {kept : List Nat} {inside : List Reference} {position : Nat} {r : Reference}

theorem expansions_copied (hc : (copied inside).contains r.index = true) :
    w.expansions kept position inside (.reference r) = [] := by
  rw [expansions, dif_pos hc]

theorem expansions_copy (hc : ¬(copied inside).contains r.index = true) {s : Substitution}
    (hs : w.find? r = some s) :
    w.expansions kept position inside (.reference r) =
      ⟨position, inside, r⟩ :: w.expansions kept (position + 1) (r :: inside) s.body := by
  rw [expansions, dif_neg hc]
  split
  · rename_i s' hs'
    obtain rfl := Option.some.inj (hs.symm.trans hs')
    rfl
  · rename_i hs'
    rw [hs] at hs'
    cases hs'

theorem expansions_kept (hc : ¬(copied inside).contains r.index = true) (hs : w.find? r = none) :
    w.expansions kept position inside (.reference r) = [] := by
  rw [expansions, dif_neg hc]
  split
  · rename_i s' hs'
    rw [hs] at hs'
    cases hs'
  · rfl

/-! ## 2. Expansions and what is written

Two rows are compared, tokens and expansions, and each is put together from parts.  Positions of a
later part are shifted by the length of the earlier ones. -/

/-- What is written for an expansion by a substitution. -/
def copyOf (w : Revision) (kept : List Nat) (e : Expansion) (s : Substitution) : List Piece :=
  ⟨.opening .nonCapture [], s.atomic⟩ ::
    (w.pieces kept (e.reference.index :: copied e.inside) s.body ++ [⟨.closing, false⟩])

/-- The copy of an expansion stands in what is written after `position` tokens, and right where the
expansion says. -/
def StandsIn (w : Revision) (kept : List Nat) (position : Nat) (ps : List Piece)
    (e : Expansion) : Prop :=
  ∃ s before after, w.find? e.reference = some s ∧ ps = before ++ (w.copyOf kept e s ++ after) ∧
    e.position = position + before.length

theorem StandsIn.append_left {ps qs : List Piece} {e : Expansion}
    (h : w.StandsIn kept (position + ps.length) qs e) : w.StandsIn kept position (ps ++ qs) e := by
  obtain ⟨s, before, after, hs, rfl, place⟩ := h
  refine ⟨s, ps ++ before, after, hs, by rw [List.append_assoc], ?_⟩
  rw [place, List.length_append, Nat.add_assoc]

theorem StandsIn.append_right {ps qs : List Piece} {e : Expansion}
    (h : w.StandsIn kept position ps e) : w.StandsIn kept position (ps ++ qs) e := by
  obtain ⟨s, before, after, hs, rfl, place⟩ := h
  exact ⟨s, before, after ++ qs, hs, by simp only [List.append_assoc], place⟩

/-- Whether the expansion makes an atomic copy. -/
def isAtomic (w : Revision) (e : Expansion) : Bool := (w.find? e.reference).any (·.atomic)

/-- The expansions are those of what is written after `position` tokens: the copies stand there, and
the tokens that are marked are the openings of the atomic ones. -/
structure Expands (w : Revision) (kept : List Nat) (position : Nat) (ps : List Piece)
    (es : List Expansion) : Prop where
  stands : ∀ e ∈ es, w.StandsIn kept position ps e
  marked : ps.findIdxs (·.atomic) position = (es.filter w.isAtomic).map (·.position)
  openings : ∀ p ∈ ps, p.atomic = true → p.token = .opening .nonCapture []

theorem Expands.nil : w.Expands kept position [] [] := ⟨by simp, rfl, by simp⟩

theorem Expands.plain (t : Token) : w.Expands kept position [⟨t, false⟩] [] :=
  ⟨by simp, rfl, by simp⟩

theorem Expands.append {ps qs : List Piece} {es fs : List Expansion}
    (h : w.Expands kept position ps es) (h' : w.Expands kept (position + ps.length) qs fs) :
    w.Expands kept position (ps ++ qs) (es ++ fs) := by
  refine ⟨?_, ?_, ?_⟩
  · intro e he
    rcases List.mem_append.mp he with he | he
    · exact (h.stands e he).append_right
    · exact (h'.stands e he).append_left
  · rw [List.findIdxs_append, List.filter_append, List.map_append, h.marked, h'.marked]
  · intro p hp
    rcases List.mem_append.mp hp with hp | hp
    · exact h.openings p hp
    · exact h'.openings p hp

/-- Tokens before, which are none of a copy. -/
theorem Expands.after (t : Token) {ps : List Piece} {es : List Expansion}
    (h : w.Expands kept (position + 1) ps es) : w.Expands kept position (⟨t, false⟩ :: ps) es := by
  have first : w.Expands kept position [⟨t, false⟩] [] := plain t
  exact first.append h

/-- Tokens behind, which are none of a copy. -/
theorem Expands.before (t : Token) {ps : List Piece} {es : List Expansion}
    (h : w.Expands kept position ps es) : w.Expands kept position (ps ++ [⟨t, false⟩]) es := by
  have := h.append (plain t)
  rwa [List.append_nil] at this

/-- A copy is one expansion more than there are in the body. -/
theorem Expands.copy {s : Substitution} (hs : w.find? r = some s) {es : List Expansion}
    (h : w.Expands kept (position + 1) (w.pieces kept (r.index :: copied inside) s.body) es) :
    w.Expands kept position (w.copyOf kept ⟨position, inside, r⟩ s)
      (⟨position, inside, r⟩ :: es) := by
  have body := h.before .closing
  refine ⟨?_, ?_, ?_⟩
  · intro e he
    rcases List.mem_cons.mp he with rfl | he
    · exact ⟨s, [], [], hs, (List.append_nil _).symm, rfl⟩
    · rw [copyOf, ← List.singleton_append]
      exact (body.stands e he).append_left
  · have own : w.isAtomic ⟨position, inside, r⟩ = s.atomic := by
      rw [isAtomic, hs, Option.any_some]
    rw [copyOf, List.findIdxs_cons, body.marked, List.filter_cons, own]
    cases s.atomic <;> rfl
  · intro p hp atomic
    rcases List.mem_cons.mp hp with rfl | hp
    · rfl
    · exact body.openings p hp atomic

/-- Whether the expansions of trees are those of what is written, while some groups are being
copied. -/
def Enumerates (w : Revision) (kept copying : List Nat) : Prop :=
  ∀ inside, copied inside = copying → ∀ (n : Node) position,
    w.Expands kept position (w.pieces kept copying n) (w.expansions kept position inside n)

mutual

theorem expands_step (ih : w.Copies (copied inside) (w.Enumerates kept)) :
    ∀ (n : Node) (position : Nat), w.Expands kept position (w.pieces kept (copied inside) n)
      (w.expansions kept position inside n)
  | .atom _, _ => by
    rw [pieces, expansions]
    exact .plain _
  | .anchor _ _, _ => by
    rw [pieces, expansions]
    exact .plain _
  | .reference r, position => by
    by_cases hc : (copied inside).contains r.index = true
    · rw [pieces_copied hc, expansions_copied hc]
      exact .after _ (.plain _)
    · cases hs : w.find? r with
      | some s =>
        rw [pieces_copy hc hs, expansions_copy hc hs]
        exact .copy hs (ih r s hc hs (r :: inside) rfl s.body (position + 1))
      | none =>
        rw [pieces_kept hc hs, expansions_kept hc hs]
        exact .plain _
  | .group g body, position => by
    rw [pieces, expansions]
    split
    · exact .nil
    · exact .after _ (.before _ (expands_step ih body (position + 1)))
  | .quantifier _ body, position => by
    rw [pieces, expansions]
    exact .before _ (expands_step ih body position)
  | .sequence _ ns, position => by
    rw [pieces, expansions]
    exact expandsAll_step ih ns position
  | .alternation _ ns, position => by
    rw [pieces, expansions]
    exact expandsBetween_step ih ns position

theorem expandsAll_step (ih : w.Copies (copied inside) (w.Enumerates kept)) :
    ∀ (ns : List Node) (position : Nat),
      w.Expands kept position (w.piecesAll kept (copied inside) ns)
        (w.expansionsAll kept position inside ns)
  | [], _ => by
    rw [piecesAll, expansionsAll]
    exact .nil
  | n :: ns, position => by
    rw [piecesAll, expansionsAll]
    exact (expands_step ih n position).append (expandsAll_step ih ns _)

theorem expandsBetween_step (ih : w.Copies (copied inside) (w.Enumerates kept)) :
    ∀ (ns : List Node) (position : Nat),
      w.Expands kept position (w.piecesBetween kept (copied inside) ns)
        (w.expansionsBetween kept position inside ns)
  | [], _ => by
    rw [piecesBetween, expansionsBetween]
    exact .nil
  | [n], position => by
    rw [piecesBetween, expansionsBetween, expansionsBetween, List.append_nil]
    exact expands_step ih n position
  | n :: m :: ns, position => by
    rw [piecesBetween, expansionsBetween]
    exact (expands_step ih n position).append (.after _ (expandsBetween_step ih (m :: ns) _))

end

/-- **The expansions of a tree are those of what is written.**  Copies nest, so the induction is
on what can still be copied, and then on the tree. -/
theorem expands (w : Revision) (kept : List Nat) (root : Node) :
    w.Expands kept 0 (w.pieces kept [] root) (w.expansions kept 0 [] root) :=
  w.copying_induction (motive := w.Enumerates kept)
    (fun _ ih _ he n position => by subst he; exact expands_step ih n position) [] [] rfl root 0

/-! ## 3. Expansions and offsets

A position counts tokens, an offset counts bytes, and separators stand between tokens.  A copy
opens with a parenthesis, before which no separator is ever put, so its offset is the length of
all that is before. -/

theorem length_textOf_cons (p : Piece) (ps : List Piece) :
    (textOf (p :: ps)).length = p.token.text.length + (textOf ps).length := by
  rw [textOf, List.flatMap_cons, List.length_append]
  rfl

/-- What is put between two tokens does not depend on what comes after, it is nothing before what
is no digit, and no copy begins in it. -/
theorem exists_gap (p q : Piece) :
    ∃ gap, (∀ qs, separate (p :: q :: qs) = p :: (gap ++ separate (q :: qs))) ∧
      (q.token.isDigit = false → gap = []) ∧
      ∀ pos qs, atomicOffsets pos (gap ++ qs) = atomicOffsets (pos + (textOf gap).length) qs := by
  cases h : runsTogether p.token q.token with
  | true =>
    refine ⟨emptyGroup, fun qs => by rw [separate, if_pos h], fun digit => ?_, fun pos qs => rfl⟩
    rw [runsTogether_eq, digit, Bool.and_false] at h
    cases h
  | false =>
    exact ⟨[], fun qs => by rw [separate, h]; rfl, fun _ => rfl, fun pos qs => rfl⟩

/-- **The offsets of the atomic copies are the lengths of what is written before them**, separators
included. -/
theorem atomicOffsets_separate {ps : List Piece}
    (h : ∀ p ∈ ps, p.atomic = true → p.token.isDigit = false) (pos : Nat) :
    atomicOffsets pos (separate ps) =
      (ps.findIdxs (·.atomic)).map fun i => pos + (textOf (separate (ps.take i))).length := by
  induction ps generalizing pos with
  | nil => rfl
  | cons p ps ih =>
    obtain ⟨-, rest⟩ := List.forall_mem_cons.mp h
    cases ps with
    | nil => cases hp : p.atomic <;> simp [separate, atomicOffsets, hp, textOf]
    | cons q ps =>
      obtain ⟨gap, split, nothing, skip⟩ := exists_gap p q
      have before : ∀ i ∈ (q :: ps).findIdxs (·.atomic),
          (textOf (separate ((p :: q :: ps).take (i + 1)))).length =
            p.token.text.length + (textOf gap).length +
              (textOf (separate ((q :: ps).take i))).length := by
        intro i hi
        rw [List.take_succ_cons]
        cases i with
        | zero =>
          have atomic : q.atomic = true := by
            obtain ⟨_, hq⟩ := List.mem_findIdxs_iff_exists_getElem_pos.mp hi
            exact hq
          rw [nothing (rest q List.mem_cons_self atomic), List.take_zero]
          exact length_textOf_cons p []
        | succ i =>
          rw [List.take_succ_cons, split, length_textOf_cons, textOf, List.flatMap_append,
            List.length_append, Nat.add_assoc]
          rfl
      have later : atomicOffsets (pos + p.token.text.length) (gap ++ separate (q :: ps)) =
          ((q :: ps).findIdxs (·.atomic) 1).map fun i =>
            pos + (textOf (separate ((p :: q :: ps).take i))).length := by
        rw [skip, ih rest, List.findIdxs_start (s := 1), List.map_map]
        refine List.map_congr_left fun i hi => ?_
        rw [Function.comp_apply, before i hi]
        omega
      have own : (p :: q :: ps).findIdxs (·.atomic) =
          if p.atomic then 0 :: (q :: ps).findIdxs (·.atomic) 1
          else (q :: ps).findIdxs (·.atomic) 1 := List.findIdxs_cons
      rw [split, atomicOffsets, later, own]
      cases p.atomic <;> rfl

/-- The offsets of the atomic copies increase, and groups are opened at them. -/
theorem atomicOffsets_openings {ps : List Piece}
    (h : ∀ p ∈ ps, p.atomic = true → p.token = .opening .nonCapture []) (pos : Nat) :
    (atomicOffsets pos ps).Pairwise (· < ·) ∧ ∀ o ∈ atomicOffsets pos ps,
      pos ≤ o ∧ (o, .nonCapture) ∈ Token.openings pos (ps.map (·.token)) := by
  induction ps generalizing pos with
  | nil => exact ⟨List.Pairwise.nil, by simp [atomicOffsets]⟩
  | cons p ps ih =>
    obtain ⟨own, rest⟩ := List.forall_mem_cons.mp h
    obtain ⟨ordered, later⟩ := ih rest (pos + p.token.text.length)
    have later : ∀ o ∈ atomicOffsets (pos + p.token.text.length) ps,
        pos + p.token.text.length ≤ o ∧
          (o, .nonCapture) ∈ Token.openings pos ((p :: ps).map (·.token)) := fun o ho =>
      ⟨(later o ho).1, List.mem_append_right _ (later o ho).2⟩
    rw [atomicOffsets]
    cases hp : p.atomic with
    | false => exact ⟨ordered, fun o ho => ⟨by have := (later o ho).1; omega, (later o ho).2⟩⟩
    | true =>
      have token := own hp
      have width : p.token.text.length = 3 := by rw [token]; rfl
      refine ⟨List.pairwise_cons.mpr ⟨fun o ho => ?_, ordered⟩, fun o ho => ?_⟩
      · have := (later o ho).1
        omega
      · rcases List.mem_cons.mp ho with rfl | ho
        · rw [List.map_cons, token]
          exact ⟨Nat.le_refl _, List.mem_cons_self⟩
        · exact ⟨by have := (later o ho).1; omega, (later o ho).2⟩

/-- Separating marks nothing. -/
theorem forall_mem_separate {P : Piece → Prop} (gap : ∀ p ∈ emptyGroup, P p) :
    ∀ {ps : List Piece}, (∀ p ∈ ps, P p) → ∀ p ∈ separate ps, P p
  | [], h => h
  | [_], h => h
  | p :: q :: ps, h => by
    obtain ⟨own, rest⟩ := List.forall_mem_cons.mp h
    have later := forall_mem_separate gap rest
    rw [separate]
    split
    · exact List.forall_mem_cons.mpr ⟨own, List.forall_mem_append.mpr ⟨gap, later⟩⟩
    · exact List.forall_mem_cons.mpr ⟨own, later⟩

end Revision

/-! ## 4. Expansions of pairs

Whether a copy is atomic is decided by the substitution, and it is for the references of pairs. -/

namespace Downgrade

/-- Whether the reference that is expanded is that of a pair. -/
def isPaired (root : Node) (e : Expansion) : Bool :=
  (atomicPairs root).any (·.reference == e.reference)

variable {root : Node}

/-- The references of pairs are those that are expanded into atomic copies. -/
theorem isAtomic_eq_isPaired (e : Expansion) : (revisionOf root).isAtomic e = isPaired root e := by
  rw [Bool.eq_iff_iff, Revision.isAtomic, Option.any_eq_true, isPaired, List.any_eq_true]
  constructor
  · rintro ⟨s, hs, atomic⟩
    obtain ⟨pair, hp, -, hr⟩ := exists_pair_of_atomic hs atomic
    exact ⟨pair, hp, beq_iff_eq.mpr hr⟩
  · rintro ⟨pair, hp, hr⟩
    rw [← beq_iff_eq.mp hr]
    exact exists_atomic_of_pair hp

/-- The tokens of a tree that is downgraded, before separators are put between them. -/
def rewritten (root : Node) : List Piece :=
  (revisionOf root).pieces ((revisionOf root).kept root) [] root

/-- The expansions of the references of pairs in a tree that is downgraded, in the order in which
they are written. -/
def pairExpansions (root : Node) : List Expansion :=
  ((revisionOf root).expansions ((revisionOf root).kept root) 0 [] root).filter (isPaired root)

end Downgrade

/-! ## 5. Downgraded patterns

What is handed on are offsets, and the text is parsed anew.  Its groups are where they were
written even if a number is read as something else, so nothing is asked of references. -/

open Downgrade (revisionOf rewritten pairExpansions atomicPairs)

/-- The offsets that come with a downgraded pattern are those of its atomic copies. -/
structure Downgraded.Marks (d : Downgraded) (p : Pattern) : Prop where
  /-- The offsets increase. -/
  increasing : d.atomicOffsets.Pairwise (· < ·)
  /-- At each of them a group starts that captures nothing, and the index finds it. -/
  groups : ∀ o ∈ d.atomicOffsets, ∃ g ∈ groupsIn d.pattern.root.walk,
    g.site.start = o ∧ g.kind = .nonCapture ∧ (Index.ofNode d.pattern.root).groupAt? o = some g
  /-- They are offsets in what is written. -/
  written : d.changed = true →
    d.pattern.source = Revision.textOf (Revision.separate (rewritten p.root))
  /-- Each expansion of the reference of a pair has one: the length of what is written before it. -/
  offsets : d.atomicOffsets = (pairExpansions p.root).map fun e =>
    (Revision.textOf (Revision.separate ((rewritten p.root).take e.position))).length
  /-- What comes then is the copy of what the pair matches. -/
  copies : ∀ e ∈ pairExpansions p.root, ∃ pair ∈ atomicPairs p.root, pair.reference = e.reference ∧
    ∃ after, rewritten p.root = (rewritten p.root).take e.position ++
      ((revisionOf p.root).copyOf ((revisionOf p.root).kept p.root) e
        ⟨pair.reference, pair.body, true⟩ ++ after)

namespace Pattern

open Revision (textOf separate)

variable {source : Bytes} {flags : Flags} {p : Pattern} {d : Downgraded}

/-- Expansions of the references of pairs are written as copies of the bodies of pairs. -/
theorem exists_copy {root : Node} {e : Expansion} (he : e ∈ pairExpansions root) :
    ∃ pair ∈ atomicPairs root, pair.reference = e.reference ∧
      ∃ after, rewritten root = (rewritten root).take e.position ++
        ((revisionOf root).copyOf ((revisionOf root).kept root) e
          ⟨pair.reference, pair.body, true⟩ ++ after) := by
  obtain ⟨he, paired⟩ := List.mem_filter.mp he
  obtain ⟨s, before, after, hs, split, place⟩ :=
    ((revisionOf root).expands ((revisionOf root).kept root) root).stands e he
  rw [← Downgrade.isAtomic_eq_isPaired, Revision.isAtomic, hs, Option.any_some] at paired
  obtain ⟨pair, hp, rfl, hr⟩ := Downgrade.exists_pair_of_atomic hs paired
  rw [Nat.zero_add] at place
  refine ⟨pair, hp, hr, after, ?_⟩
  rw [rewritten, split, place, List.take_left]

/-- The offsets of the atomic copies in what is written. -/
theorem atomicOffsets_eq (root : Node) :
    Revision.atomicOffsets 0 (separate (rewritten root)) = (pairExpansions root).map fun e =>
      (textOf (separate ((rewritten root).take e.position))).length := by
  have expands := (revisionOf root).expands ((revisionOf root).kept root) root
  have digits : ∀ q ∈ rewritten root, q.atomic = true → q.token.isDigit = false := by
    intro q hq atomic
    rw [expands.openings q hq atomic]
    rfl
  have marked : (rewritten root).findIdxs (·.atomic) = (pairExpansions root).map (·.position) := by
    rw [rewritten, expands.marked, pairExpansions,
      List.filter_congr fun e _ => Downgrade.isAtomic_eq_isPaired e]
  rw [Revision.atomicOffsets_separate digits, marked, List.map_map]
  refine List.map_congr_left fun e _ => ?_
  rw [Function.comp_apply, Nat.zero_add]

namespace Nested

/-! The pattern `(x)\1\x30(?=(a(?=(b))\3))\2` has a pair in a pair.  How it is rewritten is followed
here, for the theorem below. -/

/-- The reference of the inner pair. -/
def inner : Reference := ⟨⟨9, 21, 23⟩, 3, []⟩

/-- What it is a copy of. -/
def innerBody : Node := .atom ⟨⟨6, 18, 19⟩, .char 98⟩

/-- The reference of the outer pair. -/
def outer : Reference := ⟨⟨13, 25, 27⟩, 2, []⟩

/-- What it is a copy of, with the inner pair. -/
def outerBody : Node :=
  .sequence ⟨10, 13, 23⟩
    [.atom ⟨⟨5, 13, 14⟩, .char 97⟩,
      .group ⟨⟨8, 14, 21⟩, .lookahead, 0, []⟩
        (.group ⟨⟨7, 17, 20⟩, .capture, 3, []⟩ innerBody),
      .reference inner]

/-- The reference that is no part of a pair, and stays. -/
def kept : Reference := ⟨⟨3, 3, 5⟩, 1, []⟩

def pattern : Pattern where
  source := Bytes.ofString "(x)\\1\\x30(?=(a(?=(b))\\3))\\2"
  flags := {}
  root := .sequence ⟨14, 0, 27⟩
    [.group ⟨⟨2, 0, 3⟩, .capture, 1, []⟩ (.atom ⟨⟨1, 1, 2⟩, .char 120⟩),
      .reference kept, .atom ⟨⟨4, 5, 9⟩, .char 48⟩,
      .group ⟨⟨12, 9, 25⟩, .lookahead, 0, []⟩
        (.group ⟨⟨11, 12, 24⟩, .capture, 2, []⟩ outerBody),
      .reference outer]
  captures := 3

def revision : Revision := ⟨[12, 8], [⟨outer, outerBody, true⟩, ⟨inner, innerBody, true⟩]⟩

/-- What is written for the pattern. -/
def written : List Piece :=
  [⟨.opening .capture [], false⟩, ⟨.leaf (.char 120), false⟩, ⟨.closing, false⟩,
    ⟨.reference 1 [], false⟩, ⟨.leaf (.char 48), false⟩,
    ⟨.opening .nonCapture [], true⟩, ⟨.leaf (.char 97), false⟩, ⟨.opening .nonCapture [], true⟩,
    ⟨.leaf (.char 98), false⟩, ⟨.closing, false⟩, ⟨.closing, false⟩]

/-- The pattern `(x)\1(?:)0(?:a(?:b))`. -/
def result : Pattern where
  source := Bytes.ofString "(x)\\1(?:)0(?:a(?:b))"
  flags := {}
  root := .sequence ⟨12, 0, 20⟩
    [.group ⟨⟨2, 0, 3⟩, .capture, 1, []⟩ (.atom ⟨⟨1, 1, 2⟩, .char 120⟩),
      .reference ⟨⟨3, 3, 5⟩, 1, []⟩,
      .group ⟨⟨5, 5, 9⟩, .nonCapture, 0, []⟩ (.sequence ⟨4, 8, 8⟩ []),
      .atom ⟨⟨6, 9, 10⟩, .char 48⟩,
      .group ⟨⟨11, 10, 20⟩, .nonCapture, 0, []⟩
        (.sequence ⟨10, 13, 19⟩ [.atom ⟨⟨7, 13, 14⟩, .char 97⟩,
          .group ⟨⟨9, 14, 19⟩, .nonCapture, 0, []⟩ (.atom ⟨⟨8, 17, 18⟩, .char 98⟩)])]
  captures := 1

theorem parse_source : parse pattern.source {} = .ok pattern := by
  with_unfolding_all rfl

theorem pieces_inner :
    revision.pieces [1] [outer.index] (.reference inner) =
      [⟨.opening .nonCapture [], true⟩, ⟨.leaf (.char 98), false⟩, ⟨.closing, false⟩] := by
  rw [Revision.pieces_copy (by decide) (s := ⟨inner, innerBody, true⟩) rfl, innerBody,
    Revision.pieces]
  rfl

/-- The copy of the outer pair, with that of the inner one in it. -/
theorem pieces_outer : revision.pieces [1] [] (.reference outer) = written.drop 5 := by
  have omitted : revision.omitted = [12, 8] := rfl
  rw [Revision.pieces_copy (by decide) (s := ⟨outer, outerBody, true⟩) rfl]
  simp [outerBody, written, Revision.pieces, Revision.piecesAll, omitted, pieces_inner]

theorem pieces_pattern :
    revision.pieces (revision.kept pattern.root) [] pattern.root = written := by
  have omitted : revision.omitted = [12, 8] := rfl
  have remains : revision.pieces [1] [] (.reference kept) = [⟨.reference 1 [], false⟩] :=
    Revision.pieces_kept (by decide) rfl
  have numbers : revision.kept pattern.root = [1] := rfl
  rw [numbers]
  simp [pattern, Revision.pieces, Revision.piecesAll, omitted, remains, pieces_outer,
    Revision.openingToken, Group.isCapture]
  rfl

end Nested

/-- **The offsets of atomic copies are those of groups**: they increase, at each of them there is a
group of the downgraded pattern that captures nothing, and they are one for each place where the
reference of a pair is expanded, copies included. -/
theorem marks_of_downgrade (h : parse source flags = .ok p) (hd : p.downgrade = .ok d) :
    d.Marks p := by
  have respects := Downgrade.respects_revisionOf (isWellFormed_of_parse h).distinct
  have spelled := (spelled_of_parse h).1
  have offsets := atomicOffsets_eq p.root
  rcases exists_of_downgrade hd with ⟨unchanged, rfl⟩ | ⟨-, q, hq, rfl⟩
  · have pairs : atomicPairs p.root = [] := by
      rw [revisionOf, List.append_eq_nil_iff, List.map_eq_nil_iff] at unchanged
      exact unchanged.1
    have none : pairExpansions p.root = [] := by
      refine List.filter_eq_nil_iff.mpr fun e _ => ?_
      rw [Downgrade.isPaired, pairs]
      exact Bool.false_ne_true
    exact ⟨List.Pairwise.nil, by simp, by simp, by rw [none]; rfl, fun e he => exists_copy he⟩
  · rw [flags_of_parse h] at hq
    have marks : ∀ piece ∈ separate (rewritten p.root), piece.atomic = true →
        piece.token = .opening .nonCapture [] :=
      Revision.forall_mem_separate (by simp [Revision.emptyGroup])
        ((revisionOf p.root).expands ((revisionOf p.root).kept p.root) p.root).openings
    obtain ⟨increasing, opened⟩ := Revision.atomicOffsets_openings marks 0
    refine ⟨increasing, fun o ho => ?_, fun _ => source_of_parse hq, offsets,
      fun e he => exists_copy he⟩
    have mem := (perm_openings_of_written respects spelled hq).mem_iff.mpr (opened o ho).2
    obtain ⟨g, hg, opening⟩ := List.mem_map.mp mem
    obtain ⟨start, kind⟩ := Prod.mk.inj opening
    exact ⟨g, hg, start, kind, ((agrees_of_parse hq).groupAt o g).mpr ⟨hg, start⟩⟩

/-- In `(x)\1\x30(?=(a(?=(b))\3))\2` one pair stands in the other, so the copy of the inner one is
in the copy of the outer one: `(x)\1(?:)0(?:a(?:b))`. -/
theorem marks_of_downgrade_of_nested :
    ∃ p d, parse (Bytes.ofString "(x)\\1\\x30(?=(a(?=(b))\\3))\\2") {} = .ok p ∧
      p.downgrade = .ok d ∧ d.pattern.source = Bytes.ofString "(x)\\1(?:)0(?:a(?:b))" ∧
      d.atomicOffsets = [10, 14] ∧ (pairExpansions p.root).length = 2 ∧ d.Marks p := by
  have read :
      parse (textOf (separate Nested.written)) Nested.pattern.flags = .ok Nested.result := by
    with_unfolding_all rfl
  have downgraded := downgrade_of_pieces (w := Nested.revision) rfl rfl Nested.pieces_pattern read
  have offsets : Revision.atomicOffsets 0 (separate Nested.written) = [10, 14] := by
    with_unfolding_all rfl
  have marks := marks_of_downgrade Nested.parse_source downgraded
  have length := congrArg List.length (offsets.symm.trans marks.offsets)
  rw [List.length_map] at length
  exact ⟨Nested.pattern, _, Nested.parse_source, downgraded, rfl, offsets, length.symm, marks⟩

end Pattern

end Backtrack
