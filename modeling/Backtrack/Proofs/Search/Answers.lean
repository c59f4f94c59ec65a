/-
# What a memo answers

A memo keeps what comparisons came to under the texts that identify the sides, once for each order
of the two, and later answers from there.  What it keeps is always the answer of a comparison, made
for two sides that had these texts (`Memo.IsTruthful`): every comparison keeps it so.  Since a text
belongs to one identity, that answer is the answer for all sides with these texts, and the memo could
as well not be there (`Memo.answerAll_eq`).

Over one tree the answer is that of comparing the sides directly, part by part, and it does not
depend on their order (`Memo.answers_exact`).
-/
import Backtrack.Proofs.Pattern.Trees
import Backtrack.Proofs.Search.Identities
import Backtrack.Search.Memo

namespace Backtrack

theorem Side.same_comm (s t : Side) : s.same t = t.same s := BEq.comm

/-- What tells two sides apart is in their texts. -/
theorem Side.same_congr {s s' t t' : Side} (hs : s.identity.text = s'.identity.text)
    (ht : t.identity.text = t'.identity.text) : s.same t = s'.same t' := by
  rw [same, same, Identity.text_injective hs, Identity.text_injective ht]

namespace Memo

/-! ## 1. One comparison

An answer is found under two texts, and it was put there for two sides that need not be the ones
that are asked about now.  What has to be seen is that it is right for them too. -/

/-- **Everything that is kept is what some comparison came to**, of sides with these texts. -/
def IsTruthful (m : Memo) : Prop :=
  ∀ e ∈ m.answers, ∃ s t : Side, e = ((s.identity.text, t.identity.text), s.same t)

theorem isTruthful_empty : empty.IsTruthful := by simp [IsTruthful, empty]

/-- What is found under two texts is right for all sides that have them. -/
theorem IsTruthful.eq_of_lookup {m : Memo} (h : m.IsTruthful) {s t : Side} {v : Bool}
    (found : m.answers.lookup (s.identity.text, t.identity.text) = some v) : v = s.same t := by
  obtain ⟨before, after, split, -⟩ := List.lookup_eq_some_iff.mp found
  obtain ⟨s', t', entry⟩ := h _ (split ▸ List.mem_append_right _ List.mem_cons_self)
  obtain ⟨texts, rfl⟩ := Prod.mk.inj entry
  obtain ⟨hs, ht⟩ := Prod.mk.inj texts
  exact Side.same_congr hs.symm ht.symm

/-- **A comparison answers as if there were no memo, and what is kept stays right.**  It either
finds an answer, which is right for all sides with these texts, or it makes one and keeps it. -/
theorem IsTruthful.same {m : Memo} (h : m.IsTruthful) (s t : Side) :
    (m.same s t).1 = s.same t ∧ (m.same s t).2.IsTruthful := by
  unfold Memo.same
  dsimp only
  split
  · rename_i found
    exact ⟨h.eq_of_lookup found, h⟩
  · refine ⟨rfl, List.forall_mem_cons.mpr ⟨⟨s, t, rfl⟩, List.forall_mem_cons.mpr ⟨?_, h⟩⟩⟩
    exact ⟨t, s, by rw [Side.same_comm]⟩

theorem IsTruthful.answer {m : Memo} (h : m.IsTruthful) {one : Bool} {s t : Side}
    (known : one = true → s = t) :
    (m.answer one s t).1 = s.same t ∧ (m.answer one s t).2.IsTruthful := by
  cases one with
  | false => exact h.same s t
  | true =>
    obtain rfl := known rfl
    exact ⟨(beq_self_eq_true s.identity).symm, h⟩

/-! ## 2. All comparisons -/

/-- **All answers are those of comparisons without a memo**, if sides that are said to be one
are.  The induction goes along the questions. -/
theorem IsTruthful.answerAll : ∀ {m : Memo} {calls : List (Bool × Side × Side)}, m.IsTruthful →
    (∀ c ∈ calls, c.1 = true → c.2.1 = c.2.2) →
      m.answerAll calls = calls.map fun c => c.2.1.same c.2.2
  | _, [], _, _ => rfl
  | _, (_, s, t) :: _, h, known => by
    obtain ⟨own, later⟩ := List.forall_mem_cons.mp known
    obtain ⟨right, truthful⟩ := h.answer own
    rw [Memo.answerAll, List.map_cons, right, truthful.answerAll later]

theorem sameAll_eq_answerAll : ∀ (m : Memo) (pairs : List (Side × Side)),
    m.sameAll pairs = m.answerAll (pairs.map fun p => (false, p.1, p.2))
  | _, [] => rfl
  | m, (s, t) :: rest => by
    rw [sameAll, List.map_cons, answerAll, sameAll_eq_answerAll]
    rfl

/-! ## 3. Sides of one tree

To ask about two sides is to ask about two parts of a tree, and there the comparison by numbers is
the one by parts. -/

/-- What two sides are compared as: one side with itself, or two sides, which may look alike. -/
inductive Call (root : Node) where
  | one (x : Side.Built root)
  | two (x y : Side.Built root)

namespace Call

variable {root : Node}

/-- What the memo is asked. -/
def question : Call root → Bool × Side × Side
  | one x => (true, x.side, x.side)
  | two x y => (false, x.side, y.side)

/-- What comparing the sides directly comes to. -/
def agrees : Call root → Bool
  | one _ => true
  | two x y => decide (x.Agrees y)

/-- The call with the sides in the other order. -/
def swap : Call root → Call root
  | one x => one x
  | two x y => two y x

theorem agrees_swap (c : Call root) : c.swap.agrees = c.agrees := by
  cases c with
  | one x => rfl
  | two x y => exact decide_eq_decide.mpr (Side.Built.agrees_comm y x)

theorem question_known (c : Call root) : c.question.1 = true → c.question.2.1 = c.question.2.2 := by
  cases c with
  | one x => exact fun _ => rfl
  | two x y => exact fun h => nomatch h

theorem same_eq_agrees (distinct : root.IsDistinct) (c : Call root) :
    c.question.2.1.same c.question.2.2 = c.agrees := by
  cases c with
  | one x => exact beq_self_eq_true x.side.identity
  | two x y =>
    rw [Bool.eq_iff_iff, agrees, decide_eq_true_iff, ← Side.Built.identity_eq_iff distinct]
    exact beq_iff_eq

end Call

/-- **The memo is exact over a tree.** -/
structure IsExact (root : Node) : Prop where
  /-- Whatever is asked, in any order and any number of times, every answer is that of a direct
  comparison. -/
  answers : ∀ calls : List (Call root),
    empty.answerAll (calls.map Call.question) = calls.map Call.agrees
  /-- The order of the two sides does not matter, after whatever has been asked before. -/
  symmetric : ∀ (calls : List (Call root)) (c : Call root),
    empty.answerAll ((calls ++ [c]).map Call.question) =
      empty.answerAll ((calls ++ [c.swap]).map Call.question)
  /-- So it is where it is never known that two sides are one. -/
  pairs : ∀ pairs : List (Side.Built root × Side.Built root),
    empty.sameAll (pairs.map fun p => (p.1.side, p.2.side)) =
      pairs.map fun p => decide (p.1.Agrees p.2)
  /-- Sides have the same text if and only if they agree. -/
  texts : ∀ x y : Side.Built root,
    x.side.identity.text = y.side.identity.text ↔ x.Agrees y

theorem answerAll_questions {root : Node} (distinct : root.IsDistinct) (calls : List (Call root)) :
    empty.answerAll (calls.map Call.question) = calls.map Call.agrees := by
  rw [isTruthful_empty.answerAll, List.map_map]
  · exact List.map_congr_left fun c _ => c.same_eq_agrees distinct
  · intro q hq
    obtain ⟨c, -, rfl⟩ := List.mem_map.mp hq
    exact c.question_known

/-- **Over the tree of a parsed pattern the memo never changes an answer.**  Its texts tell sides
of the tree apart, so what it finds is the answer for the sides at hand. -/
theorem answers_exact {source : Bytes} {flags : Flags} {p : Pattern}
    (h : Pattern.parse source flags = .ok p) : IsExact p.root := by
  have distinct : p.root.IsDistinct := (Pattern.isWellFormed_of_parse h).distinct
  refine ⟨answerAll_questions distinct, fun calls c => ?_, fun pairs => ?_, fun x y => ?_⟩
  · rw [answerAll_questions distinct, answerAll_questions distinct]
    simp only [List.map_append, List.map_singleton, Call.agrees_swap]
  · have two := answerAll_questions distinct (pairs.map fun p => Call.two p.1 p.2)
    rw [List.map_map, List.map_map] at two
    rw [sameAll_eq_answerAll, List.map_map]
    exact two
  · rw [Side.Identity.text_injective.eq_iff, Side.Built.identity_eq_iff distinct]

/-- In `(a+)+\1` three sides at the letter: in iterations 1 and 11, in iterations 11 and 1, and in the
first two again but over the reference.  The last one is also compared with itself. -/
theorem answers_exact_of_iterations :
    ∃ p, Pattern.parse (Bytes.ofString "(a+)+\\1") {} = .ok p ∧
      ∃ x y z : Side.Built p.root,
        [x, y, z].map (·.side.text) =
          ["1-2 q@1#1 q@0#11", "1-2 q@1#11 q@0#1", "1-2 q@1#1 q@0#11 via \\@5"] ∧
        empty.answerAll ([.two x y, .two y x, .two x x, .one z, .two x z, .two x y].map
          Call.question) = [false, false, true, true, false, false] := by
  let p : Pattern :=
    { source := Bytes.ofString "(a+)+\\1"
      flags := {}
      root := .sequence ⟨6, 0, 7⟩
        [.quantifier ⟨⟨4, 0, 5⟩, 1, none, false⟩ (.group ⟨⟨3, 0, 4⟩, .capture, 1, []⟩
            (.quantifier ⟨⟨2, 1, 3⟩, 1, none, false⟩ (.atom ⟨⟨1, 1, 2⟩, .char 97⟩))),
          .reference ⟨⟨5, 5, 7⟩, 1, []⟩]
      captures := 1 }
  have parsed : Pattern.parse (Bytes.ofString "(a+)+\\1") {} = .ok p := by
    with_unfolding_all rfl
  let x : Side.Built p.root :=
    ⟨⟨4, by decide⟩, [(⟨1, by decide⟩, 1, true), (⟨0, by decide⟩, 11, true)], []⟩
  let y : Side.Built p.root := { x with iterations := [(⟨1, by decide⟩, 11, true),
    (⟨0, by decide⟩, 1, true)] }
  let z : Side.Built p.root := { x with via := [⟨0, by decide⟩] }
  exact ⟨p, parsed, x, y, z, by decide, (answers_exact parsed).answers _⟩

end Memo

end Backtrack
