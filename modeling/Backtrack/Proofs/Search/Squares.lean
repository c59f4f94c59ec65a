/-
# Histories without squares

A path is given up once its history ends in a square, a block of pairs that is immediately repeated.
Only the end is looked at, block by block from the shortest one on, and every block that fits twice
is tried (`History.endsInSquare_reverse_iff`).

A path starts with no history at all, goes on with one more pair or starts over, and branches share
what is behind them.  So a square anywhere in a history would have ended it when its last pair was
added: no history of a path that is still followed has one (`Search.isSquareFree_of_comesTo`).

A search compares keys, not the texts of keys.  A text belongs to one key, so there are squares
among the texts just where there are squares among the keys.
-/
import Backtrack.Proofs.Search.Admissible
import Backtrack.Proofs.Search.Identities

namespace Backtrack

namespace History

/-! ## 1. Squares

A list without squares gets one only at its end, when a pair is added.  So it is enough to look
there each time. -/

section Squares

variable {α β : Type}

/-- The pairs end in a block, not an empty one, that is immediately repeated. -/
def EndsInSquare (ps : List α) : Prop :=
  ∃ before block, block ≠ [] ∧ ps = before ++ block ++ block

/-- No block among the pairs is immediately repeated but the empty one. -/
def IsSquareFree (ps : List α) : Prop :=
  ∀ before block after, ps = before ++ block ++ block ++ after → block = []

theorem isSquareFree_nil : IsSquareFree ([] : List α) := by
  intro before block after split
  simp only [List.nil_eq, List.append_eq_nil_iff] at split
  exact split.1.2

/-- **One more pair makes a square at the end or none.**  A square that does not reach to the end
was there before. -/
theorem IsSquareFree.concat {ps : List α} (h : IsSquareFree ps) {a : α}
    (last : ¬ EndsInSquare (ps ++ [a])) : IsSquareFree (ps ++ [a]) := by
  intro before block after split
  rcases after.eq_nil_or_concat with rfl | ⟨after, b, rfl⟩
  · by_contra proper
    exact last ⟨before, block, proper, by rw [split, List.append_nil]⟩
  · rw [List.concat_eq_append, ← List.append_assoc] at split
    exact h before block after (List.append_inj_left' split rfl)

/-- Squares come from squares, where different pairs are written differently. -/
theorem exists_of_map_eq {f : α → β} (injective : Function.Injective f) {ps : List α}
    {before block after : List β} (split : ps.map f = before ++ block ++ block ++ after) :
    ∃ before' block' after', ps = before' ++ block' ++ block' ++ after' ∧
      before'.map f = before ∧ block'.map f = block := by
  obtain ⟨three, after', rfl, split, -⟩ := List.map_eq_append_iff.mp split
  obtain ⟨two, block₂, rfl, split, second⟩ := List.map_eq_append_iff.mp split
  obtain ⟨before', block₁, rfl, first, same⟩ := List.map_eq_append_iff.mp split
  obtain rfl : block₁ = block₂ := List.map_injective_iff.mpr injective (same.trans second.symm)
  exact ⟨before', block₁, after', rfl, first, second⟩

theorem IsSquareFree.map {ps : List α} (h : IsSquareFree ps) {f : α → β}
    (injective : Function.Injective f) : IsSquareFree (ps.map f) := by
  intro before block after split
  obtain ⟨before', block', after', rfl, -, rfl⟩ := exists_of_map_eq injective split
  rw [h before' block' after' rfl, List.map_nil]

end Squares

/-! ## 2. Looking for one

The shortest block is tried first, and all longer ones after it, up to half of the history. -/

section Looking

variable {α β : Type} [BEq α] [LawfulBEq α] [BEq β] [LawfulBEq β]

/-- **A square at the end is found, and nothing else.** -/
theorem endsInSquare_reverse_iff {ps : List α} :
    endsInSquare ps.reverse = true ↔ EndsInSquare ps := by
  rw [endsInSquare_iff]
  constructor
  · rintro ⟨block, older, proper, split⟩
    refine ⟨older.reverse, block.reverse, by simpa using proper, ?_⟩
    rw [← ps.reverse_reverse, split]
    simp only [List.reverse_append, List.append_assoc]
  · rintro ⟨before, block, proper, rfl⟩
    refine ⟨block.reverse, before.reverse, by simpa using proper, ?_⟩
    simp only [List.reverse_append, List.append_assoc]

/-- A square is found in what is written just where there is one in what it is written for. -/
theorem endsInSquare_map {f : α → β} (injective : Function.Injective f) (latest : List α) :
    endsInSquare (latest.map f) = endsInSquare latest := by
  rw [Bool.eq_iff_iff, endsInSquare_iff, endsInSquare_iff]
  constructor
  · rintro ⟨block, older, proper, split⟩
    have split : latest.map f = [] ++ block ++ block ++ older := split
    obtain ⟨before', block', after', rfl, none, rfl⟩ := exists_of_map_eq injective split
    obtain rfl := List.map_eq_nil_iff.mp none
    exact ⟨block', after', fun empty => proper (by rw [empty, List.map_nil]), rfl⟩
  · rintro ⟨block, older, proper, rfl⟩
    exact ⟨block.map f, older.map f, by simpa using proper, by simp only [List.map_append]⟩

end Looking

end History

namespace Search

/-! ## 3. The histories of a search

A history is compared in keys and shown in texts.  As different keys have different texts, a
square in the one is a square in the other. -/

/-- A pair of keys as text. -/
def written (k : Side.Key × Side.Key) : String × String := (k.1.text, k.2.text)

theorem injective_written : Function.Injective written :=
  Side.Key.text_injective.prodMap Side.Key.text_injective

/-- The history of a piece of work as text, the oldest pair first. -/
def Work.pairs (w : Work) : List (String × String) := (w.history.map written).reverse

/-- The history of every piece of work on the stack is without squares. -/
def State.IsSquareFree (s : State) : Prop := ∀ w ∈ s.stack, History.IsSquareFree w.history.reverse

/-- **A history goes on, or starts over, and has no square if none ends in its last pair.** -/
theorem isSquareFree_historyAfter {history : List (Side.Key × Side.Key)} {l r : Side}
    (h : History.IsSquareFree history.reverse)
    (last : History.endsInSquare (historyAfter history l r) = false) :
    History.IsSquareFree (historyAfter history l r).reverse := by
  have kept : ∀ kept : List (Side.Key × Side.Key), History.IsSquareFree kept.reverse →
      History.endsInSquare ((l.key, r.key) :: kept) = false →
        History.IsSquareFree ((l.key, r.key) :: kept).reverse := by
    intro kept free last
    rw [List.reverse_cons]
    refine free.concat fun square => ?_
    rw [← List.reverse_cons] at square
    rw [← List.reverse_reverse (_ :: kept), History.endsInSquare_reverse_iff.mpr square] at last
    cases last
  unfold historyAfter at last ⊢
  split at last <;> rename_i firm
  · rw [if_pos firm]
    exact kept [] History.isSquareFree_nil last
  · rw [if_neg firm]
    exact kept history h last

/-- **One step of a search keeps its histories without squares.**  Work that goes on has been
looked at, and all other work is as it was. -/
theorem isSquareFree_of_advance {x : Context} {s s' : State} (h : s.IsSquareFree)
    (ha : s.advance x = .goesOn s') : s'.IsSquareFree := by
  obtain ⟨w, rest, work, new, hs, -, -, he, rfl⟩ := advance_eq_goesOn_iff.mp ha
  rw [State.IsSquareFree, hs] at h
  obtain ⟨top, below⟩ := List.forall_mem_cons.mp h
  have next : ∀ v ∈ work, History.IsSquareFree v.history.reverse := by
    rcases expand_cases he with ⟨stay, enter, -, rfl, -⟩ | ⟨stay, enter, -, rfl, -⟩ | ⟨rfl, -⟩ |
      ⟨l, r, w', -, -, hc, rfl, -⟩
    -- Both branches of a split share the history of the work they come from.
    · simpa using top
    · simpa using top
    · simp
    · obtain ⟨-, last, -, shared, -, -, rfl⟩ := compare_eq_proceed_iff.mp hc
      rw [List.forall_mem_singleton]
      exact isSquareFree_historyAfter top last
  intro v hv
  exact (List.mem_append.mp hv).elim (next v) (below v)

theorem isSquareFree_initial (p : Pattern) : (State.initial p).IsSquareFree := by
  intro w hw
  rw [List.mem_singleton.mp hw]
  exact History.isSquareFree_nil

theorem isSquareFree_of_comesTo {p : Pattern} {x : Context} {s : State}
    (h : (State.initial p).ComesTo x s) : s.IsSquareFree :=
  h.invariant isSquareFree_of_advance (isSquareFree_initial p)

/-- **Histories stay without squares.**  A square at the end of a history is found if there is one,
the same in the texts of keys as in keys; and wherever a search of a pattern comes to, there is no
square anywhere in the history of any piece of work on the stack. -/
theorem histories_squareFree :
    (∀ pairs : List (String × String),
      History.endsInSquare pairs.reverse = true ↔ History.EndsInSquare pairs) ∧
    (∀ history : List (Side.Key × Side.Key),
      History.endsInSquare (history.map written) = History.endsInSquare history) ∧
    ∀ (p : Pattern) (o : Options) (s : State), (State.initial p).ComesTo (contextOf p o) s →
      ∀ w ∈ s.stack, History.IsSquareFree w.pairs := by
  refine ⟨fun pairs => History.endsInSquare_reverse_iff, History.endsInSquare_map injective_written,
    fun p o s comes w hw => ?_⟩
  rw [Work.pairs, ← List.map_reverse]
  exact (isSquareFree_of_comesTo comes w hw).map injective_written

/-- Where a search is some steps on, if it goes on for so long. -/
def State.after? (x : Context) : Nat → State → Option State
  | 0, s => some s
  | n + 1, s =>
    match s.advance x with
    | .goesOn t => t.after? x n
    | .ends _ => none

theorem State.comesTo_of_after? {x : Context} : ∀ {n : Nat} {s t : State},
    s.after? x n = some t → s.ComesTo x t
  | 0, s, t, h => by
    obtain rfl := Option.some.inj h
    exact .refl s
  | n + 1, s, t, h => by
    rw [after?] at h
    split at h
    · rename_i goesOn
      exact .step goesOn (comesTo_of_after? h)
    · cases h

/-- In `(?:aa|a)*` the two ways to go on alternate.  The last two pairs look like the two before them,
but for one iteration that is not optional yet. -/
theorem histories_squareFree_of_alternation :
    ∃ p s w, Pattern.parse (Bytes.ofString "(?:aa|a)*") {} = .ok p ∧
      (State.initial p).ComesTo (contextOf p {}) s ∧ w ∈ s.stack ∧
      w.pairs = [("4|7:0", "1|7:0"), ("1|7:*", "2|7:0"), ("2|7:*", "1|7:*"), ("1|7:*", "2|7:*"),
        ("2|7:*", "1|7:*")] ∧
      History.IsSquareFree w.pairs := by
  have found : ((Pattern.parse (Bytes.ofString "(?:aa|a)*") {}).toOption.any fun p =>
      ((State.initial p).after? (contextOf p {}) 49).any fun s => s.stack.any fun w =>
        decide (w.pairs = [("4|7:0", "1|7:0"), ("1|7:*", "2|7:0"), ("2|7:*", "1|7:*"),
          ("1|7:*", "2|7:*"), ("2|7:*", "1|7:*")])) = true := by decide +kernel
  cases parsed : Pattern.parse (Bytes.ofString "(?:aa|a)*") {} with
  | error e =>
    rw [parsed] at found
    cases found
  | ok p =>
    rw [parsed, Except.toOption, Option.any_some] at found
    obtain ⟨s, after, found⟩ := (Option.any_eq_true _ _).mp found
    obtain ⟨w, hw, pairs⟩ := List.any_eq_true.mp found
    have comes := State.comesTo_of_after? after
    exact ⟨p, s, w, rfl, comes, hw, of_decide_eq_true pairs,
      histories_squareFree.2.2 p {} s comes w hw⟩

end Search

end Backtrack
