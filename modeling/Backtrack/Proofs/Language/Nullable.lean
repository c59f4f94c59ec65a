/-
# Matching nothing, and consuming something

Two questions about a node are answered without matching anything: whether it can match without
consuming (`Node.matchesEmpty`), and whether it can consume at all (`Node.consumes`).  Both have a
meaning, and the meaning is a language: `Node.words` are the leaves that a node consumes one after
the other.  Lookarounds consume nothing, and references count as consuming nothing, too.

Both answers are exact for a sound tree: the empty word is a word (`Node.nil_mem_words_iff`), or
another word is (`Node.exists_ne_nil_mem_words_iff`).  The second one rests on more than it looks
like: what one element of a sequence consumes belongs to a word of the sequence only if all other
elements have a word as well (`Node.exists_mem_words`), and here it matters that a count can be met
and that there is an alternative to take.

`Pattern.exact_of_parse` is the result for every node of a parsed pattern, members of classes
included.
-/
import Mathlib.Computability.Language
import Backtrack.Proofs.Derivation.Words
import Backtrack.Proofs.Pattern.Ancestors

namespace Backtrack

/-! ## 1. Empty words and other words of languages

All that is asked of a language is whether it has the empty word, whether it has another one, and
for products also whether it has any word at all. -/

section Languages

variable {α : Type} {l m : Language α}

theorem nil_mem_mul_iff : [] ∈ l * m ↔ [] ∈ l ∧ [] ∈ m := by
  rw [Language.mem_mul]
  constructor
  · rintro ⟨v, hv, w, hw, nil⟩
    obtain ⟨rfl, rfl⟩ := List.append_eq_nil_iff.mp nil
    exact ⟨hv, hw⟩
  · rintro ⟨hl, hm⟩
    exact ⟨[], hl, [], hm, rfl⟩

/-- A word of the first language becomes a word of both only if the second has one, too. -/
theorem exists_ne_nil_mem_mul_iff (hl : ∃ w, w ∈ l) (hm : ∃ w, w ∈ m) :
    (∃ w ∈ l * m, w ≠ []) ↔ (∃ w ∈ l, w ≠ []) ∨ ∃ w ∈ m, w ≠ [] := by
  constructor
  · rintro ⟨_, h, ne⟩
    obtain ⟨v, hv, w, hw, rfl⟩ := Language.mem_mul.mp h
    by_cases nil : v = []
    · exact .inr ⟨w, hw, fun hn => ne (by rw [nil, hn, List.append_nil])⟩
    · exact .inl ⟨v, hv, nil⟩
  · rintro (⟨v, hv, ne⟩ | ⟨w, hw, ne⟩)
    · obtain ⟨w, hw⟩ := hm
      exact ⟨v ++ w, Language.mem_mul.mpr ⟨v, hv, w, hw, rfl⟩,
        List.append_ne_nil_of_left_ne_nil ne w⟩
    · obtain ⟨v, hv⟩ := hl
      exact ⟨v ++ w, Language.mem_mul.mpr ⟨v, hv, w, hw, rfl⟩,
        List.append_ne_nil_of_right_ne_nil v ne⟩

theorem nil_mem_pow_iff {k : Nat} : [] ∈ l ^ k ↔ k = 0 ∨ [] ∈ l := by
  induction k with
  | zero => simp
  | succ k ih =>
    rw [pow_succ, nil_mem_mul_iff, ih, or_iff_right k.succ_ne_zero]
    exact ⟨And.right, fun h => ⟨.inr h, h⟩⟩

theorem exists_mem_pow (h : ∃ w, w ∈ l) (k : Nat) : ∃ w, w ∈ l ^ k := by
  obtain ⟨w, hw⟩ := h
  exact ⟨_, Language.mem_pow.mpr
    ⟨List.replicate k w, rfl, List.length_replicate, fun y hy => List.eq_of_mem_replicate hy ▸ hw⟩⟩

theorem exists_ne_nil_mem_pow_iff {k : Nat} :
    (∃ w ∈ l ^ k, w ≠ []) ↔ k ≠ 0 ∧ ∃ w ∈ l, w ≠ [] := by
  induction k with
  | zero => simp [Language.mem_one]
  | succ k ih =>
    constructor
    · rintro ⟨w, hw, ne⟩
      obtain ⟨ws, rfl, -, hws⟩ := Language.mem_pow.mp hw
      obtain ⟨v, hv, ne⟩ : ∃ v ∈ ws, v ≠ [] := by simpa using ne
      exact ⟨k.succ_ne_zero, v, hws v hv, ne⟩
    · rintro ⟨-, w, hw, ne⟩
      rw [pow_succ, exists_ne_nil_mem_mul_iff (exists_mem_pow ⟨w, hw⟩ k) ⟨w, hw⟩]
      exact .inr ⟨w, hw, ne⟩

end Languages

/-! ## 2. Words of a node

Here a count is taken at its word: a quantifier has the words of as many repetitions as it
allows. -/

/-- As many words of a language one after the other as a count allows. -/
def Count.words (c : Count) (l : Language Atom) : Language Atom :=
  {w | ∃ k, c.Allows k ∧ w ∈ l ^ k}

namespace Node

mutual

/-- **The words of a node**: the leaves it consumes, one after the other. -/
def words : Node → Language Atom
  | atom a => {[a]}
  | anchor _ _ => 1
  | reference _ => 1
  | group g body => if g.isLookaround then 1 else body.words
  | quantifier q body => q.count.words body.words
  | sequence _ ns => wordsAll ns
  | alternation _ ns => wordsOne ns

/-- The words of several nodes one after the other. -/
def wordsAll : List Node → Language Atom
  | [] => 1
  | n :: ns => n.words * wordsAll ns

/-- The words of one of several nodes. -/
def wordsOne : List Node → Language Atom
  | [] => 0
  | n :: ns => n.words + wordsOne ns

end

end Node

namespace Count

variable {c : Count} {l : Language Atom}

theorem mem_words {w : List Atom} : w ∈ c.words l ↔ ∃ k, c.Allows k ∧ w ∈ l ^ k :=
  Iff.rfl

/-- A count that can be met is met by its minimum. -/
theorem IsOrdered.allows_min (h : c.IsOrdered) : c.Allows c.min :=
  ⟨le_rfl, h⟩

theorem exists_mem_words (h : c.IsOrdered) (hl : ∃ w, w ∈ l) : ∃ w, w ∈ c.words l :=
  (exists_mem_pow hl c.min).imp fun _ hw => ⟨c.min, h.allows_min, hw⟩

theorem nil_mem_words_iff (h : c.IsOrdered) : [] ∈ c.words l ↔ c.min = 0 ∨ [] ∈ l := by
  simp only [mem_words, nil_mem_pow_iff]
  constructor
  · rintro ⟨k, hk, rfl | nil⟩
    · exact .inl (Nat.le_zero.mp hk.1)
    · exact .inr nil
  · exact fun h' => ⟨c.min, h.allows_min, h'⟩

theorem exists_ne_nil_mem_words_iff (h : c.IsOrdered) :
    (∃ w ∈ c.words l, w ≠ []) ↔ c.max ≠ some 0 ∧ ∃ w ∈ l, w ≠ [] := by
  have turns : (∃ w ∈ c.words l, w ≠ []) ↔ ∃ k, c.Allows k ∧ ∃ w ∈ l ^ k, w ≠ [] := by
    simp only [mem_words]
    exact ⟨fun ⟨w, ⟨k, hk, hw⟩, ne⟩ => ⟨k, hk, w, hw, ne⟩,
      fun ⟨k, hk, w, hw, ne⟩ => ⟨w, ⟨k, hk, hw⟩, ne⟩⟩
  simp only [turns, exists_ne_nil_mem_pow_iff]
  constructor
  · rintro ⟨k, hk, ne, hl⟩
    exact ⟨fun hm => ne (Nat.le_zero.mp (hk.2 0 hm)), hl⟩
  · rintro ⟨hm, hl⟩
    -- Once is enough, and the minimum is if it is more.
    refine ⟨Nat.max c.min 1, ⟨le_max_left _ _, fun most hmost => max_le (h most hmost) ?_⟩, ?_, hl⟩
    · exact Nat.one_le_iff_ne_zero.mpr fun zero => hm (zero ▸ hmost)
    · exact Nat.one_le_iff_ne_zero.mp (le_max_right _ _)

end Count

/-! ## 3. Several nodes -/

namespace Node

variable {ns : List Node}

theorem allMatchEmpty_iff : allMatchEmpty ns = true ↔ ∀ n ∈ ns, n.matchesEmpty = true := by
  induction ns with
  | nil => simp [allMatchEmpty]
  | cons n ns ih => simp [allMatchEmpty, ih]

theorem someMatchesEmpty_iff : someMatchesEmpty ns = true ↔ ∃ n ∈ ns, n.matchesEmpty = true := by
  induction ns with
  | nil => simp [someMatchesEmpty]
  | cons n ns ih => simp [someMatchesEmpty, ih]

theorem someConsumes_iff : someConsumes ns = true ↔ ∃ n ∈ ns, n.consumes = true := by
  induction ns with
  | nil => simp [someConsumes]
  | cons n ns ih => simp [someConsumes, ih]

theorem mem_wordsOne {w : List Atom} : w ∈ wordsOne ns ↔ ∃ n ∈ ns, w ∈ n.words := by
  induction ns with
  | nil => simp [wordsOne, Language.notMem_zero]
  | cons n ns ih => simp [wordsOne, Language.mem_add, ih]

theorem exists_mem_wordsAll (h : ∀ n ∈ ns, ∃ w, w ∈ n.words) : ∃ w, w ∈ wordsAll ns := by
  induction ns with
  | nil => exact ⟨[], Language.nil_mem_one⟩
  | cons n ns ih =>
    obtain ⟨⟨v, hv⟩, hns⟩ := List.forall_mem_cons.mp h
    obtain ⟨w, hw⟩ := ih hns
    exact ⟨v ++ w, Language.mem_mul.mpr ⟨v, hv, w, hw, rfl⟩⟩

theorem nil_mem_wordsAll : [] ∈ wordsAll ns ↔ ∀ n ∈ ns, [] ∈ n.words := by
  induction ns with
  | nil => simp [wordsAll]
  | cons n ns ih => rw [wordsAll, nil_mem_mul_iff, ih, List.forall_mem_cons]

theorem exists_ne_nil_mem_wordsAll (h : ∀ n ∈ ns, ∃ w, w ∈ n.words) :
    (∃ w ∈ wordsAll ns, w ≠ []) ↔ ∃ n ∈ ns, ∃ w ∈ n.words, w ≠ [] := by
  induction ns with
  | nil => simp [wordsAll, Language.mem_one]
  | cons n ns ih =>
    obtain ⟨hn, hns⟩ := List.forall_mem_cons.mp h
    rw [wordsAll, exists_ne_nil_mem_mul_iff hn (exists_mem_wordsAll hns), ih hns,
      List.exists_mem_cons_iff]

/-! ## 4. Sound trees

The three statements are proved one after the other, by induction over the tree.  The first one is
what the third one needs of the neighbours of an element. -/

/-- What is sound all over is sound all over in each of its children. -/
theorem sound_of_mem_children {m n : Node} (h : ∀ k ∈ n.walk, k.IsSound) (hm : m ∈ n.children) :
    ∀ k ∈ m.walk, k.IsSound :=
  fun k hk => h k (walk_subset_of_mem_children hm hk)

/-- **A sound tree has a word.**  Counts can be met and alternations have an alternative, which is
all that could be in the way. -/
theorem exists_mem_words (n : Node) : (∀ m ∈ n.walk, m.IsSound) → ∃ w, w ∈ n.words := by
  induction n using induction_children with
  | step n ih =>
    intro sound
    have below := fun m hm => ih m hm (sound_of_mem_children sound hm)
    have self := sound n n.mem_walk_self
    cases n with
    | atom a => exact ⟨[a], rfl⟩
    | anchor s k => exact ⟨[], Language.nil_mem_one⟩
    | reference r => exact ⟨[], Language.nil_mem_one⟩
    | group g body =>
      rw [words]
      split
      · exact ⟨[], Language.nil_mem_one⟩
      · exact below body List.mem_cons_self
    | quantifier q body => exact Count.exists_mem_words self (below body List.mem_cons_self)
    | sequence s ns => exact exists_mem_wordsAll below
    | alternation s ns =>
      obtain ⟨m, ms, rfl⟩ := List.exists_cons_of_ne_nil self
      obtain ⟨w, hw⟩ := below m List.mem_cons_self
      exact ⟨w, mem_wordsOne.mpr ⟨m, List.mem_cons_self, hw⟩⟩

/-- **A sound tree matches without consuming if the empty word is one of its words.**  By
induction over the tree; a quantifier matches without consuming if its count is met by none, or if
its body does. -/
theorem nil_mem_words_iff (n : Node) :
    (∀ m ∈ n.walk, m.IsSound) → ([] ∈ n.words ↔ n.matchesEmpty = true) := by
  induction n using induction_children with
  | step n ih =>
    intro sound
    have below := fun m hm => ih m hm (sound_of_mem_children sound hm)
    have self := sound n n.mem_walk_self
    cases n with
    | atom a => exact iff_of_false (List.cons_ne_nil a []).symm (by simp [matchesEmpty])
    | anchor s k => exact iff_of_true Language.nil_mem_one rfl
    | reference r => exact iff_of_true Language.nil_mem_one rfl
    | group g body =>
      rw [words, matchesEmpty, Bool.or_eq_true]
      split
      · rename_i h
        exact iff_of_true Language.nil_mem_one (.inl h)
      · rename_i h
        rw [below body List.mem_cons_self, or_iff_right h]
    | quantifier q body =>
      rw [words, matchesEmpty, Count.nil_mem_words_iff self, below body List.mem_cons_self,
        Bool.or_eq_true, beq_iff_eq]
    | sequence s ns =>
      rw [words, matchesEmpty, nil_mem_wordsAll, allMatchEmpty_iff]
      exact forall₂_congr below
    | alternation s ns =>
      rw [words, matchesEmpty, mem_wordsOne, someMatchesEmpty_iff]
      exact exists_congr fun m => and_congr_right (below m)

/-- **A sound tree can consume if it has a word besides the empty one.**  An element of a sequence
can consume only along with the others, and these have words as the tree is sound. -/
theorem exists_ne_nil_mem_words_iff (n : Node) :
    (∀ m ∈ n.walk, m.IsSound) → ((∃ w ∈ n.words, w ≠ []) ↔ n.consumes = true) := by
  induction n using induction_children with
  | step n ih =>
    intro sound
    have below := fun m hm => ih m hm (sound_of_mem_children sound hm)
    have self := sound n n.mem_walk_self
    have idle : ¬∃ w ∈ (1 : Language Atom), w ≠ [] := fun ⟨_, hw, ne⟩ => ne hw
    cases n with
    | atom a => exact iff_of_true ⟨[a], rfl, List.cons_ne_nil _ _⟩ rfl
    | anchor s k => exact iff_of_false idle (by simp [consumes])
    | reference r => exact iff_of_false idle (by simp [consumes])
    | group g body =>
      rw [words, consumes, Bool.and_eq_true, Bool.not_eq_true']
      split
      · rename_i h
        exact iff_of_false idle (by simp [h])
      · rename_i h
        rw [below body List.mem_cons_self, and_iff_right (Bool.eq_false_iff.mpr h)]
    | quantifier q body =>
      rw [words, consumes, Count.exists_ne_nil_mem_words_iff self, below body List.mem_cons_self,
        Bool.and_eq_true, bne_iff_ne]
    | sequence s ns =>
      have inhabited : ∀ m ∈ ns, ∃ w, w ∈ m.words :=
        fun m hm => exists_mem_words m (sound_of_mem_children sound hm)
      rw [words, consumes, someConsumes_iff, exists_ne_nil_mem_wordsAll inhabited]
      exact exists_congr fun m => and_congr_right (below m)
    | alternation s ns =>
      rw [words, consumes, someConsumes_iff]
      simp only [mem_wordsOne]
      constructor
      · rintro ⟨w, ⟨m, hm, hw⟩, ne⟩
        exact ⟨m, hm, (below m hm).mp ⟨w, hw, ne⟩⟩
      · rintro ⟨m, hm, h⟩
        obtain ⟨w, hw, ne⟩ := (below m hm).mpr h
        exact ⟨w, ⟨m, hm, hw⟩, ne⟩

end Node

/-! ## 5. Parsed patterns -/

/-- **What is asked of the nodes of a parsed pattern is answered exactly.**  All nodes of the
index are taken together with all that is below them, which is sound as the pattern is. -/
theorem Pattern.exact_of_parse {source : Bytes} {flags : Flags} {p : Pattern}
    (h : parse source flags = .ok p) : ∀ n ∈ p.root.walk,
      (n.matchesEmpty = true ↔ [] ∈ n.words) ∧
        (n.consumes = true ↔ ∃ w ∈ n.words, w ≠ []) := by
  obtain ⟨sound, -, -⟩ := isWellFormed_of_parse h
  intro n hn
  have below : ∀ m ∈ n.walk, m.IsSound := fun m hm => sound m (Node.below_of_mem hn m hm)
  exact ⟨(n.nil_mem_words_iff below).symm, (n.exists_ne_nil_mem_words_iff below).symm⟩

/-- In `(?:(?=a)b{0}|[c\d]|)+` the letters below the lookahead and the `{0}` do not count for what
stands above, the class and the empty alternative do. -/
theorem Pattern.exact_of_parse_of_alternatives :
    ∃ p, parse (Bytes.ofString "(?:(?=a)b{0}|[c\\d]|)+") {} = .ok p ∧
      (∀ n ∈ p.root.walk, (n.matchesEmpty = true ↔ [] ∈ n.words) ∧
        (n.consumes = true ↔ ∃ w ∈ n.words, w ≠ [])) ∧
      p.root.walk.map Node.id = [11, 10, 9, 5, 2, 1, 4, 3, 7, 6, 8] ∧
      (p.root.walk.filter Node.matchesEmpty).map Node.id = [11, 10, 9, 5, 2, 4, 8] ∧
      (p.root.walk.filter Node.consumes).map Node.id = [11, 10, 9, 1, 3, 7, 6] := by
  let p : Pattern :=
    { source := Bytes.ofString "(?:(?=a)b{0}|[c\\d]|)+"
      flags := {}
      root := .quantifier ⟨⟨11, 0, 21⟩, ⟨1, none, false⟩⟩ (.group ⟨⟨10, 0, 20⟩, .nonCapture, 0, []⟩
        (.alternation ⟨9, 3, 19⟩
          [.sequence ⟨5, 3, 12⟩
            [.group ⟨⟨2, 3, 8⟩, .lookahead, 0, []⟩ (.atom ⟨⟨1, 6, 7⟩, .char 97⟩),
              .quantifier ⟨⟨4, 8, 12⟩, ⟨0, some 0, false⟩⟩ (.atom ⟨⟨3, 8, 9⟩, .char 98⟩)],
            .atom ⟨⟨7, 13, 18⟩, .charClass ⟨false, [⟨99, 99⟩],
              [(⟨6, 15, 17⟩, ⟨.digit, false⟩)], []⟩⟩,
            .sequence ⟨8, 19, 19⟩ []]))
      captures := 0 }
  have parsed : parse (Bytes.ofString "(?:(?=a)b{0}|[c\\d]|)+") {} = .ok p := by
    with_unfolding_all rfl
  exact ⟨p, parsed, exact_of_parse parsed, by decide, by decide, by decide⟩

end Backtrack
