/-
# Replacing references

`Pattern.downgrade` decides on the tree which references to replace, writes the revised text and reads
it again.  For a parsed pattern whose references all have a group, and none lies in the group that it
names, that succeeds, and what is read is the revised tree (`Pattern.downgrade_eq_revised`).

The revision suits the tree (`Downgrade.suits_revisionOf`).  What is left out are lookaheads, and a
reference to a group in a lookahead is replaced; so the group of a reference that remains remains.
-/
import Backtrack.Proofs.Pattern.RoundTrip
import Backtrack.Proofs.Pattern.Suited

namespace Backtrack

namespace Downgrade

/-! ## 1. Pairs

A pair is found by looking at two neighbours, and what is looked at is turned into the shape of
the two nodes once. -/

theorem atomicPair?_eq_some {a b : Node} {pair : AtomicPair} (h : atomicPair? a b = some pair) :
    ∃ capture, a = .group pair.lookahead (.group capture pair.body) ∧ b = .reference pair.reference ∧
      pair.lookahead.kind = .lookahead ∧ capture.isCapture = true ∧
      capture.index = pair.reference.index := by
  unfold atomicPair? at h
  split at h
  · rename_i look capture body r
    split at h
    · rename_i hc
      obtain rfl := Option.some.inj h
      simp only [Bool.and_eq_true, beq_iff_eq] at hc
      exact ⟨capture, rfl, rfl, hc.1.1, hc.1.2, hc.2.symm⟩
    · cases h
  · cases h

/-- The two nodes of a pair are elements of the sequence. -/
theorem exists_of_mem_pairsIn {pair : AtomicPair} {ns : List Node} (h : pair ∈ pairsIn ns) :
    ∃ a ∈ ns, ∃ b ∈ ns, atomicPair? a b = some pair := by
  induction ns with
  | nil => cases h
  | cons a ns ih =>
    cases ns with
    | nil => cases h
    | cons b ns =>
      rw [pairsIn] at h
      rcases List.mem_append.mp h with h | h
      · exact ⟨a, by simp, b, by simp, Option.mem_toList.mp h⟩
      · obtain ⟨a', ha, b', hb, he⟩ := ih h
        exact ⟨a', List.mem_cons_of_mem _ ha, b', List.mem_cons_of_mem _ hb, he⟩

/-- A pair of a tree is a lookahead with a capture group as its body, and a reference to that group,
both elements of one sequence. -/
theorem exists_of_mem_atomicPairs {root : Node} {pair : AtomicPair} (h : pair ∈ atomicPairs root) :
    ∃ s ns capture, .sequence s ns ∈ root.walk ∧
      .group pair.lookahead (.group capture pair.body) ∈ ns ∧ .reference pair.reference ∈ ns ∧
      pair.lookahead.kind = .lookahead ∧ capture.isCapture = true ∧
      capture.index = pair.reference.index := by
  obtain ⟨n, hn, hp⟩ := List.mem_flatMap.mp h
  split at hp
  · rename_i s ns
    obtain ⟨a, ha, b, hb, he⟩ := exists_of_mem_pairsIn hp
    obtain ⟨capture, rfl, rfl, facts⟩ := atomicPair?_eq_some he
    exact ⟨s, ns, capture, hn, ha, hb, facts⟩
  · cases hp

theorem mem_walk_of_element {root m : Node} {s : Site} {ns : List Node}
    (hs : .sequence s ns ∈ root.walk) (hm : m ∈ ns) : m ∈ root.walk :=
  ((Node.below_of_mem hs).sequence m hm).mem

/-! ## 2. The revision of a tree

To suit the tree, a revision must not leave out what a reference that stays still needs.  What is
left out are lookaheads that belong to pairs, and the groups in them are behind a positive
lookaround, so that references to them are replaced. -/

variable {root : Node}

/-- What is left out is a lookahead, and an element of a sequence. -/
theorem exists_of_omits (h : root.IsDistinct) {n : Node} (hn : n ∈ root.walk)
    (ho : (revisionOf root).omits n = true) :
    ∃ look body s ns, n = .group look body ∧ look.kind = .lookahead ∧
      .sequence s ns ∈ root.walk ∧ n ∈ ns := by
  cases n with
  | group g body =>
    rw [Revision.omits, List.contains_iff_mem] at ho
    obtain ⟨pair, hp, hid⟩ := List.mem_map.mp ho
    obtain ⟨s, ns, capture, hs, hl, -, hk, -⟩ := exists_of_mem_atomicPairs hp
    obtain he := Node.eq_of_id h (mem_walk_of_element hs hl) hn hid
    exact ⟨_, _, s, ns, he.symm, hk, hs, he ▸ hl⟩
  | _ => cases ho

/-- A reference that is replaced is replaced by the body of its group. -/
theorem target_of_find? {r : Reference} {s : Substitution}
    (h : (revisionOf root).find? r = some s) :
    ∃ g, .group g s.body ∈ root.walk ∧ g.isCapture = true ∧ g.index = r.index := by
  have hr : s.reference = r := by simpa using List.find?_some h
  have hs := List.mem_of_find?_eq_some h
  rcases List.mem_append.mp hs with hs | hs
  · obtain ⟨pair, hp, rfl⟩ := List.mem_map.mp hs
    obtain ⟨t, ns, capture, ht, hl, -, -, hc, hi⟩ := exists_of_mem_atomicPairs hp
    refine ⟨capture, ?_, hc, hr ▸ hi⟩
    exact ((Node.below_of_mem (mem_walk_of_element ht hl)).group).mem
  · obtain ⟨r', -, hs⟩ := List.mem_filterMap.mp hs
    split at hs
    · cases hs
    · obtain ⟨body, hb, rfl⟩ := Option.map_eq_some_iff.mp hs
      obtain rfl : r' = r := hr
      unfold copyOf? at hb
      split at hb
      · rename_i g body' hg
        obtain ⟨hm, hc, hi⟩ := Index.mem_of_group? hg
        split at hb
        · cases hb
        · split at hb
          · obtain rfl := Option.some.inj hb
            exact ⟨g, hm, hc, hi⟩
          · cases hb
      · cases hb

/-- An atomic copy is one of the body of a pair. -/
theorem exists_pair_of_atomic {r : Reference} {s : Substitution}
    (hs : (revisionOf root).find? r = some s) (atomic : s.atomic = true) :
    ∃ pair ∈ atomicPairs root, s = ⟨pair.reference, pair.body, true⟩ ∧ pair.reference = r := by
  have hr : s.reference = r := by simpa using List.find?_some hs
  rcases List.mem_append.mp (List.mem_of_find?_eq_some hs) with hs | hs
  · obtain ⟨pair, hp, rfl⟩ := List.mem_map.mp hs
    exact ⟨pair, hp, rfl, hr⟩
  · obtain ⟨r', -, hs⟩ := List.mem_filterMap.mp hs
    split at hs
    · cases hs
    · obtain ⟨body, -, rfl⟩ := Option.map_eq_some_iff.mp hs
      cases atomic

/-- The reference of a pair is substituted, by an atomic copy. -/
theorem exists_atomic_of_pair {pair : AtomicPair} (h : pair ∈ atomicPairs root) :
    ∃ s, (revisionOf root).find? pair.reference = some s ∧ s.atomic = true := by
  let atomic := (atomicPairs root).map fun p => (⟨p.reference, p.body, true⟩ : Substitution)
  have found : (atomic.find? (·.reference == pair.reference)).isSome = true := by
    rw [List.find?_isSome]
    exact ⟨_, List.mem_map_of_mem h, beq_self_eq_true _⟩
  obtain ⟨s, hs⟩ := Option.isSome_iff_exists.mp found
  obtain ⟨p, -, rfl⟩ := List.mem_map.mp (List.mem_of_find?_eq_some hs)
  refine ⟨⟨p.reference, p.body, true⟩, ?_, rfl⟩
  rw [Revision.find?, revisionOf, List.find?_append]
  exact congrArg (Option.or · _) hs

/-- A reference that remains needs no copy. -/
theorem copyOf?_eq_none {r : Reference} (hr : .reference r ∈ root.walk)
    (h : (revisionOf root).find? r = none) : copyOf? (Index.ofNode root) r = none := by
  cases hc : copyOf? (Index.ofNode root) r with
  | none => rfl
  | some body =>
    have hn := List.find?_eq_none.mp h
    have atomic : ¬(((atomicPairs root).map fun p =>
        (⟨p.reference, p.body, true⟩ : Substitution)).any (·.reference == r)) = true := by
      rw [List.any_eq_true]
      rintro ⟨s, hs, he⟩
      exact hn s (List.mem_append_left _ hs) he
    have plain := hn ⟨r, body, false⟩ (List.mem_append_right _ (List.mem_filterMap.mpr ⟨r,
      List.mem_filterMap.mpr ⟨_, hr, rfl⟩, by rw [if_neg atomic, hc]; rfl⟩))
    simp at plain

/-- Whether a node is the capture group with a number. -/
def captures (index : Nat) : Node → Bool
  | .group g _ => g.isCapture && g.index == index
  | _ => false

/-- No reference lies in the group that it names. -/
def IsOutside (root : Node) : Prop :=
  ∀ r ∈ references root, ∀ n ∈ root.walk, captures r.index n = true → r ∉ references n

instance (root : Node) : Decidable (IsOutside root) :=
  inferInstanceAs (Decidable (∀ r ∈ references root, ∀ n ∈ root.walk, captures r.index n = true →
    r ∉ references n))

end Downgrade

namespace Revision

variable {w : Revision}

mutual

/-- A group that stands in nothing that is left out remains. -/
theorem mem_kept {p : Placed} {g : Group} {body : Node} (hp : p.node = .group g body)
    (hc : g.isCapture = true) (hg : w.omits p.node = false)
    (ho : ∀ m ∈ p.enclosing, w.omits m = false) : ∀ {n : Node} {enclosing : List Node},
      p ∈ n.placed enclosing → g.index ∈ w.kept n
  | .atom a, _, h => by
    rw [Node.placed] at h
    rw [List.mem_singleton.mp h] at hp
    cases hp
  | .anchor _ _, _, h => by
    rw [Node.placed] at h
    rw [List.mem_singleton.mp h] at hp
    cases hp
  | .reference _, _, h => by
    rw [Node.placed] at h
    rw [List.mem_singleton.mp h] at hp
    cases hp
  | .group g' body', enclosing, h => by
    have omits : ¬w.omitted.contains g'.site.id = true := by
      rcases Node.enclosing_of_mem_placed _ h with rfl | hs
      · simpa [Revision.omits] using hg
      · simpa [Revision.omits] using ho _ (hs.subset List.mem_cons_self)
    rw [kept, if_neg omits]
    rw [Node.placed] at h
    rcases List.mem_cons.mp h with rfl | h
    · obtain ⟨rfl, rfl⟩ := Node.group.inj hp
      rw [if_pos hc]
      exact List.mem_cons_self
    · have := mem_kept hp hc hg ho h
      split
      · exact List.mem_cons_of_mem _ this
      · exact this
  | .quantifier q body', _, h => by
    rw [Node.placed] at h
    refine mem_kept (n := body') hp hc hg ho (List.mem_of_ne_of_mem ?_ h)
    rintro rfl
    cases hp
  | .sequence s ns, _, h => by
    rw [Node.placed] at h
    refine mem_keptAll hp hc hg ho (List.mem_of_ne_of_mem ?_ h)
    rintro rfl
    cases hp
  | .alternation s ns, _, h => by
    rw [Node.placed] at h
    refine mem_keptAll hp hc hg ho (List.mem_of_ne_of_mem ?_ h)
    rintro rfl
    cases hp

theorem mem_keptAll {p : Placed} {g : Group} {body : Node} (hp : p.node = .group g body)
    (hc : g.isCapture = true) (hg : w.omits p.node = false)
    (ho : ∀ m ∈ p.enclosing, w.omits m = false) : ∀ {ns : List Node} {enclosing : List Node},
      p ∈ Node.placedAll enclosing ns → g.index ∈ w.keptAll ns
  | [], _, h => by cases h
  | n :: ns, _, h => by
    rw [Node.placedAll] at h
    rw [keptAll]
    rcases List.mem_append.mp h with h | h
    · exact List.mem_append_left _ (mem_kept hp hc hg ho h)
    · exact List.mem_append_right _ (mem_keptAll hp hc hg ho h)

end

end Revision

namespace Downgrade

variable {root : Node}

/-- A reference that needs no copy is to a group that is not behind a positive lookaround and repeats
nothing without bound. -/
theorem of_copyOf?_eq_none (h : root.IsDistinct) (outside : IsOutside root) {r : Reference}
    (hr : .reference r ∈ root.walk) {g : Group} {body : Node}
    (hg : (Index.ofNode root).group? r.index = some (g, body))
    (copy : copyOf? (Index.ofNode root) r = none) :
    behindPositiveLookaround (Index.ofNode root) g = false ∧ body.repeatsWithoutBound = false := by
  obtain ⟨hm, hc, hi⟩ := Index.mem_of_group? hg
  have inside : (Index.ofNode root).contains g.site.id r.site.id = false := by
    rw [← Bool.not_eq_true, Index.contains_iff h hm hr]
    intro hb
    refine outside r (mem_references.mpr hr) _ hm ?_ (mem_references.mpr
      (List.mem_cons_of_mem _ hb))
    simp [captures, hc, hi]
  rw [copyOf?, hg] at copy
  simp only [inside, Bool.false_eq_true, if_false] at copy
  split at copy
  · cases copy
  · rename_i hn
    rwa [Bool.not_eq_true, Bool.or_eq_false_iff] at hn

/-- Copies are made of the bodies of groups, and what is left out is not repeated. -/
theorem respects_revisionOf (h : root.IsDistinct) : (revisionOf root).Respects root := by
  refine ⟨fun r s hs => target_of_find? hs, ?_⟩
  intro q body hq
  refine Bool.eq_false_iff.mpr fun ho => ?_
  obtain ⟨look, b, s, ns, rfl, -, hs, hm⟩ :=
    exists_of_omits h ((Node.below_of_mem hq).quantifier).mem ho
  exact Node.ne_element h hq hs hm rfl

/-- A group that does not remain is in a lookahead that is left out. -/
theorem mem_kept_or_omitted (h : root.IsDistinct) {g : Group} {body : Node}
    (hm : .group g body ∈ root.walk) (hc : g.isCapture = true) :
    g.index ∈ (revisionOf root).kept root ∨
      ∃ look b, .group look b ∈ root.walk ∧ look.kind = .lookahead ∧
        (revisionOf root).omits (.group look b) = true ∧ .group g body ∈ b.walk := by
  obtain ⟨p, hp, hn⟩ := Node.exists_placed (by simp) root [] hm
  have own : (revisionOf root).omits p.node = false := by
    refine Bool.eq_false_iff.mpr fun ho => ?_
    obtain ⟨look, b, -, -, he, hk, -⟩ := exists_of_omits h (hn ▸ hm) ho
    rw [hn] at he
    rw [(Node.group.inj he).1, Group.isCapture, hk] at hc
    cases hc
  by_cases ho : ∀ m ∈ p.enclosing, (revisionOf root).omits m = false
  · exact .inl (Revision.mem_kept hn hc own ho hp)
  · simp only [Classical.not_forall, Bool.not_eq_false] at ho
    obtain ⟨m, hme, ho⟩ := ho
    obtain ⟨hmr, hgm⟩ := (Node.mem_walk_of_mem_enclosing root hp hme).resolve_left (by simp)
    obtain ⟨look, b, -, -, rfl, hk, -⟩ := exists_of_omits h hmr ho
    rw [hn] at hgm
    refine .inr ⟨look, b, hmr, hk, ho, (List.mem_cons.mp hgm).resolve_left fun he => ?_⟩
    rw [(Node.group.inj he).1, Group.isCapture, hk] at hc
    cases hc

/-- **The revision of a tree suits it.**  A reference that remains is to a group outside of
positive lookarounds, and only such lookarounds are left out. -/
theorem suits_revisionOf (h : root.IsDistinct) (outside : IsOutside root)
    (known : ∀ r, .reference r ∈ root.walk → r.index ∈ captureIndexes root.walk) :
    (revisionOf root).Suits root := by
  obtain ⟨target, repeated⟩ := respects_revisionOf h
  refine ⟨target, repeated, ?_⟩
  intro r hr hf
  obtain ⟨g, body, hg⟩ := Index.exists_group? (known r hr)
  obtain ⟨hm, hc, hi⟩ := Index.mem_of_group? hg
  have front := (of_copyOf?_eq_none h outside hr hg (copyOf?_eq_none hr hf)).1
  rw [← hi]
  refine (mem_kept_or_omitted h hm hc).resolve_right ?_
  rintro ⟨look, b, hl, hk, -, hgb⟩
  have := behindPositiveLookaround_of_mem h hl (by rw [Group.isLookaround, hk]; rfl)
    (by rw [hk]; rfl) hgb
  rw [front] at this
  cases this

/-- Every reference that is not to number zero has a group. -/
theorem mem_captureIndexes_of_pos {flags : Flags} {captures : Nat}
    (h : root.Spelled flags captures) {r : Reference} (hr : .reference r ∈ root.walk)
    (hi : 1 ≤ r.index) : r.index ∈ captureIndexes root.walk := by
  have ht : .reference r.index r.name ∈ root.tokens :=
    Node.tokens_subset (m := .reference r) (by simp) hr (List.mem_singleton_self _)
  have length : (root.tokens.filterMap Token.groupName?).length = captures := by
    rw [Node.filterMap_groupName?_tokens, List.length_map, ← List.length_map (f := Group.index)]
    exact (congrArg List.length ((captureIndexes_eq_map _).symm.trans h.indexes)).trans
      List.length_range'
  rw [h.indexes, List.mem_range'_1]
  by_cases hn : r.name = []
  · have legible := h.legible _ ht (by simp only [ne_eq, Token.reference.injEq, not_and]; omega)
    rw [hn] at legible
    exact ⟨hi, by have := legible.2.1; omega⟩
  · obtain ⟨pos, index⟩ := h.named _ _ ht hn
    rw [Parser.indexOfName] at index
    split at index
    · rename_i k hk
      have := (List.idxOf?_eq_some_iff.mp hk).1
      omega
    · omega

/-- Every reference of a tree that can be written has a group. -/
theorem mem_captureIndexes_of_reference {flags : Flags} {captures : Nat}
    (h : root.Writable flags captures) {r : Reference} (hr : .reference r ∈ root.walk) :
    r.index ∈ captureIndexes root.walk := by
  have ht : .reference r.index r.name ∈ root.tokens :=
    Node.tokens_subset (m := .reference r) (by simp) hr (List.mem_singleton_self _)
  refine mem_captureIndexes_of_pos h.spelled hr ?_
  by_cases hn : r.name = []
  · have legible := h.legible _ ht
    rw [hn] at legible
    exact legible.1
  · exact (h.named _ _ ht hn).1

end Downgrade

/-! ## 3. Downgrading

What is written is the revised tree, and a tree that can be written is read again.  So it remains
to look at what downgrading does with it, and at the case in which there is nothing to do. -/

/-- There are no more capture groups than bytes. -/
theorem Lexer.countCapturesFrom_le (inClass : Bool) (s : Bytes) :
    countCapturesFrom inClass s ≤ s.length := by
  fun_induction countCapturesFrom inClass s <;> simp only [List.length_cons, List.length_nil] <;>
    (try split) <;> omega

theorem Pattern.captures_le {source : Bytes} {flags : Flags} {p : Pattern}
    (h : parse source flags = .ok p) : p.captures ≤ source.length := by
  obtain ⟨ls, follows⟩ := exists_follows_of_parse h
  rw [← follows.countCaptures]
  exact Lexer.countCapturesFrom_le false source

/-- **What downgrading gives** is the pattern itself if there is nothing to replace, and else what
is read from the revised text.  The revised text is always read by the reader of sources, so that
it may be refused. -/
theorem Pattern.exists_of_downgrade {p : Pattern} {d : Downgraded} (h : p.downgrade = .ok d) :
    let w := Downgrade.revisionOf p.root
    w.substitutions = [] ∧ d = ⟨p, false, []⟩ ∨
      w.substitutions ≠ [] ∧ ∃ q, parse (Revision.textOf (w.written p.root)) p.flags = .ok q ∧
        d = ⟨q, true, Revision.atomicOffsets 0 (w.written p.root)⟩ := by
  rw [downgrade] at h
  dsimp only at h ⊢
  split at h
  · rename_i none
    exact .inl ⟨List.isEmpty_iff.mp none, (Except.ok.inj h).symm⟩
  · rename_i some
    split at h
    · cases h
    · rename_i q hq
      exact .inr ⟨mt List.isEmpty_iff.mpr some, q, hq, (Except.ok.inj h).symm⟩

/-- A pattern is changed when there is something to replace. -/
theorem Pattern.changed_of_downgrade {p : Pattern} {d : Downgraded} (h : p.downgrade = .ok d) :
    d.changed = !(Downgrade.revisionOf p.root).substitutions.isEmpty := by
  rcases exists_of_downgrade h with ⟨none, rfl⟩ | ⟨some, q, -, rfl⟩
  · rw [none]
    rfl
  · rw [List.isEmpty_eq_false_iff.mpr some]
    rfl

/-- What comes out of downgrading, from what is written. -/
theorem Pattern.downgrade_eq_of_pieces {p : Pattern} {w : Revision} {ps : List Piece}
    (hw : Downgrade.revisionOf p.root = w) (changed : w.substitutions.isEmpty = false)
    (hp : w.pieces (w.kept p.root) [] p.root = ps) :
    p.downgrade =
      match parse (Revision.textOf (Revision.separate ps)) p.flags with
      | .error e => .error ⟨p.source, Revision.textOf (Revision.separate ps), e⟩
      | .ok q => .ok ⟨q, true, Revision.atomicOffsets 0 (Revision.separate ps)⟩ := by
  cases hq : parse (Revision.textOf (Revision.separate ps)) p.flags with
  | error e => simp [downgrade, hw, changed, Revision.written, hp, hq]
  | ok q => simp [downgrade, hw, changed, Revision.written, hp, hq]

/-- What downgrading gives, from what is written. -/
theorem Pattern.downgrade_of_pieces {p q : Pattern} {w : Revision} {ps : List Piece}
    (hw : Downgrade.revisionOf p.root = w) (changed : w.substitutions.isEmpty = false)
    (hp : w.pieces (w.kept p.root) [] p.root = ps)
    (hq : parse (Revision.textOf (Revision.separate ps)) p.flags = .ok q) :
    p.downgrade = .ok ⟨q, true, Revision.atomicOffsets 0 (Revision.separate ps)⟩ := by
  rw [downgrade_eq_of_pieces hw changed hp, hq]

/-- What comes out of downgrading, if the revised tree can be written. -/
theorem Pattern.downgrade_of_writable {p : Pattern}
    (writable : ((Downgrade.revisionOf p.root).revised ((Downgrade.revisionOf p.root).kept p.root) []
      p.root).Writable p.flags ((Downgrade.revisionOf p.root).kept p.root).length) :
    ∃ d, p.downgrade = .ok d ∧
      (d.changed = false → d.pattern = p) ∧
      (d.changed = true →
        let w := Downgrade.revisionOf p.root
        let kept := w.kept p.root
        d.pattern.flags = p.flags ∧ d.pattern.captures = kept.length ∧
        d.pattern.root.bare = (w.revised kept [] p.root).separated.collapsed.bare) := by
  obtain ⟨q, hq, hf, hc, hb⟩ := writable.parse
  rw [← Revision.textOf_written] at hq
  rw [downgrade]
  dsimp only
  split
  · exact ⟨_, rfl, fun _ => rfl, nofun⟩
  · rw [hq]
    exact ⟨_, rfl, nofun, fun _ => ⟨hf, hc, hb⟩⟩

/-- What comes out of downgrading, if the revision suits the tree. -/
theorem Pattern.downgrade_of_suits {source : Bytes} {flags : Flags} {p : Pattern}
    (h : parse source flags = .ok p) (limit : source.length < numberLimit)
    (writable : p.root.Writable flags p.captures)
    (suits : (Downgrade.revisionOf p.root).Suits p.root) :
    ∃ d, p.downgrade = .ok d ∧
      (d.changed = false → d.pattern = p) ∧
      (d.changed = true →
        let w := Downgrade.revisionOf p.root
        let kept := w.kept p.root
        d.pattern.flags = p.flags ∧ d.pattern.captures = kept.length ∧
        d.pattern.root.bare = (w.revised kept [] p.root).separated.collapsed.bare) := by
  have revised := suits.writable writable (Nat.lt_of_le_of_lt (captures_le h) limit)
  exact downgrade_of_writable (flags_of_parse h ▸ revised)

/-- **Downgrading is revising the tree.**  If each reference has a group and is not in it, a pattern
can be downgraded.  What comes out is the revised tree with separators, less the sequences of one
element: references are replaced by the bodies of their groups, and those that remain have groups
that remain. -/
theorem Pattern.downgrade_eq_revised {source : Bytes} {flags : Flags} {p : Pattern}
    (h : parse source flags = .ok p) (limit : source.length < numberLimit)
    (known : ∀ r ∈ Downgrade.references p.root, 1 ≤ r.index)
    (outside : Downgrade.IsOutside p.root) :
    ∃ d, p.downgrade = .ok d ∧
      (d.changed = false → d.pattern = p) ∧
      (d.changed = true →
        let w := Downgrade.revisionOf p.root
        let kept := w.kept p.root
        d.pattern.flags = p.flags ∧ d.pattern.captures = kept.length ∧
        d.pattern.root.bare = (w.revised kept [] p.root).separated.collapsed.bare ∧
        ∀ r, .reference r ∈ p.root.walk → match w.find? r with
          | some s => ∃ g, .group g s.body ∈ p.root.walk ∧ g.isCapture = true ∧ g.index = r.index
          | none => r.index ∈ kept) := by
  obtain ⟨writable, -⟩ := writable_of_parse h known
  have distinct : p.root.IsDistinct := (isWellFormed_of_parse h).distinct
  have suits := Downgrade.suits_revisionOf distinct outside fun r hr =>
    Downgrade.mem_captureIndexes_of_reference writable hr
  obtain ⟨d, hd, same, changed⟩ := downgrade_of_suits h limit writable suits
  refine ⟨d, hd, same, fun hc => ?_⟩
  obtain ⟨hf, captures, tree⟩ := changed hc
  refine ⟨hf, captures, tree, fun r hr => ?_⟩
  split
  · exact suits.target r _ ‹_›
  · exact suits.remains r hr ‹_›

/-- In `(?=(a+))\1(b)\2` the first two elements become `(?:a+)`, and what was the second group is
the first. -/
theorem Pattern.downgrade_eq_revised_of_pair :
    ∃ p d, parse (Bytes.ofString "(?=(a+))\\1(b)\\2") {} = .ok p ∧
      (∀ r ∈ Downgrade.references p.root, 1 ≤ r.index) ∧ Downgrade.IsOutside p.root ∧
      p.downgrade = .ok d ∧ d.changed = true ∧ d.pattern.captures = 1 ∧
      d.pattern.root.bare = (.sequence .blank
        [.group ⟨.blank, .nonCapture, 0, []⟩
          (.quantifier ⟨.blank, 1, none, false⟩ (.atom ⟨.blank, .char 97⟩)),
        .group ⟨.blank, .capture, 1, []⟩ (.atom ⟨.blank, .char 98⟩),
        .reference ⟨.blank, 1, []⟩]) := by
  let a : Node := .quantifier ⟨⟨2, 4, 6⟩, ⟨1, none, false⟩⟩ (.atom ⟨⟨1, 4, 5⟩, .char 97⟩)
  let p : Pattern :=
    { source := Bytes.ofString "(?=(a+))\\1(b)\\2"
      flags := {}
      root := .sequence ⟨9, 0, 15⟩
        [.group ⟨⟨4, 0, 8⟩, .lookahead, 0, []⟩ (.group ⟨⟨3, 3, 7⟩, .capture, 1, []⟩ a),
          .reference ⟨⟨5, 8, 10⟩, 1, []⟩,
          .group ⟨⟨7, 10, 13⟩, .capture, 2, []⟩ (.atom ⟨⟨6, 11, 12⟩, .char 98⟩),
          .reference ⟨⟨8, 13, 15⟩, 2, []⟩]
      captures := 2 }
  have parsed : parse (Bytes.ofString "(?=(a+))\\1(b)\\2") {} = .ok p := by
    with_unfolding_all rfl
  have known : ∀ r ∈ Downgrade.references p.root, 1 ≤ r.index := by decide
  have outside : Downgrade.IsOutside p.root := by decide
  obtain ⟨d, hd, -, hc⟩ := downgrade_eq_revised parsed (by decide) known outside
  have changed : d.changed = true := by
    rw [changed_of_downgrade hd]
    decide
  obtain ⟨-, captures, tree, -⟩ := hc changed
  refine ⟨p, d, parsed, known, outside, hd, changed, captures, tree.trans ?_⟩
  have pair : (Downgrade.revisionOf p.root).find? ⟨⟨5, 8, 10⟩, 1, []⟩ =
      some ⟨⟨⟨5, 8, 10⟩, 1, []⟩, a, true⟩ := rfl
  have other : (Downgrade.revisionOf p.root).find? ⟨⟨8, 13, 15⟩, 2, []⟩ = none := rfl
  have omitted : (Downgrade.revisionOf p.root).omitted = [4] := rfl
  have kept : (Downgrade.revisionOf p.root).kept p.root = [2] := rfl
  have revised : (Downgrade.revisionOf p.root).revised [2] [] p.root = .sequence ⟨9, 0, 15⟩
      [.group ⟨⟨5, 8, 10⟩, .nonCapture, 0, []⟩ a,
        .group ⟨⟨7, 10, 13⟩, .capture, 1, []⟩ (.atom ⟨⟨6, 11, 12⟩, .char 98⟩),
        .reference ⟨⟨8, 13, 15⟩, 1, []⟩] := by
    generalize Downgrade.revisionOf p.root = w at *
    simp [p, a, Revision.revised, Revision.revisedAll, Revision.omits, omitted,
      Revision.revised_copy _ pair, Revision.revised_kept _ other, Revision.regroup,
      Revision.redirect, Revision.renumber, Group.isCapture]
  rw [kept, revised]
  rfl

end Backtrack
