/-
# Writing a tree and reading it again

A tree that can be written is read again as the same tree (`Node.Writable.parse`), up to places,
up to sequences of one element, and with the separators that were written.  A parsed tree has no
sequence of one element, so for it only the separators remain (`Pattern.parse_render`).
-/
import Backtrack.Proofs.Pattern.Revised

namespace Backtrack

open Backtrack.Parser

/-! ## 1. Any tree that can be written -/

theorem Token.groupName?_bare (t : Token) : t.bare.groupName? = t.groupName? := by
  cases t <;> rfl

theorem Token.isCapture_bare (t : Token) : t.bare.isCapture = t.isCapture := by
  cases t <;> rfl

theorem Token.filterMap_groupName?_separate (ts : List Token) :
    (separate ts).filterMap groupName? = ts.filterMap groupName? := by
  induction ts with
  | nil => rfl
  | cons t ts ih =>
    have gap : (gap (some t) ts.head?).filterMap groupName? = [] := by
      unfold Token.gap
      split
      · split <;> rfl
      · rfl
    rw [separate, List.filterMap_cons, List.filterMap_cons, List.filterMap_append, gap, ih]
    rfl

theorem Parser.captureNames_of_spelling {ls : List Lexeme} {ts : List Token}
    (h : spelling ls = ts.map Token.bare) : captureNames ls = ts.filterMap Token.groupName? := by
  have := congrArg (List.filterMap Token.groupName?) h
  rw [spelling, List.filterMap_map, List.filterMap_map] at this
  simpa only [Function.comp_def, Token.groupName?_bare, captureNames_eq, List.filterMap_map]
    using this

theorem Parser.countP_of_spelling {ls : List Lexeme} {ts : List Token}
    (h : spelling ls = ts.map Token.bare) :
    ls.countP (·.token.isCapture) = ts.countP Token.isCapture := by
  have := congrArg (List.countP Token.isCapture) h
  rw [spelling, List.countP_map, List.countP_map] at this
  simpa only [Function.comp_def, Token.isCapture_bare] using this

/-- Separating adds nothing but empty groups. -/
theorem Token.mem_separate {t : Token} {ts : List Token} (h : t ∈ separate ts) :
    t ∈ ts ∨ t = .opening .nonCapture [] ∨ t = .closing :=
  forall_mem_separate (p := fun t => t ∈ ts ∨ t = .opening .nonCapture [] ∨ t = .closing)
    (.inr (.inl rfl)) (.inr (.inr rfl)) (fun _ => .inl) t h

theorem Token.head?_separate (ts : List Token) : (separate ts).head? = ts.head? := by
  cases ts <;> rfl

theorem Parser.undefinedName?_eq_none {names : List Bytes} {ls : List Lexeme}
    (h : ∀ l ∈ ls, ∀ index name, l.token = .reference index name → name ≠ [] → name ∈ names) :
    undefinedName? names ls = none := by
  refine List.findSome?_eq_none_iff.mpr fun l hl => ?_
  split
  · rename_i index name ht
    split
    · rfl
    · rename_i hc
      simp only [Bool.or_eq_true, List.isEmpty_iff, List.contains_iff_mem, not_or] at hc
      exact absurd (h l hl _ _ ht hc.1) hc.2
  · rfl

section Written

variable {flags : Flags} {captures : Nat} {n : Node}

/-- Every name that is referred to is that of a group. -/
theorem Node.Writable.isDefined (h : n.Writable flags captures) {ls : List Lexeme}
    (spelt : spelling ls = (Token.separate n.tokens).map Token.bare) :
    undefinedName? (captureNames ls) ls = none := by
  have names : captureNames ls = n.tokens.filterMap Token.groupName? :=
    (captureNames_of_spelling spelt).trans (Token.filterMap_groupName?_separate n.tokens)
  refine undefinedName?_eq_none fun l hl index name ht hn => ?_
  have written : l.token.bare ∈ spelling ls := List.mem_map_of_mem hl
  rw [spelt] at written
  obtain ⟨t, htm, hte⟩ := List.mem_map.mp written
  rw [ht] at hte
  cases t with
  | reference index' name' =>
    obtain rfl : name' = name := (Token.reference.inj hte).2
    obtain ⟨positive, found⟩ :=
      h.named index' name' ((Token.mem_separate htm).resolve_right (by simp)) hn
    rw [names]
    exact mem_of_indexOfName (found ▸ positive)
  | _ => cases hte

/-- **The text of a tree that can be written has the tokens of the tree.**  The groups are counted
right, since the names are read in every pass alike. -/
theorem Node.Writable.lexemes (h : n.Writable flags captures) :
    ∃ ls, Lexer.lexemes flags ((Token.separate n.tokens).flatMap Token.text) = (ls, none) ∧
      spelling ls = (Token.separate n.tokens).map Token.bare := by
  have row := row_tokens h.stands
  have legible : ∀ t ∈ Token.separate n.tokens, t.IsLegible flags captures :=
    Token.forall_mem_separate (.inl rfl) trivial h.legible
  have first : ∀ t, (Token.separate n.tokens).head? = some t → t.isCount = true →
      Lexer.Before.nothing = .repeatable := by
    intro t ht hc
    rw [Token.head?_separate] at ht
    rw [row.first t ht] at hc
    cases hc
  have new : ∀ name ∈ (Token.separate n.tokens).filterMap Token.name?, name ∉ ([] : List Bytes) :=
    by simp
  obtain ⟨ls, scanned, spelt⟩ := Lexer.scan_text legible (Token.fits_separate row.chain)
    (by rw [Token.filterMap_name?_separate]; exact h.distinct) first new 0
  refine ⟨ls, ?_, spelt⟩
  have defined := isDefined_of_undefinedName? (h.isDefined spelt)
    (isGroupName_of_mem_captureNames (Lexer.readable_of_scan scanned))
  have count : Lexer.countCaptures ((Token.separate n.tokens).flatMap Token.text) = captures := by
    rw [Lexer.countCaptures, Lexer.countCapturesFrom_scan scanned defined,
      countP_of_spelling spelt, separate_tokens h.stands, ← length_captureIndexes,
      captureIndexes_separated, h.indexes, List.length_range']
  rw [Lexer.lexemes, count]
  exact scanned

/-- **A tree that can be written is read again.**  Its text is cut into its tokens, and these are
read as the tree. -/
theorem Node.Writable.parse (h : n.Writable flags captures) :
    ∃ q, Pattern.parse ((Token.separate n.tokens).flatMap Token.text) flags = .ok q ∧
      q.flags = flags ∧ q.captures = captures ∧ q.root.bare = n.separated.collapsed.bare := by
  have tokens := separate_tokens h.stands
  have indexes : captureIndexes n.separated.walk = List.range' 1 captures := by
    rw [captureIndexes_separated, h.indexes]
  obtain ⟨ls, read, spelt⟩ := h.lexemes
  have names : captureNames ls = n.tokens.filterMap Token.groupName? :=
    (captureNames_of_spelling spelt).trans (Token.filterMap_groupName?_separate n.tokens)
  have named : ∀ index name, .reference index name ∈ n.separated.tokens → name ≠ [] →
      indexOfName (captureNames ls) name = index := by
    intro index name hm hn
    rw [← tokens] at hm
    rw [names]
    exact (h.named index name ((Token.mem_separate hm).resolve_right (by simp)) hn).2
  have stands := stands_separated h.stands
  obtain ⟨-, -, body⟩ := reads_tree flags (indexOfName (captureNames ls)) n.separated
  obtain ⟨s, hrun, hreads⟩ := body (s := State.initial) stands rfl (tokens ▸ spelt) named indexes
  generalize (Token.separate n.tokens).flatMap Token.text = text at read ⊢
  refine ⟨⟨text, flags, (s.level.finish s.used text.length).1, s.captures⟩, ?_, rfl, ?_, ?_⟩
  · unfold Pattern.parse
    rw [read]
    have opened : s.opened = [] := hreads.opened
    simp only [build, hrun, opened, h.isDefined spelt]
  · rw [hreads.captures]
    exact Nat.zero_add captures
  · exact bare_finish stands rfl hreads s.used text.length

end Written

/-! ## 2. Parsed trees

Rendering is writing under a revision that changes nothing, and such a revision leaves the tree as
it is. -/

namespace Node

/-- An element is no sequence, and collapsing does not make it one. -/
theorem collapsed_ne_sequence {flags : Flags} {n : Node} (h : n.stands flags .element = true)
    (s : Site) (ns : List Node) : n.collapsed ≠ sequence s ns := by
  cases n with
  | sequence => simp [stands] at h
  | _ => simp [collapsed]

/-- Separating elements makes them more, if anything. -/
theorem length_separatedAll (ns : List Node) : ns.length ≤ (separatedAll ns).length := by
  induction ns with
  | nil => exact Nat.le_refl _
  | cons n ns ih =>
    rw [separatedAll]
    split <;> simp only [List.length_cons] <;> omega

mutual

/-- Separating leaves nothing to collapse where there was nothing. -/
theorem collapsed_separated {flags : Flags} : ∀ {n : Node} {place : Place},
    n.stands flags place = true → n.collapsed = n → n.separated.collapsed = n.separated
  | atom _, _, _, _ => rfl
  | anchor _ _, _, _, _ => rfl
  | reference _, _, _, _ => rfl
  | group g body, _, hs, h => by
    simp only [stands, Bool.and_eq_true] at hs
    rw [separated, collapsed, collapsed_separated hs.2 (Node.group.inj h).2]
  | quantifier q body, _, hs, h => by
    simp only [stands, Bool.and_eq_true] at hs
    rw [separated, collapsed, collapsed_separated hs.2 (Node.quantifier.inj h).2]
  | sequence s ns, _, hs, h => by
    simp only [stands, Bool.and_eq_true] at hs
    rw [collapsed] at h
    split at h
    -- A single element cannot be the sequence that it stood in.
    · rename_i m hm
      cases ns with
      | nil => cases hm
      | cons n ns =>
        rw [standAll, Bool.and_eq_true] at hs
        rw [collapsedAll] at hm
        exact absurd ((List.cons.inj hm).1.trans h) (collapsed_ne_sequence hs.2.1 s _)
    · rename_i hne
      have helements := (Node.sequence.inj h).2
      rw [separated, collapsed, collapsed_separatedAll hs.2 helements]
      split
      · rename_i m hm
        have := length_separatedAll ns
        rw [hm] at this
        match ns with
        | [] => cases hm
        | [n] => exact absurd helements (hne n)
        | n :: n' :: ns => simp at this
      · rfl
  | alternation _ ns, _, hs, h => by
    simp only [stands, Bool.and_eq_true] at hs
    rw [separated, collapsed, collapsed_separatedEach hs.2 (Node.alternation.inj h).2]

theorem collapsed_separatedAll {flags : Flags} : ∀ {ns : List Node} {place : Place},
    standAll flags place ns = true → collapsedAll ns = ns →
      collapsedAll (separatedAll ns) = separatedAll ns
  | [], _, _, _ => rfl
  | n :: ns, _, hs, h => by
    rw [standAll, Bool.and_eq_true] at hs
    rw [collapsedAll] at h
    obtain ⟨hn, hns⟩ := List.cons.inj h
    have ih := collapsed_separated hs.1 hn
    have ihs := collapsed_separatedAll hs.2 hns
    rw [separatedAll]
    split
    · rw [collapsedAll, collapsedAll, ih, ihs]
      rfl
    · rw [collapsedAll, ih, ihs]

theorem collapsed_separatedEach {flags : Flags} : ∀ {ns : List Node} {place : Place},
    standAll flags place ns = true → collapsedAll ns = ns →
      collapsedAll (separatedEach ns) = separatedEach ns
  | [], _, _, _ => rfl
  | n :: ns, _, hs, h => by
    rw [standAll, Bool.and_eq_true] at hs
    rw [collapsedAll] at h
    obtain ⟨hn, hns⟩ := List.cons.inj h
    rw [separatedEach, collapsedAll, collapsed_separated hs.1 hn,
      collapsed_separatedEach hs.2 hns]

end

end Node

namespace Revision

theorem renumber_range' (n i : Nat) : renumber (List.range' 1 n) i = i := by
  unfold renumber
  split
  · rename_i k hk
    obtain ⟨hlt, he, -⟩ := List.idxOf?_eq_some_iff.mp hk
    rw [List.getElem_range'] at he
    omega
  · rfl

section

variable {w : Revision}

mutual

/-- If nothing is left out, all groups remain. -/
theorem keptGroups_of_omitted (h : w.omitted = []) : ∀ n : Node,
    w.keptGroups n = captureGroups n.walk
  | .atom a => (Node.captureGroups_atom a).symm
  | .anchor _ _ => rfl
  | .reference _ => rfl
  | .group g body => by
    rw [Node.captureGroups_group, ← keptGroups_of_omitted h body, keptGroups, h]
    rfl
  | .quantifier _ body => keptGroups_of_omitted h body
  | .sequence _ ns => keptGroupsAll_of_omitted h ns
  | .alternation _ ns => keptGroupsAll_of_omitted h ns

theorem keptGroupsAll_of_omitted (h : w.omitted = []) : ∀ ns : List Node,
    w.keptGroupsAll ns = captureGroups (Node.walkAll ns)
  | [] => rfl
  | n :: ns => by
    rw [Node.captureGroups_walkAll_cons, ← keptGroups_of_omitted h n,
      ← keptGroupsAll_of_omitted h ns]
    rfl

end

/-- If nothing is left out, groups keep their numbers. -/
theorem kept_of_omitted (h : w.omitted = []) {n : Node} {captures : Nat}
    (indexes : captureIndexes n.walk = List.range' 1 captures) :
    w.kept n = List.range' 1 captures := by
  rw [kept_eq_map, keptGroups_of_omitted h, ← captureIndexes_eq_map, indexes]

end

/-- Outside of copies, a group that keeps its number stays as it is. -/
theorem regroup_nil {kept : List Nat} (h : ∀ i, renumber kept i = i) (g : Group) :
    regroup kept [] g = g := by
  unfold regroup
  split
  · rw [h]
    rfl
  · rfl

mutual

/-- A tree that is not revised stays as it is. -/
theorem revised_identity {kept : List Nat} (h : ∀ i, renumber kept i = i) :
    ∀ n : Node, identity.revised kept [] n = n
  | .atom _ => by rw [revised]
  | .anchor _ _ => by rw [revised]
  | .reference r => by
    rw [revised_kept (by simp) rfl, redirect, h]
    rfl
  | .group g body => by
    rw [revised, revised_identity h body, regroup_nil h]
    rfl
  | .quantifier _ body => by rw [revised, revised_identity h body]
  | .sequence _ ns => by rw [revised, revisedAll_identity h ns]
  | .alternation _ ns => by rw [revised, revisedEach_identity h ns]

theorem revisedAll_identity {kept : List Nat} (h : ∀ i, renumber kept i = i) :
    ∀ ns : List Node, identity.revisedAll kept [] ns = ns
  | [] => by rw [revisedAll]
  | n :: ns => by
    have : identity.omits n = false := by cases n <;> rfl
    rw [revisedAll, this, revised_identity h n, revisedAll_identity h ns]
    rfl

theorem revisedEach_identity {kept : List Nat} (h : ∀ i, renumber kept i = i) :
    ∀ ns : List Node, identity.revisedEach kept [] ns = ns
  | [] => by rw [revisedEach]
  | n :: ns => by rw [revisedEach, revised_identity h n, revisedEach_identity h ns]

end

end Revision

/-- The source of a tree whose groups are numbered in order. -/
theorem Node.Writable.render {flags : Flags} {captures : Nat} {n : Node}
    (h : n.Writable flags captures) :
    n.render = (Token.separate n.tokens).flatMap Token.text := by
  rw [Node.render, Revision.textOf_written, Revision.kept_of_omitted rfl h.indexes,
    Revision.revised_identity (Revision.renumber_range' captures)]

/-- **Rendering and parsing are inverse on parsed patterns** in which every reference has a group:
the tree is the same up to places, with the separators that rendering puts in. -/
theorem Pattern.parse_render {source : Bytes} {flags : Flags} {p : Pattern}
    (h : parse source flags = .ok p) (hr : ∀ r ∈ Downgrade.references p.root, 1 ≤ r.index) :
    ∃ q, parse p.root.render p.flags = .ok q ∧ q.flags = p.flags ∧ q.captures = p.captures ∧
      q.root.bare = p.root.separated.bare := by
  obtain ⟨writable, collapsed⟩ := writable_of_parse h hr
  have hflags := flags_of_parse h
  obtain ⟨q, hq, hf, hc, hb⟩ := writable.parse
  rw [← writable.render] at hq
  rw [Node.collapsed_separated writable.stands collapsed] at hb
  exact ⟨q, hflags ▸ hq, hflags ▸ hf, hc, hb⟩

/-- In `(a)\1\x30` a digit comes right after a reference; it is written as itself, so a separator
keeps the two apart. -/
theorem Pattern.parse_render_of_digit :
    ∃ p q, parse (Bytes.ofString "(a)\\1\\x30") {} = .ok p ∧
      (∀ r ∈ Downgrade.references p.root, 1 ≤ r.index) ∧
      p.root.render = Bytes.ofString "(a)\\1(?:)0" ∧
      parse p.root.render p.flags = .ok q ∧ q.root.bare = p.root.separated.bare := by
  let p : Pattern :=
    { source := Bytes.ofString "(a)\\1\\x30"
      flags := {}
      root := .sequence ⟨5, 0, 9⟩
        [.group ⟨⟨2, 0, 3⟩, .capture, 1, []⟩ (.atom ⟨⟨1, 1, 2⟩, .char 97⟩),
          .reference ⟨⟨3, 3, 5⟩, 1, []⟩, .atom ⟨⟨4, 5, 9⟩, .char 48⟩]
      captures := 1 }
  have parsed : parse (Bytes.ofString "(a)\\1\\x30") {} = .ok p := by
    with_unfolding_all rfl
  have references : ∀ r ∈ Downgrade.references p.root, 1 ≤ r.index := by decide
  have rendered : p.root.render = Bytes.ofString "(a)\\1(?:)0" := by
    rw [(writable_of_parse parsed references).1.render]
    with_unfolding_all rfl
  obtain ⟨q, hq, -, -, tree⟩ := parse_render parsed references
  exact ⟨p, q, parsed, references, rendered, hq, tree⟩

end Backtrack
