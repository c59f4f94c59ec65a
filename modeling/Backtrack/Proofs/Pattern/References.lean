/-
# References and their groups

A reference is written by number, `\2`, or by name, `\k<name>`.  Numbers are checked against a count
made beforehand when the reference is read; names are looked up when all groups are known.
`Pattern.group_of_reference` says that both end at a group of the tree, the one with that number or
the one that is declared with that name, whatever stands between.

The reference `\k<>` is left out.  No name is what a reference by number has, so that it is taken
for one whose number is known, and never looked up: it keeps the number zero, which no group has
(`Pattern.no_group_of_empty_name`).
-/
import Backtrack.Proofs.Pattern.Downgrading
import Backtrack.Proofs.Pattern.Making
import Backtrack.Proofs.Pattern.Scanning

namespace Backtrack

/-! ## 1. How references and names are written -/

theorem Ascii.le_foldl_decimal (digits : Bytes) : ∀ n : Nat,
    n ≤ digits.foldl (fun n b => n * 10 + (b.toNat - 0x30)) n := by
  induction digits with
  | nil => exact Nat.le_refl
  | cons d digits ih =>
    intro n
    rw [List.foldl_cons]
    have := ih (n * 10 + (d.toNat - 0x30))
    omega

/-- A number whose first digit is not zero is not zero. -/
theorem Ascii.one_le_decimalValue {d : UInt8} (hd : isDigit d = true) (hz : d ≠ byte '0')
    (digits : Bytes) : 1 ≤ decimalValue (d :: digits) := by
  have first : 1 ≤ 0 * 10 + (d.toNat - 0x30) := by
    simp only [isDigit, Bool.and_eq_true, decide_eq_true_eq, UInt8.le_iff_toNat_le] at hd
    have : d.toNat ≠ 0x30 := fun h => hz (UInt8.toNat_inj.mp h)
    have : (0x30 : UInt8).toNat = 0x30 := rfl
    omega
  exact Nat.le_trans first (le_foldl_decimal digits _)

/-- What is written `\k<name>`. -/
def namedReference (name : Bytes) : Bytes := Bytes.ofString "\\k<" ++ name ++ [Ascii.greater]

/-- How a reference is written, by name or by number. -/
def WritesReference (index : Nat) (name text : Bytes) : Prop :=
  (index = 0 ∧ text = namedReference name) ∨
    (name = [] ∧ 1 ≤ index ∧ ∃ digits, digits.all Ascii.isDigit = true ∧
      text = Ascii.backslash :: digits ∧ Ascii.decimalValue digits = index)

namespace Lexer

variable {flags : Flags} {captures pos : Nat} {names : List Bytes} {before : Before} {b : UInt8}
  {rest : Bytes} {r : Reading}

theorem writesReference_of_readsEscape {e : UInt8} {more : Bytes}
    (h : ReadsEscape flags captures e more r) {index : Nat} {name : Bytes}
    (token : r.token = .reference index name) :
    WritesReference index name ((Ascii.backslash :: e :: more).take r.width) := by
  cases h with
  | @name text name' after closed =>
    obtain ⟨rfl, rfl⟩ := Token.reference.inj token
    refine .inl ⟨rfl, ?_⟩
    have written : (name' ++ Ascii.greater :: after).take (name'.length + 1) =
        name' ++ [Ascii.greater] := by
      rw [List.append_cons, List.take_left' (by simp)]
    rw [Ascii.cut?_eq_some closed, List.take_succ_cons, List.take_succ_cons, List.take_succ_cons,
      written]
    rfl
  | @number _ _ n digit nonzero value =>
    obtain ⟨rfl, rfl⟩ := Token.reference.inj token
    obtain ⟨value, -⟩ := number?_eq_some.mp value
    have positive : 1 ≤ n := by
      rw [← value, List.takeWhile_cons_of_pos digit]
      exact Ascii.one_le_decimalValue digit nonzero _
    refine .inr ⟨rfl, positive, _, List.all_takeWhile, ?_, value⟩
    rw [List.take_succ_cons, ← List.prefix_iff_eq_take.mp (List.takeWhile_prefix _)]
  | _ => cases token

/-- What is read as a reference is written as one. -/
theorem writesReference_of_lexeme (h : lexeme flags captures names pos before b rest = .ok r)
    {index : Nat} {name : Bytes} (token : r.token = .reference index name) :
    WritesReference index name ((b :: rest).take r.width) := by
  cases readsLexeme_of_lexeme h with
  | escape _ he => exact writesReference_of_readsEscape he token
  | _ => cases token

/-- The opening of a group with a name. -/
theorem text_of_opening (h : lexeme flags captures names pos before b rest = .ok r)
    {kind : GroupKind} {name : Bytes} (token : r.token = .opening kind name) (hn : name ≠ []) :
    ∃ after, b :: rest = Bytes.ofString "(?<" ++ name ++ Ascii.greater :: after := by
  cases readsLexeme_of_lexeme h with
  | opening _ ho =>
    obtain ⟨rfl, rfl⟩ := Token.opening.inj token
    cases ho with
    | sign | plain => exact absurd rfl hn
    | @name _ _ after _ _ closed =>
      refine ⟨after, ?_⟩
      rw [Ascii.cut?_eq_some closed, List.append_assoc]
      rfl
  | escape _ he =>
    cases he with
    | _ => cases token
  | _ => cases token

end Lexer

/-! ## 2. References and names of a tree -/

/-- The bytes of a source at a site. -/
def Site.bytes (s : Site) (source : Bytes) : Bytes := (source.drop s.start).take (s.stop - s.start)

theorem namedReference_inj {name name' : Bytes} (h : namedReference name = namedReference name') :
    name = name' :=
  List.append_cancel_left (List.append_cancel_right h)

/-- A name is no number. -/
theorem namedReference_ne {digits : Bytes} (h : digits.all Ascii.isDigit = true) (name : Bytes) :
    namedReference name ≠ Ascii.backslash :: digits := by
  intro he
  obtain rfl : Ascii.byte 'k' :: Ascii.less :: (name ++ [Ascii.greater]) = digits :=
    (List.cons.inj he).2
  simp [Ascii.isDigit, Ascii.byte] at h

namespace Pattern

variable {source : Bytes} {flags : Flags} {p : Pattern}

/-- What is made of a lexeme was read at a place the scan came to. -/
theorem exists_reading_of_parse (h : parse source flags = .ok p) {n : Node} (hn : n ∈ p.root.walk)
    (leaf : ∀ a, n ≠ .atom a) (joint : n.isJoint = false) :
    ∃ resolve l names before b rest r, Lexeme.Makes resolve l n ∧
      Lexer.ComesTo flags source l.start names before (b :: rest) ∧
      Lexer.lexeme flags (Lexer.countCaptures source) names l.start before b rest = .ok r ∧
      l.token = r.token ∧ l.stop = l.start + r.width := by
  obtain ⟨ls, hls, -, nodes⟩ := made_of_parse h
  obtain ⟨a, ha⟩ | hj | ⟨l, hl, makes⟩ := nodes n hn
  · exact absurd ha (leaf a)
  · exact absurd (joint.symm.trans hj) Bool.false_ne_true
  rw [← show (Lexer.lexemes flags source).1 = ls by rw [hls]] at hl
  obtain ⟨names, before, b, rest, r, comes, read, he⟩ := Lexer.exists_comesTo_of_mem hl
  exact ⟨_, l, names, before, b, rest, r, makes, comes, read, by rw [he], by rw [he]⟩

/-- A reference of a parsed tree is written where it stands. -/
theorem writesReference_of_parse (h : parse source flags = .ok p) {r : Reference}
    (hr : .reference r ∈ p.root.walk) :
    ∃ index, WritesReference index r.name (r.site.bytes source) ∧
      (r.name = [] → r.index = index) := by
  obtain ⟨resolve, l, names, before, b, rest, reading, makes, comes, read, ht, hstop⟩ :=
    exists_reading_of_parse h hr (by simp) rfl
  obtain ⟨⟨index, token, resolved⟩, start, stop⟩ := makes
  refine ⟨index, ?_, fun hn => by simp [resolved, hn]⟩
  rw [Site.bytes, ← start, ← stop, hstop, Nat.add_sub_cancel_left, comes.drop_eq]
  exact Lexer.writesReference_of_lexeme read (ht.symm.trans token)

/-- A group with a name is declared where it stands. -/
theorem declares_of_parse (h : parse source flags = .ok p) {g : Group} {body : Node}
    (hg : .group g body ∈ p.root.walk) (hn : g.name ≠ []) :
    ∃ after, source.drop g.site.start =
      Bytes.ofString "(?<" ++ g.name ++ Ascii.greater :: after := by
  obtain ⟨resolve, l, names, before, b, rest, reading, ⟨token, start⟩, comes, read, ht, -⟩ :=
    exists_reading_of_parse h hg (by simp) rfl
  rw [← start, comes.drop_eq]
  exact Lexer.text_of_opening read (ht.symm.trans token) hn

/-! ## 3. Targets -/

/-- **A reference of a parsed tree refers to a capture group of the tree**, unless it is written
`\k<>`.  By name it refers to the group that is declared with that name, by number to the group with
that number. -/
theorem group_of_reference (h : parse source flags = .ok p) {r : Reference}
    (hr : .reference r ∈ p.root.walk) :
    (r.site.bytes source = namedReference [] → r.index = 0) ∧
      (r.site.bytes source ≠ namedReference [] →
        1 ≤ r.index ∧ r.index ≤ p.captures ∧
          ∃ g body, (Index.ofNode p.root).group? r.index = some (g, body) ∧ g.isCapture = true ∧
            g.index = r.index ∧
            (∀ name, r.site.bytes source = namedReference name → g.name = name ∧
              ∃ after, source.drop g.site.start =
                Bytes.ofString "(?<" ++ name ++ Ascii.greater :: after) ∧
            ∀ digits, digits.all Ascii.isDigit = true →
              r.site.bytes source = Ascii.backslash :: digits →
                r.index = Ascii.decimalValue digits) := by
  obtain ⟨spelled, -⟩ := spelled_of_parse h
  obtain ⟨index, writes, number⟩ := writesReference_of_parse h hr
  have named : r.name ≠ [] → 1 ≤ r.index := fun hn => (spelled.named r.index r.name
    (Node.tokens_subset (m := .reference r) (by simp) hr (List.mem_singleton_self _)) hn).1
  refine ⟨?_, ?_⟩
  · intro hempty
    rcases writes with ⟨rfl, text⟩ | ⟨-, -, digits, hd, text, -⟩
    · exact number (namedReference_inj (text.symm.trans hempty))
    · exact absurd (hempty.symm.trans text) (namedReference_ne hd [])
  intro hne
  have positive : 1 ≤ r.index := by
    rcases writes with ⟨-, text⟩ | ⟨hn, hi, -⟩
    · exact named fun hn => hne (hn ▸ text)
    · exact (number hn).symm ▸ hi
  have found := Downgrade.mem_captureIndexes_of_pos spelled hr positive
  obtain ⟨g, body, hg⟩ := Index.exists_group? found
  obtain ⟨hmem, hc, hi⟩ := Index.mem_of_group? hg
  rw [spelled.indexes, List.mem_range'_1] at found
  refine ⟨positive, by omega, g, body, hg, hc, hi, ?_, ?_⟩
  · intro name hname
    rcases writes with ⟨-, text⟩ | ⟨-, -, digits, hd, text, -⟩
    · obtain rfl := namedReference_inj (text.symm.trans hname)
      have hn : r.name ≠ [] := fun hn => hne (hn ▸ text)
      have same := Revision.name_eq_of_reference spelled hr hn
        (mem_captureGroups.mpr ⟨hc, body, hmem⟩) hi
      exact ⟨same, same ▸ declares_of_parse h hmem (same ▸ hn)⟩
    · exact absurd (hname.symm.trans text) (namedReference_ne hd name)
  · intro digits hd hdigits
    rcases writes with ⟨-, text⟩ | ⟨hn, -, digits', -, text, value⟩
    · exact absurd (text.symm.trans hdigits) (namedReference_ne hd _)
    · obtain rfl := (List.cons.inj (text.symm.trans hdigits)).2
      rw [number hn, value]

/-- In `\k<b>(a)(?<b>\1)` the name is used before it is declared. -/
theorem group_of_reference_ahead :
    ∃ p r g body, parse (Bytes.ofString "\\k<b>(a)(?<b>\\1)") {} = .ok p ∧
      .reference r ∈ p.root.walk ∧ r.site.start = 0 ∧
      (Index.ofNode p.root).group? r.index = some (g, body) ∧ g.isCapture = true ∧
      g.name = Bytes.ofString "b" := by
  let r : Reference := ⟨⟨1, 0, 5⟩, 2, Bytes.ofString "b"⟩
  let p : Pattern :=
    { source := Bytes.ofString "\\k<b>(a)(?<b>\\1)"
      flags := {}
      root := .sequence ⟨6, 0, 16⟩
        [.reference r, .group ⟨⟨3, 5, 8⟩, .capture, 1, []⟩ (.atom ⟨⟨2, 6, 7⟩, .char 97⟩),
          .group ⟨⟨5, 8, 16⟩, .capture, 2, Bytes.ofString "b"⟩ (.reference ⟨⟨4, 13, 15⟩, 1, []⟩)]
      captures := 2 }
  have parsed : parse (Bytes.ofString "\\k<b>(a)(?<b>\\1)") {} = .ok p := by
    with_unfolding_all rfl
  have hr : .reference r ∈ p.root.walk := by simp [p, Node.walk, Node.walkAll]
  obtain ⟨-, refers⟩ := group_of_reference parsed hr
  obtain ⟨-, -, g, body, hg, hc, -, named, -⟩ := refers (by decide)
  exact ⟨p, r, g, body, parsed, hr, rfl, hg, hc, (named (Bytes.ofString "b") (by decide)).1⟩

/-- The reference `\k<>` is accepted, and refers to no group. -/
theorem no_group_of_empty_name :
    ∃ p r, parse (Bytes.ofString "\\k<>") {} = .ok p ∧ .reference r ∈ p.root.walk ∧
      r.site.bytes (Bytes.ofString "\\k<>") = namedReference [] ∧ ¬ 1 ≤ r.index ∧
      (Index.ofNode p.root).group? r.index = none ∧
      ¬ ∃ g body, .group g body ∈ p.root.walk ∧ g.isCapture = true := by
  let p : Pattern :=
    { source := Bytes.ofString "\\k<>"
      flags := {}
      root := .reference ⟨⟨1, 0, 4⟩, 0, []⟩
      captures := 0 }
  have parsed : parse (Bytes.ofString "\\k<>") {} = .ok p := by
    with_unfolding_all rfl
  refine ⟨p, ⟨⟨1, 0, 4⟩, 0, []⟩, parsed, Node.mem_walk_self _, by decide, by decide, by decide, ?_⟩
  rintro ⟨g, body, hg, -⟩
  simp [p, Node.walk] at hg

end Pattern

end Backtrack
