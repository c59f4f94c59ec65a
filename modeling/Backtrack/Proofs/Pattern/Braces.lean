/-
# When a brace counts

An opening brace counts what stands before it if it starts one of the three forms `{m}`, `{m,}` and
`{m,n}`; otherwise it is a character like any other, as long as the unicode flag is not given.
`Pattern.brace_of_parse` says so of every brace a scan comes to, that is of every brace outside of
classes and escapes: a form is taken as a count or the source is refused, and what is no form is
read as a brace and is not what a source is refused for.

Two cases are left out, for both of them are decided by whether numbers can be represented, which
is no part of the forms (`Pattern.brace_misread`).

* Where nothing stands that could be repeated, a form whose numbers are too large or out of order
  is read as characters: that it is faulty is found out, and dropped.
* After something that can be repeated, a number that is too large is a fault even if what comes
  after the comma makes the text no form at all: the number is converted before the rest is looked
  at.
-/
import Backtrack.Proofs.Pattern.Bounds
import Backtrack.Proofs.Pattern.Making
import Backtrack.Proofs.Pattern.Scanning

namespace Backtrack

namespace Lexer

/-! ## 1. The lexeme at a brace

At a brace two readings are tried, as a count and as a character.  Which one is taken depends on
what stands before it and on the form. -/

section Lexeme

variable {flags : Flags} {captures pos : Nat} {names : List Bytes} {before : Before}
  {k : Braced} {text after : Bytes}

theorem bounds?_openBrace (text : Bytes) : bounds? Ascii.openBrace text = braces? text := rfl

theorem fresh_openBrace (text : Bytes) :
    fresh flags captures names pos Ascii.openBrace text =
      match braces? text with
      | .ok (some _) => .error ⟨0, .nothingToRepeat⟩
      | _ => if flags.unicode then .error ⟨0, .loneBrace⟩ else .ok ⟨.leaf (.char 0x7B), 1, 1⟩ :=
  rfl

theorem count?_of_starts (h : k.Starts text after) (fits : k.Fits) :
    count? Ascii.openBrace text = .ok (some (k.count after, k.width after)) := by
  refine count?_eq_some.mpr ⟨_, .braces h fits, ?_, ?_⟩
  · rw [h.text_eq, Nat.add_sub_assoc (by decide), List.append_cons, List.drop_left' (by simp)]
    exact decide_eq_true_iff
  · unfold Braced.width Braced.count
    split <;> rename_i lazy <;> simp [lazy]

/-- A form is a count where there is something to repeat, or there is nothing to read. -/
theorem lexeme_of_starts (h : k.Starts text after) (fits : before = .nothing → k.Fits) :
    (before = .repeatable ∧ k.Fits ∧
      lexeme flags captures names pos before Ascii.openBrace text =
        .ok ⟨.count (k.count after), 1, k.width after⟩) ∨
      ∃ f, lexeme flags captures names pos before Ascii.openBrace text = .error f := by
  by_cases hk : k.Fits
  · have count := count?_of_starts h hk
    cases before with
    | nothing =>
      refine .inr ⟨⟨0, .nothingToRepeat⟩, ?_⟩
      rw [lexeme, fresh_openBrace, (braces?_eq h).1 hk]
    | anchor a => exact .inr ⟨⟨0, .repeatedAnchor a.text⟩, by rw [lexeme, count]⟩
    | repeatable => exact .inl ⟨rfl, hk, by rw [lexeme, count]⟩
  · obtain ⟨cause, bounds⟩ := (braces?_eq h).2 hk
    have count : count? Ascii.openBrace text = .error cause := by
      rw [count?, bounds?_openBrace, bounds]
    cases before with
    | nothing => exact absurd (fits rfl) hk
    | anchor a => exact .inr ⟨⟨0, cause⟩, by rw [lexeme, count]⟩
    | repeatable => exact .inr ⟨⟨0, cause⟩, by rw [lexeme, count]⟩

/-- What is no form is a character. -/
theorem lexeme_of_none (plain : flags.unicode = false) (h : Braced.NoneStarts text)
    (short : before ≠ .nothing → ¬ Braced.IsOverlong text) :
    lexeme flags captures names pos before Ascii.openBrace text =
      .ok ⟨.leaf (.char 0x7B), 1, 1⟩ := by
  have fresh : fresh flags captures names pos Ascii.openBrace text =
      .ok ⟨.leaf (.char 0x7B), 1, 1⟩ := by
    rw [fresh_openBrace, plain]
    rcases braces?_of_none h with bounds | ⟨-, cause, bounds⟩ <;> rw [bounds] <;> rfl
  have count : before ≠ .nothing → count? Ascii.openBrace text = .ok none := by
    intro hb
    rcases braces?_of_none h with bounds | ⟨long, -⟩
    · rw [count?, bounds?_openBrace, bounds]
    · exact absurd long (short hb)
  cases before with
  | nothing => exact fresh
  | anchor a =>
    rw [lexeme, count (by simp)]
    exact fresh
  | repeatable =>
    rw [lexeme, count (by simp)]
    exact fresh

end Lexeme

end Lexer

/-! ## 2. What becomes of the lexeme

A lexeme may be read and the source be refused all the same, when the tree is built or because of
a later lexeme.  To say that a brace is not what a source is refused for, all places of faults
have to be known. -/

namespace Parser

variable {flags : Flags} {resolve : Bytes → Nat}

/-- What the tree finds fault with is a closing parenthesis or a count, and it says where. -/
theorem fault_of_step {s : State} {l : Lexeme} {f : Lexer.Fault}
    (h : step flags resolve s l = .error f) :
    f.offset = l.start ∧ ∀ shape, l.token ≠ .leaf shape := by
  unfold step at h
  dsimp only at h
  split at h
  case h_5 token =>
    split at h
    · obtain rfl := Except.error.inj h
      exact ⟨rfl, by simp [token]⟩
    · cases h
  case h_7 c token =>
    split at h
    · obtain rfl := Except.error.inj h
      exact ⟨rfl, by simp [token]⟩
    · split at h
      · cases h
      · obtain rfl := Except.error.inj h
        exact ⟨rfl, by simp [token]⟩
  all_goals cases h

theorem fault_of_run : ∀ {ls : List Lexeme} {s : State} {f : Lexer.Fault},
    run flags resolve s ls = .error f →
      ∃ l ∈ ls, f.offset = l.start ∧ ∀ shape, l.token ≠ .leaf shape
  | l :: ls, s, f, h => by
    unfold run at h
    split at h
    · rename_i h₁
      obtain rfl := Except.error.inj h
      exact ⟨l, List.mem_cons_self, fault_of_step h₁⟩
    · obtain ⟨m, hm, hf⟩ := fault_of_run h
      exact ⟨m, List.mem_cons_of_mem _ hm, hf⟩

/-- A name that no group has is found where it is referred to. -/
theorem exists_of_undefinedName? {names : List Bytes} {ls : List Lexeme} {f : Lexer.Fault}
    (h : undefinedName? names ls = some f) :
    ∃ l ∈ ls, ∃ index name, l.token = .reference index name ∧
      f = ⟨l.start, .undefinedName name⟩ := by
  obtain ⟨l, hl, hf⟩ := List.exists_of_findSome?_eq_some h
  split at hf
  · rename_i index name token
    split at hf
    · cases hf
    · exact ⟨l, hl, index, name, token, (Option.some.inj hf).symm⟩
  · cases hf

end Parser

namespace Pattern

open Backtrack.Parser

/-- Where an error of the parser comes from: from building the tree, from the scan, from a group that
is open at the end, or from a name. -/
theorem exists_fault_of_parse {source : Bytes} {flags : Flags} {e : SyntaxError}
    (h : parse source flags = .error e) :
    ∃ f : Lexer.Fault, e = ⟨source, f.offset, f.cause⟩ ∧
      (run flags (indexOfName (captureNames (Lexer.lexemes flags source).1)) State.initial
          (Lexer.lexemes flags source).1 = .error f ∨
        (Lexer.lexemes flags source).2 = some f ∨
        ((Lexer.lexemes flags source).2 = none ∧ f = ⟨source.length, .unclosedGroup⟩) ∨
        undefinedName? (captureNames (Lexer.lexemes flags source).1)
          (Lexer.lexemes flags source).1 = some f) := by
  unfold parse at h
  dsimp only at h
  split at h
  · rename_i f built
    refine ⟨f, (Except.error.inj h).symm, ?_⟩
    unfold build at built
    split at built
    · rename_i failed
      exact .inl ((Except.error.inj built) ▸ failed)
    split at built
    · rename_i fault
      exact .inr (.inl ((Except.error.inj built) ▸ fault))
    · rename_i none _
      exact .inr (.inr (.inl ⟨none, (Except.error.inj built).symm⟩))
    · cases built
  split at h
  · rename_i f undefined
    exact ⟨f, (Except.error.inj h).symm, .inr (.inr (.inr undefined))⟩
  · cases h

section Places

variable {source : Bytes} {flags : Flags} {pos : Nat} {names : List Bytes} {before : Lexer.Before}
  {b : UInt8} {rest : Bytes} {r : Lexer.Reading}

/-- A source is refused if its scan comes to a place where nothing can be read. -/
theorem parse_ne_ok (met : Lexer.ComesTo flags source pos names before (b :: rest))
    {f : Lexer.Fault}
    (read : Lexer.lexeme flags (Lexer.countCaptures source) names pos before b rest = .error f)
    (p : Pattern) : parse source flags ≠ .ok p := by
  intro h
  obtain ⟨ls, -, hls, -⟩ := exists_lexemes_of_parse h
  have fault := met.fault_eq read
  rw [hls] at fault
  cases fault

/-- What is read at a place the scan comes to becomes a node, but for marks. -/
theorem exists_node_of_lexeme {p : Pattern} (h : parse source flags = .ok p)
    (met : Lexer.ComesTo flags source pos names before (b :: rest))
    (read : Lexer.lexeme flags (Lexer.countCaptures source) names pos before b rest = .ok r)
    (mark : r.token.isMark = false) :
    ∃ resolve, ∃ n ∈ p.root.walk,
      Lexeme.Makes resolve ⟨pos, pos + r.width, r.nodes, r.token⟩ n := by
  obtain ⟨ls, hls, becomes, -⟩ := made_of_parse h
  have hl := met.mem_lexemes read
  rw [hls] at hl
  obtain ⟨n, hn, makes⟩ := becomes _ hl mark
  exact ⟨_, n, hn, makes⟩

/-- A source is never refused because of a leaf: no fault is reported where one stands. -/
theorem offset_ne_of_leaf {e : SyntaxError} (h : parse source flags = .error e)
    (met : Lexer.ComesTo flags source pos names before (b :: rest))
    (read : Lexer.lexeme flags (Lexer.countCaptures source) names pos before b rest = .ok r)
    {shape : Shape} (leaf : r.token = .leaf shape) : e.offset ≠ pos := by
  obtain ⟨single, ahead⟩ := met.single read
  have apart : ∀ l ∈ (Lexer.lexemes flags source).1, (∀ shape, l.token ≠ .leaf shape) →
      l.start ≠ pos := by
    intro l hl other start
    exact other shape ((single l hl start).trans leaf)
  obtain ⟨f, rfl, failed | fault | ⟨-, rfl⟩ | undefined⟩ := exists_fault_of_parse h
  · obtain ⟨l, hl, start, other⟩ := fault_of_run failed
    exact start ▸ apart l hl other
  · exact Nat.ne_of_gt (ahead f fault)
  · exact Nat.ne_of_gt met.pos_lt
  · obtain ⟨l, hl, _, _, token, rfl⟩ := exists_of_undefinedName? undefined
    exact apart l hl (by simp [token])

end Places

/-! ## 3. Braces -/

variable {source : Bytes} {flags : Flags} {pos : Nat} {names : List Bytes} {before : Lexer.Before}
  {text : Bytes}

/-- **Braces count exactly if they are well formed**, as far as numbers can be represented.  Without
the unicode flag, take any place with an opening brace that the scan comes to.

If the text starts one of the three forms, the source is refused, or the form repeats the element
right before it; where there is no such element the numbers are taken to fit.  If it starts none of
them, the brace is a leaf of the tree, and it is not the place of a fault; after something else the
text is taken not to start with a number that is too large and a comma. -/
theorem brace_of_parse (plain : flags.unicode = false)
    (met : Lexer.ComesTo flags source pos names before (Ascii.openBrace :: text)) :
    (∀ k after, Braced.Starts k text after → (before = .nothing → k.Fits) →
      ∀ p, parse source flags = .ok p → before = .repeatable ∧ k.Fits ∧
        ∃ q body, .quantifier q body ∈ p.root.walk ∧ q.count = k.count after ∧
          body.site.stop = pos ∧ q.site.stop = pos + k.width after) ∧
    (Braced.NoneStarts text → (before ≠ .nothing → ¬ Braced.IsOverlong text) →
      (∀ p, parse source flags = .ok p → ∃ a, .atom a ∈ p.root.walk ∧ a.shape = .char 0x7B ∧
        a.site.start = pos ∧ a.site.stop = pos + 1) ∧
      ∀ e, parse source flags = .error e → e.offset ≠ pos) := by
  refine ⟨?_, ?_⟩
  · intro k after starts fits p h
    rcases Lexer.lexeme_of_starts starts fits with ⟨repeatable, fits, read⟩ | ⟨f, read⟩
    · obtain ⟨resolve, n, hn, makes⟩ := exists_node_of_lexeme h met read rfl
      obtain ⟨q, body, rfl, count, start, stop⟩ := makes.exists_quantifier rfl
      exact ⟨repeatable, fits, q, body, hn, count, start, stop⟩
    · exact absurd h (parse_ne_ok met read p)
  · intro none short
    have read : Lexer.lexeme flags (Lexer.countCaptures source) names pos before Ascii.openBrace
        text = .ok ⟨.leaf (.char 0x7B), 1, 1⟩ := Lexer.lexeme_of_none plain none short
    refine ⟨?_, fun e h => offset_ne_of_leaf h met read rfl⟩
    intro p h
    obtain ⟨resolve, n, hn, makes⟩ := exists_node_of_lexeme h met read rfl
    obtain ⟨⟨site, shape⟩, rfl, bare, start, stop⟩ := makes.exists_atom rfl
    refine ⟨_, hn, ?_, start, stop⟩
    cases shape with
    | charClass k => cases bare
    | _ => exact bare

/-- In `a{2}?b{x` the first brace counts, lazily, and the second one is read as it stands. -/
theorem brace_of_parse_of_both :
    ∃ p q body a, parse (Bytes.ofString "a\x7b2\x7d?b\x7bx") {} = .ok p ∧
      .quantifier q body ∈ p.root.walk ∧ q.count = ⟨2, some 2, true⟩ ∧
      body.site.stop = 1 ∧ q.site.stop = 5 ∧
      .atom a ∈ p.root.walk ∧ a.shape = .char 0x7B ∧ a.site.start = 6 ∧ a.site.stop = 7 := by
  let source : Bytes := Bytes.ofString "a\x7b2\x7d?b\x7bx"
  let p : Pattern :=
    { source := source
      flags := {}
      root := .sequence ⟨6, 0, 8⟩
        [.quantifier ⟨⟨2, 0, 5⟩, 2, some 2, true⟩ (.atom ⟨⟨1, 0, 1⟩, .char 97⟩),
          .atom ⟨⟨3, 5, 6⟩, .char 98⟩, .atom ⟨⟨4, 6, 7⟩, .char 123⟩, .atom ⟨⟨5, 7, 8⟩, .char 120⟩]
      captures := 0 }
  have parsed : parse source {} = .ok p := by
    with_unfolding_all rfl
  have initial : Lexer.ComesTo {} source 0 [] .nothing
      (Ascii.byte 'a' :: Bytes.ofString "\x7b2\x7d?b\x7bx") := .start
  have first : Lexer.ComesTo {} source 1 [] .repeatable
      (Ascii.openBrace :: Bytes.ofString "2\x7d?b\x7bx") :=
    initial.next (r := ⟨.leaf (.char 97), 1, 1⟩) (by with_unfolding_all rfl)
  have between : Lexer.ComesTo {} source 5 [] .nothing
      (Ascii.byte 'b' :: Bytes.ofString "\x7bx") :=
    first.next (r := ⟨.count ⟨2, some 2, true⟩, 1, 4⟩) (by with_unfolding_all rfl)
  have second : Lexer.ComesTo {} source 6 [] .repeatable
      (Ascii.openBrace :: Bytes.ofString "x") :=
    between.next (r := ⟨.leaf (.char 98), 1, 1⟩) (by with_unfolding_all rfl)
  obtain ⟨-, -, q, body, hq, count, stops, stop⟩ := (brace_of_parse rfl first).1
    (.exactly (Bytes.ofString "2")) (Bytes.ofString "?b\x7bx")
    ⟨show Ascii.isDecimal _ = true by decide, by decide⟩ (by simp) p parsed
  obtain ⟨a, ha, shape, begins, ends⟩ := ((brace_of_parse rfl second).2
    (Braced.noneStarts_of_not_mem (by decide))
    fun _ => Braced.not_isOverlong_of_not_mem (by decide)).1 p parsed
  exact ⟨p, q, body, a, parsed, hq, count, stops, stop, ha, shape, begins, ends⟩

/-- The form `{3,1}` is read as characters where nothing stands before it, and the text
`{99999999999999999999,x}`, which is no form, is refused after a character. -/
theorem brace_misread :
    (∃ text k after p a,
      Lexer.ComesTo {} (Bytes.ofString "\x7b3,1\x7d") 0 [] .nothing (Ascii.openBrace :: text) ∧
        Braced.Starts k text after ∧ parse (Bytes.ofString "\x7b3,1\x7d") {} = .ok p ∧
        .atom a ∈ p.root.walk ∧ a.shape = .char 0x7B ∧ a.site.start = 0) ∧
    ∃ text e,
      Lexer.ComesTo {} (Bytes.ofString "a\x7b99999999999999999999,x\x7d") 1 [] .repeatable
          (Ascii.openBrace :: text) ∧
        Braced.NoneStarts text ∧
        parse (Bytes.ofString "a\x7b99999999999999999999,x\x7d") {} = .error e ∧
        e.offset = 1 := by
  refine ⟨?_, ?_⟩
  · let a : Atom := ⟨⟨1, 0, 1⟩, .char 123⟩
    let p : Pattern :=
      { source := Bytes.ofString "\x7b3,1\x7d"
        flags := {}
        root := .sequence ⟨6, 0, 5⟩
          [.atom a, .atom ⟨⟨2, 1, 2⟩, .char 51⟩, .atom ⟨⟨3, 2, 3⟩, .char 44⟩,
            .atom ⟨⟨4, 3, 4⟩, .char 49⟩, .atom ⟨⟨5, 4, 5⟩, .char 125⟩]
        captures := 0 }
    have parsed : parse (Bytes.ofString "\x7b3,1\x7d") {} = .ok p := by
      with_unfolding_all rfl
    refine ⟨Bytes.ofString "3,1\x7d", .between (Bytes.ofString "3") (Bytes.ofString "1"), [], p, a,
      .start, ⟨⟨by decide, by decide⟩, by decide⟩, parsed, ?_, rfl, rfl⟩
    simp [p, Node.walk, Node.walkAll]
  · have source : Bytes.ofString "a\x7b99999999999999999999,x\x7d" =
        Ascii.byte 'a' :: Ascii.openBrace :: Bytes.ofString "99999999999999999999,x\x7d" := by
      decide
    have place : Lexer.ComesTo {} (Bytes.ofString "a\x7b99999999999999999999,x\x7d") 1 []
        .repeatable (Ascii.openBrace :: Bytes.ofString "99999999999999999999,x\x7d") := by
      rw [source]
      exact .next (r := ⟨.leaf (.char 97), 1, 1⟩) .start (by with_unfolding_all rfl)
    refine ⟨_, ⟨Bytes.ofString "a\x7b99999999999999999999,x\x7d", 1,
      .braceNumberTooLarge (Bytes.ofString "99999999999999999999")⟩, place, ?_,
      by with_unfolding_all rfl, rfl⟩
    rintro k after ⟨decimal, text⟩
    have cut : Ascii.cut? Ascii.closeBrace (Bytes.ofString "99999999999999999999,x\x7d") =
        some (Bytes.ofString "99999999999999999999,x", []) := by decide
    rw [text, Ascii.cut?_append (Braced.closeBrace_not_mem decimal)] at cut
    have inner : k.inner = Bytes.ofString "99999999999999999999,x" :=
      (Prod.mk.inj (Option.some.inj cut)).1
    have x : Ascii.byte 'x' ∈ k.inner := by
      rw [inner]
      decide
    exact absurd (Braced.of_mem_inner decimal x) (by decide)

end Pattern

end Backtrack
