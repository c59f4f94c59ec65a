/-
# Tokens that are written are read back

A token can be written if its numbers and names are such as a source can have
(`Token.IsLegible`).  What is read back is the token itself, up to places (`Token.bare`).

Tokens stand next to each other in a source, and a token may change what the one before it is
read as: a digit would join a numeric reference, a question mark would make a count lazy or a
parenthesis special.  But a question mark only ever starts a count, and a count stands only where
it counts something.  So `Token.Fits` asks two things of neighbours, and `Lexer.scan_text` needs
no more: tokens that fit are read back one by one.
-/
import Mathlib.Data.List.Chain
import Backtrack.Pattern.Printer
import Backtrack.Proofs.Pattern.Bounds
import Backtrack.Proofs.Pattern.Escapes

namespace Backtrack

/-! ## 1. Names of groups

The letters of a name are judged as characters, and reading cuts at a byte.  A character beyond
ASCII has no byte in common with the signs, and one in ASCII is its byte. -/

/-- The bytes that occur in names of groups. -/
def Ascii.isGroupByte (b : UInt8) : Bool :=
  0x80 ≤ b || isLetter b || isDigit b || b == byte '_' || b == byte '$'

namespace Lexer

theorem isGroupByte_of_glyphs {s : Bytes}
    (h : ∀ g ∈ Utf8.glyphs s, 0x80 ≤ g.value ∨ Ascii.isGroupByte (UInt8.ofNat g.value) = true) :
    ∀ b ∈ s, Ascii.isGroupByte b = true := by
  fun_induction Utf8.glyphs s with
  | case1 => simp
  | case2 b rest d ih =>
    obtain ⟨hd, h⟩ := List.forall_mem_cons.mp h
    have first : ∀ x ∈ b :: rest.take (d.2 - 1), Ascii.isGroupByte x = true := by
      by_cases hv : d.1 < 0x80
      · have hone : d = (b.toNat, 1) := Utf8.decode_of_lt hv
        rw [hone] at hd hv ⊢
        rcases hd with hd | hd
        · exact absurd hv (Nat.not_lt.mpr hd)
        · simpa using hd
      · intro x hx
        have := Utf8.le_of_decode (Nat.le_of_not_lt hv) x hx
        have : 0x80 ≤ x := UInt8.le_iff_toNat_le.mpr this
        simp [Ascii.isGroupByte, this]
    intro x hx
    rw [← List.take_append_drop (d.2 - 1) rest, ← List.cons_append] at hx
    rcases List.mem_append.mp hx with hx | hx
    · exact first x hx
    · exact ih h x hx

/-- **The name of a group has only bytes that mean nothing by themselves.** -/
theorem isGroupByte_of_isGroupName {name : Bytes} (h : isGroupName name = true) :
    name ≠ [] ∧ ∀ b ∈ name, Ascii.isGroupByte b = true := by
  unfold isGroupName at h
  dsimp only at h
  have start : ∀ {c : Nat}, (c == '_'.toNat || c == '$'.toNat || decide (c ≥ 0x80) ||
      Ascii.isLetter (UInt8.ofNat c)) = true → 0x80 ≤ c ∨ Ascii.isGroupByte (UInt8.ofNat c) = true := by
    intro c hc
    simp only [Bool.or_eq_true, beq_iff_eq, decide_eq_true_eq] at hc
    rcases hc with ((rfl | rfl) | hc) | hc
    · exact .inr (by decide)
    · exact .inr (by decide)
    · exact .inl hc
    · exact .inr (by simp [Ascii.isGroupByte, hc])
  split at h
  · simp at h
  · rename_i g rest hg
    rw [Bool.and_eq_true, List.all_eq_true] at h
    constructor
    · rintro rfl
      simp [Utf8.glyphs] at hg
    · refine isGroupByte_of_glyphs ?_
      rw [hg]
      refine List.forall_mem_cons.mpr ⟨start h.1, fun g' hg' => ?_⟩
      have := h.2 g' hg'
      rw [Bool.or_eq_true] at this
      rcases this with this | this
      · exact start this
      · exact .inr (by simp [Ascii.isGroupByte, this])

/-! ## 2. Openings -/

theorem opening_plain {names : List Bytes} {rest : Bytes} (h : rest.head? ≠ some Ascii.question) :
    opening names rest = .ok (.capture, [], 1) := by
  unfold opening
  split
  all_goals first | rfl | exact absurd rfl h

theorem opening_named {names : List Bytes} {name : Bytes} (hn : isGroupName name = true)
    (hf : name ∉ names) (after : Bytes) :
    opening names (Ascii.question :: Ascii.less :: (name ++ Ascii.greater :: after)) =
      .ok (.capture, name, name.length + 4) := by
  obtain ⟨hne, hb⟩ := isGroupByte_of_isGroupName hn
  have greater : Ascii.greater ∉ name := fun hm => absurd (hb _ hm) (by decide)
  have first : (name ++ Ascii.greater :: after).head? ≠ some Ascii.equals ∧
      (name ++ Ascii.greater :: after).head? ≠ some Ascii.exclamation := by
    obtain ⟨b, s, rfl⟩ := List.exists_cons_of_ne_nil hne
    have hb := hb b List.mem_cons_self
    constructor
    all_goals
      intro he
      rw [Option.some.inj he] at hb
      exact absurd hb (by decide)
  unfold opening
  split
  all_goals rename_i heq
  all_goals try simp only [List.cons.injEq] at heq
  · exact absurd heq.2.1 (by decide)
  · exact absurd heq.2.1 (by decide)
  · exact absurd heq.2.1 (by decide)
  · exact absurd (congrArg List.head? heq.2.2) first.1
  · exact absurd (congrArg List.head? heq.2.2) first.2
  · rw [← heq.2.2, Ascii.cut?_append greater]
    simp only [hn, Bool.not_true, Bool.false_eq_true, if_false, List.contains_iff_mem, if_neg hf]
  · rename_i hno
    exact absurd heq.2.symm (hno _)
  · rename_i hno
    exact absurd rfl (hno _)

/-- **An opening is read back**, unless its name has been taken; after one that captures without
a name no question mark may follow. -/
theorem opening_text {names : List Bytes} {kind : GroupKind} {name : Bytes}
    (hn : name = [] ∨ kind = .capture ∧ isGroupName name = true ∧ name ∉ names) {after rest : Bytes}
    (ha : kind = .capture → name = [] → after.head? ≠ some Ascii.question)
    (h : kind.openingText name ++ after = Ascii.openParen :: rest) :
    opening names rest = .ok (kind, name, (kind.openingText name).length) := by
  rcases hn with rfl | ⟨rfl, hn, hf⟩
  · cases kind with
    | capture =>
      obtain rfl := (List.cons.inj h).2
      exact opening_plain (ha rfl rfl)
    | _ =>
      obtain rfl := (List.cons.inj h).2
      rfl
  · have hne := (isGroupByte_of_isGroupName hn).1
    have text : GroupKind.openingText .capture name = Ascii.openParen :: Ascii.question ::
        Ascii.less :: (name ++ [Ascii.greater]) := by
      rw [GroupKind.openingText, if_neg (by simpa using hne)]
      rfl
    rw [text] at h ⊢
    simp only [List.cons_append, List.append_assoc, List.nil_append] at h
    obtain rfl := (List.cons.inj h).2
    rw [opening_named hn hf, List.length_cons, List.length_cons, List.length_cons,
      List.length_append]
    rfl

end Lexer

/-! ## 3. Counts

A count is read back whatever follows, but for one thing: a question mark makes it lazy.  The
bounds alone are read back in any case. -/

/-- Whether a count can be written: its numbers are in order and not too large. -/
structure Count.IsLegible (c : Count) : Prop where
  least : c.min < numberLimit
  most : ∀ n, c.max = some n → c.min ≤ n ∧ n + 1 < numberLimit

theorem number?_decimal {n : Nat} (h : n < numberLimit) : number? (Ascii.decimal n) = some n :=
  number?_eq_some.mpr ⟨Ascii.decimalValue_decimal n, h⟩

namespace Lexer

/-- The bounds of a count as they are written, without the mark of a lazy one. -/
def boundsText (c : Count) : Bytes := { c with lazy := false }.text

theorem text_eq_boundsText (c : Count) :
    c.text = boundsText c ++ if c.lazy then [Ascii.question] else [] := by
  unfold boundsText Count.text
  rw [Bytes.ofString_append, Bytes.ofString_append]
  cases c.lazy with
  | false => exact (List.append_nil _).symm
  | true => exact congrArg (· ++ [Ascii.question]) (List.append_nil _).symm

/-- Bounds are read back, whatever follows. -/
theorem bounds?_text {c : Count} (h : c.IsLegible) {after rest : Bytes} {b : UInt8}
    (hrest : boundsText c ++ after = b :: rest) :
    bounds? b rest = .ok (some (c.min, c.max, (boundsText c).length)) := by
  obtain ⟨least, most⟩ := h
  obtain ⟨min, max, lazy⟩ := c
  rw [bounds?_eq_some]
  unfold boundsText Count.text at hrest ⊢
  simp only [Bool.false_eq_true, if_false, Bytes.ofString_append] at hrest ⊢
  have empty : Bytes.ofString "" = [] := rfl
  have signs : Bytes.ofString "\x7b" = [Ascii.openBrace] ∧
      Bytes.ofString "\x7d" = [Ascii.closeBrace] ∧ Bytes.ofString "," = [Ascii.comma] ∧
        Bytes.ofString ",\x7d" = [Ascii.comma, Ascii.closeBrace] := by decide
  rw [empty, List.append_nil] at hrest ⊢
  split at hrest
  all_goals simp only [] at least most hrest ⊢
  · obtain ⟨rfl, rfl⟩ := List.cons.inj hrest
    exact .star _
  · obtain ⟨rfl, rfl⟩ := List.cons.inj hrest
    exact .plus _
  · obtain ⟨rfl, rfl⟩ := List.cons.inj hrest
    exact .question _
  · have text : Bytes.ofString ("\x7b" ++ toString min ++ ",\x7d") =
        (Braced.atLeast (Ascii.decimal min)).text := by
      simp only [Bytes.ofString_append, signs, Braced.text, Braced.inner, Ascii.decimal,
        List.append_assoc, List.cons_append, List.nil_append]
    rw [text] at hrest ⊢
    have written := writesBounds_text (k := .atLeast (Ascii.decimal min))
      (Ascii.isDecimal_decimal min) (by rwa [Braced.Fits, Ascii.decimalValue_decimal]) hrest
    rwa [Braced.least, Ascii.decimalValue_decimal] at written
  · rename_i n _
    obtain ⟨hmn, hn⟩ := most n rfl
    have bound : bound n = some n := bound_eq_some.mpr ⟨Nat.ne_of_lt hn, rfl⟩
    by_cases heq : min = n
    · obtain rfl := heq
      have text : Bytes.ofString ("\x7b" ++ toString min ++ "\x7d") =
          (Braced.exactly (Ascii.decimal min)).text := by
        simp only [Bytes.ofString_append, signs, Braced.text, Braced.inner, Ascii.decimal,
          List.cons_append, List.nil_append]
      rw [if_pos rfl, text] at hrest ⊢
      have written := writesBounds_text (k := .exactly (Ascii.decimal min))
        (Ascii.isDecimal_decimal min) (by rwa [Braced.Fits, Ascii.decimalValue_decimal]) hrest
      rwa [Braced.least, Braced.most, Ascii.decimalValue_decimal, bound] at written
    · have text : Bytes.ofString ("\x7b" ++ toString min ++ "," ++ toString n ++ "\x7d") =
          (Braced.between (Ascii.decimal min) (Ascii.decimal n)).text := by
        simp only [Bytes.ofString_append, signs, Braced.text, Braced.inner, Ascii.decimal,
          List.append_assoc, List.cons_append, List.nil_append]
      rw [if_neg heq, text] at hrest ⊢
      have fits : Braced.Fits (.between (Ascii.decimal min) (Ascii.decimal n)) := by
        rw [Braced.Fits, Ascii.decimalValue_decimal, Ascii.decimalValue_decimal]
        exact ⟨least, Nat.lt_of_succ_lt hn, hmn⟩
      have written := writesBounds_text (k := .between (Ascii.decimal min) (Ascii.decimal n))
        ⟨Ascii.isDecimal_decimal min, Ascii.isDecimal_decimal n⟩ fits hrest
      rwa [Braced.least, Braced.most, Ascii.decimalValue_decimal, Ascii.decimalValue_decimal,
        bound] at written

/-- Bounds start with one of four bytes. -/
theorem head_boundsText (c : Count) :
    ∃ b more, boundsText c = b :: more ∧
      b ∈ [Ascii.plus, Ascii.star, Ascii.question, Ascii.openBrace] := by
  unfold boundsText Count.text
  rw [Bytes.ofString_append]
  split
  · exact ⟨_, _, rfl, by decide⟩
  · exact ⟨_, _, rfl, by decide⟩
  · exact ⟨_, _, rfl, by decide⟩
  · rw [Bytes.ofString_append, Bytes.ofString_append]
    exact ⟨_, _, rfl, by decide⟩
  · split
    · rw [Bytes.ofString_append, Bytes.ofString_append]
      exact ⟨_, _, rfl, by decide⟩
    · rw [Bytes.ofString_append, Bytes.ofString_append, Bytes.ofString_append,
        Bytes.ofString_append]
      exact ⟨_, _, rfl, by decide⟩

/-- **A count is read back**; after one that is not lazy no question mark may follow. -/
theorem count?_text {c : Count} (h : c.IsLegible) {after rest : Bytes} {b : UInt8}
    (ha : c.lazy = false → after.head? ≠ some Ascii.question)
    (hrest : c.text ++ after = b :: rest) :
    count? b rest = .ok (some (c, c.text.length)) := by
  rw [text_eq_boundsText, List.append_assoc] at hrest
  obtain ⟨x, more, ht, -⟩ := head_boundsText c
  have left := drop_of_append_eq_cons hrest (by rw [ht]; exact List.cons_ne_nil _ _)
  have hb := bounds?_text h hrest
  rw [text_eq_boundsText]
  unfold count?
  rw [hb]
  simp only [left]
  obtain ⟨min, max, _ | _⟩ := c
  · rw [if_neg (by simpa using ha rfl)]
    simp
  · rw [if_pos rfl]
    simp

/-- Bytes that start no count are read as something else. -/
theorem count?_eq_none {b : UInt8}
    (h : b ∉ [Ascii.plus, Ascii.star, Ascii.question, Ascii.openBrace]) (rest : Bytes) :
    count? b rest = .ok none := by
  have : bounds? b rest = .ok none := by
    unfold bounds?
    split
    all_goals first | rfl | exact absurd (by decide) h
  rw [count?, this]

/-! ## 4. References

The digits of a numeric reference are taken as far as they go, so the number read is the one that
was written only if no digit follows.  A name has a sign at its end. -/

/-- A digit after a backslash is the start of a reference or of a character by number. -/
theorem escape_digit {flags : Flags} {captures : Nat} {e : UInt8} (digit : Ascii.isDigit e = true)
    (more : Bytes) :
    escape flags captures (e :: more) =
      let char : Except Fault Reading :=
        match charEscape flags.unicode e more with
        | .ok c => .ok ⟨.leaf (.char c.1), 1, c.2⟩
        | .error cause => .error ⟨0, cause⟩
      let digits := (e :: more).takeWhile Ascii.isDigit
      if e ≠ Ascii.byte '0' then
        match (number? digits).filter (· ≤ captures) with
        | some n => .ok ⟨.reference n [], 1, digits.length + 1⟩
        | none => if flags.unicode then .error ⟨0, .undefinedGroup digits⟩ else char
      else char := by
  have letter : ∀ x : UInt8, Ascii.isDigit x = false → e ≠ x := by
    rintro x hx rfl
    rw [digit] at hx
    cases hx
  have hclass : classEscape? e = none := by
    unfold classEscape?
    rw [if_neg (letter _ (by decide)), if_neg (letter _ (by decide)),
      if_neg (letter _ (by decide)), if_neg (letter _ (by decide)),
      if_neg (letter _ (by decide)), if_neg (letter _ (by decide))]
  have hprop : property? flags.unicode e more = none := by
    unfold property?
    rw [if_neg]
    simp [letter (Ascii.byte 'p') (by decide), letter (Ascii.byte 'P') (by decide)]
  unfold escape
  cases char : charEscape flags.unicode e more <;>
    cases number : (number? ((e :: more).takeWhile Ascii.isDigit)).filter (· ≤ captures) <;>
    simp only [hclass, if_neg (letter (Ascii.byte 'b') (by decide)),
      if_neg (letter (Ascii.byte 'B') (by decide)), if_neg (letter (Ascii.byte 'k') (by decide)),
      hprop, digit, Bool.true_and, bne_iff_ne, char, number]

/-- The digits that stand before something else are all that is taken of it. -/
theorem takeWhile_isDigit {s after : Bytes} (digits : ∀ b ∈ s, Ascii.isDigit b = true)
    (ha : ∀ b, after.head? = some b → Ascii.isDigit b = false) :
    (s ++ after).takeWhile Ascii.isDigit = s := by
  rw [List.takeWhile_append_of_pos digits]
  cases after with
  | nil => simp
  | cons b after => simp [ha b rfl]

/-- **A numeric reference is read back**, if its group exists and no digit follows. -/
theorem escape_number {flags : Flags} {captures index : Nat} (h1 : 1 ≤ index)
    (h2 : index ≤ captures) (h3 : index < numberLimit) {after : Bytes}
    (ha : ∀ b, after.head? = some b → Ascii.isDigit b = false) :
    escape flags captures (Ascii.decimal index ++ after) =
      .ok ⟨.reference index [], 1, (Ascii.decimal index).length + 1⟩ := by
  have digits := takeWhile_isDigit (Ascii.isDigit_of_mem_decimal index) ha
  obtain ⟨e, more, he⟩ := List.exists_cons_of_ne_nil (Ascii.decimal_ne_nil index)
  have hdigit : Ascii.isDigit e = true :=
    Ascii.isDigit_of_mem_decimal index e (by rw [he]; exact List.mem_cons_self)
  have text : Ascii.decimal index ++ after = e :: (more ++ after) := by rw [he]; rfl
  rw [text] at digits ⊢
  rw [escape_digit hdigit]
  simp only [if_pos (Ascii.head_decimal h1 he), digits, number?_decimal h3, Option.filter_some,
    decide_eq_true h2, if_true]

/-- **A reference by name is read back.** -/
theorem escape_named (flags : Flags) (captures : Nat) {name : Bytes}
    (h : Ascii.greater ∉ name) (after : Bytes) :
    escape flags captures (Ascii.byte 'k' :: Ascii.less :: (name ++ Ascii.greater :: after)) =
      .ok ⟨.reference 0 name, 1, name.length + 4⟩ := by
  have cut := Ascii.cut?_append h after
  have letter : classEscape? (Ascii.byte 'k') = none := rfl
  unfold escape
  simp only [letter, if_neg (by decide : Ascii.byte 'k' ≠ Ascii.byte 'b'),
    if_neg (by decide : Ascii.byte 'k' ≠ Ascii.byte 'B'), if_true]
  split
  · rename_i heq
    rw [← (List.cons.inj heq).2, cut]
  · rename_i hno
    exact absurd rfl (hno _)

end Lexer

/-! ## 5. One token

What may follow a token is collected in `Token.Allows`, so that one statement covers all kinds of
tokens.  A count has a lemma of its own, since it is looked for in other places than the rest. -/

/-- A leaf without places. -/
def Shape.bare : Shape → Shape
  | .charClass k => .charClass k.bare
  | s => s

/-- A token without places.  The number of a group that is referred to by name is not known yet. -/
def Token.bare : Token → Token
  | .leaf s => .leaf s.bare
  | .reference index name => .reference (if name.isEmpty then index else 0) name
  | t => t

/-- Whether a leaf can be written. -/
def Shape.IsLegible (unicode : Bool) : Shape → Prop
  | .char c => c ≤ 0x10FFFF
  | .property p => p.IsLegible unicode
  | .charClass k => k.IsLegible unicode
  | _ => True

/-- Whether a token can be written in a source with so many capture groups. -/
def Token.IsLegible (flags : Flags) (captures : Nat) : Token → Prop
  | .leaf s => s.IsLegible flags.unicode
  | .reference index [] => 1 ≤ index ∧ index ≤ captures ∧ index < numberLimit
  | .reference _ name => Ascii.greater ∉ name
  | .opening kind name => name = [] ∨ kind = .capture ∧ Lexer.isGroupName name = true
  | .count c => c.IsLegible
  | _ => True

/-- Whether a token is a count. -/
def Token.isCount : Token → Bool
  | .count _ => true
  | _ => false

/-- What may not follow a token right away. -/
def Token.Allows (after : Bytes) : Token → Prop
  | .reference _ [] => ∀ b, after.head? = some b → Ascii.isDigit b = false
  | .opening .capture [] => after.head? ≠ some Ascii.question
  | .count c => c.lazy = false → after.head? ≠ some Ascii.question
  | _ => True

/-- The name a token gives to a group. -/
def Token.name? : Token → Option Bytes
  | .opening .capture (b :: name) => some (b :: name)
  | _ => none

/-- Whether the names of groups in `names` leave room for the one a token brings. -/
def Token.IsNew (names : List Bytes) (t : Token) : Prop := ∀ n, t.name? = some n → n ∉ names

theorem Token.filterMap_name?_cons (t : Token) (ts : List Token) :
    (t :: ts).filterMap name? = t.name?.toList ++ ts.filterMap name? := by
  cases h : t.name? <;> simp [h]

namespace Lexer

theorem head_openingText (kind : GroupKind) (name : Bytes) :
    ∃ more, kind.openingText name = Ascii.openParen :: more := by
  cases kind with
  | capture =>
    rw [GroupKind.openingText]
    split <;> exact ⟨_, rfl⟩
  | _ => exact ⟨_, rfl⟩

/-- How the text of a token other than a count begins: with a byte that starts no count, and with a
digit only if the token is that character. -/
def Begins (t : Token) (text : Bytes) : Prop :=
  ∃ b more, text = b :: more ∧
    b ∉ [Ascii.plus, Ascii.star, Ascii.question, Ascii.openBrace] ∧
    (Ascii.isDigit b = true → ∃ c, t = .leaf (.char c) ∧ '0'.toNat ≤ c ∧ c ≤ '9'.toNat)

theorem begins_of_sign (t : Token) {text : Bytes} {x : UInt8} (hx : text.head? = some x)
    (start : x ∉ [Ascii.plus, Ascii.star, Ascii.question, Ascii.openBrace])
    (other : Ascii.isDigit x = false) : Begins t text := by
  cases text with
  | nil => simp at hx
  | cons b more =>
    obtain rfl := Option.some.inj hx
    exact ⟨b, more, rfl, start, fun h => absurd (h.symm.trans other) (by decide)⟩

/-- A character begins with a backslash, or with the first of its own bytes. -/
theorem begins_charText {c : Nat} (h : c ≤ 0x10FFFF) :
    Begins (.leaf (.char c)) (charText c) := by
  unfold charText
  rcases plainText_cases ['\\', '^', '$', '.', '|', '?', '*', '+', '(', ')', '[',
    ']', '\x7b', '\x7d', '/'] (by decide) h with ⟨e, more, ht, -⟩ | ⟨ht, hplain, -⟩
  · rw [ht]
    exact begins_of_sign _ (x := Ascii.backslash) rfl (by decide) (by decide)
  · obtain ⟨b, more, he⟩ := List.exists_cons_of_ne_nil (Utf8.encode_ne_nil c)
    rw [ht, he]
    have split : Utf8.encode c ++ [] = b :: more := by rw [he, List.append_nil]
    refine ⟨b, more, rfl, not_mem_of_encode _ (by decide) (by decide) hplain split, ?_⟩
    intro hd
    simp only [Ascii.isDigit, Bool.and_eq_true, decide_eq_true_eq, UInt8.le_iff_toNat_le,
      UInt8.reduceToNat] at hd
    rcases Utf8.head_encode split with ⟨-, hbc⟩ | hbc
    · rw [hbc] at hd
      exact ⟨c, rfl, hd⟩
    · omega

/-- The first byte of a token starts no count, and is a digit only if the token is. -/
theorem head_text {flags : Flags} {captures : Nat} {t : Token} (h : t.IsLegible flags captures)
    (hc : t.isCount = false) : Begins t t.text := by
  have sign : ∀ {x : UInt8}, t.text.head? = some x →
      x ∉ [Ascii.plus, Ascii.star, Ascii.question, Ascii.openBrace] → Ascii.isDigit x = false →
      Begins t t.text := begins_of_sign t
  cases t with
  | leaf s =>
    cases s with
    | char c => exact begins_charText h
    | dot => exact sign (x := Ascii.dot) rfl (by decide) (by decide)
    | escape e => exact sign (x := Ascii.backslash) rfl (by decide) (by decide)
    | property p =>
      obtain ⟨e, more, ht, -⟩ := property?_text h
      refine sign (x := Ascii.backslash) ?_ (by decide) (by decide)
      simp only [Token.text, Shape.text, ht, List.head?_cons]
    | charClass k => exact sign (x := Ascii.openBracket) rfl (by decide) (by decide)
  | anchor k =>
    cases k with
    | start => exact sign (x := Ascii.caret) rfl (by decide) (by decide)
    | stop => exact sign (x := Ascii.dollar) rfl (by decide) (by decide)
    | _ => exact sign (x := Ascii.backslash) rfl (by decide) (by decide)
  | reference index name =>
    refine sign (x := Ascii.backslash) ?_ (by decide) (by decide)
    rw [Token.text]
    split <;> rfl
  | opening kind name =>
    obtain ⟨more, ht⟩ := head_openingText kind name
    refine sign (x := Ascii.openParen) ?_ (by decide) (by decide)
    rw [Token.text, ht]
    rfl
  | closing => exact sign (x := Ascii.closeParen) rfl (by decide) (by decide)
  | bar => exact sign (x := Ascii.pipe) rfl (by decide) (by decide)
  | count c => cases hc

/-- What a token is read back as: the token itself, up to places. -/
structure Reads (t : Token) (r : Reading) : Prop where
  width : r.width = t.text.length
  token : r.token.bare = t.bare

section Fresh

variable {flags : Flags} {captures : Nat} {names : List Bytes} {after rest : Bytes} {b : UInt8}

/-- A leaf is read back, whatever follows. -/
theorem fresh_leaf (pos : Nat) {s : Shape} (h : s.IsLegible flags.unicode)
    (hrest : s.text ++ after = b :: rest) :
    ∃ r, fresh flags captures names pos b rest = .ok r ∧ Reads (.leaf s) r := by
  cases s with
  | char c => exact ⟨_, fresh_charText h hrest, rfl, rfl⟩
  | dot =>
    obtain ⟨rfl, rfl⟩ := List.cons.inj hrest
    exact ⟨_, rfl, rfl, rfl⟩
  | escape e =>
    obtain ⟨hl, ht⟩ := classEscape?_letter e
    simp only [Shape.text, ht] at hrest
    obtain ⟨rfl, rfl⟩ := List.cons.inj hrest
    refine ⟨⟨.leaf (.escape e), 1, 2⟩, ?_, by simp [Token.text, Shape.text, ht], rfl⟩
    change escape flags captures (Ascii.byte e.letter :: after) = _
    unfold escape
    simp only [hl]
  | property p =>
    obtain ⟨e, more, ht, he, hread⟩ := property?_text h
    obtain ⟨h1, h2, h3, h4⟩ := notClass_of_property he
    simp only [Shape.text, ht] at hrest
    obtain ⟨rfl, rfl⟩ := List.cons.inj hrest
    refine ⟨⟨.leaf (.property p), 1, more.length + 2⟩, ?_, by simp [Token.text, Shape.text, ht],
      rfl⟩
    change escape flags captures (e :: (more ++ after)) = _
    unfold escape
    simp only [h1, if_neg h2, if_neg h3, if_neg h4, hread]
  | charClass k =>
    obtain ⟨rfl, hrest'⟩ := List.cons.inj hrest
    obtain ⟨k', nodes, hk, hbare⟩ := charClass_text h pos hrest
    refine ⟨⟨.leaf (.charClass k'), nodes + 1, k.text.length⟩, ?_, rfl,
      congrArg (fun k => Token.leaf (.charClass k)) hbare⟩
    unfold fresh
    rw [hk]
    change (.ok ⟨.leaf (.charClass k'), nodes + 1, pos + k.text.length - pos⟩ :
      Except Fault Reading) = _
    rw [Nat.add_sub_cancel_left]

/-- A reference is read back. -/
theorem fresh_reference (pos : Nat) {index : Nat} {name : Bytes}
    (h : (Token.reference index name).IsLegible flags captures)
    (ha : (Token.reference index name).Allows after)
    (hrest : (Token.reference index name).text ++ after = b :: rest) :
    ∃ r, fresh flags captures names pos b rest = .ok r ∧ Reads (.reference index name) r := by
  cases name with
  | nil =>
    obtain ⟨h1, h2, h3⟩ := h
    obtain ⟨rfl, rfl⟩ := List.cons.inj hrest
    exact ⟨_, escape_number h1 h2 h3 ha, rfl, rfl⟩
  | cons x name =>
    have text : (Token.reference index (x :: name)).text = Ascii.backslash :: Ascii.byte 'k' ::
        Ascii.less :: (x :: name ++ [Ascii.greater]) := rfl
    rw [text] at hrest
    simp only [List.cons_append, List.append_assoc, List.nil_append] at hrest
    obtain ⟨rfl, rfl⟩ := List.cons.inj hrest
    refine ⟨_, escape_named flags captures h after, ?_, rfl⟩
    rw [text]
    simp

/-- An opening is read back, if its name is new. -/
theorem fresh_opening (pos : Nat) {kind : GroupKind} {name : Bytes}
    (h : (Token.opening kind name).IsLegible flags captures)
    (hn : (Token.opening kind name).IsNew names) (ha : (Token.opening kind name).Allows after)
    (hrest : (Token.opening kind name).text ++ after = b :: rest) :
    ∃ r, fresh flags captures names pos b rest = .ok r ∧ Reads (.opening kind name) r := by
  have hn : name = [] ∨ kind = .capture ∧ isGroupName name = true ∧ name ∉ names := by
    rcases h with h | ⟨rfl, h⟩
    · exact .inl h
    · cases name with
      | nil => exact .inl rfl
      | cons x name => exact .inr ⟨rfl, h, hn _ rfl⟩
  obtain ⟨more, ht⟩ := head_openingText kind name
  have hb : b = Ascii.openParen := by
    simp only [Token.text, ht] at hrest
    exact (List.cons.inj hrest).1.symm
  subst hb
  have read := opening_text hn (by rintro rfl rfl; exact ha) hrest
  refine ⟨⟨.opening kind name, 0, (kind.openingText name).length⟩, ?_, rfl, rfl⟩
  unfold fresh
  rw [read]
  rfl

/-- **Every token other than a count is read back where a lexeme may start.**  One case for each
kind of token, and its first byte tells them apart. -/
theorem fresh_text (pos : Nat) {t : Token} (h : t.IsLegible flags captures)
    (hc : t.isCount = false) (hn : t.IsNew names) (ha : t.Allows after)
    (hrest : t.text ++ after = b :: rest) :
    ∃ r, fresh flags captures names pos b rest = .ok r ∧ Reads t r := by
  cases t with
  | leaf s => exact fresh_leaf pos h hrest
  | anchor k =>
    cases k <;>
      (obtain ⟨rfl, rfl⟩ := List.cons.inj hrest
       exact ⟨_, rfl, rfl, rfl⟩)
  | reference index name => exact fresh_reference pos h ha hrest
  | opening kind name => exact fresh_opening pos h hn ha hrest
  | closing | bar =>
    obtain ⟨rfl, rfl⟩ := List.cons.inj hrest
    exact ⟨_, rfl, rfl, rfl⟩
  | count c => cases hc

end Fresh

/-- **Every token is read back**, a count where something stands before it that can be repeated.
The reader looks for a count first if something stands before it, and no other token begins like
one. -/
theorem lexeme_text {flags : Flags} {captures : Nat} (pos : Nat) {names : List Bytes}
    {before : Before} {t : Token} (h : t.IsLegible flags captures)
    (hc : t.isCount = true → before = .repeatable)
    (hn : t.IsNew names) {after rest : Bytes} {b : UInt8} (ha : t.Allows after)
    (hrest : t.text ++ after = b :: rest) :
    ∃ r, lexeme flags captures names pos before b rest = .ok r ∧ Reads t r := by
  cases hcount : t.isCount with
  | false =>
    have read := fresh_text pos h hcount hn ha hrest
    obtain ⟨x, more, ht, hmark, -⟩ := head_text h hcount
    rw [ht] at hrest
    obtain ⟨rfl, -⟩ := List.cons.inj hrest
    have none := count?_eq_none hmark rest
    unfold lexeme
    cases before <;> simpa only [none] using read
  | true =>
    cases t with
    | count c =>
      rw [hc hcount]
      refine ⟨⟨.count c, 1, c.text.length⟩, ?_, rfl, rfl⟩
      unfold lexeme
      rw [count?_text h ha hrest]
    | _ => cases hcount

end Lexer

/-! ## 6. All tokens

The condition on what follows a token is a condition on all of the text behind it.  It comes down
to the next token, as this has a byte at least, and the first byte is what counts. -/

/-- Whether a token that is a count stands after something it can count. -/
def Token.CountsAfter (t u : Token) : Prop := u.isCount = true → Lexer.Before.of t = .repeatable

/-- Whether one token may stand right before another: a count only follows what can be repeated,
and a digit never follows a numeric reference. -/
def Token.Fits (t u : Token) : Prop := t.CountsAfter u ∧ Revision.runsTogether t u = false

namespace Lexer

theorem allows_of_fits {flags : Flags} {captures : Nat} {t u : Token} (h : t.Fits u)
    (hu : u.IsLegible flags captures) (after : Bytes) : t.Allows (u.text ++ after) := by
  -- A question mark is the start of a count.
  have question : u.isCount = false → (u.text ++ after).head? ≠ some Ascii.question := by
    intro hc he
    obtain ⟨b, more, ht, hb, -⟩ := head_text hu hc
    rw [ht] at he
    rw [Option.some.inj he] at hb
    exact absurd hb (by decide)
  have notCount : Before.of t ≠ .repeatable → u.isCount = false := by
    intro hb
    rw [Bool.eq_false_iff]
    exact fun hc => hb (h.1 hc)
  unfold Token.Allows
  split
  · intro b hb
    cases hc : u.isCount with
    | true =>
      cases u with
      | count c =>
        obtain ⟨x, more, ht, hx⟩ := head_boundsText c
        simp only [Token.text, text_eq_boundsText, ht] at hb
        obtain rfl := Option.some.inj hb
        have mark : [Ascii.plus, Ascii.star, Ascii.question, Ascii.openBrace].all
            (!Ascii.isDigit ·) = true := by decide
        simpa using List.all_eq_true.mp mark x hx
      | _ => cases hc
    | false =>
      obtain ⟨x, more, ht, -, hx⟩ := head_text hu hc
      rw [ht] at hb
      obtain rfl := Option.some.inj hb
      rw [Bool.eq_false_iff]
      intro hd
      obtain ⟨c, rfl, h1, h2⟩ := hx hd
      have := h.2
      simp only [Revision.runsTogether, h1, h2, decide_true, Bool.and_self] at this
      cases this
  · exact question (notCount (by decide))
  · exact fun _ => question (notCount (by simp [Before.of]))
  · trivial

theorem text_ne_nil {flags : Flags} {captures : Nat} {t : Token} (h : t.IsLegible flags captures) :
    t.text ≠ [] := by
  cases hc : t.isCount with
  | false =>
    obtain ⟨b, more, ht, -⟩ := head_text h hc
    rw [ht]
    exact List.cons_ne_nil _ _
  | true =>
    cases t with
    | count c =>
      obtain ⟨b, more, ht, -⟩ := head_boundsText c
      rw [Token.text, text_eq_boundsText, ht]
      exact List.cons_ne_nil _ _
    | _ => cases hc

theorem before_bare (t : Token) : Before.of t.bare = Before.of t := by
  cases t <;> rfl

theorem namesAfter_bare (names : List Bytes) (t : Token) :
    namesAfter names t.bare = namesAfter names t := by
  cases t <;> rfl

theorem namesAfter_eq (names : List Bytes) (t : Token) :
    namesAfter names t = t.name?.toList ++ names := by
  cases t with
  | opening kind name => cases kind <;> cases name <;> rfl
  | _ => rfl

/-- What a token allows to follow it is settled by the next token. -/
theorem allows_flatMap {t : Token} {ts : List Token}
    (h : ∀ u ∈ ts.head?, ∀ after, t.Allows (u.text ++ after)) :
    t.Allows (ts.flatMap Token.text) := by
  cases ts with
  | nil => unfold Token.Allows; split <;> simp
  | cons u ts =>
    rw [List.flatMap_cons]
    exact h u rfl _

/-- Where all names of a row are new and different, the others are still new after the first one. -/
theorem isNew_cons {t : Token} {ts : List Token} {names : List Bytes}
    (distinct : ((t :: ts).filterMap Token.name?).Nodup)
    (new : ∀ n ∈ (t :: ts).filterMap Token.name?, n ∉ names) :
    t.IsNew names ∧ (ts.filterMap Token.name?).Nodup ∧
      ∀ n ∈ ts.filterMap Token.name?, n ∉ namesAfter names t := by
  rw [Token.filterMap_name?_cons] at distinct new
  rw [List.nodup_append] at distinct
  refine ⟨fun n hn => new n (List.mem_append_left _ (by simp [hn])), distinct.2.1, ?_⟩
  intro n hn hm
  rw [namesAfter_eq] at hm
  rcases List.mem_append.mp hm with hm | hm
  · exact distinct.2.2 n hm n hn rfl
  · exact new n (List.mem_append_right _ hn) hm

section Scan

variable {flags : Flags} {captures : Nat} {names : List Bytes} {before : Before}

/-- **A token is scanned as one lexeme**, and what comes next is scanned as it is after the token.
For that the token matters only up to places. -/
theorem scan_token (pos : Nat) {t : Token} (h : t.IsLegible flags captures)
    (hc : t.isCount = true → before = .repeatable) (hn : t.IsNew names) {after : Bytes}
    (ha : t.Allows after) :
    ∃ r, Reads t r ∧ scan flags captures pos names before (t.text ++ after) =
      let later := scan flags captures (pos + r.width) (namesAfter names t) (Before.of t) after
      (⟨pos, pos + r.width, r.nodes, r.token⟩ :: later.1, later.2) := by
  obtain ⟨b, more, text⟩ := List.exists_cons_of_ne_nil (text_ne_nil h)
  obtain ⟨rest, hrest⟩ : ∃ rest, t.text ++ after = b :: rest := ⟨more ++ after, by rw [text]; rfl⟩
  obtain ⟨r, hr, reads⟩ := lexeme_text pos h hc hn ha hrest
  have left : rest.drop (r.width - 1) = after := by
    rw [reads.width]
    exact drop_of_append_eq_cons hrest (text_ne_nil h)
  have before_eq : Before.of r.token = Before.of t := by
    rw [← before_bare, reads.token, before_bare]
  have names_eq : namesAfter names r.token = namesAfter names t := by
    rw [← namesAfter_bare, reads.token, namesAfter_bare]
  refine ⟨r, reads, ?_⟩
  rw [hrest, scan, hr]
  simp only [before_eq, names_eq, left]

/-- **Tokens that fit together are read back one by one.**  The induction goes along the tokens,
with `scan_token` for the first of them. -/
theorem scan_text {ts : List Token} (legible : ∀ t ∈ ts, t.IsLegible flags captures)
    (fits : ts.IsChain Token.Fits) (distinct : (ts.filterMap Token.name?).Nodup)
    (first : ∀ t ∈ ts.head?, t.isCount = true → before = .repeatable)
    (new : ∀ n ∈ ts.filterMap Token.name?, n ∉ names) (pos : Nat) :
    ∃ ls, scan flags captures pos names before (ts.flatMap Token.text) = (ls, none) ∧
      ls.map (·.token.bare) = ts.map Token.bare := by
  induction ts generalizing names before pos with
  | nil => exact ⟨[], by simp [scan], rfl⟩
  | cons t ts ih =>
    obtain ⟨ht, legible⟩ := List.forall_mem_cons.mp legible
    obtain ⟨fit, fits⟩ := List.isChain_cons.mp fits
    obtain ⟨isNew, distinct, new⟩ := isNew_cons distinct new
    have allows : t.Allows (ts.flatMap Token.text) := allows_flatMap fun u hu =>
      allows_of_fits (fit u hu) (legible u (List.mem_of_mem_head? hu))
    obtain ⟨r, reads, scanned⟩ := scan_token pos ht (first t rfl) isNew allows
    obtain ⟨ls, hls, tokens⟩ := ih legible fits distinct (fun u hu => (fit u hu).1) new
      (pos + r.width)
    refine ⟨⟨pos, pos + r.width, r.nodes, r.token⟩ :: ls, ?_, by simp [reads.token, tokens]⟩
    rw [List.flatMap_cons, scanned, hls]

end Scan

end Lexer

end Backtrack
