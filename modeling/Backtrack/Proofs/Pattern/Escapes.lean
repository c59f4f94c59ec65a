/-
# Characters and classes that are written are read back

A character is written as it is, or by an escape if it would mean something else as it is
(`plainText_cases`).  Which of its bytes mean something depends on where it stands, but in both
places an escape is chosen for all of them, and the escapes read the same in both.

A class is written member by member: ranges first, then escapes, then properties.  What is read
back has its members in the same order and at other places (`CharClass.bare`).  The one thing to
watch is the minus sign: after a character it makes a range, so no member may start with it.

* `Lexer.fresh_charText`, `Lexer.member_memberText`: characters outside and inside of classes;
* `Lexer.property?_text`: properties;
* `Lexer.charClass_text`: classes.
-/
import Backtrack.Proofs.Text.Readback

namespace Backtrack

open Lexer (classEscape? charEscape numbered? controlValue)

/-! ## 1. What can be written

A class can hold a range that is out of order, or a property that has no table, only if it was
built by hand.  Such a class is never read. -/

/-- The place of nothing. -/
def Site.blank : Site := ⟨0, 0, 0⟩

/-- A class whose members have no places. -/
def CharClass.bare (k : CharClass) : CharClass :=
  { k with
    escapes := k.escapes.map fun e => (.blank, e.2)
    properties := k.properties.map fun p => (.blank, p.2) }

/-- A range of characters in order. -/
def CodePoint.Range.IsLegible (r : CodePoint.Range) : Prop :=
  0 ≤ r.lo ∧ r.lo ≤ r.hi ∧ r.hi ≤ 0x10FFFF

/-- Whether a property can be written: it has a table, and the flags allow it. -/
def PropertyEscape.IsLegible (unicode : Bool) (p : PropertyEscape) : Prop :=
  unicode = true ∧ (Unicode.lookup? p.name).isSome = true

/-- Whether a class can be written. -/
structure CharClass.IsLegible (unicode : Bool) (k : CharClass) : Prop where
  ranges : ∀ r ∈ k.ranges, r.IsLegible
  properties : ∀ p ∈ k.properties, p.2.IsLegible unicode

/-! ## 2. Escapes

Which characters are escaped is decided when writing, and it has to be known when reading that the
escape has no other meaning.  After a backslash most letters and digits have one, and signs stand
for themselves. -/

/-- A byte that means nothing special after a backslash: it starts the escape of a character. -/
structure Lexer.Escapes (e : UInt8) : Prop where
  notClass : classEscape? e = none
  notDigit : Ascii.isDigit e = false
  notBoundary : e ≠ Ascii.byte 'b' ∧ e ≠ Ascii.byte 'B'
  notReference : e ≠ Ascii.byte 'k'
  notProperty : e ≠ Ascii.byte 'p' ∧ e ≠ Ascii.byte 'P'

instance (e : UInt8) : Decidable (Lexer.Escapes e) :=
  decidable_of_iff (classEscape? e = none ∧ Ascii.isDigit e = false ∧
    (e ≠ Ascii.byte 'b' ∧ e ≠ Ascii.byte 'B') ∧ e ≠ Ascii.byte 'k' ∧
      (e ≠ Ascii.byte 'p' ∧ e ≠ Ascii.byte 'P'))
    ⟨fun h => ⟨h.1, h.2.1, h.2.2.1, h.2.2.2.1, h.2.2.2.2⟩, fun h => ⟨h.1, h.2, h.3, h.4, h.5⟩⟩

/-- Characters that are written with a backslash in front of them. -/
def isEscapable (c : Char) : Bool :=
  c.toNat < 0x80 && !Ascii.isLetter (Ascii.byte c) && !Ascii.isDigit (Ascii.byte c)

theorem Lexer.charEscape_control {l : Char} {c : Nat} (h : controlLetter? c = some l)
    (unicode : Bool) (after : Bytes) :
    Lexer.Escapes (Ascii.byte l) ∧ escaped l.toNat = [Ascii.backslash, Ascii.byte l] ∧
      charEscape unicode (Ascii.byte l) after = .ok (c, 2) := by
  unfold controlLetter? at h
  split at h <;> simp at h <;> subst h <;> refine ⟨by decide, by decide, ?_⟩
  all_goals cases unicode <;> rfl

theorem Lexer.charEscape_hex {c : Nat} (h : c < 0x100) (unicode : Bool) (after : Bytes) :
    charEscape unicode (Ascii.byte 'x') (Bytes.ofString (Ascii.upperHex 2 c) ++ after) =
      .ok (c, 4) := by
  have := (Lexer.hexDigits?_upperHex 2 (by decide) h after).2
  unfold charEscape
  rw [Utf8.decode_ascii (by decide)]
  simp only [numbered?, Nat.sub_self, List.drop_zero, this]
  rfl

theorem Lexer.hexDigits?_brace (n : Nat) (more : Bytes) :
    hexDigits? (n + 1) (Ascii.openBrace :: more) = none := by
  have none_fold : ∀ s : Bytes, s.foldl Ascii.hexStep none = none := by
    intro s
    induction s with
    | nil => rfl
    | cons b s ih => exact ih
  unfold hexDigits?
  split
  · rfl
  · exact none_fold (more.take n)

theorem Lexer.charEscape_unicode {c : Nat} (h : c < 0x10000) (unicode : Bool) (after : Bytes) :
    charEscape unicode (Ascii.byte 'u') (Bytes.ofString (Ascii.upperHex 4 c) ++ after) =
      .ok (c, 6) := by
  have read := (Lexer.hexDigits?_upperHex 4 (by decide) h after).2
  generalize Bytes.ofString (Ascii.upperHex 4 c) ++ after = rest at read
  have number : numbered? unicode (Ascii.byte 'u').toNat rest = some (.ok (c, 5)) := by
    unfold numbered?
    rw [if_neg (by decide), if_pos (by decide)]
    split
    -- The first digit is no brace.
    · exact absurd (read.symm.trans (hexDigits?_brace 3 _)) (by simp)
    · rw [read]
      rfl
  unfold charEscape
  rw [Utf8.decode_ascii (by decide)]
  simp only [Nat.sub_self, List.drop_zero, number]

theorem Unicode.isPrintable_surrogate {c : Nat} (h : 0xD800 ≤ c ∧ c ≤ 0xDFFF) :
    Unicode.isPrintable c = false := by
  have apart : Unicode.printableRanges.all (fun r => r.hi < 0xD800 || 0xDFFF < r.lo) = true := by
    decide +kernel
  rw [Unicode.isPrintable, List.any_eq_false]
  intro r hr
  have := List.all_eq_true.mp apart r hr
  simp only [Bool.or_eq_true, decide_eq_true_eq] at this
  simp only [CodePoint.Range.contains, Bool.and_eq_true, decide_eq_true_eq]
  omega

theorem Lexer.escapes_of_isEscapable {e : UInt8} (hl : Ascii.isLetter e = false)
    (hd : Ascii.isDigit e = false) : Lexer.Escapes e := by
  have letter : ∀ l : Char, Ascii.isLetter (Ascii.byte l) = true → e ≠ Ascii.byte l := by
    rintro l h rfl
    rw [h] at hl
    cases hl
  refine ⟨?_, hd, ⟨letter _ (by decide), letter _ (by decide)⟩, letter _ (by decide),
    ⟨letter _ (by decide), letter _ (by decide)⟩⟩
  unfold classEscape?
  rw [if_neg (letter _ (by decide)), if_neg (letter _ (by decide)), if_neg (letter _ (by decide)),
    if_neg (letter _ (by decide)), if_neg (letter _ (by decide)), if_neg (letter _ (by decide))]

/-- A sign stands for itself after a backslash. -/
theorem Lexer.charEscape_sign {e : UInt8} (ha : e.toNat < 0x80) (hl : Ascii.isLetter e = false)
    (hd : Ascii.isDigit e = false) (unicode : Bool) (after : Bytes) :
    charEscape unicode e after = .ok (e.toNat, 2) := by
  have letter : ∀ l : Char, Ascii.isLetter (Ascii.byte l) = true → e.toNat ≠ l.toNat := by
    intro l h he
    have : e = Ascii.byte l := by
      rw [Ascii.byte, ← he]
      simp
    rw [this, h] at hl
    cases hl
  have zero : e.toNat ≠ '0'.toNat := by
    intro he
    have : e = Ascii.byte '0' := by
      rw [Ascii.byte, ← he]
      simp
    rw [this] at hd
    exact absurd hd (by decide)
  have octal : Ascii.isOctal e = false := by
    simp only [Ascii.isDigit, Ascii.isOctal, Bool.and_eq_false_iff, decide_eq_false_iff_not,
      UInt8.le_iff_toNat_le, UInt8.reduceToNat] at hd ⊢
    omega
  unfold charEscape
  rw [Utf8.decode_ascii ha]
  simp only [numbered?, if_neg (letter 'x' (by decide)), if_neg (letter 'u' (by decide)),
    if_neg (letter 'c' (by decide)), if_neg zero, hd, octal, hl, controlValue,
    if_neg (letter 'f' (by decide)), if_neg (letter 'n' (by decide)),
    if_neg (letter 'r' (by decide)), if_neg (letter 't' (by decide)),
    if_neg (letter 'v' (by decide)), Bool.false_and, Bool.and_false, Bool.false_eq_true, if_false]

/-- **How a character is written**: by an escape that is read back as the character, or as it
is. -/
theorem plainText_cases (special : List Char) (hs : special.all isEscapable = true) {c : Nat}
    (hc : c ≤ 0x10FFFF) :
    (∃ e more, plainText special c = Ascii.backslash :: e :: more ∧ Lexer.Escapes e ∧
      ∀ unicode after, charEscape unicode e (more ++ after) = .ok (c, more.length + 2)) ∨
    (plainText special c = Utf8.encode c ∧ (∀ x ∈ special, x.toNat ≠ c) ∧ 0x20 ≤ c ∧ c ≠ 0x7F ∧
      ¬ (0xD800 ≤ c ∧ c ≤ 0xDFFF)) := by
  unfold plainText
  split
  · rename_i l hl
    obtain ⟨-, text, -⟩ := Lexer.charEscape_control hl false []
    refine .inl ⟨Ascii.byte l, [], text, (Lexer.charEscape_control hl false []).1, ?_⟩
    intro unicode after
    exact (Lexer.charEscape_control hl unicode after).2.2
  split
  · rename_i hany
    obtain ⟨x, hx, rfl⟩ : ∃ x ∈ special, x.toNat = c := by simpa using hany
    have := List.all_eq_true.mp hs x hx
    simp only [isEscapable, Bool.and_eq_true, decide_eq_true_eq, Bool.not_eq_true'] at this
    obtain ⟨⟨ha, hl⟩, hd⟩ := this
    have value : (Ascii.byte x).toNat = x.toNat :=
      UInt8.toNat_ofNat_of_lt' (Nat.lt_trans ha (by decide))
    refine .inl ⟨Ascii.byte x, [], ?_, Lexer.escapes_of_isEscapable hl hd, ?_⟩
    · rw [escaped, Utf8.encode_ascii ha, Ascii.byte]
    · intro unicode after
      rw [Lexer.charEscape_sign (by rwa [value]) hl hd, value]
      rfl
  rename_i hx
  split
  · rename_i hlow
    refine .inl ⟨Ascii.byte 'x', Bytes.ofString (Ascii.upperHex 2 c), ?_, by decide, ?_⟩
    · have first : Bytes.ofString "\\x" = [Ascii.backslash, Ascii.byte 'x'] := by decide
      rw [Bytes.ofString_append, first, List.cons_append, List.singleton_append]
    · intro unicode after
      rw [Lexer.charEscape_hex (by omega),
        (Lexer.hexDigits?_upperHex 2 (n := c) (by decide) (by omega) []).1]
  split
  · rename_i hp
    have hlt : c < 0x10000 := Nat.lt_succ_of_le hp.2
    refine .inl ⟨Ascii.byte 'u', Bytes.ofString (Ascii.upperHex 4 c), ?_, by decide, ?_⟩
    · have first : Bytes.ofString "\\u" = [Ascii.backslash, Ascii.byte 'u'] := by decide
      rw [Bytes.ofString_append, first, List.cons_append, List.singleton_append]
    · intro unicode after
      rw [Lexer.charEscape_unicode hlt,
        (Lexer.hexDigits?_upperHex 4 (n := c) (by decide) hlt []).1]
  · rename_i hlow hp
    refine .inr ⟨rfl, ?_, by omega, by omega, ?_⟩
    · intro x hx' he
      exact hx (by simpa using ⟨x, hx', he⟩)
    · intro hsur
      exact hp ⟨by rw [Unicode.isPrintable_surrogate hsur]; rfl, by omega⟩

theorem plainText_ne_nil (special : List Char) (c : Nat) : plainText special c ≠ [] := by
  unfold plainText
  split
  · exact List.cons_ne_nil _ _
  split
  · exact List.cons_ne_nil _ _
  split
  · rw [Bytes.ofString_append]
    exact List.cons_ne_nil _ _
  split
  · rw [Bytes.ofString_append]
    exact List.cons_ne_nil _ _
  · exact Utf8.encode_ne_nil c

/-! ## 3. Characters

A character that is written as it is must not begin with a byte that means something.  It is one
of its own bytes if it is in ASCII, and all those that mean something are escaped. -/

namespace Lexer

theorem property?_of_escapes {e : UInt8} (he : Escapes e) (unicode : Bool) (more : Bytes) :
    property? unicode e more = none := by
  unfold property?
  rw [if_neg]
  simp [he.notProperty.1, he.notProperty.2]

theorem escape_char {flags : Flags} {captures : Nat} {e : UInt8} {more : Bytes} {c w : Nat}
    (he : Escapes e) (hc : charEscape flags.unicode e more = .ok (c, w)) :
    escape flags captures (e :: more) = .ok ⟨.leaf (.char c), 1, w⟩ := by
  unfold escape
  simp only [he.notClass, if_neg he.notBoundary.1, if_neg he.notBoundary.2,
    if_neg he.notReference, property?_of_escapes he, he.notDigit, hc, Bool.false_and,
    Bool.false_eq_true, if_false]

theorem member_char {unicode : Bool} {e : UInt8} {more : Bytes} {c w : Nat}
    (he : Escapes e) (hc : charEscape unicode e more = .ok (c, w)) :
    member unicode Ascii.backslash (e :: more) = .ok (.char c, w) := by
  unfold member
  simp only [ne_eq, not_true_eq_false, if_false, he.notClass, property?_of_escapes he,
    if_neg he.notBoundary.1, hc]
  split
  · rename_i hm
    rw [hm, charEscape_sign (by decide) (by decide) (by decide)] at hc
    obtain ⟨rfl, rfl⟩ := Prod.mk.inj (Except.ok.inj hc)
    rfl
  · rfl

/-- The bytes that mean something where a lexeme starts. -/
def isMark (b : UInt8) : Bool :=
  [Ascii.openParen, Ascii.closeParen, Ascii.pipe, Ascii.openBracket, Ascii.dot, Ascii.caret,
    Ascii.dollar, Ascii.backslash, Ascii.star, Ascii.plus, Ascii.question, Ascii.openBrace,
    Ascii.closeBrace, Ascii.closeBracket].contains b

theorem fresh_plain {flags : Flags} {captures pos : Nat} {names : List Bytes} {b : UInt8}
    {s : Bytes} (hb : isMark b = false) :
    fresh flags captures names pos b s =
      .ok ⟨.leaf (.char (Utf8.decode b s).1), 1, (Utf8.decode b s).2⟩ := by
  unfold fresh
  dsimp only
  split
  all_goals first | rfl | exact absurd hb (by decide)

/-- A mark is never the first byte of a character that is written as it is. -/
theorem not_mem_of_encode (marks : List UInt8) {special : List Char}
    (hm : marks.all (fun b => special.any (·.toNat == b.toNat)) = true)
    (ha : special.all (·.toNat < 0x80) = true)
    {c : Nat} (hc : ∀ x ∈ special, x.toNat ≠ c) {after s : Bytes} {b : UInt8}
    (h : Utf8.encode c ++ after = b :: s) : b ∉ marks := by
  intro hb
  obtain ⟨x, hx, he⟩ := List.any_eq_true.mp (List.all_eq_true.mp hm b hb)
  rw [beq_iff_eq] at he
  rcases Utf8.head_encode h with ⟨-, hbc⟩ | hbc
  · exact hc x hx (he.trans hbc)
  · have := List.all_eq_true.mp ha x hx
    rw [decide_eq_true_eq] at this
    omega

/-- **A character outside of classes is read back.** -/
theorem fresh_charText {flags : Flags} {captures pos : Nat} {names : List Bytes} {c : Nat}
    (hc : c ≤ 0x10FFFF) {after s : Bytes} {b : UInt8} (h : charText c ++ after = b :: s) :
    fresh flags captures names pos b s = .ok ⟨.leaf (.char c), 1, (charText c).length⟩ := by
  unfold charText at h ⊢
  rcases plainText_cases ['\\', '^', '$', '.', '|', '?', '*', '+', '(', ')', '[', ']',
    '\x7b', '\x7d', '/'] (by decide) hc with ⟨e, more, ht, he, hread⟩ | ⟨ht, hplain, -, -, hs⟩
  · rw [ht] at h ⊢
    obtain ⟨rfl, rfl⟩ := List.cons.inj h
    exact escape_char he (hread flags.unicode after)
  · rw [ht] at h ⊢
    rw [fresh_plain, Utf8.decode_encode hc hs h]
    rw [isMark, Bool.eq_false_iff, ne_eq, List.contains_iff_mem]
    exact not_mem_of_encode _ (by decide) (by decide) hplain h

/-- **A character inside a class is read back.** -/
theorem member_memberText (unicode : Bool) {c : Nat} (hc : c ≤ 0x10FFFF) {after s : Bytes}
    {b : UInt8} (h : memberText c ++ after = b :: s) :
    member unicode b s = .ok (.char c, (memberText c).length) ∧
      b ∉ [Ascii.closeBracket, Ascii.caret, Ascii.minus] := by
  unfold memberText at h ⊢
  rcases plainText_cases ['\\', ']', '^', '-', '['] (by decide) hc with
    ⟨e, more, ht, he, hread⟩ | ⟨ht, hplain, -, -, hs⟩
  · rw [ht] at h ⊢
    obtain ⟨rfl, rfl⟩ := List.cons.inj h
    exact ⟨member_char he (hread unicode after), by decide⟩
  · rw [ht] at h ⊢
    have := not_mem_of_encode [Ascii.closeBracket, Ascii.caret, Ascii.minus,
      Ascii.backslash] (by decide) (by decide) hplain h
    simp only [List.mem_cons, List.not_mem_nil, or_false, not_or] at this ⊢
    obtain ⟨h1, h2, h3, h4⟩ := this
    refine ⟨?_, h1, h2, h3⟩
    unfold member
    rw [if_pos h4, Utf8.decode_encode hc hs h]

/-! ## 4. Classes

The induction is on the members that are still to be written, for any class that has been read up
to there.  What follows a member is another member, or the closing bracket, and neither can be
taken for a range. -/

theorem classEscape?_letter (e : ClassEscape) :
    classEscape? (Ascii.byte e.letter) = some e ∧ e.text = [Ascii.backslash, Ascii.byte e.letter] := by
  rcases e with ⟨_ | _ | _, _ | _⟩ <;> exact ⟨rfl, rfl⟩

/-- One character of a class, when no range starts with it. -/
theorem classBody_member {unicode : Bool} {pos nodes : Nat} {k : CharClass} {c : Nat}
    (hc : c ≤ 0x10FFFF) {after : Bytes} (ha : after.head? ≠ some Ascii.minus) :
    classBody unicode pos nodes k (memberText c ++ after) =
      classBody unicode (pos + (memberText c).length) nodes
        { k with ranges := k.ranges ++ [⟨c, c⟩] } after := by
  obtain ⟨b, s, h⟩ := List.exists_cons_of_ne_nil
    (List.append_ne_nil_of_left_ne_nil (plainText_ne_nil _ c) after)
  change memberText c ++ after = b :: s at h
  obtain ⟨hm, hb⟩ := member_memberText unicode hc h
  have left := drop_of_append_eq_cons h (plainText_ne_nil _ c)
  change s.drop ((memberText c).length - 1) = after at left
  simp only [List.mem_cons, List.not_mem_nil, or_false, not_or] at hb
  rw [h, classBody, if_neg hb.1, hm]
  dsimp only
  split
  · rename_i heq
    rw [left] at heq
    rw [heq] at ha
    exact absurd rfl ha
  · rw [left]

/-- A range of a class. -/
theorem classBody_range {unicode : Bool} {pos nodes : Nat} {k : CharClass} {c d : Nat}
    (hcd : c ≤ d) (hd : d ≤ 0x10FFFF) (after : Bytes) :
    classBody unicode pos nodes k (memberText c ++ Ascii.minus :: (memberText d ++ after)) =
      classBody unicode (pos + (memberText c).length + 1 + (memberText d).length) nodes
        { k with ranges := k.ranges ++ [⟨c, d⟩] } after := by
  obtain ⟨b, s, h⟩ := List.exists_cons_of_ne_nil (List.append_ne_nil_of_left_ne_nil
    (plainText_ne_nil _ c) (Ascii.minus :: (memberText d ++ after)))
  change memberText c ++ _ = b :: s at h
  obtain ⟨x, t, h'⟩ := List.exists_cons_of_ne_nil (List.append_ne_nil_of_left_ne_nil
    (plainText_ne_nil _ d) after)
  change memberText d ++ after = x :: t at h'
  obtain ⟨hm, hb⟩ := member_memberText unicode (Nat.le_trans hcd hd) h
  obtain ⟨hm', hx⟩ := member_memberText unicode hd h'
  have left := drop_of_append_eq_cons h (plainText_ne_nil _ c)
  change s.drop ((memberText c).length - 1) = _ at left
  have left' := drop_of_append_eq_cons h' (plainText_ne_nil _ d)
  change t.drop ((memberText d).length - 1) = _ at left'
  simp only [List.mem_cons, List.not_mem_nil, or_false, not_or] at hb hx
  rw [h, classBody, if_neg hb.1, hm]
  dsimp only
  rw [h'] at left
  split
  · rename_i y more heq
    obtain ⟨rfl, rfl⟩ := List.cons.inj (List.cons.inj (left.symm.trans heq)).2
    rw [if_neg hx.1, hm']
    dsimp only
    rw [if_neg (Nat.not_lt.mpr hcd), left']
  · rename_i hno
    exact absurd left (hno x t)

/-- What follows a member can not be taken for a range. -/
theorem head?_classRangeText {r : CodePoint.Range} (h : r.IsLegible) (after : Bytes) :
    (classRangeText r ++ after).head? ∉ [none, some Ascii.closeBracket, some Ascii.caret,
      some Ascii.minus] := by
  have head : ∀ c ≤ 0x10FFFF, ∀ after : Bytes, (memberText c ++ after).head? ∉ [none,
      some Ascii.closeBracket, some Ascii.caret, some Ascii.minus] := by
    intro c hc after
    obtain ⟨b, s, h⟩ := List.exists_cons_of_ne_nil
      (List.append_ne_nil_of_left_ne_nil (plainText_ne_nil _ c) after)
    change memberText c ++ after = b :: s at h
    have := (member_memberText true hc h).2
    rw [h]
    simpa using this
  obtain ⟨h1, h2, h3⟩ := h
  unfold classRangeText
  split
  · exact head _ (by omega) after
  · rw [List.append_assoc]
    exact head _ (by omega) _

theorem classBody_ranges {unicode : Bool} {rs : List CodePoint.Range}
    (hr : ∀ r ∈ rs, r.IsLegible) {after : Bytes} (ha : after.head? ≠ some Ascii.minus) :
    ∀ {pos nodes : Nat} {k : CharClass},
    classBody unicode pos nodes k (rs.flatMap classRangeText ++ after) =
      classBody unicode (pos + (rs.flatMap classRangeText).length) nodes
        { k with ranges := k.ranges ++ rs } after := by
  induction rs with
  | nil =>
    intro pos nodes k
    simp
  | cons r rs ih =>
    intro pos nodes k
    obtain ⟨hr, hrs⟩ := List.forall_mem_cons.mp hr
    have next : (rs.flatMap classRangeText ++ after).head? ≠ some Ascii.minus := by
      cases rs with
      | nil => exact ha
      | cons r' rs' =>
        have := head?_classRangeText (hrs r' List.mem_cons_self)
          (rs'.flatMap classRangeText ++ after)
        rw [List.flatMap_cons, List.append_assoc]
        intro he
        rw [he] at this
        exact this (by decide)
    obtain ⟨h1, h2, h3⟩ := hr
    have lo : (r.lo.toNat : Int) = r.lo := Int.toNat_of_nonneg h1
    have hi : (r.hi.toNat : Int) = r.hi := Int.toNat_of_nonneg (by omega)
    rw [List.flatMap_cons, List.append_assoc]
    by_cases heq : r.lo = r.hi
    · have text : classRangeText r = memberText r.lo.toNat := if_pos heq
      rw [text, classBody_member (by omega) next, ih hrs, lo]
      have : (⟨r.lo, r.lo⟩ : CodePoint.Range) = r := by rw [CodePoint.Range.mk.injEq]; exact ⟨rfl, heq⟩
      simp only [this, List.append_assoc, List.singleton_append, List.length_append, Nat.add_assoc]
    · have text : classRangeText r = memberText r.lo.toNat ++ Ascii.minus :: memberText r.hi.toNat :=
        if_neg heq
      have step := @classBody_range unicode pos nodes k r.lo.toNat r.hi.toNat (by omega) (by omega)
        (rs.flatMap classRangeText ++ after)
      rw [text, List.append_assoc, List.cons_append, step, ih hrs, lo, hi]
      simp only [List.append_assoc, List.singleton_append, List.length_append, List.length_cons]
      congr 1
      omega

/-- One escape of a class. -/
theorem classBody_escape {unicode : Bool} {pos nodes : Nat} {k : CharClass} {b : UInt8} {s : Bytes}
    {e : ClassEscape} {w : Nat} (hb : b ≠ Ascii.closeBracket)
    (h : member unicode b s = .ok (.escape e, w)) :
    classBody unicode pos nodes k (b :: s) =
      classBody unicode (pos + w) (nodes + 1)
        { k with escapes := k.escapes ++ [(siteIn nodes pos w, e)] } (s.drop (w - 1)) := by
  rw [classBody, if_neg hb, h]

/-- One property of a class. -/
theorem classBody_property {unicode : Bool} {pos nodes : Nat} {k : CharClass} {b : UInt8}
    {s : Bytes} {p : PropertyEscape} {w : Nat} (hb : b ≠ Ascii.closeBracket)
    (h : member unicode b s = .ok (.property p, w)) :
    classBody unicode pos nodes k (b :: s) =
      classBody unicode (pos + w) (nodes + 1)
        { k with properties := k.properties ++ [(siteIn nodes pos w, p)] } (s.drop (w - 1)) := by
  rw [classBody, if_neg hb, h]

theorem classBody_escapes (unicode : Bool) (es : List (Site × ClassEscape)) (after : Bytes) :
    ∀ (pos nodes : Nat) (k : CharClass), ∃ es' : List (Site × ClassEscape),
      es'.map (·.2) = es.map (·.2) ∧
      classBody unicode pos nodes k (es.flatMap (·.2.text) ++ after) =
        classBody unicode (pos + (es.flatMap (·.2.text)).length) (nodes + es.length)
          { k with escapes := k.escapes ++ es' } after := by
  induction es with
  | nil => exact fun pos nodes k => ⟨[], rfl, by simp⟩
  | cons e es ih =>
    intro pos nodes k
    obtain ⟨hl, ht⟩ := classEscape?_letter e.2
    have hm : member unicode Ascii.backslash (Ascii.byte e.2.letter ::
        (es.flatMap (·.2.text) ++ after)) = .ok (.escape e.2, 2) := by
      unfold member
      rw [if_neg (by decide)]
      dsimp only
      rw [hl]
    obtain ⟨es', hes, h⟩ := ih (pos + 2) (nodes + 1)
      { k with escapes := k.escapes ++ [(siteIn nodes pos 2, e.2)] }
    refine ⟨(siteIn nodes pos 2, e.2) :: es', by simp [hes], ?_⟩
    rw [List.flatMap_cons, ht, List.append_assoc, List.cons_append, List.cons_append,
      List.nil_append, classBody_escape (by decide) hm]
    refine h.trans ?_
    simp only [List.append_assoc, List.singleton_append, List.length_append, List.length_cons,
      List.length_nil]
    congr 1
    · omega
    · omega

/-- A name between braces is the name of a property, if it has a table. -/
theorem property?_braced {e : UInt8} (he : e = Ascii.byte 'p' ∨ e = Ascii.byte 'P') {name : Bytes}
    (hb : Ascii.closeBrace ∉ name) (hn : (Unicode.lookup? name.toText).isSome = true)
    (after : Bytes) :
    property? true e (Ascii.openBrace :: (name ++ Ascii.closeBrace :: after)) =
      some (.ok (⟨name.toText, e = Ascii.byte 'P'⟩, name.length + 4)) := by
  unfold property?
  rw [if_pos (by rcases he with rfl | rfl <;> decide), Option.some.injEq]
  split
  · rename_i more hmore
    rw [← (List.cons.inj hmore).2, Ascii.cut?_append hb]
    exact if_pos hn
  · rename_i hno
    exact absurd rfl (hno _)

/-- **A property is read back**, its letter being none of the other escapes. -/
theorem property?_text {unicode : Bool} {p : PropertyEscape} (h : p.IsLegible unicode) :
    ∃ e more, p.text = Ascii.backslash :: e :: more ∧ (e = Ascii.byte 'p' ∨ e = Ascii.byte 'P') ∧
      ∀ after, property? unicode e (more ++ after) = some (.ok (p, more.length + 2)) := by
  obtain ⟨rfl, hp⟩ := h
  obtain ⟨t, ht⟩ := Option.isSome_iff_exists.mp hp
  have chars := Unicode.forall_of_lookup? ht
  have text : Bytes.toText (Bytes.ofString p.name) = p.name :=
    Bytes.toText_ofString fun c hc => (chars c hc).1
  have brace : Ascii.closeBrace ∉ Bytes.ofString p.name := by
    have := Bytes.ofString_ofList fun c hc => (chars c hc).1
    rw [String.ofList_toList] at this
    rw [this]
    intro hb
    obtain ⟨c, hc, he⟩ := List.mem_map.mp hb
    have := (chars c hc).2
    rw [he] at this
    exact absurd this (by decide)
  obtain ⟨e, he, ht, hneg⟩ : ∃ e, (e = Ascii.byte 'p' ∨ e = Ascii.byte 'P') ∧
      p.text = Ascii.backslash :: e :: Ascii.openBrace ::
        (Bytes.ofString p.name ++ [Ascii.closeBrace]) ∧
      decide (e = Ascii.byte 'P') = p.negated := by
    rw [PropertyEscape.text, Bytes.ofString_append, Bytes.ofString_append, List.append_assoc]
    cases p.negated with
    | false => exact ⟨Ascii.byte 'p', .inl rfl, rfl, by decide⟩
    | true => exact ⟨Ascii.byte 'P', .inr rfl, rfl, by decide⟩
  refine ⟨e, _, ht, he, ?_⟩
  intro after
  rw [List.cons_append, List.append_assoc]
  refine (property?_braced he brace (by rwa [text]) after).trans ?_
  rw [text, hneg, List.length_cons, List.length_append]
  rfl

/-- The letter of a property is none of the other escapes. -/
theorem notClass_of_property {e : UInt8} (h : e = Ascii.byte 'p' ∨ e = Ascii.byte 'P') :
    classEscape? e = none ∧ e ≠ Ascii.byte 'b' ∧ e ≠ Ascii.byte 'B' ∧ e ≠ Ascii.byte 'k' := by
  rcases h with rfl | rfl <;> decide

theorem classBody_properties {unicode : Bool} {ps : List (Site × PropertyEscape)}
    (hp : ∀ p ∈ ps, p.2.IsLegible unicode) (after : Bytes) :
    ∀ (pos nodes : Nat) (k : CharClass), ∃ ps' : List (Site × PropertyEscape),
      ps'.map (·.2) = ps.map (·.2) ∧
      classBody unicode pos nodes k (ps.flatMap (·.2.text) ++ after) =
        classBody unicode (pos + (ps.flatMap (·.2.text)).length) (nodes + ps.length)
          { k with properties := k.properties ++ ps' } after := by
  induction ps with
  | nil => exact fun pos nodes k => ⟨[], rfl, by simp⟩
  | cons p ps ih =>
    intro pos nodes k
    obtain ⟨hp, hps⟩ := List.forall_mem_cons.mp hp
    obtain ⟨e, more, ht, he, hread⟩ := property?_text hp
    have hm : member unicode Ascii.backslash (e :: (more ++ (ps.flatMap (·.2.text) ++ after))) =
        .ok (.property p.2, more.length + 2) := by
      unfold member
      rw [if_neg (by decide)]
      dsimp only
      rw [(notClass_of_property he).1]
      dsimp only
      rw [hread]
    obtain ⟨ps', hps', h⟩ := ih hps (pos + (more.length + 2)) (nodes + 1)
      { k with properties := k.properties ++ [(siteIn nodes pos (more.length + 2), p.2)] }
    refine ⟨(siteIn nodes pos (more.length + 2), p.2) :: ps', by simp [hps'], ?_⟩
    rw [List.flatMap_cons, ht, List.append_assoc, List.cons_append, List.cons_append,
      classBody_property (by decide) hm]
    have left : (e :: (more ++ (ps.flatMap (·.2.text) ++ after))).drop (more.length + 2 - 1) =
        ps.flatMap (·.2.text) ++ after := List.drop_left
    rw [left]
    refine h.trans ?_
    simp only [List.append_assoc, List.singleton_append, List.length_append, List.length_cons]
    congr 1
    · omega
    · omega

/-- The members after the ranges start with a backslash, or the class ends. -/
theorem head?_escapes {unicode : Bool} {k : CharClass} (h : k.IsLegible unicode) (after : Bytes) :
    ∃ b ∈ [Ascii.backslash, Ascii.closeBracket], (k.escapes.flatMap (·.2.text) ++
      (k.properties.flatMap (·.2.text) ++ (Ascii.closeBracket :: after))).head? = some b := by
  cases k.escapes with
  | cons e es => exact ⟨Ascii.backslash, by decide, rfl⟩
  | nil =>
    cases hps : k.properties with
    | cons p ps =>
      obtain ⟨e, more, ht, -⟩ := property?_text (h.properties p (by rw [hps]; exact List.mem_cons_self))
      exact ⟨Ascii.backslash, by decide, by simp [ht]⟩
    | nil => exact ⟨Ascii.closeBracket, by decide, rfl⟩

/-- The members of a class up to its closing bracket, whatever stood before them. -/
theorem classBody_text {unicode : Bool} {k : CharClass} (h : k.IsLegible unicode) (pos : Nat)
    (negated : Bool) (after : Bytes) :
    ∃ k' nodes, k'.bare = { k with negated := negated }.bare ∧
      classBody unicode pos 0 ⟨negated, [], [], []⟩ (k.ranges.flatMap classRangeText ++
        (k.escapes.flatMap (·.2.text) ++ (k.properties.flatMap (·.2.text) ++
          (Ascii.closeBracket :: after)))) =
        .ok (k', nodes, pos + (k.ranges.flatMap classRangeText).length +
          (k.escapes.flatMap (·.2.text)).length + (k.properties.flatMap (·.2.text)).length + 1) := by
  have minus : (k.escapes.flatMap (·.2.text) ++ (k.properties.flatMap (·.2.text) ++
      (Ascii.closeBracket :: after))).head? ≠ some Ascii.minus := by
    obtain ⟨b, hb, he⟩ := head?_escapes h after
    rw [he]
    rintro hm
    rw [Option.some.inj hm] at hb
    exact absurd hb (by decide)
  rw [classBody_ranges h.ranges minus]
  obtain ⟨es, hes, he⟩ := classBody_escapes unicode k.escapes
    (k.properties.flatMap (·.2.text) ++ (Ascii.closeBracket :: after))
    (pos + (k.ranges.flatMap classRangeText).length) 0 ⟨negated, [] ++ k.ranges, [], []⟩
  rw [he]
  obtain ⟨ps, hps, hp⟩ := classBody_properties h.properties
    (Ascii.closeBracket :: after) (pos + (k.ranges.flatMap classRangeText).length +
      (k.escapes.flatMap (·.2.text)).length) (0 + k.escapes.length)
    ⟨negated, [] ++ k.ranges, [] ++ es, []⟩
  rw [hp, classBody, if_pos rfl]
  refine ⟨_, _, ?_, rfl⟩
  have escapes := congrArg (List.map (Prod.mk Site.blank)) hes
  have properties := congrArg (List.map (Prod.mk Site.blank)) hps
  rw [List.map_map, List.map_map] at escapes properties
  exact congrArg₂ (CharClass.mk negated k.ranges) escapes properties

/-- **A class is read back**, up to the places of its members.  The members are read in the order
in which they are written, and each kind of them goes to a list of its own. -/
theorem charClass_text {unicode : Bool} {k : CharClass} (h : k.IsLegible unicode) (pos : Nat)
    {rest after : Bytes} (hrest : k.text ++ after = Ascii.openBracket :: rest) :
    ∃ k' nodes, charClass unicode pos rest = .ok (k', nodes, pos + k.text.length) ∧
      k'.bare = k.bare := by
  obtain ⟨k', nodes, hk, hb⟩ := classBody_text h (pos + (if k.negated then 2 else 1)) k.negated after
  refine ⟨k', nodes, ?_, hk⟩
  have text : k.text ++ after = Ascii.openBracket :: ((if k.negated then [Ascii.caret] else []) ++
      (k.ranges.flatMap classRangeText ++ (k.escapes.flatMap (·.2.text) ++
        (k.properties.flatMap (·.2.text) ++ (Ascii.closeBracket :: after))))) := by
    simp only [CharClass.text, List.cons_append, List.append_assoc, List.nil_append]
  have width : k.text.length = (if k.negated then 2 else 1) +
      (k.ranges.flatMap classRangeText).length + (k.escapes.flatMap (·.2.text)).length +
        (k.properties.flatMap (·.2.text)).length + 1 := by
    unfold CharClass.text
    cases k.negated <;>
      simp only [List.length_cons, List.length_append, List.length_nil, if_true, Bool.false_eq_true,
        if_false] <;> omega
  have hrest := (List.cons.inj (hrest.symm.trans text)).2
  rw [width]
  simp only [Nat.add_assoc] at hb ⊢
  -- A class that is not negated starts with no caret.
  cases hn : k.negated with
  | true =>
    rw [hn] at hrest hb
    rw [hrest]
    exact hb
  | false =>
    rw [hn] at hrest hb
    simp only [Bool.false_eq_true, if_false, List.nil_append] at hrest hb
    have caret : rest.head? ≠ some Ascii.caret := by
      rw [hrest]
      cases hrs : k.ranges with
      | nil =>
        obtain ⟨b, hb, he⟩ := head?_escapes h after
        rw [List.flatMap_nil, List.nil_append, he]
        rintro hm
        rw [Option.some.inj hm] at hb
        exact absurd hb (by decide)
      | cons r rs =>
        rw [List.flatMap_cons, List.append_assoc]
        intro hm
        refine head?_classRangeText (h.ranges r (by rw [hrs]; exact List.mem_cons_self))
          (rs.flatMap classRangeText ++ (k.escapes.flatMap (·.2.text) ++
            (k.properties.flatMap (·.2.text) ++ (Ascii.closeBracket :: after)))) ?_
        rw [hm]
        decide
    unfold charClass
    split
    · exact absurd rfl caret
    · rw [hrest]
      exact hb

end Lexer

end Backtrack
