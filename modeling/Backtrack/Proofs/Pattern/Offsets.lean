/-
# Offsets and bytes that are left

The reader by offsets asks for bytes of the whole source, and the reader of lexemes takes the bytes
that are left apart.  `Descent.Left` ties the two together: what is left at an offset.  Where so much
is left, the byte at the offset is the first of the bytes left, and no byte is asked for outside of
the source.

With that the two readers of escapes and of classes agree, function by function: on what is read,
where it ends, and on every fault (`Descent.property_eq`, `Descent.charEscape_eq`,
`Descent.member_eq`, `Descent.bracket_eq`).  What differs is how a class is gone through.  One reader
keeps the offset and loops, the other one cuts the bytes and counts the nodes of the class from zero;
so `Descent.classBody_eq` speaks of nodes that have been used before.
-/
import Backtrack.Proofs.Pattern.Descent
import Backtrack.Proofs.Pattern.Extents

namespace Backtrack

/-- Cutting is looking for the byte. -/
theorem Ascii.cut?_eq (b : UInt8) : ∀ s : Bytes,
    cut? b s = (s.idxOf? b).map fun k => (s.take k, s.drop (k + 1))
  | [] => rfl
  | x :: rest => by
    rw [cut?, List.idxOf?, List.findIdx?_cons]
    by_cases hx : x = b
    · simp [hx]
    · have ih := cut?_eq b rest
      rw [List.idxOf?] at ih
      rw [if_neg hx, ih, if_neg (by simpa using hx), Option.map_map, Option.map_map]
      rfl

namespace Descent

/-! ## 1. What is left

All questions a reader by offsets can ask are answered from what is left: the byte, whether there
is one, a slice, a character.  Each has its equation, and the later sections rewrite with
these. -/

/-- The bytes from `i` on are `l`. -/
structure Left (s : Bytes) (i : Nat) (l : Bytes) : Prop where
  le : i ≤ s.length
  drop_eq : s.drop i = l

section Bind

variable {α β : Type}

@[simp] theorem ok_bind (a : α) (f : α → Reads β) : ((.ok a : Reads α) >>= f) = f a := rfl

@[simp] theorem fault_bind (i : Nat) (cause : SyntaxCause) (f : α → Reads β) :
    ((fault i cause : Reads α) >>= f) = fault i cause := rfl

@[simp] theorem pure_eq (a : α) : (pure a : Reads α) = .ok a := rfl

@[simp] theorem map_ok (a : α) (f : α → β) : (.ok a : Reads α).map f = .ok (f a) := rfl

@[simp] theorem map_fault (i : Nat) (cause : SyntaxCause) (f : α → β) :
    (fault i cause : Reads α).map f = fault i cause := rfl

end Bind

namespace Left

variable {s l : Bytes} {i : Nat} {b : UInt8}

theorem length (h : Left s i l) : s.length = i + l.length := by
  have := h.le
  rw [← h.drop_eq, List.length_drop]
  omega

theorem length_nil (h : Left s i []) : s.length = i := h.length

theorem length_cons (h : Left s i (b :: l)) : s.length = i + (l.length + 1) := h.length

theorem drop (h : Left s i l) {k : Nat} (hk : k ≤ l.length) : Left s (i + k) (l.drop k) := by
  refine ⟨by have := h.length; omega, ?_⟩
  rw [← h.drop_eq, List.drop_drop]

theorem tail (h : Left s i (b :: l)) : Left s (i + 1) l :=
  h.drop (k := 1) (by simp)

/-- What is left after a reading of width `w`. -/
theorem after (h : Left s i (b :: l)) {w : Nat} (positive : 1 ≤ w) (bounded : w ≤ l.length + 1) :
    Left s (i + w) (l.drop (w - 1)) := by
  have whole := h.tail.drop (k := w - 1) (by omega)
  rwa [Nat.add_assoc, Nat.add_sub_cancel' positive] at whole

/-- Further on there is less left. -/
theorem length_lt (h : Left s i l) {j : Nat} {later : Bytes} (h' : Left s j later) (lt : i < j)
    {n : Nat} (hn : l.length < n + 1) : later.length < n := by
  have := h.length
  have := h'.length
  omega

theorem byteAt (h : Left s i (b :: l)) : byteAt s i = .ok b := by
  have : s[i]? = some b := by rw [← List.head?_drop, h.drop_eq, List.head?_cons]
  rw [Descent.byteAt, this]

theorem suffix (h : Left s i l) : suffix s i = .ok l := by
  rw [Descent.suffix, if_pos h.le, h.drop_eq]

theorem slice (h : Left s i l) {j k : Nat} (le : j ≤ k) (hk : k ≤ l.length) :
    slice s (i + j) (i + k) = .ok ((l.drop j).take (k - j)) := by
  have length := h.length
  rw [Descent.slice, if_pos ⟨by omega, by omega⟩, ← List.drop_drop, h.drop_eq]
  congr 2
  omega

theorem slice_take (h : Left s i l) {j k : Nat} (hk : k ≤ l.length) (hj : j = i + k) :
    Descent.slice s i j = .ok (l.take k) := by
  have whole := h.slice (Nat.zero_le k) hk
  rwa [List.drop_zero, ← hj, Nat.add_zero, Nat.sub_zero] at whole

theorem isAt_cons (h : Left s i (b :: l)) (c : UInt8) : isAt s i c = .ok (b == c) := by
  have length := h.length_cons
  rw [isAt, if_pos (by omega), h.byteAt, map_ok]

theorem isAt_nil (h : Left s i []) (c : UInt8) : isAt s i c = .ok false := by
  have length := h.length_nil
  rw [isAt, if_neg (by omega)]

theorem charAt_cons (h : Left s i (b :: l)) : charAt s i = .ok (Utf8.decode b l) := by
  rw [charAt, h.suffix, map_ok]

end Left

/-! ## 2. Escapes

A width that the reader of lexemes counts from one place is an offset for the other reader.
`located` and `blamed` turn the one into the other, so that each function has one equation for
what is read and for what is at fault. -/

/-- A reading that starts at `i`, with its width. -/
def located {α : Type} (i : Nat) : Except Lexer.Fault (α × Nat) → Reads (α × Nat)
  | .ok r => .ok (r.1, i + r.2)
  | .error f => fault (i + f.offset) f.cause

/-- A reading that starts at `i`, and is what is at fault there if there is one. -/
def blamed {α : Type} (i : Nat) : Except SyntaxCause α → Reads α
  | .ok a => .ok a
  | .error cause => fault i cause

section Escapes

variable {s rest : Bytes} {i j : Nat} {x e : UInt8} {unicode : Bool}

theorem classEscape_eq (h : Left s i (x :: e :: rest)) :
    classEscape s i = .ok (Lexer.classEscape? e) := by
  rw [classEscape, h.tail.byteAt, map_ok]

theorem lt_of_idxOf? {b : UInt8} {l : Bytes} {k : Nat} (h : l.idxOf? b = some k) : k < l.length :=
  (List.idxOf?_eq_some_iff.mp h).1

theorem property_eq (h : Left s i (x :: e :: rest)) :
    property unicode s i =
      match Lexer.property? unicode e rest with
      | some r => (located i r).map some
      | none => .ok none := by
  unfold property Lexer.property?
  rw [h.tail.byteAt, ok_bind]
  by_cases letter : (unicode && (e = Ascii.byte 'p' || e = Ascii.byte 'P')) = true
  · rw [if_pos letter, if_pos letter]
    dsimp only
    have after := h.tail.tail
    split
    · rename_i more
      rw [after.isAt_cons, ok_bind, after.suffix, ok_bind, if_pos (by decide), Ascii.cut?_eq,
        List.idxOf?_cons, if_neg (by decide)]
      cases found : more.idxOf? Ascii.closeBrace with
      | none => rfl
      | some k =>
        have place := lt_of_idxOf? found
        dsimp only [Option.map_some]
        rw [after.tail.slice_take (k := k) (by omega) (by omega), ok_bind,
          List.length_take_of_le (by omega)]
        split
        · simp only [pure_eq, located, map_ok]
          congr 3
          omega
        · rfl
    · rename_i other
      have absent : isAt s (i + 2) Ascii.openBrace = .ok false := by
        cases rest with
        | nil => exact after.isAt_nil _
        | cons d more =>
          rw [after.isAt_cons, beq_eq_false_iff_ne.mpr fun hd => other more (by rw [hd]; rfl)]
      rw [absent]
      rfl
  · rw [if_neg letter, if_neg letter]
    rfl

theorem hex_eq {l : Bytes} (h : Left s j l) (n : Nat) : hex s j n = .ok (Lexer.hexDigits? n l) := by
  have length := h.length
  rw [hex, Lexer.hexDigits?]
  by_cases short : l.length < n
  · rw [if_pos (by omega), if_pos short]
    rfl
  · rw [if_neg (by omega), if_neg short, h.slice_take (by omega) rfl, map_ok]

theorem octal_eq : ∀ (n v : Nat) {j : Nat} {l : Bytes}, Left s j l →
    octal s n v j = .ok ((Lexer.octal n v l).1, j + (Lexer.octal n v l).2)
  | 0, _, _, _, _ => rfl
  | n + 1, v, j, [], h => by
    have length := h.length_nil
    rw [octal, if_neg (by omega)]
    rfl
  | n + 1, v, j, b :: l, h => by
    have length := h.length_cons
    rw [octal, if_pos (by omega), h.byteAt, ok_bind, Lexer.octal]
    split
    · rw [octal_eq n _ h.tail]
      dsimp only
      rw [Nat.add_assoc, Nat.add_comm 1]
    · rfl

/-- A number whose letter is right before `j`.  Its width counts the letter. -/
def afterLetter (i j : Nat) : Option (Except SyntaxCause (Nat × Nat)) → Reads (Option (Nat × Nat))
  | some (.ok r) => .ok (some (r.1, j + r.2 - 1))
  | some (.error cause) => fault i cause
  | none => .ok none

theorem braced_eq {more : Bytes} (h : Left s j (Ascii.openBrace :: more)) :
    (braced s i j).map some = afterLetter i j
      (match Ascii.cut? Ascii.closeBrace more with
      | none => some (.error .invalidUnicodeEscape)
      | some (digits, _) =>
        match Ascii.hexNumber? digits with
        | some v =>
          if v ≤ maxCodePoint then some (.ok (v, digits.length + 3))
          else some (.error .invalidUnicodeEscape)
        | none => some (.error .invalidUnicodeEscape)) := by
  unfold braced
  rw [h.suffix, ok_bind, Ascii.cut?_eq, List.idxOf?_cons, if_neg (by decide)]
  cases found : more.idxOf? Ascii.closeBrace with
  | none => rfl
  | some k =>
    have place := lt_of_idxOf? found
    dsimp only [Option.map_some]
    rw [h.tail.slice_take (k := k) (by omega) (by omega), ok_bind, List.length_take_of_le (by omega)]
    cases Ascii.hexNumber? (more.take k) with
    | none => rfl
    | some v =>
      dsimp only
      split <;> rfl

theorem hex_afterLetter {l : Bytes} (h : Left s j l) (n : Nat) :
    (hex s j n).map (fun v => v.map (·, j + n)) =
      afterLetter i j ((Lexer.hexDigits? n l).map fun v => .ok (v, n + 1)) := by
  rw [hex_eq h, map_ok]
  cases Lexer.hexDigits? n l <;> rfl

/-- The character after `u`: in braces, if they are allowed and there, or of four digits. -/
theorem unit_eq {l : Bytes} (c : Nat) (hc : c = 'u'.toNat) (h : Left s j l) :
    numbered unicode s i c j = afterLetter i j (Lexer.numbered? unicode c l) := by
  have four := hex_afterLetter (i := i) h 4
  have hx : ¬ c = 'x'.toNat := by rw [hc]; decide
  unfold numbered Lexer.numbered?
  rw [if_neg hx, if_neg hx, if_pos hc, if_pos hc]
  cases unicode with
  | false => exact four
  | true =>
    rw [if_pos rfl, h.suffix, ok_bind]
    cases l with
    | nil => exact four
    | cons b more =>
      dsimp only
      split <;> rename_i brace
      · obtain rfl : Ascii.openBrace = b := by simpa using brace
        exact braced_eq h
      · rw [four]
        split
        · rename_i eq
          exact absurd (by rw [(List.cons.inj eq).1]; rfl) brace
        · rfl

theorem numbered_eq {l : Bytes} (c : Nat) (h : Left s j l) :
    numbered unicode s i c j = afterLetter i j (Lexer.numbered? unicode c l) := by
  by_cases hu : c = 'u'.toNat
  · exact unit_eq c hu h
  have length := h.length
  unfold numbered Lexer.numbered?
  by_cases hx : c = 'x'.toNat
  · rw [if_pos hx, if_pos hx]
    exact hex_afterLetter h 2
  rw [if_neg hx, if_neg hx, if_neg hu, if_neg hu]
  by_cases hc : c = 'c'.toNat
  · rw [if_pos hc, if_pos hc]
    cases l with
    | nil =>
      rw [List.length_nil] at length
      rw [if_neg (by omega)]
      rfl
    | cons b more =>
      rw [List.length_cons] at length
      rw [if_pos (by omega), h.byteAt, map_ok]
      dsimp only
      split <;> rfl
  rw [if_neg hc, if_neg hc]
  by_cases hz : c = '0'.toNat
  · rw [if_pos hz, if_pos hz]
    cases l with
    | nil =>
      rw [List.length_nil] at length
      rw [if_neg (by omega)]
      rfl
    | cons b more =>
      rw [List.length_cons] at length
      rw [if_pos (by omega), h.byteAt, map_ok]
      dsimp only
      split <;> rfl
  rw [if_neg hz, if_neg hz]
  rfl

/-- A byte is the character that starts with it, or neither of them is ASCII. -/
theorem decode_cases (b : UInt8) (rest : Bytes) :
    Utf8.decode b rest = (b.toNat, 1) ∧ b.toNat < 0x80 ∨
      0x80 ≤ b.toNat ∧ 0x80 ≤ (Utf8.decode b rest).1 := by
  unfold Utf8.decode
  split
  · rename_i hb
    exact .inl ⟨rfl, UInt8.lt_iff_toNat_lt.mp hb⟩
  · rename_i hb
    refine .inr ⟨Nat.le_of_not_lt fun lt => hb (UInt8.lt_iff_toNat_lt.mpr lt), ?_⟩
    cases h : Utf8.sequence? b rest with
    | none => decide
    | some r => exact (Utf8.readsSequence_of_sequence? h).le_value

/-- So a character has the classes that its first byte has. -/
theorem class_decode (b : UInt8) (rest : Bytes) :
    (decide ('0'.toNat ≤ (Utf8.decode b rest).1) && decide ((Utf8.decode b rest).1 ≤ '9'.toNat)) =
        Ascii.isDigit b ∧
      (decide ('0'.toNat ≤ (Utf8.decode b rest).1) && decide ((Utf8.decode b rest).1 ≤ '7'.toNat)) =
        Ascii.isOctal b ∧
      (decide ((Utf8.decode b rest).1 < 0x80) &&
        Ascii.isLetter (UInt8.ofNat (Utf8.decode b rest).1)) = Ascii.isLetter b := by
  simp only [Ascii.isDigit, Ascii.isOctal, Ascii.isLetter, UInt8.le_iff_toNat_le]
  rcases decode_cases b rest with ⟨eq, small⟩ | ⟨byte, char⟩
  · rw [eq, UInt8.ofNat_toNat, decide_eq_true small, Bool.true_and]
    exact ⟨rfl, rfl, rfl⟩
  · have above : ∀ n, n < 0x80 → decide ((Utf8.decode b rest).1 ≤ n) = false := fun n hn =>
      decide_eq_false (by omega)
    simp [above, Nat.not_lt.mpr char]
    omega

theorem numbered?_eq_none {c : Nat} (h : 0x80 ≤ c) (l : Bytes) :
    Lexer.numbered? unicode c l = none := by
  have ne : ∀ a : Char, a.toNat < 0x80 → c ≠ a.toNat := fun a ha => by omega
  unfold Lexer.numbered?
  rw [if_neg (ne 'x' (by decide)), if_neg (ne 'u' (by decide)), if_neg (ne 'c' (by decide)),
    if_neg (ne '0' (by decide))]

theorem charEscape_eq {b : UInt8} (h : Left s i (x :: b :: rest)) :
    charEscape unicode s i =
      match Lexer.charEscape unicode b rest with
      | .ok r => .ok (r.1, i + r.2)
      | .error cause => fault i cause := by
  have width := Utf8.width_decode b rest
  obtain ⟨digit, octal, letter⟩ := class_decode b rest
  have after := h.tail.after width.1 width.2
  unfold charEscape Lexer.charEscape
  rw [h.tail.charAt_cons, ok_bind]
  dsimp only
  rw [numbered_eq _ after, digit, octal, Bool.and_assoc unicode, letter]
  cases number : Lexer.numbered? unicode (Utf8.decode b rest).1
      (rest.drop ((Utf8.decode b rest).2 - 1)) with
  | some r =>
    -- What is given by number starts with an ASCII letter, which is one byte.
    have single : (Utf8.decode b rest).2 = 1 := by
      rcases decode_cases b rest with ⟨eq, -⟩ | ⟨-, char⟩
      · rw [eq]
      · rw [numbered?_eq_none char] at number
        cases number
    cases r with
    | error => rfl
    | ok r =>
      have positive := (Lexer.width_of_readsNumber (Lexer.readsNumber_of_numbered? number)).1
      simp only [afterLetter, ok_bind, pure_eq, single]
      congr 2
      omega
  | none =>
    simp only [afterLetter, ok_bind]
    split
    · rfl
    split
    · rw [octal_eq _ _ h.tail]
      dsimp only
      congr 2
      omega
    split
    · rfl
    · simp only [pure_eq]
      congr 2
      omega

end Escapes

/-! ## 3. Classes

A class is read in a loop, and one round may end in many ways.  Each way has a lemma of its own,
which says that the other reader takes the same round. -/

section Classes

variable {s rest : Bytes} {i : Nat} {b : UInt8} {unicode : Bool}

theorem member_eq (h : Left s i (b :: rest)) :
    member unicode s i = located i (Lexer.member unicode b rest) := by
  unfold member Lexer.member
  rw [h.byteAt, ok_bind]
  split
  · rw [h.charAt_cons]
    rfl
  cases rest with
  | nil =>
    have length := h.length
    rw [List.length_singleton] at length
    rw [if_pos (by omega)]
    rfl
  | cons e more =>
    have length := h.length
    rw [List.length_cons, List.length_cons] at length
    rw [if_neg (by omega), classEscape_eq h, ok_bind]
    dsimp only
    cases Lexer.classEscape? e with
    | some k => rfl
    | none =>
      dsimp only
      rw [property_eq h]
      cases Lexer.property? unicode e more with
      | some r => cases r <;> rfl
      | none =>
        dsimp only
        rw [ok_bind, h.tail.byteAt, ok_bind]
        dsimp only
        split
        · rfl
        split
        · rfl
        rw [charEscape_eq h]
        cases Lexer.charEscape unicode e more <;> rfl

theorem startsRange_minus {x : UInt8} (h : Left s i (Ascii.minus :: x :: rest)) :
    startsRange s i = .ok (x != Ascii.closeBracket) := by
  have length := h.length
  rw [List.length_cons, List.length_cons] at length
  rw [startsRange, if_pos (by omega), h.byteAt, ok_bind, if_pos rfl, h.tail.byteAt, map_ok]

theorem startsRange_of_ne {l : Bytes} (h : Left s i l)
    (hl : ∀ x more, l ≠ Ascii.minus :: x :: more) : startsRange s i = .ok false := by
  have length := h.length
  unfold startsRange
  split
  · rename_i more
    rcases l with _ | ⟨b, _ | ⟨x, rest⟩⟩
    · rw [List.length_nil] at length
      omega
    · rw [List.length_singleton] at length
      omega
    · rw [h.byteAt, ok_bind, if_neg fun hb => hl x rest (by rw [hb])]
      rfl
  · rfl

/-- The class whose bracket is to be at the offset, if it is there. -/
def closed (s : Bytes) (r : CharClass × Nat × Nat) : Reads (CharClass × Nat × Nat) :=
  if s.length ≤ r.2.2 then fault r.2.2 .unclosedClass else pure (r.1, r.2.1, r.2.2 + 1)

/-- A class with the nodes of its members counted from `used` on. -/
def counted (used : Nat) :
    Except Lexer.Fault (CharClass × Nat × Nat) → Reads (CharClass × Nat × Nat)
  | .ok r => .ok (Parser.shiftSites used r.1, r.2.1 + used, r.2.2)
  | .error f => fault f.offset f.cause

/-- After a member, what is left and how many calls there may be. -/
theorem Left.past {n : Nat} {m : Lexer.Member × Nat} (h : Left s i (b :: rest))
    (read : Lexer.member unicode b rest = .ok m) (calls : (b :: rest).length < n + 1) :
    (rest.drop (m.2 - 1)).length < n ∧ Left s (i + m.2) (rest.drop (m.2 - 1)) := by
  obtain ⟨positive, bounded⟩ := Lexer.width_of_member read
  have after := h.after positive bounded
  exact ⟨h.length_lt after (by omega) calls, after⟩

/-- One round of the loop is over, and the class goes on. -/
theorem classBody_of_item {n used : Nat} {k : CharClass} {r : CharClass × Nat × Nat}
    {result : Reads (CharClass × Nat × Nat)} (h : Left s i (b :: rest))
    (hb : ¬ b = Ascii.closeBracket) (read : item unicode s used i k = .ok r)
    (later : classBody unicode s n r.2.1 r.2.2 r.1 >>= closed s = result) :
    classBody unicode s (n + 1) used i k >>= closed s = result := by
  have length := h.length_cons
  rw [classBody, if_neg (by omega), h.byteAt, ok_bind, if_neg hb, read, ok_bind]
  exact later

/-- One round of the loop is at fault. -/
theorem classBody_of_fault {n used j : Nat} {k : CharClass} {cause : SyntaxCause}
    (h : Left s i (b :: rest)) (hb : ¬ b = Ascii.closeBracket)
    (read : item unicode s used i k = fault j cause) :
    classBody unicode s (n + 1) used i k >>= closed s = fault j cause := by
  have length := h.length_cons
  rw [classBody, if_neg (by omega), h.byteAt, ok_bind, if_neg hb, read, fault_bind]
  rfl

theorem shiftSites_escape (used nodes pos w : Nat) (k : CharClass) (e : ClassEscape) :
    Parser.shiftSites used { k with escapes := k.escapes ++ [(Lexer.siteIn nodes pos w, e)] } =
      { Parser.shiftSites used k with
        escapes := (Parser.shiftSites used k).escapes ++
          [(⟨nodes + used + 1, pos, pos + w⟩, e)] } := by
  simp [Parser.shiftSites, Lexer.siteIn, Nat.add_right_comm]

theorem shiftSites_property (used nodes pos w : Nat) (k : CharClass) (p : PropertyEscape) :
    Parser.shiftSites used { k with properties := k.properties ++ [(Lexer.siteIn nodes pos w, p)] } =
      { Parser.shiftSites used k with
        properties := (Parser.shiftSites used k).properties ++
          [(⟨nodes + used + 1, pos, pos + w⟩, p)] } := by
  simp [Parser.shiftSites, Lexer.siteIn, Nat.add_right_comm]

/-- What cannot be read is at fault where it is. -/
theorem item_fault (used : Nat) (k : CharClass) {f : Lexer.Fault} (h : Left s i (b :: rest))
    (read : Lexer.member unicode b rest = .error f) :
    item unicode s used i k = fault (i + f.offset) f.cause := by
  rw [item, member_eq h, read]
  rfl

/-- An escape gets the next number, and so does a property. -/
theorem item_escape (used : Nat) (k : CharClass) {e : ClassEscape} {w : Nat}
    (h : Left s i (b :: rest)) (read : Lexer.member unicode b rest = .ok (.escape e, w)) :
    item unicode s used i k =
      .ok ({ k with escapes := k.escapes ++ [(⟨used + 1, i, i + w⟩, e)] }, used + 1, i + w) := by
  rw [item, member_eq h, read]
  rfl

theorem item_property (used : Nat) (k : CharClass) {q : PropertyEscape} {w : Nat}
    (h : Left s i (b :: rest)) (read : Lexer.member unicode b rest = .ok (.property q, w)) :
    item unicode s used i k =
      .ok ({ k with properties := k.properties ++ [(⟨used + 1, i, i + w⟩, q)] },
        used + 1, i + w) := by
  rw [item, member_eq h, read]
  rfl

/-- A character that does not start a range. -/
theorem item_single {used c w : Nat} {k : CharClass} (h : Left s i (b :: rest))
    (read : Lexer.member unicode b rest = .ok (.char c, w))
    (starts : startsRange s (i + w) = .ok false) :
    item unicode s used i k = .ok ({ k with ranges := k.ranges ++ [⟨c, c⟩] }, used, i + w) := by
  rw [item, member_eq h, read, located, ok_bind]
  dsimp only
  rw [starts]
  rfl

section Ranges

variable {c w v : Nat} {x : UInt8} {more : Bytes}

/-- A character that starts a range is read together with what comes after the minus. -/
theorem item_range (used : Nat) (k : CharClass) (h : Left s i (b :: rest))
    (read : Lexer.member unicode b rest = .ok (.char c, w))
    (left : rest.drop (w - 1) = Ascii.minus :: x :: more) (hx : ¬ x = Ascii.closeBracket) :
    item unicode s used i k =
      match Lexer.member unicode x more with
      | .error f => fault (i + w + 1 + f.offset) f.cause
      | .ok (.char d, v) =>
        if d < c then fault i .classRangeOutOfOrder
        else .ok ({ k with ranges := k.ranges ++ [⟨c, d⟩] }, used, i + w + 1 + v)
      | .ok (_, _) =>
        if unicode then fault (i + w) .invalidClassRange
        else .ok ({ k with ranges := k.ranges ++ [⟨c, c⟩] }, used + 1, i + w) := by
  obtain ⟨positive, bounded⟩ := Lexer.width_of_member read
  have after := left ▸ h.after positive bounded
  rw [item, member_eq h, read, located, ok_bind]
  dsimp only
  rw [startsRange_minus after, bne_iff_ne.mpr hx, ok_bind, if_pos rfl, member_eq after.tail]
  rcases Lexer.member unicode x more with f | ⟨m, v⟩
  · rfl
  · cases m <;> rfl

/-- The upper end cannot be read. -/
theorem item_range_fault (used : Nat) (k : CharClass) {f : Lexer.Fault} (h : Left s i (b :: rest))
    (read : Lexer.member unicode b rest = .ok (.char c, w))
    (left : rest.drop (w - 1) = Ascii.minus :: x :: more) (hx : ¬ x = Ascii.closeBracket)
    (upper : Lexer.member unicode x more = .error f) :
    item unicode s used i k = fault (i + w + 1 + f.offset) f.cause := by
  rw [item_range used k h read left hx, upper]

/-- The upper end is a character. -/
theorem item_range_char (used : Nat) (k : CharClass) {d : Nat} (h : Left s i (b :: rest))
    (read : Lexer.member unicode b rest = .ok (.char c, w))
    (left : rest.drop (w - 1) = Ascii.minus :: x :: more) (hx : ¬ x = Ascii.closeBracket)
    (upper : Lexer.member unicode x more = .ok (.char d, v)) :
    item unicode s used i k =
      if d < c then fault i .classRangeOutOfOrder
      else .ok ({ k with ranges := k.ranges ++ [⟨c, d⟩] }, used, i + w + 1 + v) := by
  rw [item_range used k h read left hx, upper]

/-- What has no character as its upper end is no range. -/
theorem item_no_range (used : Nat) (k : CharClass) {m : Lexer.Member} (h : Left s i (b :: rest))
    (read : Lexer.member unicode b rest = .ok (.char c, w))
    (left : rest.drop (w - 1) = Ascii.minus :: x :: more) (hx : ¬ x = Ascii.closeBracket)
    (upper : Lexer.member unicode x more = .ok (m, v)) (hm : ∀ d, m = .char d → False) :
    item unicode s used i k =
      if unicode then fault (i + w) .invalidClassRange
      else .ok ({ k with ranges := k.ranges ++ [⟨c, c⟩] }, used + 1, i + w) := by
  rw [item_range used k h read left hx, upper]
  cases m with
  | char d => exact (hm d rfl).elim
  | escape | property => rfl

end Ranges

/-- One round of the loop is one call of the reader of lexemes, so the induction goes along the
latter. -/
theorem classBody_eq (used : Nat) {pos nodes n : Nat} {k : CharClass} {l : Bytes}
    (calls : l.length < n) (h : Left s pos l) :
    classBody unicode s n (nodes + used) pos (Parser.shiftSites used k) >>= closed s =
      counted used (Lexer.classBody unicode pos nodes k l) := by
  fun_induction Lexer.classBody unicode pos nodes k l generalizing n with
    obtain ⟨n, rfl⟩ : ∃ m, n = m + 1 := ⟨n - 1, by omega⟩
  | case1 pos nodes k =>
    have length := h.length_nil
    rw [classBody, if_pos (by omega), pure_eq, ok_bind, closed, if_pos (by dsimp only; omega)]
    rfl
  | case2 pos nodes k rest =>
    have length := h.length_cons
    rw [classBody, if_neg (by omega), h.byteAt, ok_bind, if_pos rfl, pure_eq, ok_bind, closed,
      if_neg (by dsimp only; omega)]
    rfl
  | case3 pos nodes k b rest hb f hm => exact classBody_of_fault h hb (item_fault _ _ h hm)
  | case4 pos nodes k b rest hb e w hm ih =>
    obtain ⟨calls, after⟩ := h.past hm calls
    have later := ih calls after
    rw [shiftSites_escape, Nat.add_right_comm] at later
    exact classBody_of_item h hb (item_escape _ _ h hm) later
  | case5 pos nodes k b rest hb p w hm ih =>
    obtain ⟨calls, after⟩ := h.past hm calls
    have later := ih calls after
    rw [shiftSites_property, Nat.add_right_comm] at later
    exact classBody_of_item h hb (item_property _ _ h hm) later
  | case6 pos nodes k b rest hb c w hm single more left =>
    rename_i ih
    obtain ⟨calls, after⟩ := left ▸ h.past hm calls
    exact classBody_of_item h hb (item_single h hm (startsRange_minus after)) (ih calls after)
  | case7 pos nodes k b rest hb c w hm x more left hx f hf =>
    exact classBody_of_fault h hb (item_range_fault _ _ h hm left hx hf)
  | case8 pos nodes k b rest hb c w hm x more left hx d v hd lt =>
    have read := item_range_char (nodes + used) (Parser.shiftSites used k) h hm left hx hd
    exact classBody_of_fault h hb (read.trans (if_pos lt))
  | case9 pos nodes k b rest hb c w hm x more left hx d v hd lt ih =>
    have read := item_range_char (nodes + used) (Parser.shiftSites used k) h hm left hx hd
    -- The minus and the upper end are read in the same round.
    obtain ⟨fewer, after⟩ := left ▸ h.past hm (Nat.lt_succ_of_lt calls)
    obtain ⟨-, last⟩ := after.tail.past hd (Nat.lt_of_succ_lt fewer)
    exact classBody_of_item h hb (read.trans (if_neg lt)) (ih (h.length_lt last (by omega) calls) last)
  | case10 pos nodes k b rest hb c w hm x more left hx m v notchar hd strict =>
    have read := item_no_range (nodes + used) (Parser.shiftSites used k) h hm left hx hd notchar
    exact classBody_of_fault h hb (read.trans (if_pos strict))
  | case11 pos nodes k b rest hb c w hm single x more left hx m v notchar hd plain =>
    rename_i ih
    have read := item_no_range (nodes + used) (Parser.shiftSites used k) h hm left hx hd notchar
    obtain ⟨calls, after⟩ := left ▸ h.past hm calls
    have later := ih calls after
    rw [Nat.add_right_comm] at later
    exact classBody_of_item h hb (read.trans (if_neg plain)) later
  | case12 pos nodes k b rest hb c w hm single other =>
    rename_i ih
    obtain ⟨calls, after⟩ := h.past hm calls
    exact classBody_of_item h hb (item_single h hm (startsRange_of_ne after other)) (ih calls after)

/-- The number of calls that `bracket` allows is enough for any class. -/
theorem body_eq (used : Nat) {pos : Nat} {l : Bytes} (negated : Bool) (h : Left s pos l) :
    classBody unicode s (s.length + 1) used pos ⟨negated, [], [], []⟩ >>= closed s =
      counted used (Lexer.classBody unicode pos 0 ⟨negated, [], [], []⟩ l) := by
  have calls : l.length < s.length + 1 := by
    have := h.length
    omega
  have read : classBody unicode s (s.length + 1) (0 + used) pos
        (Parser.shiftSites used ⟨negated, [], [], []⟩) >>= closed s =
      counted used (Lexer.classBody unicode pos 0 ⟨negated, [], [], []⟩ l) :=
    classBody_eq used calls h
  rwa [Nat.zero_add] at read

theorem bracket_eq (used : Nat) (h : Left s i (b :: rest)) :
    bracket unicode s used i = counted used (Lexer.charClass unicode i rest) := by
  unfold bracket Lexer.charClass
  split
  · rw [h.tail.isAt_cons, ok_bind]
    exact body_eq used true h.tail.tail
  · rename_i other
    have plain : isAt s (i + 1) Ascii.caret = .ok false := by
      cases rest with
      | nil => exact h.tail.isAt_nil _
      | cons d more =>
        rw [h.tail.isAt_cons, beq_eq_false_iff_ne.mpr fun hd => other more (by rw [hd]; rfl)]
    rw [plain, ok_bind]
    exact body_eq used false h.tail

end Classes

end Descent

end Backtrack
