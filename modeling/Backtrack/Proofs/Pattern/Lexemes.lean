/-
# What a lexeme can be

The reader of one lexeme tries one thing after the other.  Whatever it reads, it reads in one of a
few ways, and these are listed here: `ReadsNumber` and `ReadsChar` for characters that are escaped,
`ReadsProperty` and `ReadsMember` for what classes are made of, `ReadsMembers` for their bodies,
`ReadsOpening` for the opening of a group, `ReadsEscape` for what comes after a backslash, and
`ReadsLexeme` for all lexemes.  What holds of everything that is read is proved case by case of
these relations.

The relations say what was read, and not that nothing else could have been read there.  Of the order
in which things are tried they keep only what the bytes of a lexeme depend on.
-/
import Backtrack.Pattern.Lexer

namespace Backtrack.Lexer

/-! ## 1. Characters by number

How many digits are read depends on the letter, and with braces it is as many as there are.  The
relation keeps the digits, since later on it is asked which bytes they are. -/

/-- The letter `c` and the bytes after it give a character by number: its value, and the width from
the letter on. -/
inductive ReadsNumber : Nat → Bytes → Nat × Nat → Prop
  | byte {rest : Bytes} {v : Nat} (digits : hexDigits? 2 rest = some v) :
    ReadsNumber 'x'.toNat rest (v, 3)
  | unit {rest : Bytes} {v : Nat} (digits : hexDigits? 4 rest = some v) :
    ReadsNumber 'u'.toNat rest (v, 5)
  | braces {text digits after : Bytes} {v : Nat}
    (closed : Ascii.cut? Ascii.closeBrace text = some (digits, after))
    (value : Ascii.hexNumber? digits = some v) (le : v ≤ maxCodePoint) :
    ReadsNumber 'u'.toNat (Ascii.openBrace :: text) (v, digits.length + 3)
  | control {b : UInt8} (letter : Ascii.isLetter b = true) (more : Bytes) :
    ReadsNumber 'c'.toNat (b :: more) (b.toNat % 32, 2)
  | nul (rest : Bytes) : ReadsNumber '0'.toNat rest (0, 1)

theorem readsNumber_of_numbered? {unicode : Bool} {c : Nat} {rest : Bytes} {r : Nat × Nat}
    (h : numbered? unicode c rest = some (.ok r)) : ReadsNumber c rest r := by
  unfold numbered? at h
  split at h
  · rename_i hc
    obtain ⟨v, digits, hr⟩ := Option.map_eq_some_iff.mp h
    cases hr
    exact hc ▸ .byte digits
  split at h
  · rename_i hc
    split at h
    · split at h
      · cases h
      rename_i closed
      split at h
      · rename_i value
        split at h
        · rename_i le
          cases h
          exact hc ▸ .braces closed value le
        · cases h
      · cases h
    · obtain ⟨v, digits, hr⟩ := Option.map_eq_some_iff.mp h
      cases hr
      exact hc ▸ .unit digits
  split at h
  · rename_i hc
    split at h
    · split at h
      · rename_i letter
        cases h
        exact hc ▸ .control letter _
      · cases h
    · cases h
  split at h
  · rename_i hc
    split at h
    · split at h
      · cases h
      · cases h
        exact hc ▸ .nul _
    · cases h
      exact hc ▸ .nul _
  · cases h

/-- The bytes `b :: rest` after a backslash give a character: its value, and the width from the
backslash on. -/
inductive ReadsChar : UInt8 → Bytes → Nat × Nat → Prop
  | number {b : UInt8} {rest : Bytes} {v w : Nat}
    (h : ReadsNumber (Utf8.decode b rest).1 (rest.drop ((Utf8.decode b rest).2 - 1)) (v, w)) :
    ReadsChar b rest (v, w + 1)
  | octal {b : UInt8} (digit : Ascii.isOctal b = true) (rest : Bytes) :
    ReadsChar b rest ((octal 3 0 (b :: rest)).1, (octal 3 0 (b :: rest)).2 + 1)
  | plain (b : UInt8) (rest : Bytes) :
    ReadsChar b rest (controlValue (Utf8.decode b rest).1, (Utf8.decode b rest).2 + 1)

theorem readsChar_of_charEscape {unicode : Bool} {b : UInt8} {rest : Bytes} {r : Nat × Nat}
    (h : charEscape unicode b rest = .ok r) : ReadsChar b rest r := by
  unfold charEscape at h
  dsimp only at h
  split at h
  · rename_i hn
    cases h
    exact .number (readsNumber_of_numbered? hn)
  · cases h
  · split at h
    · cases h
    split at h
    · rename_i digit
      cases h
      exact .octal digit rest
    split at h
    · cases h
    · cases h
      exact .plain b rest

/-! ## 2. Members of classes

Whether a `-` makes a range shows only when what follows it is read: nothing may follow but the
bracket, or a class escape, and then the character before the `-` stands for itself and the `-` is
read again, as a member.  `ReadsMembers` takes the two ways in which that can come about as one, and
keeps the case in which a number was given away. -/

/-- The bytes after the backslash and the letter `b` give a property, with the width from the
backslash on. -/
inductive ReadsProperty : Bool → UInt8 → Bytes → PropertyEscape × Nat → Prop
  | mk {b : UInt8} {text name after : Bytes}
    (closed : Ascii.cut? Ascii.closeBrace text = some (name, after))
    (known : (Unicode.lookup? name.toText).isSome = true) :
    ReadsProperty true b (Ascii.openBrace :: text)
      (⟨name.toText, b = Ascii.byte 'P'⟩, name.length + 4)

theorem readsProperty_of_property? {unicode : Bool} {b : UInt8} {rest : Bytes}
    {p : PropertyEscape × Nat}
    (h : property? unicode b rest = some (.ok p)) : ReadsProperty unicode b rest p := by
  unfold property? at h
  split at h
  · rename_i hu
    obtain rfl := (Bool.and_eq_true_iff.mp hu).1
    have h := Option.some.inj h
    split at h
    · split at h
      · cases h
      rename_i closed
      split at h
      · rename_i known
        cases h
        exact .mk closed known
      · cases h
    · cases h
  · cases h

/-- The bytes `b :: rest` are a member of a class, with its width. -/
inductive ReadsMember (unicode : Bool) : UInt8 → Bytes → Member × Nat → Prop
  | char {b : UInt8} (h : b ≠ Ascii.backslash) (rest : Bytes) :
    ReadsMember unicode b rest (.char (Utf8.decode b rest).1, (Utf8.decode b rest).2)
  | classEscape {e : UInt8} {k : ClassEscape} (h : classEscape? e = some k) (more : Bytes) :
    ReadsMember unicode Ascii.backslash (e :: more) (.escape k, 2)
  | property {e : UInt8} {more : Bytes} {p : PropertyEscape × Nat}
    (h : ReadsProperty unicode e more p) :
    ReadsMember unicode Ascii.backslash (e :: more) (.property p.1, p.2)
  | backspace (more : Bytes) :
    ReadsMember unicode Ascii.backslash (Ascii.byte 'b' :: more) (.char 0x08, 2)
  | minus (more : Bytes) :
    ReadsMember unicode Ascii.backslash (Ascii.minus :: more) (.char 0x2D, 2)
  | charEscape {e : UInt8} {more : Bytes} {c : Nat × Nat} (h : ReadsChar e more c) :
    ReadsMember unicode Ascii.backslash (e :: more) (.char c.1, c.2)

theorem readsMember_of_member {unicode : Bool} {b : UInt8} {rest : Bytes} {m : Member × Nat}
    (h : member unicode b rest = .ok m) : ReadsMember unicode b rest m := by
  unfold member at h
  split at h
  · rename_i hb
    cases h
    exact .char hb rest
  rename_i hb
  obtain rfl := Decidable.not_not.mp hb
  split at h
  · cases h
  rename_i e more
  split at h
  · rename_i hk
    cases h
    exact .classEscape hk more
  split at h
  · rename_i hp
    cases h
    exact .property (readsProperty_of_property? hp)
  · cases h
  split at h
  · rename_i he
    cases h
    exact he ▸ .backspace more
  split at h
  · rename_i he
    cases h
    exact he ▸ .minus more
  split at h
  · rename_i hc
    cases h
    exact .charEscape (readsChar_of_charEscape hc)
  · cases h

/-- The bytes from `pos` on are the rest of a class, with its closing bracket.  Of the class `k` was
read before, and `nodes` numbers are given away.  The result is the whole class, with how many
numbers are given away in the end, and where it stops. -/
inductive ReadsMembers (unicode : Bool) :
    Nat → Nat → CharClass → Bytes → CharClass × Nat × Nat → Prop
  | closes {pos nodes : Nat} {k : CharClass} (rest : Bytes) :
    ReadsMembers unicode pos nodes k (Ascii.closeBracket :: rest) (k, nodes, pos + 1)
  | escape {pos nodes w : Nat} {k : CharClass} {b : UInt8} {rest : Bytes} {e : ClassEscape}
    {r : CharClass × Nat × Nat} (hb : b ≠ Ascii.closeBracket)
    (hm : member unicode b rest = .ok (.escape e, w))
    (later : ReadsMembers unicode (pos + w) (nodes + 1)
      { k with escapes := k.escapes ++ [(siteIn nodes pos w, e)] } (rest.drop (w - 1)) r) :
    ReadsMembers unicode pos nodes k (b :: rest) r
  | property {pos nodes w : Nat} {k : CharClass} {b : UInt8} {rest : Bytes} {p : PropertyEscape}
    {r : CharClass × Nat × Nat} (hb : b ≠ Ascii.closeBracket)
    (hm : member unicode b rest = .ok (.property p, w))
    (later : ReadsMembers unicode (pos + w) (nodes + 1)
      { k with properties := k.properties ++ [(siteIn nodes pos w, p)] } (rest.drop (w - 1)) r) :
    ReadsMembers unicode pos nodes k (b :: rest) r
  | char {pos nodes w c : Nat} {k : CharClass} {b : UInt8} {rest : Bytes}
    {r : CharClass × Nat × Nat} (hb : b ≠ Ascii.closeBracket)
    (hm : member unicode b rest = .ok (.char c, w))
    (later : ReadsMembers unicode (pos + w) nodes { k with ranges := k.ranges ++ [⟨c, c⟩] }
      (rest.drop (w - 1)) r) :
    ReadsMembers unicode pos nodes k (b :: rest) r
  /-- A character before a `-` that makes no range, since a class escape or a property follows.
  Its number is given away by then. -/
  | noRange {pos nodes w c : Nat} {k : CharClass} {b : UInt8} {rest : Bytes}
    {r : CharClass × Nat × Nat} (hb : b ≠ Ascii.closeBracket)
    (hm : member unicode b rest = .ok (.char c, w))
    (later : ReadsMembers unicode (pos + w) (nodes + 1)
      { k with ranges := k.ranges ++ [⟨c, c⟩] } (rest.drop (w - 1)) r) :
    ReadsMembers unicode pos nodes k (b :: rest) r
  | range {pos nodes w v c d : Nat} {k : CharClass} {b x : UInt8} {rest more : Bytes}
    {r : CharClass × Nat × Nat} (hb : b ≠ Ascii.closeBracket)
    (hm : member unicode b rest = .ok (.char c, w))
    (left : rest.drop (w - 1) = Ascii.minus :: x :: more) (hx : x ≠ Ascii.closeBracket)
    (hd : member unicode x more = .ok (.char d, v)) (le : c ≤ d)
    (later : ReadsMembers unicode (pos + w + 1 + v) nodes
      { k with ranges := k.ranges ++ [⟨c, d⟩] } (more.drop (v - 1)) r) :
    ReadsMembers unicode pos nodes k (b :: rest) r

theorem readsMembers_of_classBody {unicode : Bool} {pos nodes : Nat} {k : CharClass} {s : Bytes}
    {r : CharClass × Nat × Nat} (h : classBody unicode pos nodes k s = .ok r) :
    ReadsMembers unicode pos nodes k s r := by
  fun_induction classBody unicode pos nodes k s with
  | case1 | case3 | case7 | case8 | case10 => simp at h
  | case2 pos nodes k rest =>
    obtain rfl := Except.ok.inj h
    exact .closes rest
  | case4 pos nodes k b rest hb e w hm ih => exact .escape hb hm (ih h)
  | case5 pos nodes k b rest hb p w hm ih => exact .property hb hm (ih h)
  -- A `-` right before the bracket is a member of its own, like every `-` that nothing precedes.
  | case6 pos nodes k b rest hb c w hm single more left ih => exact .char hb hm (left ▸ ih h)
  | case9 pos nodes k b rest hb c w hm x more left hx d v hd hcd ih =>
    exact .range hb hm left hx hd (Nat.le_of_not_lt hcd) (ih h)
  | case11 pos nodes k b rest hb c w hm single x more left hx m v notChar hd hu ih =>
    exact .noRange hb hm (left ▸ ih h)
  | case12 pos nodes k b rest hb c w hm single notMinus ih => exact .char hb hm (ih h)

/-! ## 3. Openings of groups -/

/-- What stands between the parenthesis and the body of a group without a name. -/
def groupSigns : List (Bytes × GroupKind) :=
  [([Ascii.question, Ascii.colon], .nonCapture), ([Ascii.question, Ascii.equals], .lookahead),
    ([Ascii.question, Ascii.exclamation], .negativeLookahead),
    ([Ascii.question, Ascii.less, Ascii.equals], .lookbehind),
    ([Ascii.question, Ascii.less, Ascii.exclamation], .negativeLookbehind)]

/-- A group opens with a parenthesis and these bytes: its kind, its name and the width of the
opening. -/
inductive ReadsOpening (names : List Bytes) : Bytes → GroupKind → Bytes → Nat → Prop
  | sign {sign : Bytes} {kind : GroupKind} (h : (sign, kind) ∈ groupSigns) (more : Bytes) :
    ReadsOpening names (sign ++ more) kind [] (sign.length + 1)
  | name {text name after : Bytes} (equals : ∀ s, text ≠ Ascii.equals :: s)
    (exclamation : ∀ s, text ≠ Ascii.exclamation :: s)
    (closed : Ascii.cut? Ascii.greater text = some (name, after))
    (proper : isGroupName name = true) (new : name ∉ names) :
    ReadsOpening names (Ascii.question :: Ascii.less :: text) .capture name (name.length + 4)
  | plain {rest : Bytes} (h : ∀ s, rest ≠ Ascii.question :: s) :
    ReadsOpening names rest .capture [] 1

theorem readsOpening_of_opening {names : List Bytes} {rest name : Bytes} {kind : GroupKind}
    {w : Nat} (h : opening names rest = .ok (kind, name, w)) :
    ReadsOpening names rest kind name w := by
  unfold opening at h
  split at h
  · cases h
    exact @ReadsOpening.sign names [_, _] _ (by decide) _
  · cases h
    exact @ReadsOpening.sign names [_, _] _ (by decide) _
  · cases h
    exact @ReadsOpening.sign names [_, _] _ (by decide) _
  · cases h
    exact @ReadsOpening.sign names [_, _, _] _ (by decide) _
  · cases h
    exact @ReadsOpening.sign names [_, _, _] _ (by decide) _
  · rename_i text equals exclamation
    split at h
    · cases h
    rename_i closed
    split at h
    · cases h
    rename_i proper
    split at h
    · cases h
    rename_i new
    cases h
    exact .name equals exclamation closed (by simpa using proper) (by simpa using new)
  · cases h
  · rename_i plain
    cases h
    exact .plain plain

/-! ## 4. Escapes -/

/-- The bytes `e :: more` after a backslash are an escape, with what is read. -/
inductive ReadsEscape (flags : Flags) (captures : Nat) : UInt8 → Bytes → Reading → Prop
  | classEscape {e : UInt8} {k : ClassEscape} (h : classEscape? e = some k) (more : Bytes) :
    ReadsEscape flags captures e more ⟨.leaf (.escape k), 1, 2⟩
  | wordBoundary (more : Bytes) :
    ReadsEscape flags captures (Ascii.byte 'b') more ⟨.anchor .wordBoundary, 1, 2⟩
  | nonWordBoundary (more : Bytes) :
    ReadsEscape flags captures (Ascii.byte 'B') more ⟨.anchor .nonWordBoundary, 1, 2⟩
  | name {text name after : Bytes} (closed : Ascii.cut? Ascii.greater text = some (name, after)) :
    ReadsEscape flags captures (Ascii.byte 'k') (Ascii.less :: text)
      ⟨.reference 0 name, 1, name.length + 4⟩
  | property {e : UInt8} {more : Bytes} {p : PropertyEscape × Nat}
    (h : ReadsProperty flags.unicode e more p) :
    ReadsEscape flags captures e more ⟨.leaf (.property p.1), 1, p.2⟩
  | number {e : UInt8} {more : Bytes} {n : Nat} (digit : Ascii.isDigit e = true)
    (positive : e ≠ Ascii.byte '0')
    (value : number? ((e :: more).takeWhile Ascii.isDigit) = some n) (found : n ≤ captures) :
    ReadsEscape flags captures e more
      ⟨.reference n [], 1, ((e :: more).takeWhile Ascii.isDigit).length + 1⟩
  | char {e : UInt8} {more : Bytes} {c : Nat × Nat} (h : ReadsChar e more c) :
    ReadsEscape flags captures e more ⟨.leaf (.char c.1), 1, c.2⟩

theorem readsEscape_of_escape {flags : Flags} {captures : Nat} {e : UInt8} {more : Bytes}
    {r : Reading} (h : escape flags captures (e :: more) = .ok r) :
    ReadsEscape flags captures e more r := by
  unfold escape at h
  dsimp only at h
  split at h
  · rename_i hk
    obtain rfl := Except.ok.inj h
    exact .classEscape hk more
  split at h
  · rename_i he
    obtain rfl := Except.ok.inj h
    exact he ▸ .wordBoundary more
  split at h
  · rename_i he
    obtain rfl := Except.ok.inj h
    exact he ▸ .nonWordBoundary more
  split at h
  · rename_i he
    split at h
    · split at h
      · cases h
      · rename_i closed
        obtain rfl := Except.ok.inj h
        exact he ▸ .name closed
    · split at h
      · cases h
      · split at h
        · obtain rfl := Except.ok.inj h
          exact .char (readsChar_of_charEscape ‹_›)
        · cases h
  split at h
  · rename_i hp
    obtain rfl := Except.ok.inj h
    exact .property (readsProperty_of_property? hp)
  · cases h
  split at h
  · rename_i he
    rw [Bool.and_eq_true, bne_iff_ne] at he
    split at h
    · rename_i hn
      obtain rfl := Except.ok.inj h
      obtain ⟨value, found⟩ := Option.filter_eq_some_iff.mp hn
      exact .number he.1 he.2 value (by simpa using found)
    · split at h
      · cases h
      · split at h
        · obtain rfl := Except.ok.inj h
          exact .char (readsChar_of_charEscape ‹_›)
        · cases h
  · split at h
    · obtain rfl := Except.ok.inj h
      exact .char (readsChar_of_charEscape ‹_›)
    · cases h

/-! ## 5. Lexemes

The cases are told by the first byte.  A byte that is no sign stands for the character that starts
with it, which may have more bytes. -/

/-- The bytes that never stand for themselves where a lexeme starts. -/
def signs : List UInt8 :=
  [Ascii.openParen, Ascii.closeParen, Ascii.pipe, Ascii.openBracket, Ascii.dot, Ascii.caret,
    Ascii.dollar, Ascii.backslash, Ascii.star, Ascii.plus, Ascii.question]

/-- The bytes `b :: rest` start with a lexeme, with what is read. -/
inductive ReadsLexeme (flags : Flags) (captures : Nat) (names : List Bytes) (pos : Nat) :
    Before → UInt8 → Bytes → Reading → Prop
  | count {b : UInt8} {rest : Bytes} {c : Count} {w : Nat} (h : count? b rest = .ok (some (c, w))) :
    ReadsLexeme flags captures names pos .repeatable b rest ⟨.count c, 1, w⟩
  | opening {rest name : Bytes} {kind : GroupKind} {w : Nat} (before : Before)
    (h : ReadsOpening names rest kind name w) :
    ReadsLexeme flags captures names pos before Ascii.openParen rest ⟨.opening kind name, 0, w⟩
  | closing (before : Before) (rest : Bytes) :
    ReadsLexeme flags captures names pos before Ascii.closeParen rest ⟨.closing, 0, 1⟩
  | bar (before : Before) (rest : Bytes) :
    ReadsLexeme flags captures names pos before Ascii.pipe rest ⟨.bar, 0, 1⟩
  | charClass {rest : Bytes} {k : CharClass} {nodes stop : Nat} (before : Before)
    (h : charClass flags.unicode pos rest = .ok (k, nodes, stop)) :
    ReadsLexeme flags captures names pos before Ascii.openBracket rest
      ⟨.leaf (.charClass k), nodes + 1, stop - pos⟩
  | dot (before : Before) (rest : Bytes) :
    ReadsLexeme flags captures names pos before Ascii.dot rest ⟨.leaf .dot, 1, 1⟩
  | start (before : Before) (rest : Bytes) :
    ReadsLexeme flags captures names pos before Ascii.caret rest ⟨.anchor .start, 1, 1⟩
  | stop (before : Before) (rest : Bytes) :
    ReadsLexeme flags captures names pos before Ascii.dollar rest ⟨.anchor .stop, 1, 1⟩
  | escape {e : UInt8} {more : Bytes} {r : Reading} (before : Before)
    (h : ReadsEscape flags captures e more r) :
    ReadsLexeme flags captures names pos before Ascii.backslash (e :: more) r
  | char {b : UInt8} (before : Before) (h : b ∉ signs) (rest : Bytes) :
    ReadsLexeme flags captures names pos before b rest
      ⟨.leaf (.char (Utf8.decode b rest).1), 1, (Utf8.decode b rest).2⟩

section Lexeme

variable {flags : Flags} {captures pos : Nat} {names : List Bytes} {before : Before} {b : UInt8}
  {rest : Bytes} {r : Reading}

theorem readsLexeme_of_fresh (before : Before) (h : fresh flags captures names pos b rest = .ok r) :
    ReadsLexeme flags captures names pos before b rest r := by
  have char : b ∉ signs → (.ok ⟨.leaf (.char (Utf8.decode b rest).1), 1,
      (Utf8.decode b rest).2⟩ : Except Fault Reading) = .ok r →
        ReadsLexeme flags captures names pos before b rest r := by
    intro hb h
    obtain rfl := Except.ok.inj h
    exact .char before hb rest
  unfold fresh at h
  dsimp only at h
  split at h
  · split at h
    · rename_i ho
      obtain rfl := Except.ok.inj h
      exact .opening before (readsOpening_of_opening ho)
    · cases h
  · obtain rfl := Except.ok.inj h
    exact .closing before rest
  · obtain rfl := Except.ok.inj h
    exact .bar before rest
  · split at h
    · rename_i hk
      obtain rfl := Except.ok.inj h
      exact .charClass before hk
    · cases h
  · obtain rfl := Except.ok.inj h
    exact .dot before rest
  · obtain rfl := Except.ok.inj h
    exact .start before rest
  · obtain rfl := Except.ok.inj h
    exact .stop before rest
  · cases rest with
    | nil => cases h
    | cons e more => exact .escape before (readsEscape_of_escape h)
  · cases h
  · cases h
  · cases h
  · split at h
    · cases h
    · split at h
      · cases h
      · exact char (by decide) h
  · split at h
    · cases h
    · exact char (by decide) h
  · split at h
    · cases h
    · exact char (by decide) h
  · exact char (by simp_all [signs]) h

/-- **Everything that is read is read in one of these ways.**  The reader is followed branch by
branch here, and nowhere else. -/
theorem readsLexeme_of_lexeme (h : lexeme flags captures names pos before b rest = .ok r) :
    ReadsLexeme flags captures names pos before b rest r := by
  unfold lexeme at h
  split at h
  · exact readsLexeme_of_fresh _ h
  · split at h
    · cases h
    · cases h
    · exact readsLexeme_of_fresh _ h
  · split at h
    · cases h
    · rename_i hc
      obtain rfl := Except.ok.inj h
      exact .count hc
    · exact readsLexeme_of_fresh _ h

end Lexeme

end Backtrack.Lexer
