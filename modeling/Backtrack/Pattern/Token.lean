/-
# Tokens

Between the bytes of a source and its tree stand the tokens: the leaves of the tree, the three
marks that give it its shape (an opening with the kind of group it opens, a closing, a bar),
and counts, which repeat what stands before them.

`Token.text` writes a token.  A lexeme is a token read from a source, with its bytes and the
number of nodes it introduces; the sites inside a class count from the class on.
-/
import Backtrack.Pattern.Node
import Backtrack.Unicode.Printable

namespace Backtrack

/-- The units a pattern is written in. -/
inductive Token where
  | leaf (s : Shape)
  | anchor (k : Anchor)
  | reference (index : Nat) (name : Bytes)
  | opening (kind : GroupKind) (name : Bytes)
  | closing
  | bar
  | count (c : Count)
deriving Repr, DecidableEq

/-- A token in a source: its bytes `[start, stop)` and how many nodes it introduces. -/
structure Lexeme where
  start : Nat
  stop : Nat
  nodes : Nat
  token : Token
deriving Repr, DecidableEq

/-! ## 1. Writing characters -/

/-- The bytes of an escaped ASCII character. -/
def escaped (c : Nat) : Bytes := Ascii.backslash :: Utf8.encode c

/-- The letter of a control character that has one. -/
def controlLetter? (c : Nat) : Option Char :=
  match c with
  | 0x0A => some 'n'
  | 0x0D => some 'r'
  | 0x09 => some 't'
  | 0x0B => some 'v'
  | 0x0C => some 'f'
  | _ => none

/-- A character that means itself, when it is no member of `special`. -/
def plainText (special : List Char) (c : Nat) : Bytes :=
  match controlLetter? c with
  | some l => escaped l.toNat
  | none =>
    if special.any (·.toNat == c) then escaped c
    else if c < 0x20 ∨ c = 0x7F then Bytes.ofString ("\\x" ++ Ascii.upperHex 2 c)
    else if !Unicode.isPrintable c ∧ c ≤ 0xFFFF then
      Bytes.ofString ("\\u" ++ Ascii.upperHex 4 c)
    else Utf8.encode c

/-- A character outside of classes. -/
def charText (c : Nat) : Bytes :=
  plainText ['\\', '^', '$', '.', '|', '?', '*', '+', '(', ')', '[', ']', '\x7b', '\x7d', '/'] c

/-- A character inside a class. -/
def memberText (c : Nat) : Bytes := plainText ['\\', ']', '^', '-', '['] c

/-! ## 2. Writing tokens -/

/-- The letter of a class escape. -/
def ClassEscape.letter (e : ClassEscape) : Char :=
  match e.kind, e.negated with
  | .digit, false => 'd'
  | .digit, true => 'D'
  | .word, false => 'w'
  | .word, true => 'W'
  | .space, false => 's'
  | .space, true => 'S'

/-- A class escape. -/
def ClassEscape.text (e : ClassEscape) : Bytes := escaped e.letter.toNat

/-- A property escape. -/
def PropertyEscape.text (p : PropertyEscape) : Bytes :=
  Bytes.ofString ((if p.negated then "\\P\x7b" else "\\p\x7b") ++ p.name ++ "\x7d")

/-- A member or a range of members of a class. -/
def classRangeText (r : CodePoint.Range) : Bytes :=
  if r.lo = r.hi then memberText r.lo.toNat
  else memberText r.lo.toNat ++ Ascii.minus :: memberText r.hi.toNat

/-- A class: its ranges, then its escapes, then its properties. -/
def CharClass.text (k : CharClass) : Bytes :=
  Ascii.openBracket :: ((if k.negated then [Ascii.caret] else []) ++
    k.ranges.flatMap classRangeText ++ k.escapes.flatMap (·.2.text) ++
    k.properties.flatMap (·.2.text) ++ [Ascii.closeBracket])

/-- A leaf. -/
def Shape.text : Shape → Bytes
  | .char c => charText c
  | .dot => [Ascii.dot]
  | .escape e => e.text
  | .property p => p.text
  | .charClass k => k.text

/-- An anchor. -/
def Anchor.text : Anchor → Bytes
  | .start => [Ascii.caret]
  | .stop => [Ascii.dollar]
  | .wordBoundary => Bytes.ofString "\\b"
  | .nonWordBoundary => Bytes.ofString "\\B"

/-- An opening parenthesis with what makes it one of its kind. -/
def GroupKind.openingText (kind : GroupKind) (name : Bytes) : Bytes :=
  match kind with
  | .capture =>
    if name.isEmpty then [Ascii.openParen] else Bytes.ofString "(?<" ++ name ++ [Ascii.greater]
  | .nonCapture => Bytes.ofString "(?:"
  | .lookahead => Bytes.ofString "(?="
  | .negativeLookahead => Bytes.ofString "(?!"
  | .lookbehind => Bytes.ofString "(?<="
  | .negativeLookbehind => Bytes.ofString "(?<!"

/-- A count in its shortest form. -/
def Count.text (c : Count) : Bytes :=
  let braces :=
    match c.min, c.max with
    | 0, none => "*"
    | 1, none => "+"
    | 0, some 1 => "?"
    | m, none => "\x7b" ++ toString m ++ ",\x7d"
    | m, some n =>
      if m = n then "\x7b" ++ toString m ++ "\x7d"
      else "\x7b" ++ toString m ++ "," ++ toString n ++ "\x7d"
  Bytes.ofString (braces ++ if c.lazy then "?" else "")

namespace Token

/-- The bytes of a token.  A reference with a name is written by name. -/
def text : Token → Bytes
  | leaf s => s.text
  | anchor k => k.text
  | reference index name =>
    if name.isEmpty then Ascii.backslash :: Bytes.ofString (toString index)
    else Bytes.ofString "\\k<" ++ name ++ [Ascii.greater]
  | opening kind name => kind.openingText name
  | closing => [Ascii.closeParen]
  | bar => [Ascii.pipe]
  | count c => c.text

end Token

end Backtrack
