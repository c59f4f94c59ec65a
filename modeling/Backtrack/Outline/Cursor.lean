/-
# Places in the text of an outline

A cursor is a place in a text: what comes after it, and its line and column.  Lines end with a
line feed, a carriage return, both, or one of the line breaks beyond ASCII.
-/
import Backtrack.Outline.Basic

namespace Backtrack.Outline

/-! ## 1. Characters -/

/-- The characters that end a line. -/
def isBreak (c : Char) : Bool :=
  c == '\n' || c == '\r' || c == '\u0085' || c == '\u2028' || c == '\u2029'

/-- The characters that separate words on a line. -/
def isBlank (c : Char) : Bool := c == ' ' || c == '\t'

/-- The characters that separate words. -/
def isSpace (c : Char) : Bool := isBlank c || isBreak c

/-- The characters names are made of. -/
def isNameChar (c : Char) : Bool := c.isAlphanum || c == '_' || c == '-'

/-- The characters a text may contain at all. -/
def isAllowed (c : Char) : Bool :=
  let n := c.toNat
  n == 0x09 || n == 0x0A || n == 0x0D || (0x20 ≤ n && n ≤ 0x7E) || n == 0x85 ||
    (0xA0 ≤ n && n ≤ 0xFFFD) || 0x10000 ≤ n

/-- Whether a word ends here: a blank, a line break or the end of the text comes next. -/
def endsWord : List Char → Bool
  | [] => true
  | c :: _ => isSpace c

/-- Whether three dashes or three dots stand here as a word. -/
def isMarker (cs : List Char) : Bool :=
  (cs.take 3 == ['-', '-', '-'] || cs.take 3 == ['.', '.', '.']) && endsWord (cs.drop 3)

/-- The value of a hexadecimal digit. -/
def hexValue? (c : Char) : Option Nat :=
  if c.isDigit then some (c.toNat - 48)
  else if 'a' ≤ c.toLower ∧ c.toLower ≤ 'f' then some (c.toLower.toNat - 87)
  else none

/-- The number hexadecimal digits denote. -/
def hexNumber? (digits : List Char) : Option Nat :=
  digits.foldl (fun n c => n.bind fun n => (hexValue? c).map (n * 16 + ·)) (some 0)

/-! ## 2. Cursors -/

/-- A place in a text. -/
structure Cursor where
  /-- The text from here on. -/
  rest : List Char
  /-- The number of characters before. -/
  index : Nat := 0
  line : Nat := 1
  column : Nat := 0
  /-- Whether there is a line break before, with nothing but blanks since. -/
  afterBreak : Bool := false

namespace Cursor

/-- The next character. -/
def next? (c : Cursor) : Option Char := c.rest.head?

/-- Whether the next character is `x`. -/
def isAt (c : Cursor) (x : Char) : Bool := c.rest.head? == some x

/-- Moves over `n` characters of the line. -/
def skip (c : Cursor) (n : Nat) : Cursor :=
  { c with
    rest := c.rest.drop n
    index := c.index + n
    column := c.column + n
    afterBreak := c.afterBreak && (c.rest.take n).all isBlank }

/-- Moves over characters of the line as long as they satisfy `p`. -/
def skipWhile (c : Cursor) (p : Char → Bool) : Cursor := c.skip (c.rest.takeWhile p).length

/-- Moves to the start of the next line if the line ends here. -/
def skipBreak (c : Cursor) : Cursor :=
  let width := if c.rest.take 2 == ['\r', '\n'] then 2 else 1
  if c.rest.head?.any isBreak then
    { c with
      rest := c.rest.drop width
      index := c.index + width
      line := c.line + 1
      column := 0
      afterBreak := true }
  else c

/-- What a line break leaves in a text that goes on over it.  The separators of lines and of
paragraphs stay what they are, all others become line feeds. -/
def breakText (c : Cursor) : List Char :=
  match c.rest with
  | '\u2028' :: _ => ['\u2028']
  | '\u2029' :: _ => ['\u2029']
  | x :: _ => if isBreak x then ['\n'] else []
  | [] => []

/-- Moves over a comment, if one starts here, up to the end of its line. -/
def skipComment (c : Cursor) : Cursor := if c.isAt '#' then c.skipWhile (!isBreak ·) else c

/-! ## 3. Progress -/

theorem length_skip_lt {c : Cursor} {x : Char} {xs : List Char} (h : c.rest = x :: xs) :
    (c.skip 1).rest.length < c.rest.length := by
  simp [skip, h]

theorem length_skipBreak_lt {c : Cursor} {x : Char} {xs : List Char} (h : c.rest = x :: xs)
    (hx : isBreak x = true) : c.skipBreak.rest.length < c.rest.length := by
  simp only [skipBreak, h, List.head?_cons, Option.any_some, hx, if_true, List.length_drop,
    List.length_cons]
  split <;> omega

end Cursor

/-! ## 4. Gaps

Words are separated by blanks and line breaks.  On one line the blanks count; over the end of a
line only the line breaks do, and where a text is folded a single one becomes a space. -/

/-- What stands between two words. -/
structure Gap where
  /-- The blanks before the first line break. -/
  blanks : List Char := []
  /-- What the line breaks leave. -/
  breaks : List Char := []
deriving Repr, DecidableEq

/-- The line breaks of a folded text. -/
def folded : List Char → List Char
  | ['\n'] => [' ']
  | '\n' :: more => more
  | breaks => breaks

/-- What a gap contributes to a folded text. -/
def Gap.text (g : Gap) : List Char := if g.breaks.isEmpty then g.blanks else folded g.breaks

/-- Moves over blanks and line breaks.  After a line break no tab may stand before the column
`indent`; `broken` says whether there has been one. -/
def Cursor.gap (indent : Nat) (broken : Bool) (c : Cursor) : Except Fault (Gap × Cursor) :=
  match _h : c.rest with
  | [] => .ok ({}, c)
  | x :: _ =>
    if isBlank x then
      if broken && c.column < indent && x == '\t' then .error .tab
      else
        match gap indent broken (c.skip 1) with
        | .error f => .error f
        | .ok (g, c') => .ok (if broken then g else { g with blanks := x :: g.blanks }, c')
    else if _hx : isBreak x then
      match gap indent true c.skipBreak with
      | .error f => .error f
      | .ok (g, c') => .ok ({ g with breaks := c.breakText ++ g.breaks }, c')
    else .ok ({}, c)
termination_by c.rest.length
decreasing_by
  · exact Cursor.length_skip_lt _h
  · exact Cursor.length_skipBreak_lt _h _hx

end Backtrack.Outline
