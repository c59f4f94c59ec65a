/-
# Plain scalars

A plain scalar is a text without quotes.  It ends before a colon that ends a word, before a
comment and, inside of brackets, before whatever belongs to the brackets.  It goes on over the
end of its line as long as the lines that follow are further to the right than what it belongs
to, and no matter how they start.
-/
import Backtrack.Outline.Cursor

namespace Backtrack.Outline

/-- Whether a plain scalar ends before `c`, apart from blanks and line breaks. -/
def endsPlain (inBrackets : Bool) (c : Char) (rest : List Char) : Bool :=
  (c == ':' && endsWord rest) || (inBrackets && ",?[]\x7b\x7d".toList.contains c)

/-- The word of a plain scalar at the front of a text. -/
def plainWord (inBrackets : Bool) : List Char → List Char
  | [] => []
  | c :: rest =>
    if isSpace c || endsPlain inBrackets c rest then [] else c :: plainWord inBrackets rest

/-- A plain scalar. -/
structure Plain where
  text : List Char
  /-- Whether a line break comes after it. -/
  broken : Bool := false

/-- Reads the words of a plain scalar and the gaps after them.  It belongs to something at the
column before `indent`; `text` is what has been read and `gap` what stood after it. -/
def plainWords (inBrackets : Bool) (indent : Nat) :
    (fuel : Nat) → (text : List Char) → (gap : Gap) → Cursor → Except Fault (Plain × Cursor)
  | 0, text, gap, c => .ok (⟨text, !gap.breaks.isEmpty⟩, c)
  | fuel + 1, text, gap, c =>
    let word := plainWord inBrackets c.rest
    if (c.column == 0 && isMarker c.rest) || c.isAt '#' || word.isEmpty then
      .ok (⟨text, !gap.breaks.isEmpty⟩, c)
    else
      let text := text ++ gap.text ++ word
      match (c.skip word.length).gap indent false with
      | .error f => .error f
      | .ok (gap, c') =>
        if !inBrackets && c'.column < indent then .ok (⟨text, !gap.breaks.isEmpty⟩, c')
        else plainWords inBrackets indent fuel text gap c'

/-- Reads a plain scalar. -/
def Cursor.plain (c : Cursor) (inBrackets : Bool) (indent : Nat) :
    Except Fault (Plain × Cursor) :=
  plainWords inBrackets indent (c.rest.length + 1) [] {} c

end Backtrack.Outline
