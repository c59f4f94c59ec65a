/-
# Quoted scalars

In single quotes everything stands for itself, and a quote is written twice.  In double quotes a
backslash makes an escape.  A quoted scalar may go on over the end of its line, where it is
folded; a backslash at the end of a line joins it to the next one.  A line of dots or dashes that
divides documents must not come before the last quote.
-/
import Backtrack.Outline.Cursor

namespace Backtrack.Outline

/-! ## 1. Words

A word of a quoted scalar is what stands before a blank, a line break or the last quote.  It
comes with the number of characters it was written with. -/

/-- A word of a quoted scalar. -/
structure QuotedWord where
  text : List Char := []
  width : Nat := 0
  /-- Whether a backslash joins the line to the next one. -/
  joined : Bool := false

/-- A word with more in front of it. -/
def QuotedWord.after (w : QuotedWord) (c : Char) (width : Nat) : QuotedWord :=
  { w with text := c :: w.text, width := w.width + width }

/-- A word in single quotes. -/
def singleQuotedWord : List Char → QuotedWord
  | '\'' :: '\'' :: rest => (singleQuotedWord rest).after '\'' 2
  | '\'' :: _ => {}
  | c :: rest => if isSpace c then {} else (singleQuotedWord rest).after c 1
  | [] => {}

/-- The character a letter after a backslash stands for. -/
def escaped? (c : Char) : Option Char :=
  match c with
  | '0' => some '\x00'
  | 'a' => some '\x07'
  | 'b' => some '\x08'
  | 't' => some '\t'
  | '\t' => some '\t'
  | 'n' => some '\n'
  | 'v' => some '\x0b'
  | 'f' => some '\x0c'
  | 'r' => some '\r'
  | 'e' => some '\x1b'
  | ' ' => some ' '
  | '"' => some '"'
  | '\'' => some '\''
  | '\\' => some '\\'
  | 'N' => some '\u0085'
  | '_' => some '\u00a0'
  | 'L' => some '\u2028'
  | 'P' => some '\u2029'
  | _ => none

/-- How many hexadecimal digits follow a letter after a backslash. -/
def hexDigits? (c : Char) : Option Nat :=
  match c with
  | 'x' => some 2
  | 'u' => some 4
  | 'U' => some 8
  | _ => none

/-- The character that `count` hexadecimal digits denote. -/
def numbered? (count : Nat) (cs : List Char) : Option Char :=
  let digits := cs.take count
  (hexNumber? digits).bind fun n =>
    if digits.length = count ∧ n.isValidChar then some (Char.ofNat n) else none

/-- A word in double quotes. -/
def doubleQuotedWord : List Char → Except Fault QuotedWord
  | [] => .ok {}
  | '"' :: _ => .ok {}
  | ['\\'] => .error .escape
  | '\\' :: c :: rest =>
    if isBreak c then .ok { width := 1, joined := true }
    else
      match hexDigits? c with
      | some count =>
        match numbered? count rest with
        | some d => (doubleQuotedWord (rest.drop count)).map (·.after d (count + 2))
        | none => .error .escape
      | none =>
        match escaped? c with
        | some d => (doubleQuotedWord rest).map (·.after d 2)
        | none => .error .escape
  | c :: rest => if isSpace c then .ok {} else (doubleQuotedWord rest).map (·.after c 1)
termination_by cs => cs.length
decreasing_by all_goals simp only [List.length_cons, List.length_drop]; omega

/-! ## 2. Scalars -/

/-- The words of a scalar with a kind of quotes. -/
def quotedWord (quote : Char) (cs : List Char) : Except Fault QuotedWord :=
  if quote == '"' then doubleQuotedWord cs else .ok (singleQuotedWord cs)

/-- Reads the words of a quoted scalar and the gaps after them, up to and including the last
quote; `text` is what has been read. -/
def quotedWords (quote : Char) :
    (fuel : Nat) → (text : List Char) → Cursor → Except Fault (List Char × Cursor)
  | 0, _, _ => .error .quote
  | fuel + 1, text, c =>
    if (c.column == 0 && isMarker c.rest) || c.rest.isEmpty then .error .quote
    else
      match quotedWord quote c.rest with
      | .error f => .error f
      | .ok w =>
        let text := text ++ w.text
        let c := c.skip w.width
        if !w.joined && c.isAt quote then .ok (text, c.skip 1)
        else
          let c := if w.joined then c.skipBreak else c
          match c.gap 0 w.joined with
          | .error f => .error f
          | .ok (gap, c) =>
            quotedWords quote fuel (text ++ if w.joined then gap.breaks else gap.text) c

/-- Reads a quoted scalar. -/
def Cursor.quoted (c : Cursor) (quote : Char) : Except Fault (List Char × Cursor) :=
  quotedWords quote (c.rest.length + 1) [] (c.skip 1)

end Backtrack.Outline
