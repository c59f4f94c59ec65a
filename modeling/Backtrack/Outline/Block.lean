/-
# Block scalars

A block scalar is the lines below its header that are further to the right than what it belongs
to, line breaks included.  After `|` the lines stay as they are, and after `>` they are folded,
except where a line starts with a blank.  The header may say how far to the right the lines are,
if the first of them does not show it, and what becomes of the line breaks at the end: one stays,
or none of them (`-`), or all (`+`).
-/
import Backtrack.Outline.Cursor

namespace Backtrack.Outline

/-! ## 1. Headers -/

/-- How many line breaks stay at the end of a block. -/
inductive Ending where
  | one
  | none
  | all
deriving Repr, DecidableEq

/-- What the header of a block says. -/
structure BlockHeader where
  ending : Ending := .one
  /-- How far the lines are to the right of what the block belongs to. -/
  indent : Option Nat := Option.none
deriving Repr, DecidableEq

/-- The ending a header asks for, if it does. -/
def ending? : List Char → Option Ending
  | '+' :: _ => some .all
  | '-' :: _ => some .none
  | _ => Option.none

/-- The indentation a header asks for, if it does.  None at all cannot be asked for. -/
def blockIndent? : List Char → Except Fault (Option Nat)
  | c :: _ =>
    if c == '0' then .error .blockHeader
    else .ok (if c.isDigit then some (c.toNat - 48) else Option.none)
  | [] => .ok Option.none

/-- Reads a header: the two indications in any order, and nothing else but a comment on the
line. -/
def Cursor.blockHeader (c : Cursor) : Except Fault (BlockHeader × Cursor) := do
  let c := c.skip 1
  let (header, c) ←
    match ending? c.rest with
    | some e => do
      let c := c.skip 1
      let indent ← blockIndent? c.rest
      pure (({ ending := e, indent := indent } : BlockHeader), c.skip indent.toList.length)
    | Option.none => do
      let indent ← blockIndent? c.rest
      let c := c.skip indent.toList.length
      match indent, ending? c.rest with
      | some _, some e => pure ({ ending := e, indent := indent }, c.skip 1)
      | _, _ => pure ({ indent := indent }, c)
  let c := (c.skipWhile isBlank).skipComment
  if c.rest.head?.all isBreak then pure (header, c.skipBreak) else .error .blockHeader

/-! ## 2. Lines -/

/-- Moves over empty lines and over the indentation of the line after them.  The indentation is
`indent` columns wide, or anything if that is not known yet.  Gives the line breaks and the
greatest column. -/
def blockGap (indent : Option Nat) :
    (fuel : Nat) → (deepest : Nat) → Cursor → Except Fault (List Char × Nat × Cursor)
  | 0, deepest, c => .ok ([], deepest, c)
  | fuel + 1, deepest, c =>
    let spaces := (c.rest.takeWhile (· == ' ')).length
    let c := c.skip (match indent with
      | some n => min spaces (n - c.column)
      | Option.none => spaces)
    let deepest := max deepest c.column
    if c.isAt '\t' && indent.all (c.column < ·) then .error .tab
    else if c.rest.head?.any isBreak then
      match blockGap indent fuel deepest c.skipBreak with
      | .error f => .error f
      | .ok (breaks, deepest, c') => .ok (c.breakText ++ breaks, deepest, c')
    else .ok ([], deepest, c)

/-- The text of a block so far. -/
structure BlockText where
  text : List Char := []
  /-- What the line break after the last line leaves. -/
  lineBreak : List Char := []
  /-- What the empty lines after the last line leave. -/
  empties : List Char := []
  /-- Whether the last line started with a blank. -/
  startsBlank : Bool := false

/-- A block with one more line. -/
def BlockText.add (b : BlockText) (fold : Bool) (line : List Char) : BlockText :=
  let startsBlank := line.head?.any isBlank
  let between :=
    if fold && !b.startsBlank && !startsBlank && b.lineBreak == ['\n'] then
      if b.empties.isEmpty then [' '] else []
    else b.lineBreak
  { text := b.text ++ between ++ b.empties ++ line, startsBlank := startsBlank }

/-- A block whose lines have come to an end. -/
def BlockText.finish (b : BlockText) : Ending → List Char
  | .none => b.text
  | .one => b.text ++ b.lineBreak
  | .all => b.text ++ b.lineBreak ++ b.empties

/-- Reads the lines of a block that start at a column. -/
def blockLines (fold : Bool) (indent : Nat) :
    (fuel : Nat) → BlockText → Cursor → Except Fault (BlockText × Cursor)
  | 0, b, c => .ok (b, c)
  | fuel + 1, b, c =>
    if c.column != indent || c.rest.isEmpty then .ok (b, c)
    else
      let line := c.rest.takeWhile (!isBreak ·)
      let c := c.skip line.length
      match blockGap (some indent) (c.rest.length + 1) 0 c.skipBreak with
      | .error f => .error f
      | .ok (empties, _, c') =>
        blockLines fold indent fuel
          { b.add fold line with lineBreak := c.breakText, empties := empties } c'

/-- Reads a block scalar that belongs to something at the column before `least`. -/
def Cursor.block (c : Cursor) (least : Nat) : Except Fault (List Char × Cursor) := do
  let fold := c.isAt '>'
  let (header, c) ← c.blockHeader
  let known := header.indent.map (· + (least - 1))
  let (empties, deepest, c) ← blockGap known (c.rest.length + 1) 0 c
  let indent := known.getD (max deepest (max least 1))
  let (b, c) ← blockLines fold indent (c.rest.length + 1) { empties := empties } c
  return (b.finish header.ending, c)

end Backtrack.Outline
