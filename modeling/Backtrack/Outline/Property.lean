/-
# Anchors, tags and directives

An anchor `&name` gives a part of an outline a name, and its alias `*name` stands for that part.
A tag says what a scalar is meant to be.  It is written `!<…>` in full, or as a handle with a
suffix: `!local`, `!!int`, `!mine!size`.  Directives come before a document: `%YAML` names the
version of the language, and `%TAG` says what a handle stands for.
-/
import Backtrack.Outline.Cursor
import Backtrack.Outline.Token

namespace Backtrack.Outline

/-- Reads a name. -/
def Cursor.name (c : Cursor) : String × Cursor :=
  (String.ofList (c.rest.takeWhile isNameChar), c.skipWhile isNameChar)

/-- Reads what is after the sign of an anchor or alias. -/
def Cursor.anchorName (c : Cursor) : Except Fault (String × Cursor) :=
  let (name, c) := (c.skip 1).name
  if name.isEmpty then .error .anchor
  else if endsWord c.rest || c.rest.head?.any ("?:,]\x7d%@`".toList.contains ·) then .ok (name, c)
  else .error .anchor

/-! ## 1. Tags -/

/-- The characters a tag is made of, besides those of a name. -/
def tagSigns : List Char := ";/?:@&=+$.,!~*'()[]".toList

/-- The byte that a percent sign and two hexadecimal digits denote. -/
def percentByte? : List Char → Option Nat
  | '%' :: a :: b :: _ => hexNumber? [a, b]
  | _ => none

/-- How many bytes a character has that starts with a byte, and what of the character is in that
byte. -/
def leadingByte? (n : Nat) : Option (Nat × Nat) :=
  if n < 0x80 then some (1, n)
  else if n / 0x20 = 0x06 then some (2, n % 0x20)
  else if n / 0x10 = 0x0E then some (3, n % 0x10)
  else if n / 0x08 = 0x1E then some (4, n % 0x08)
  else none

/-- The value of a character with `count` bytes to go, and `value` read so far. -/
def percentRest : (count : Nat) → (value : Nat) → List Char → Option Nat
  | 0, value, _ => some value
  | count + 1, value, cs =>
    (percentByte? cs).bind fun n =>
      if n / 0x40 = 2 then percentRest count (value * 0x40 + n % 0x40) (cs.drop 3) else none

/-- The character that percent signs and digits denote, and how many of them there are. -/
def percentCharacter? (cs : List Char) : Option (Char × Nat) :=
  (percentByte? cs).bind fun n =>
    (leadingByte? n).bind fun l =>
      (percentRest (l.1 - 1) l.2 (cs.drop 3)).map fun v => (Char.ofNat v, 3 * l.1)

/-- Reads the longest text that may be part of a tag. -/
def tagText : (fuel : Nat) → Cursor → Except Fault (List Char × Cursor)
  | 0, c => .ok ([], c)
  | fuel + 1, c =>
    match c.rest with
    | [] => .ok ([], c)
    | x :: _ =>
      if x == '%' then
        match percentCharacter? c.rest with
        | none => .error .tag
        | some (d, width) =>
          (tagText fuel (c.skip width)).map fun r => (d :: r.1, r.2)
      else if isNameChar x || tagSigns.contains x then
        (tagText fuel (c.skip 1)).map fun r => (x :: r.1, r.2)
      else .ok ([], c)

/-- Reads a text that is part of a tag. -/
def Cursor.tagText (c : Cursor) : Except Fault (List Char × Cursor) :=
  Outline.tagText (c.rest.length + 1) c

/-- Reads a text that is part of a tag and must not be empty. -/
def Cursor.nonemptyTagText (c : Cursor) : Except Fault (List Char × Cursor) :=
  match c.tagText with
  | .ok ([], _) => .error .tag
  | r => r

/-- Reads what looks like a handle: names between exclamation marks, the second of which may be
missing. -/
def Cursor.tagHandle (c : Cursor) : List Char × Cursor :=
  let name := (c.skip 1).rest.takeWhile isNameChar
  let c' := c.skip (name.length + 1)
  if c'.isAt '!' then ('!' :: name ++ ['!'], c'.skip 1) else ('!' :: name, c')

/-- Reads a tag. -/
def Cursor.tag (c : Cursor) : Except Fault (Token × Cursor) := do
  let (t, c) ←
    if c.rest.take 2 == ['!', '<'] then do
      let (suffix, c) ← (c.skip 2).nonemptyTagText
      if c.isAt '>' then pure (Token.tag "" (String.ofList suffix), c.skip 1) else .error .tag
    else do
      let (handle, c) := c.tagHandle
      if handle.length > 1 && handle.getLast? == some '!' then
        let (suffix, c) ← c.nonemptyTagText
        pure (Token.tag (String.ofList handle) (String.ofList suffix), c)
      else
        let (more, c) ← c.tagText
        let suffix := handle.tail ++ more
        if suffix.isEmpty then pure (Token.tag "" "!", c)
        else pure (Token.tag "!" (String.ofList suffix), c)
  if endsWord c.rest then pure (t, c) else .error .tag

/-! ## 2. Directives -/

/-- Reads a number of at most two digits. -/
def Cursor.versionNumber (c : Cursor) : Except Fault (Nat × Cursor) :=
  let digits := c.rest.takeWhile Char.isDigit
  if digits.isEmpty || 2 < digits.length then .error .directive
  else .ok (digits.foldl (fun n d => n * 10 + (d.toNat - 48)) 0, c.skip digits.length)

/-- Reads a version. -/
def Cursor.version (c : Cursor) : Except Fault (Token × Cursor) := do
  let (major, c) ← (c.skipWhile isBlank).versionNumber
  if !c.isAt '.' then .error .directive
  else
    let (minor, c) ← (c.skip 1).versionNumber
    return (.version major minor, c)

/-- Reads a handle and what it stands for. -/
def Cursor.handle (c : Cursor) : Except Fault (Token × Cursor) := do
  let c := c.skipWhile isBlank
  if !c.isAt '!' then .error .directive
  else
    let (handle, c) := c.tagHandle
    if handle != ['!'] && handle.getLast? != some '!' then .error .directive
    else if !c.rest.head?.any isBlank then .error .directive
    else
      let (meaning, c) ← (c.skipWhile isBlank).nonemptyTagText
      if endsWord c.rest then
        return (.handle (String.ofList handle) (String.ofList meaning), c)
      else .error .directive

/-- Reads a directive, the end of its line included. -/
def Cursor.directive (c : Cursor) : Except Fault (Token × Cursor) := do
  let (name, c) := (c.skip 1).name
  if !endsWord c.rest then .error .directive
  else
    let (t, c) ← match name with
      | "YAML" => c.version
      | "TAG" => c.handle
      | _ => .error .directive
    let c := (c.skipWhile isBlank).skipComment
    if c.rest.head?.all isBreak then return (t, c.skipBreak) else .error .directive

end Backtrack.Outline
