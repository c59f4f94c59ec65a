/-
# Structured documents

A document is a value of the kind machines exchange: texts, numbers, truth values, lists and
objects with their fields in order.  It is written indented, two blanks for each level and every
item on a line of its own; an empty list or object stays on its line.  Texts are written in such
a way that they can be put into a web page.
-/
import Backtrack.Text.Ascii

namespace Backtrack

/-- A structured value. -/
inductive Document where
  | text (s : Bytes)
  | number (n : Int)
  | truth (b : Bool)
  | list (items : List Document)
  | object (fields : List (String × Document))

namespace Document

/-! ## 1. Texts -/

/-- A code point of a text. -/
def pointText (c : Nat) : String :=
  if c = 0x22 then "\\\""
  else if c = 0x5C then "\\\\"
  else if c = 0x08 then "\\b"
  else if c = 0x0C then "\\f"
  else if c = 0x0A then "\\n"
  else if c = 0x0D then "\\r"
  else if c = 0x09 then "\\t"
  else if c < 0x20 ∨ c = 0x3C ∨ c = 0x3E ∨ c = 0x26 ∨ c = 0x2028 ∨ c = 0x2029 then
    "\\u" ++ Ascii.lowerHex 4 c
  else String.singleton (Char.ofNat c)

/-- A text between quotes; a stray byte is written by the number of the replacement. -/
def quoted (s : Bytes) : String :=
  "\"" ++ String.join ((Utf8.glyphs s).map fun g =>
    if g.isStray then "\\ufffd" else pointText g.value) ++ "\""

/-! ## 2. Layout -/

/-- A new line at a level. -/
def newline (level : Nat) : String := "\n" ++ String.ofList (List.replicate (2 * level) ' ')

mutual

/-- A document that starts at a level. -/
def renderAt (level : Nat) : Document → String
  | text s => quoted s
  | number n => toString n
  | truth b => if b then "true" else "false"
  | list [] => "[]"
  | list (d :: ds) =>
    "[" ++ ",".intercalate (itemLines (level + 1) (d :: ds)) ++ newline level ++ "]"
  | object [] => "\x7b\x7d"
  | object (f :: fs) =>
    "\x7b" ++ ",".intercalate (fieldLines (level + 1) (f :: fs)) ++ newline level ++ "\x7d"

/-- The items of a list, each on a line of its own. -/
def itemLines (level : Nat) : List Document → List String
  | [] => []
  | d :: ds => (newline level ++ renderAt level d) :: itemLines level ds

/-- The fields of an object, each on a line of its own. -/
def fieldLines (level : Nat) : List (String × Document) → List String
  | [] => []
  | (k, d) :: fs =>
    (newline level ++ quoted (Bytes.ofString k) ++ ": " ++ renderAt level d) ::
      fieldLines level fs

end

/-- A document on lines of its own. -/
def render (d : Document) : String := renderAt 0 d ++ "\n"

end Document

end Backtrack
