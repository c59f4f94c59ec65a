/-
# The tokens of an outline

A text is cut into scalars and the signs that structure it.  The indentation becomes tokens too:
a mapping or list laid out by indentation starts and ends with a token of its own, and so does
each key, as if all of it had been written out.
-/
import Backtrack.Outline.Basic

namespace Backtrack.Outline

/-- A piece of a text. -/
inductive Token where
  | scalar (quoted : Bool) (text : String)
  | anchor (name : String)
  /-- Stands for the part with an anchor of this name. -/
  | reuse (name : String)
  /-- A tag: a handle, which stands for something longer, and the rest of it. -/
  | tag (handle suffix : String)
  | openMapping
  | closeMapping
  | openList
  | closeList
  | comma
  /-- The dash before an item. -/
  | dash
  /-- What comes before a key. -/
  | key
  /-- The colon before a value. -/
  | colon
  /-- A mapping laid out by indentation starts. -/
  | indentMapping
  /-- A list laid out by indentation starts. -/
  | indentList
  /-- What was laid out by indentation ends. -/
  | dedent
  /-- The version of the language. -/
  | version (major minor : Nat)
  /-- What a handle stands for. -/
  | handle (name meaning : String)
  | documentStart
  | documentEnd
  | textEnd
deriving Repr, DecidableEq

end Backtrack.Outline
