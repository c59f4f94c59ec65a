/-
# Outlines

An outline is the data form of a settings file: scalars, mappings and lists, laid out by
indentation or written between brackets.

    budget: &usual     # a mapping inside of a mapping
      max_steps: 500
      timeout: "3s"
    flags: {unicode: true}

An outline keeps the text of its scalars, whether they were quoted and the tag they were given;
what a scalar means is decided by whoever wants it (`Outline.Scalar`).  A part with an anchor may
be used again by its alias, and an alias may well stand inside of the part it stands for, so an
outline does not hold the part but its number, and the document has a table of them.
-/

namespace Backtrack

/-- A tree of scalars, mappings and lists. -/
inductive Outline where
  /-- A text, with its tag if it was given one. -/
  | scalar (tag : Option String) (quoted : Bool) (text : String)
  | mapping (entries : List (Outline × Outline))
  | list (items : List Outline)
  /-- Stands for the part with the number `target`. -/
  | reuse (name : String) (target : Nat)

namespace Outline

/-- What stands where nothing is written. -/
def null : Outline := .scalar none false ""

/-- An outline with the parts its aliases stand for. -/
structure Document where
  root : Outline := null
  /-- The parts with an anchor, by their numbers. -/
  anchored : List (Nat × Outline) := []
  /-- No less than the depth of the outline and the number of its aliases. -/
  extent : Nat := 0

/-- What an outline is when aliases are followed.  An alias never stands for an alias. -/
def Document.follow (d : Document) : Outline → Outline
  | .reuse _ target => (d.anchored.lookup target).getD null
  | o => o

/-! ## Faults -/

/-- What makes a text no outline. -/
inductive Fault where
  /-- A tab where the indentation is. -/
  | tab
  /-- A character that cannot start anything. -/
  | character
  /-- A part of the text with a character that no text may contain. -/
  | unreadable
  /-- A quoted text without an end. -/
  | quote
  | escape
  | blockHeader
  | anchor
  | unknownAnchor
  | tag
  | unknownTag
  | directive
  /-- A key without its colon. -/
  | keyWithoutColon
  /-- A colon, dash or question mark where no entry may start. -/
  | entry
  /-- Something that does not belong where it stands. -/
  | misplaced
  | tooDeep
deriving Repr, DecidableEq

/-- The wording of a fault. -/
def Fault.text : Fault → String
  | tab => "found a tab in the indentation"
  | character => "found a character that cannot start anything"
  | unreadable => "found a character that is not allowed"
  | quote => "found a quoted text without an end"
  | escape => "found an unknown escape"
  | blockHeader => "did not find a line break before a block of text"
  | anchor => "did not find the name of an anchor"
  | unknownAnchor => "found an alias of nothing"
  | tag => "found a malformed tag"
  | unknownTag => "found a tag with an unknown handle"
  | directive => "found a malformed directive"
  | keyWithoutColon => "could not find the colon of a key"
  | entry => "found an entry where none may start"
  | misplaced => "did not find what is expected here"
  | tooDeep => "found too many levels"

/-- A fault and the line it is on. -/
structure Malformed where
  line : Nat
  fault : Fault
deriving Repr, DecidableEq

/-- The wording of the error. -/
def Malformed.message (e : Malformed) : String :=
  "yaml: line " ++ toString e.line ++ ": " ++ e.fault.text

end Outline

end Backtrack
