/-
# Highlighting two pieces of a source

Two spans of a source are shown in styles of their own, and what they have in common in a third.
The source is cut into maximal runs of bytes with the same mark, so nothing of it is lost and
the styles of neighbouring runs differ.
-/
import Backtrack.Report.Painter
import Backtrack.Search.Side

namespace Backtrack

/-- Ways to show a piece of text. -/
inductive Style where
  | safe
  | alert
  | failed
  | left
  | right
  | both
  | dim
deriving Repr, DecidableEq

/-- The attributes of a style. -/
def Style.attributes : Style → List Attribute
  | safe => [.green, .bold]
  | alert => [.red, .bold]
  | failed => [.yellow, .bold]
  | left => [.red]
  | right => [.cyan]
  | both => [.magenta]
  | dim => [.faint]

/-- Text in a style, if there are colours at all. -/
def Painter.print (paint : Painter) (colored : Bool) (style : Style) (text : Bytes) : Bytes :=
  paint colored style.attributes text

namespace Highlight

/-- Which of two spans a byte lies in. -/
structure Mark where
  left : Bool
  right : Bool
deriving Repr, DecidableEq

/-- The style of a mark; bytes in neither span are plain. -/
def Mark.style? : Mark → Option Style
  | ⟨false, false⟩ => none
  | ⟨true, false⟩ => some .left
  | ⟨false, true⟩ => some .right
  | ⟨true, true⟩ => some .both

/-- Whether a byte lies in a span. -/
def covers (s : Span) (i : Nat) : Bool := s.start ≤ (i : Int) && (i : Int) < s.stop

/-- The mark of the byte at `i`. -/
def markAt (left right : Span) (i : Nat) : Mark := ⟨covers left i, covers right i⟩

/-- Bytes with their marks, from the byte at `i` on. -/
def marked (left right : Span) : (i : Nat) → Bytes → List (Mark × UInt8)
  | _, [] => []
  | i, b :: rest => (markAt left right i, b) :: marked left right (i + 1) rest

/-- Maximal runs of bytes with the same mark. -/
def runs : List (Mark × UInt8) → List (Mark × Bytes)
  | [] => []
  | (m, b) :: rest =>
    match runs rest with
    | (m', bs) :: later => if m = m' then (m, b :: bs) :: later else (m, [b]) :: (m', bs) :: later
    | [] => [(m, [b])]

/-- A run in its style. -/
def paintRun (paint : Painter) (colored : Bool) (run : Mark × Bytes) : Bytes :=
  match run.1.style? with
  | none => run.2
  | some style => paint.print colored style run.2

/-- A source with two spans highlighted. -/
def text (paint : Painter) (colored : Bool) (source : Bytes) (left right : Span) : Bytes :=
  (runs (marked left right 0 source)).flatMap (paintRun paint colored)

end Highlight

end Backtrack
