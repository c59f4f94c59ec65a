/-
# Reports for people

A line with the verdict, followed by the first few trails.  Each entry of a trail shows the
characters both derivations accept and the source with the two sides highlighted.
-/
import Backtrack.Report.Basic
import Backtrack.Report.Highlight

namespace Backtrack.Report

variable (paint : Painter)

/-- How many trails are shown. -/
def maxTextTrails : Nat := 5

/-- A text padded with blanks to twelve characters. -/
def padded (s : String) : String := s ++ String.ofList (List.replicate (12 - s.length) ' ')

/-- One entry of a trail. -/
def entryText (colored : Bool) (checked : Bytes) (e : Entry) : Bytes :=
  Bytes.ofString ("    " ++ padded e.shared.text ++ " ") ++
    Highlight.text paint colored checked e.left.span e.right.span ++ [Ascii.newline]

/-- Trails, numbered from `i` on. -/
def trailsText (colored : Bool) (checked : Bytes) (i : Nat) : List Trail → Bytes
  | [] => []
  | t :: ts =>
    Bytes.ofString ("  trail " ++ toString i ++ ":\n") ++
      t.entries.flatMap (entryText paint colored checked) ++
        trailsText colored checked (i + 1) ts

/-- The first part of a report: the pattern. -/
def titleText (r : Report) : Bytes :=
  Ascii.slash :: r.pattern ++ Bytes.ofString ("/" ++ r.flags.letters ++ ": ")

/-- A report as text. -/
def text (r : Report) (colored : Bool) : Bytes :=
  match r.error with
  | some e =>
    r.titleText ++ paint.print colored .failed (Bytes.ofString "error") ++
      Bytes.ofString ": " ++ e.message ++ [Ascii.newline]
  | none =>
    let verdict :=
      if r.safe then paint.print colored .safe (Bytes.ofString "safe")
      else paint.print colored .alert (Bytes.ofString "unsafe")
    let summary := " (score " ++ r.score.text ++ ", " ++ r.status.text ++ " after " ++
      toString r.steps ++ " steps)\n"
    let revised :=
      if r.downgraded then
        paint.print colored .dim
          (Bytes.ofString "  checked as /" ++ r.checked ++ Bytes.ofString "/\n")
      else []
    let more := r.trails.length - maxTextTrails
    let others :=
      if 0 < more then
        paint.print colored .dim (Bytes.ofString ("  ... " ++ toString more ++ " more trails\n"))
      else []
    r.titleText ++ verdict ++ Bytes.ofString summary ++ revised ++
      trailsText paint colored r.checked 1 (r.trails.take maxTextTrails) ++ others

end Backtrack.Report
