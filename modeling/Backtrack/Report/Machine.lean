/-
# Reports for machines

Reports are written as a list of objects.  Fields that say nothing are left out: an error where
there is none, trails where none were found, the searched source unless it was revised.
-/
import Backtrack.Report.Basic
import Backtrack.Text.Document

namespace Backtrack.Report

open Document

/-- A text that is always well formed. -/
def plain (s : String) : Document := .text (Bytes.ofString s)

/-- The flags of a pattern. -/
def flagsDocument (f : Flags) : Document :=
  .object [("ignoreCase", .truth f.ignoreCase), ("dotAll", .truth f.dotAll),
    ("unicode", .truth f.unicode), ("multiline", .truth f.multiline)]

/-- An iteration of a side. -/
def iterationDocument (i : Turn) : Document :=
  .object ([("offset", .number i.quantifier.site.start), ("iteration", .number i.index)] ++
    if i.optional then [("optional", .truth true)] else [])

/-- A side of an entry. -/
def sideDocument (s : Side) : Document :=
  .object ([("span", .list [.number s.span.start, .number s.span.stop])] ++
    (if s.iterations.isEmpty then []
      else [("quantifiers", .list (s.iterations.map iterationDocument))]) ++
    if s.via.isEmpty then []
      else [("backreferences", .list (s.via.map fun r => .number r.site.start))])

/-- An entry of a trail. -/
def entryDocument (e : Entry) : Document :=
  .object [("intersection", plain e.shared.text), ("left", sideDocument e.left),
    ("right", sideDocument e.right)]

/-- A trail. -/
def trailDocument (t : Trail) : Document := .list (t.entries.map entryDocument)

/-- An estimate. -/
def scoreDocument (e : Estimate) : Document :=
  .object [("infinite", .truth (e == .infinite)), ("value", .number e.value)]

/-- A report. -/
def document (r : Report) : Document :=
  let head := [("pattern", Document.text r.pattern), ("flags", flagsDocument r.flags)]
  let verdict := [("safe", Document.truth r.safe)]
  let course := [("status", plain r.status.text), ("steps", Document.number r.steps)]
  let mark := if r.downgraded then [("downgraded", Document.truth true)] else []
  match r.error with
  | some e =>
    let error := if e.message.isEmpty then [] else [("error", Document.text e.message)]
    .object (head ++ verdict ++ course ++ error ++ mark)
  | none =>
    let checked :=
      if r.downgraded && !r.checked.isEmpty then [("checked", Document.text r.checked)] else []
    let trails :=
      if r.trails.isEmpty then [] else [("trails", Document.list (r.trails.map trailDocument))]
    .object (head ++ checked ++ verdict ++ [("score", scoreDocument r.score)] ++ course ++
      trails ++ mark)

/-- Reports as an indented document. -/
def machineText (rs : List Report) : String := (Document.list (rs.map document)).render

end Backtrack.Report
