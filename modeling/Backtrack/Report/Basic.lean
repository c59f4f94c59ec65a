/-
# Reports

A report is the verdict on one pattern.  Trails that look the same in the source are reported
once, the score is worked out from the rest, and a pattern is safe when the search came to its
end and the score stays within the limit.
-/
import Backtrack.Pattern.Downgrade
import Backtrack.Report.Score
import Backtrack.Settings.Basic

namespace Backtrack

/-! ## 1. What can go wrong -/

/-- Why a pattern could not be checked. -/
inductive CheckError where
  | malformed (e : SyntaxError)
  | settings (e : InvalidSettings)
  | downgrade (e : DowngradeError)
  | search (source : Bytes) (flags : Flags) (f : Search.Failure)
deriving Repr, DecidableEq

/-- The wording of the error. -/
def CheckError.message : CheckError → Bytes
  | malformed e => Bytes.ofString e.message
  | settings e => Bytes.ofString e.message
  | downgrade e => Bytes.ofString e.message
  | search source flags f =>
    Bytes.ofString "checking /" ++ source ++
      Bytes.ofString ("/" ++ flags.letters ++ ": " ++ f.message)

/-! ## 2. Reports -/

/-- How often a matcher backtracks on the worst input, as far as it is bounded. -/
inductive Estimate where
  | infinite
  | trails (n : Nat)
deriving Repr, DecidableEq

namespace Estimate

/-- The number of trails counted. -/
def value : Estimate → Nat
  | infinite => 0
  | trails n => n

/-- The text of an estimate. -/
def text : Estimate → String
  | infinite => "infinite"
  | trails n => toString n

end Estimate

/-- The verdict on one pattern. -/
structure Report where
  /-- The source as it was given. -/
  pattern : Bytes
  flags : Flags
  /-- The source that was searched. -/
  checked : Bytes
  downgraded : Bool := false
  status : Status := .ok
  steps : Int := 0
  score : Estimate := .trails 0
  safe : Bool := false
  trails : List Trail := []
  error : Option CheckError := none
deriving Repr

/-- What a trail looks like in the source. -/
def Trail.key (t : Trail) : String :=
  String.join (t.entries.map fun e => e.left.text ++ "/" ++ e.right.text ++ ";")

/-- The first of all trails with the same key; those in `seen` are left out. -/
def dedupTrails (seen : List String) : List Trail → List Trail
  | [] => []
  | t :: ts =>
    let k := t.key
    if seen.contains k then dedupTrails seen ts else t :: dedupTrails (k :: seen) ts

namespace Report

/-- The verdict on `found`, the trails in `checked`, which stands for the pattern `source`.  The
number of steps is only handed on. -/
def ofTrails (source : Bytes) (checked : Pattern) (found : List Trail) (status : Status)
    (steps maxBacktracks : Int) : Report :=
  let trails := dedupTrails [] found
  let score := if status = .infiniteLoop then .infinite else .trails (Score.ofTrails trails)
  { pattern := source
    flags := checked.flags
    checked := checked.source
    downgraded := source != checked.source
    status := status
    steps := steps
    score := score
    safe := status == .ok && (score.value : Int) ≤ maxBacktracks
    trails := trails }

/-- The verdict on a search of `checked`, which stands for the pattern `source`. -/
def aggregate (source : Bytes) (checked : Pattern) (r : Search.Result) (maxBacktracks : Int) :
    Report :=
  ofTrails source checked r.trails r.status r.steps maxBacktracks

/-- A pattern that could not be checked. -/
def failed (source : Bytes) (flags : Flags) (e : CheckError) : Report :=
  { pattern := source, flags := flags, checked := source, error := some e }

end Report

/-! ## 3. Checking -/

/-- Checks a pattern.  Everything that happens is logged. -/
def Pattern.check (p : Pattern) (s : Settings) (watch : Search.Watch) :
    List Log.Record × Except CheckError Report :=
  match s.invalid? with
  | some e => ([], .error (.settings e))
  | none =>
    match if s.downgrade then p.downgrade else .ok ⟨p, false, []⟩ with
    | .error e => ([], .error (.downgrade e))
    | .ok d =>
      let revised : List Log.Record :=
        if d.changed then
          [⟨.info, "downgraded backreferences",
            [("pattern", p.source), ("checked", d.pattern.source)]⟩]
        else []
      let searched := d.pattern.search (s.searchOptions d.atomicOffsets watch)
      match searched.2 with
      | .error stuck =>
        (revised ++ searched.1, .error (.search p.source p.flags stuck.failure))
      | .ok r =>
        let report := Report.aggregate p.source d.pattern r s.budget.maxBacktracks
        let verdict : List Log.Record :=
          if report.safe then []
          else
            [⟨.debug, "unsafe pattern",
              [("pattern", p.source), ("score", Bytes.ofString report.score.text),
                ("status", Bytes.ofString report.status.text),
                ("trails", Search.numeral report.trails.length)]⟩]
        (revised ++ searched.1 ++ verdict, .ok report)

/-- Checks the pattern a source denotes under the flags of the settings. -/
def checkSource (source : Bytes) (s : Settings) (watch : Search.Watch) :
    List Log.Record × Except CheckError Report :=
  match Pattern.parse source s.flags with
  | .error e => ([], .error (.malformed e))
  | .ok p => p.check s watch

/-- Checks the pattern of a literal, whose flags replace those of the settings. -/
def checkLiteral (literal : Bytes) (s : Settings) (watch : Search.Watch) :
    List Log.Record × Except CheckError Report :=
  match Pattern.parseLiteral literal with
  | .error e => ([], .error (.malformed e))
  | .ok p => p.check s watch

end Backtrack
