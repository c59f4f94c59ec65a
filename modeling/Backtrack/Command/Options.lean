/-
# Options of the command

Options given on the command line win over settings from a file.  A limit that makes no sense
as an override leaves the setting alone.
-/
import Backtrack.Settings.Basic

namespace Backtrack

/-- What can be asked for on the command line. -/
structure Options where
  patterns : List String := []
  file : Option String := none
  config : Option String := none
  ignoreCase : Option Bool := none
  dotAll : Option Bool := none
  unicode : Option Bool := none
  multiline : Option Bool := none
  maxSteps : Int := 0
  timeout : Duration := ⟨0⟩
  maxBacktracks : Int := -1
  noDowngrade : Bool := false
  json : Bool := false
  verbose : Bool := false
  /-- How many patterns may be checked at the same time, which no report shows. -/
  jobs : Int := 1
deriving Repr, DecidableEq

namespace Options

/-- Settings with the options that were given in place of theirs. -/
def apply (o : Options) (s : Settings) : Settings :=
  { s with
    flags :=
      { ignoreCase := o.ignoreCase.getD s.flags.ignoreCase
        dotAll := o.dotAll.getD s.flags.dotAll
        unicode := o.unicode.getD s.flags.unicode
        multiline := o.multiline.getD s.flags.multiline }
    budget :=
      { s.budget with
        maxSteps := if 0 < o.maxSteps then o.maxSteps else s.budget.maxSteps
        timeout := if 0 < o.timeout.nanoseconds then o.timeout else s.budget.timeout
        maxBacktracks := if 0 ≤ o.maxBacktracks then o.maxBacktracks else s.budget.maxBacktracks }
    downgrade := s.downgrade && !o.noDowngrade }

/-- The least important records that are shown. -/
def logLevel (o : Options) (s : Settings) : Log.Level := if o.verbose then .debug else s.logLevel

end Options

end Backtrack
