/-
# Settings

The flags patterns are read with, the budget a check may spend, whether references are
revised first, and how much is logged.
-/
import Backtrack.Log
import Backtrack.Pattern.Flags
import Backtrack.Search.Check
import Backtrack.Text.Duration

namespace Backtrack

/-- How much work a single check may take, and how much backtracking is still safe. -/
structure Budget where
  maxSteps : Int := Search.defaultMaxSteps
  timeout : Duration := Search.defaultTimeout
  maxStack : Int := Search.defaultMaxStack
  maxBacktracks : Int := 0
deriving Repr, DecidableEq

/-- The settings of a check. -/
structure Settings where
  flags : Flags := {}
  budget : Budget := {}
  downgrade : Bool := true
  logLevel : Log.Level := .info
deriving Repr, DecidableEq

/-- A setting out of bounds. -/
inductive InvalidSettings where
  | maxSteps (given : Int)
  | timeout (given : Duration)
  | maxStack (given : Int)
  | maxBacktracks (given : Int)
deriving Repr, DecidableEq

/-- The wording of the error. -/
def InvalidSettings.message (e : InvalidSettings) : String :=
  "invalid config: " ++
    match e with
    | maxSteps n => "max_steps must be positive, got " ++ toString n
    | timeout d => "timeout must be positive, got " ++ d.text
    | maxStack n => "max_stack must be positive, got " ++ toString n
    | maxBacktracks n => "max_backtracks can't be negative, got " ++ toString n

namespace Settings

/-- The first setting that is out of bounds. -/
def invalid? (s : Settings) : Option InvalidSettings :=
  let b := s.budget
  if b.maxSteps ≤ 0 then some (.maxSteps b.maxSteps)
  else if b.timeout.nanoseconds ≤ 0 then some (.timeout b.timeout)
  else if b.maxStack ≤ 0 then some (.maxStack b.maxStack)
  else if b.maxBacktracks < 0 then some (.maxBacktracks b.maxBacktracks)
  else none

/-- The bounds of a search under these settings. -/
def searchOptions (s : Settings) (atomicOffsets : List Nat) (watch : Search.Watch) :
    Search.Options :=
  { maxSteps := s.budget.maxSteps
    timeout := s.budget.timeout
    maxStack := s.budget.maxStack
    atomicOffsets := atomicOffsets.map Int.ofNat
    watch := watch }

end Settings

end Backtrack
