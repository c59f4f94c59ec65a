/-
# How a search ends
-/

namespace Backtrack

/-- Why a search stopped.  A code without a meaning of its own can be given from outside. -/
inductive Status where
  | ok
  | hitMaxSteps
  | stackOverflow
  | timedOut
  | infiniteLoop
  | other (code : Nat)
deriving Repr, DecidableEq

namespace Status

/-- The status with a code. -/
def ofCode : Nat → Status
  | 0 => ok
  | 1 => hitMaxSteps
  | 2 => stackOverflow
  | 3 => timedOut
  | 4 => infiniteLoop
  | n => other n

/-- The name of a status. -/
def text : Status → String
  | ok => "ok"
  | hitMaxSteps => "hitMaxSteps"
  | stackOverflow => "stackOverflow"
  | timedOut => "timedOut"
  | infiniteLoop => "infiniteLoop"
  | other n => "Status(" ++ toString n ++ ")"

end Status

end Backtrack
