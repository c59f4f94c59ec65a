/-
# Log records

A log level is a number; four of them have names and the others are written by their distance
to the named one below.
-/
import Backtrack.Text.Utf8

namespace Backtrack.Log

/-- How important a record is. -/
structure Level where
  value : Int
deriving Repr, DecidableEq

namespace Level

def debug : Level := ⟨-4⟩

def info : Level := ⟨0⟩

def warn : Level := ⟨4⟩

def error : Level := ⟨8⟩

/-- A name with a signed distance, unless that is zero. -/
def offsetText (name : String) (distance : Int) : String :=
  if distance = 0 then name
  else name ++ (if 0 < distance then "+" else "") ++ toString distance

/-- The name of a level. -/
def text (l : Level) : String :=
  if l.value < info.value then offsetText "DEBUG" (l.value - debug.value)
  else if l.value < warn.value then offsetText "INFO" (l.value - info.value)
  else if l.value < error.value then offsetText "WARN" (l.value - warn.value)
  else offsetText "ERROR" (l.value - error.value)

end Level

/-- A message with named values. -/
structure Record where
  level : Level
  message : String
  attributes : List (String × Bytes)
deriving Repr, DecidableEq

end Backtrack.Log
