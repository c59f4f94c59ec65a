/-
# Pattern flags
-/

namespace Backtrack

/-- The flags that change what a pattern matches. -/
structure Flags where
  ignoreCase : Bool := false
  dotAll : Bool := false
  unicode : Bool := false
  multiline : Bool := false
deriving Repr, DecidableEq

/-- The letters of the set flags, in alphabetical order. -/
def Flags.letters (f : Flags) : String :=
  (if f.ignoreCase then "i" else "") ++ (if f.multiline then "m" else "") ++
    (if f.dotAll then "s" else "") ++ (if f.unicode then "u" else "")

end Backtrack
