/-
# Reading log levels

A log level is read as a name, in capitals or not, with a signed distance after it:
`info`, `INFO+2`, `warn-1`.
-/
import Backtrack.Log
import Backtrack.Text.Integer
import Backtrack.Text.Quoted

namespace Backtrack.Log.Level

/-- Why a text is no log level. -/
inductive Fault where
  | unknownName
  | badDistance (text : String)
  | hugeDistance (text : String)
deriving Repr, DecidableEq

/-- The wording of a fault. -/
def Fault.text : Fault → String
  | unknownName => "unknown name"
  | badDistance s =>
    "strconv.Atoi: parsing " ++ Quoted.text (Bytes.ofString s) ++ ": invalid syntax"
  | hugeDistance s =>
    "strconv.Atoi: parsing " ++ Quoted.text (Bytes.ofString s) ++ ": value out of range"

/-- The capital form of a letter, as far as it is a letter of a name.  The dotless `ı` has the
same capital as `i`. -/
def capital (c : Char) : Char := if c == 'ı' then 'I' else c.toUpper

/-- The level with a name. -/
def named? (name : List Char) : Option Level :=
  match String.ofList (name.map capital) with
  | "DEBUG" => some debug
  | "INFO" => some info
  | "WARN" => some warn
  | "ERROR" => some error
  | _ => none

/-- The distance a text denotes; none is written as nothing. -/
def distance (cs : List Char) : Except Fault Int :=
  let t := Integer.signed cs
  if cs.isEmpty then .ok 0
  else if t.2.isEmpty || !t.2.all Char.isDigit then .error (.badDistance (String.ofList cs))
  else
    match (Integer.value? 10 t.2).bind (Integer.fit? t.1) with
    | some n => .ok n
    | none => .error (.hugeDistance (String.ofList cs))

/-- The level a text denotes.  Levels are numbers of 64 bits and wrap around. -/
def parse (s : String) : Except Fault Level :=
  let isSign (c : Char) : Bool := c == '+' || c == '-'
  let name := s.toList.takeWhile (!isSign ·)
  match distance (s.toList.dropWhile (!isSign ·)) with
  | .error f => .error f
  | .ok d =>
    match named? name with
    | none => .error .unknownName
    | some l => .ok ⟨Int.bmod (l.value + d) (2 * Integer.limit)⟩

end Backtrack.Log.Level
