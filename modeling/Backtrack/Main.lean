/-
# The command line

Reads the files that the arguments name, runs the command on them, and prints what it leaves
behind: reports to standard output, log records and messages to standard error.  It keeps no
clock and is never called off.
-/
import Backtrack.Command.Program

namespace Backtrack

/-- The content of a file; nothing if it cannot be read. -/
def readFile? (path : String) : IO (Option Bytes) := do
  try
    let content ← IO.FS.readBinFile path
    return some content.toList
  catch _ => return none

/-- A log record on one line. -/
def recordLine (r : Log.Record) : String :=
  "level=" ++ r.level.text ++ " msg=" ++ Quoted.text (Bytes.ofString r.message) ++
    String.join (r.attributes.map fun a => " " ++ a.1 ++ "=" ++ Quoted.text a.2)

/-- Bytes as one block. -/
def block (s : Bytes) : ByteArray := ⟨s.toArray⟩

/-- Refuses arguments. -/
def refuse (r : Arguments.Refusal) : IO UInt32 := do
  IO.eprintln ("error: " ++ r.message)
  return UInt32.ofNat Program.refusedExit

end Backtrack

open Backtrack in
/-- The entry point. -/
def main (args : List String) : IO UInt32 := do
  match Arguments.parse args with
  | .error r => refuse r
  | .ok options =>
    let contents ← (Program.named options).mapM fun path => do
      return (path, ← readFile? path)
    match Program.run args (fun path => (contents.lookup path).join) fun _ => some .still with
    | .error r => refuse r
    | .ok outcome =>
      for m in outcome.messages do
        IO.eprintln m
      for r in outcome.log do
        IO.eprintln (recordLine r)
      (← IO.getStdout).write (block outcome.output)
      return UInt32.ofNat outcome.exit
