/-
# The command

The command reads its settings, gathers the patterns from the arguments and the pattern file,
checks them all and writes the reports.  Here it is a function of the arguments, of the files
they name and of what the checks see of the outside; what it prints and how it exits is its
result.
-/
import Backtrack.Command.Arguments
import Backtrack.Command.Batch
import Backtrack.Command.PatternFile
import Backtrack.Report.Machine
import Backtrack.Report.Text
import Backtrack.Settings.File

namespace Backtrack.Program

/-- What the command leaves behind. -/
structure Outcome where
  exit : Nat
  /-- What is printed. -/
  output : Bytes := []
  /-- The records that are important enough to be shown. -/
  log : List Log.Record := []
  /-- Why nothing could be done. -/
  messages : List String := []
deriving Repr

/-- The files at hand, by their paths. -/
abbrev Files := String → Option Bytes

/-- The exit code for arguments that are refused. -/
def refusedExit : Nat := 80

/-! ## 1. Preparation -/

/-- The files the options name. -/
def named (o : Options) : List String := o.config.toList ++ o.file.toList

/-- The first file the options name and that is not there. A lone dash is not looked for. -/
def missing? (o : Options) (files : Files) : Option String :=
  (named o).find? fun p => p != "-" && (files p).isNone

/-- The settings, from the file if one is named, with the options applied. -/
def settings (o : Options) (files : Files) : Except String Settings :=
  let loaded : Except String Settings :=
    match o.config with
    | none => .ok {}
    | some path =>
      match Settings.ofFile (files path) with
      | .ok s => .ok s
      | .error e => .error (e.message path)
  match loaded with
  | .error m => .error m
  | .ok s =>
    match (o.apply s).invalid? with
    | some e => .error e.message
    | none => .ok (o.apply s)

/-- All patterns, those of the arguments first. -/
def patterns (o : Options) (files : Files) : Except String (List Bytes) :=
  let given := o.patterns.map Bytes.ofString
  let all : Except String (List Bytes) :=
    match o.file with
    | none => .ok given
    | some path =>
      match PatternFile.ofFile (files path) with
      | .ok ps => .ok (given ++ ps)
      | .error e => .error (e.message path)
  match all with
  | .ok [] => .error "no patterns given"
  | all => all

/-! ## 2. The run -/

/-- Reports in the form that was asked for. -/
def written (o : Options) (rs : List Report) : Bytes :=
  if o.json then Bytes.ofString (Report.machineText rs) else rs.flatMap fun r => r.text .terminal false

/-- A run that cannot do anything. -/
def fatal (message : String) : Outcome := { exit := 2, messages := [message] }

/-- Runs the command with options. -/
def runWith (o : Options) (files : Files) (schedule : Schedule) : Outcome :=
  match settings o files with
  | .error m => fatal m
  | .ok s =>
    match patterns o files with
    | .error m => fatal m
    | .ok ps =>
      match checkAll s schedule ps with
      | .error e => fatal e.message
      | .ok (log, rs) =>
        { exit := exitCode rs
          output := written o rs
          log := log.filter fun r => (o.logLevel s).value ≤ r.level.value }

/-- Runs the command with arguments. -/
def run (args : List String) (files : Files) (schedule : Schedule) :
    Except Arguments.Refusal Outcome :=
  match Arguments.parse args with
  | .error e => .error e
  | .ok o =>
    match missing? o files with
    | some path => .error (.missingFile path)
    | none => .ok (runWith o files schedule)

end Backtrack.Program
