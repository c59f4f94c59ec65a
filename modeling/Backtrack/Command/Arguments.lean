/-
# Command line arguments

A long flag takes its value after an equals sign or from the next argument; short flags may be
joined behind one dash, and what follows a short flag that takes a value is its value.  Flags may
stand before the patterns and after them, but the patterns stand together: a pattern that comes
after a flag that comes after a pattern is refused.  After `--` everything is a pattern, and so
is a lone dash.

A value that starts with a dash cannot be told from a flag, so it has to be given after an
equals sign.  When a flag is given more than once the last one counts, with two exceptions: a
file is named once and for all, and a switch that was negated stays negated.
-/
import Backtrack.Command.Options
import Backtrack.Text.Integer

namespace Backtrack.Arguments

/-- Why arguments are refused. -/
inductive Refusal where
  | unknownFlag (flag : String)
  | missingValue (flag : String)
  | badValue (flag value : String)
  | strayPattern (pattern : String)
  | missingFile (path : String)
deriving Repr, DecidableEq

/-- The wording of a refusal. -/
def Refusal.message : Refusal → String
  | unknownFlag f => "unknown flag " ++ f
  | missingValue f => f ++ ": expected a value"
  | badValue f v => f ++ ": cannot use " ++ v
  | strayPattern p => "unexpected argument " ++ p
  | missingFile p => "open " ++ p ++ ": no such file or directory"

/-! ## 1. Flags -/

/-- What a flag does.  A switch goes without a value unless one is attached to it. -/
inductive Effect where
  | switch (set : Bool → Options → Options)
  | value (set : String → Options → Option Options)

/-- A flag with its names. -/
structure Flag where
  name : String
  letter : Option Char := none
  /-- Whether there is a flag with `no-` in front that means the opposite. -/
  negatable : Bool := false
  effect : Effect

/-- Reads a number. -/
def number (set : Int → Options → Options) : Effect :=
  .value fun v o => (Integer.parse? v).map fun n => set n o

/-- A path in its shortest form: no empty parts, no dots, no detours. -/
def cleanPath (path : String) : String :=
  let step (parts : List String) (part : String) : List String :=
    if part == "" || part == "." then parts
    else if part == ".." && parts.head?.any (· != "..") then parts.tail
    else part :: parts
  let start := if path.startsWith "/" then "/" else ""
  start ++ "/".intercalate ((path.splitOn "/").foldl step []).reverse

/-- The flags. -/
def flags : List Flag :=
  [{ name := "file", letter := some 'f'
     effect := .value fun v o => some { o with file := o.file.or (some (cleanPath v)) } },
   { name := "config", letter := some 'c'
     effect := .value fun v o => some { o with config := o.config.or (some (cleanPath v)) } },
   { name := "ignore-case", letter := some 'i', negatable := true
     effect := .switch fun b o => { o with ignoreCase := some b } },
   { name := "dot-all", letter := some 's', negatable := true
     effect := .switch fun b o => { o with dotAll := some b } },
   { name := "unicode", letter := some 'u', negatable := true
     effect := .switch fun b o => { o with unicode := some b } },
   { name := "multiline", letter := some 'm', negatable := true
     effect := .switch fun b o => { o with multiline := some b } },
   { name := "max-steps", effect := number fun n o => { o with maxSteps := n } },
   { name := "timeout"
     effect := .value fun v o => (Duration.parse? v).map fun d => { o with timeout := d } },
   { name := "max-backtracks", effect := number fun n o => { o with maxBacktracks := n } },
   { name := "no-downgrade", effect := .switch fun b o => { o with noDowngrade := b } },
   { name := "json", effect := .switch fun b o => { o with json := b } },
   { name := "verbose", letter := some 'v'
     effect := .switch fun b o => { o with verbose := b } },
   { name := "jobs", letter := some 'j', effect := number fun n o => { o with jobs := n } }]

/-- The flag with a long name, and whether the name negates it. -/
def named? (name : String) : Option (Flag × Bool) :=
  match flags.find? (·.name == name) with
  | some f => some (f, false)
  | none => (flags.find? fun f => f.negatable && "no-" ++ f.name == name).map (·, true)

/-- The flag with a letter. -/
def lettered? (c : Char) : Option Flag := flags.find? (·.letter == some c)

/-- A truth value attached to a switch. -/
def truth? (s : String) : Option Bool :=
  match String.ofList (s.toList.map Char.toLower) with
  | "true" | "1" | "yes" => some true
  | "false" | "0" | "no" => some false
  | _ => none

/-! ## 2. Reading -/

/-- What has been read so far. -/
structure Reading where
  options : Options := {}
  /-- The switches that were negated. -/
  negated : List String := []
  /-- Whether the patterns have been read. -/
  patternsRead : Bool := false

/-- Turns a switch on or off; the other way round if it was ever negated. -/
def Reading.turn (r : Reading) (f : Flag) (set : Bool → Options → Options) (on : Bool) :
    Reading :=
  { r with options := set (on != r.negated.contains f.name) r.options }

/-- Gives a flag its value. -/
def Reading.give (r : Reading) (flag : String) (set : String → Options → Option Options)
    (value : String) : Except Refusal Reading :=
  match set value r.options with
  | some o => .ok { r with options := o }
  | none => .error (.badValue flag value)

/-- Whether an argument can be the value of the flag before it. -/
def isValue (a : String) : Bool := a == "-" || !a.startsWith "-"

/-- Takes the next argument as the value of a flag. -/
def takeNext (r : Reading) (flag : String) (set : String → Options → Option Options) :
    List String → Except Refusal (Reading × List String)
  | [] => .error (.missingValue flag)
  | v :: rest =>
    if isValue v then (r.give flag set v).map (·, rest) else .error (.missingValue flag)

/-- Applies a long flag, with the value attached to it if there is one. -/
def long (r : Reading) (name : String) (attached : Option String) (rest : List String) :
    Except Refusal (Reading × List String) :=
  match named? name with
  | none => .error (.unknownFlag ("--" ++ name))
  | some (f, negates) =>
    let r := if negates then { r with negated := f.name :: r.negated } else r
    match f.effect, attached with
    | .switch set, none => .ok (r.turn f set true, rest)
    | .switch set, some v =>
      match truth? v with
      | some b => .ok (r.turn f set b, rest)
      | none => .error (.badValue ("--" ++ name) v)
    | .value set, none => takeNext r ("--" ++ name) set rest
    | .value set, some v => (r.give ("--" ++ name) set v).map (·, rest)

/-- Applies joined short flags. -/
def short (r : Reading) (rest : List String) :
    List Char → Except Refusal (Reading × List String)
  | [] => .ok (r, rest)
  | c :: cs =>
    let flag := String.ofList ['-', c]
    match lettered? c with
    | none => .error (.unknownFlag flag)
    | some f =>
      match f.effect with
      | .switch set => short (r.turn f set true) rest cs
      | .value set =>
        if cs.isEmpty then takeNext r flag set rest
        else (r.give flag set (String.ofList cs)).map (·, rest)

/-- The name of a long flag and the value attached to it by an equals sign. -/
def splitFlag (cs : List Char) : String × Option String :=
  match cs.dropWhile (· != '=') with
  | [] => (String.ofList cs, none)
  | _ :: value => (String.ofList (cs.takeWhile (· != '=')), some (String.ofList value))

/-- Takes all the patterns, which must not have been read before. -/
def Reading.take (r : Reading) : List String → Except Refusal Reading
  | [] => .ok r
  | p :: ps =>
    if r.patternsRead then .error (.strayPattern p)
    else .ok { r with options := { r.options with patterns := p :: ps }, patternsRead := true }

/-- Reads arguments; each step takes away at least one of them. -/
def readAll (r : Reading) (args : List String) : Except Refusal Options :=
  match args with
  | [] => .ok r.options
  | a :: rest =>
    if a == "--" then (r.take rest).map (·.options)
    else
      let step :=
        if isValue a then
          (r.take (a :: rest.takeWhile isValue)).map (·, rest.dropWhile isValue)
        else
          match a.toList with
          | '-' :: '-' :: cs => long r (splitFlag cs).1 (splitFlag cs).2 rest
          | cs => short r rest cs.tail
      match step with
      | .error e => .error e
      | .ok (r, rest') =>
        if _h : rest'.length ≤ rest.length then readAll r rest' else .ok r.options
termination_by args.length

/-- The options some arguments ask for. -/
def parse (args : List String) : Except Refusal Options := readAll {} args

end Backtrack.Arguments
