/-
# Settings files

A settings file is an outline that overrides some of the usual settings.

    flags:
      ignore_case: true
    budget:
      max_steps: 500
      timeout: 1m30s
    downgrade: false
    log_level: warn

Keys nobody knows are ignored, whatever their values, and keys without a value change nothing.  A
key must not be given twice, and a value must have the type of its setting.  The key `<<` takes
in the entries of other mappings, as far as they have not been given otherwise.

Most mistakes are noted, and the file is read to its end.  A log level nobody knows, a scalar
that is not what its tag says and a `<<` without mappings end the reading at once.
-/
import Backtrack.Outline.Reader
import Backtrack.Outline.Scalar
import Backtrack.Settings.Basic
import Backtrack.Settings.Level

namespace Backtrack

/-- Why a settings file cannot be used. -/
inductive SettingsFileError where
  | missing
  | malformed (e : Outline.Malformed)
  | mistyped
  | wrongTag (text : String)
  /-- A `<<` without mappings. -/
  | notMergeable
  /-- A `<<` that leads back to itself. -/
  | endless
  | level (given : String) (f : Log.Level.Fault)
  | invalid (e : InvalidSettings)
deriving Repr, DecidableEq

/-- The wording of the error for the file at `path`. -/
def SettingsFileError.message (path : String) : SettingsFileError → String
  | missing => "reading config: open " ++ path ++ ": no such file or directory"
  | malformed e => "parsing config " ++ path ++ ": " ++ e.message
  | mistyped => "parsing config " ++ path ++ ": yaml: a value does not fit its key"
  | wrongTag s => "parsing config " ++ path ++ ": yaml: " ++ s ++ " does not fit its tag"
  | notMergeable => "parsing config " ++ path ++ ": yaml: only mappings can be merged"
  | endless => "parsing config " ++ path ++ ": yaml: a mapping contains itself"
  | level given f =>
    "parsing config " ++ path ++ ": slog: level string " ++
      Quoted.text (Bytes.ofString given) ++ ": " ++ f.text
  | invalid e => path ++ ": " ++ e.message

namespace Settings

/-! ## 1. Values -/

/-- A setting, or several, after a value was read. -/
structure Outcome (σ : Type) where
  setting : σ
  /-- Whether everything that was read had the right type. -/
  fits : Bool

/-- Reads a value: takes the setting so far and gives the new one. -/
abbrev ValueReader (σ : Type) := Outline → σ → Except SettingsFileError (Outcome σ)

/-- A reader of a part of the settings as a reader of all of them. -/
def ValueReader.inside {σ τ : Type} (r : ValueReader τ) (get : σ → τ) (set : τ → σ → σ) :
    ValueReader σ :=
  fun o s => (r o (get s)).map fun x => ⟨set x.setting s, x.fits⟩

/-- What a scalar means. -/
def meaning (tag : Option String) (quoted : Bool) (s : String) :
    Except SettingsFileError Outline.Scalar :=
  match Outline.Scalar.of? tag quoted s with
  | some m => .ok m
  | none => .error (.wrongTag s)

/-- A reader of scalars of one type; nothing changes nothing. -/
def ofScalar {σ : Type} (d : Outline.Document) (read : Outline.Scalar → Option σ) :
    ValueReader σ := fun o s => do
  match d.follow o with
  | .scalar tag quoted text =>
    match ← meaning tag quoted text with
    | .null => return ⟨s, true⟩
    | m => return ⟨(read m).getD s, (read m).isSome⟩
  | _ => return ⟨s, false⟩

/-- A truth value; the words of everyday language count as well. -/
def truth? : Outline.Scalar → Option Bool
  | .truth b => some b
  | .text t =>
    if ["y", "Y", "yes", "Yes", "YES", "on", "On", "ON"].contains t then some true
    else if ["n", "N", "no", "No", "NO", "off", "Off", "OFF"].contains t then some false
    else none
  | _ => none

/-- A duration with its units. -/
def duration? : Outline.Scalar → Option Duration
  | .text t => Duration.parse? t
  | _ => none

/-- The text of a scalar, as it was written unless its meaning is another text. -/
def written (m : Outline.Scalar) (text : String) : String :=
  match m with
  | .text t => t
  | _ => text

/-- A reader of log levels. -/
def ofLevel (d : Outline.Document) : ValueReader Log.Level := fun o l => do
  match d.follow o with
  | .scalar tag quoted text =>
    match ← meaning tag quoted text with
    | .null => return ⟨l, true⟩
    | m =>
      match Log.Level.parse (written m text) with
      | .ok l => return ⟨l, true⟩
      | .error f => .error (.level (written m text) f)
  | _ => return ⟨l, false⟩

/-! ## 2. Entries -/

/-- A setting by the name of its key. -/
structure Field (σ : Type) where
  name : String
  read : ValueReader σ

/-- What tells a key from others in its mapping: its kind and its text. -/
def keyLabel : Outline → Nat × String
  | .scalar _ _ text => (0, text)
  | .reuse name _ => (1, name)
  | .mapping _ => (2, "")
  | .list _ => (3, "")

/-- Whether no key is given twice. -/
def distinct (es : List (Outline × Outline)) : Bool :=
  let labels := es.map fun e => keyLabel e.1
  labels.eraseDups.length == labels.length

/-- Whether a key is `<<` and means it. -/
def isMerge : Outline → Bool
  | .scalar tag quoted text => text == "<<" && (tag == some "!!merge" || (tag.isNone && !quoted))
  | _ => false

/-- The name that a key denotes, if it is not nothing, and whether it could be one at all. -/
def keyName (d : Outline.Document) (key : Outline) :
    Except SettingsFileError (Option String × Bool) := do
  match d.follow key with
  | .scalar tag quoted text =>
    match ← meaning tag quoted text with
    | .null => return (none, true)
    | m => return (some (written m text), true)
  | _ => return (none, false)

/-- How far the reading of a mapping has come. -/
structure Progress (σ : Type) where
  setting : σ
  fits : Bool := true
  /-- The names of the keys that were given. -/
  given : List String := []

/-- Reads the entries of a mapping.  In one that is merged, a key that was given before does not
count; otherwise it must not be given again. -/
def readEntries {σ : Type} (d : Outline.Document) (fields : List (Field σ)) (merging : Bool) :
    List (Outline × Outline) → Progress σ → Except SettingsFileError (Progress σ)
  | [], p => .ok p
  | (key, value) :: es, p =>
    if isMerge key then readEntries d fields merging es p
    else do
      match ← keyName d key with
      | (none, fits) => readEntries d fields merging es { p with fits := p.fits && fits }
      | (some name, _) =>
        let field := fields.find? (·.name == name)
        if p.given.contains name then
          readEntries d fields merging es { p with fits := p.fits && (merging || field.isNone) }
        else
          let p := { p with given := name :: p.given }
          match field with
          | none => readEntries d fields merging es p
          | some f =>
            let x ← f.read value p.setting
            readEntries d fields merging es
              { p with setting := x.setting, fits := p.fits && x.fits }

/-- Reads a mapping, and then the mappings it merges. -/
def readMapping {σ : Type} (d : Outline.Document) (fields : List (Field σ)) :
    (fuel : Nat) → (merging : Bool) → List (Outline × Outline) → Progress σ →
    Except SettingsFileError (Progress σ)
  | 0, _, _, _ => .error .endless
  | fuel + 1, merging, es, p =>
    if !distinct es then .ok { p with fits := false }
    else do
      let p ← readEntries d fields merging es p
      let merge (p : Progress σ) (o : Outline) : Except SettingsFileError (Progress σ) :=
        match d.follow o with
        | .mapping es => readMapping d fields fuel true es p
        | _ => .error .notMergeable
      match es.find? fun e => isMerge e.1 with
      | none => return p
      | some (_, .list items) => items.foldlM merge p
      | some (_, o) => merge p o

/-- A reader of mappings with some fields; nothing at all is an empty mapping. -/
def ofFields {σ : Type} (d : Outline.Document) (fields : List (Field σ)) : ValueReader σ :=
  fun o s => do
    match d.follow o with
    | .mapping es =>
      let p ← readMapping d fields (d.extent + 1) false es { setting := s }
      return ⟨p.setting, p.fits⟩
    | .scalar tag quoted text =>
      let m ← meaning tag quoted text
      return ⟨s, m == .null⟩
    | _ => return ⟨s, false⟩

/-! ## 3. Settings -/

/-- The fields of the flags. -/
def flagFields (d : Outline.Document) : List (Field Flags) :=
  let truth (get : Flags → Bool) (set : Bool → Flags → Flags) : ValueReader Flags :=
    ValueReader.inside (ofScalar d truth?) get set
  [⟨"ignore_case", truth (·.ignoreCase) fun b f => { f with ignoreCase := b }⟩,
   ⟨"dot_all", truth (·.dotAll) fun b f => { f with dotAll := b }⟩,
   ⟨"unicode", truth (·.unicode) fun b f => { f with unicode := b }⟩,
   ⟨"multiline", truth (·.multiline) fun b f => { f with multiline := b }⟩]

/-- The fields of the budget. -/
def budgetFields (d : Outline.Document) : List (Field Budget) :=
  let number (get : Budget → Int) (set : Int → Budget → Budget) : ValueReader Budget :=
    ValueReader.inside (ofScalar d Outline.Scalar.toInt?) get set
  [⟨"max_steps", number (·.maxSteps) fun n b => { b with maxSteps := n }⟩,
   ⟨"timeout", ValueReader.inside (ofScalar d duration?) (·.timeout)
      fun t b => { b with timeout := t }⟩,
   ⟨"max_stack", number (·.maxStack) fun n b => { b with maxStack := n }⟩,
   ⟨"max_backtracks", number (·.maxBacktracks) fun n b => { b with maxBacktracks := n }⟩]

/-- The fields of the settings. -/
def fields (d : Outline.Document) : List (Field Settings) :=
  [⟨"flags", ValueReader.inside (ofFields d (flagFields d)) (·.flags)
      fun f s => { s with flags := f }⟩,
   ⟨"budget", ValueReader.inside (ofFields d (budgetFields d)) (·.budget)
      fun b s => { s with budget := b }⟩,
   ⟨"downgrade", ValueReader.inside (ofScalar d truth?) (·.downgrade)
      fun b s => { s with downgrade := b }⟩,
   ⟨"log_level", ValueReader.inside (ofLevel d) (·.logLevel)
      fun l s => { s with logLevel := l }⟩]

/-- Settings with some of them overridden. -/
def override (s : Settings) (d : Outline.Document) : Except SettingsFileError Settings := do
  let x ← ofFields d (fields d) d.root s
  if x.fits then return x.setting else .error .mistyped

/-! ## 4. Files -/

/-- The characters of a byte string.  A byte that belongs to none becomes one that no text may
contain. -/
def characters (content : Bytes) : List Char :=
  (Utf8.glyphs content).map fun g => if g.isStray then '\x00' else Char.ofNat g.value

/-- The settings a file with this content gives. -/
def ofContent (content : Bytes) : Except SettingsFileError Settings :=
  match Outline.read (characters content) with
  | .error e => .error (.malformed e)
  | .ok d => do
    let s ← ({} : Settings).override d
    match s.invalid? with
    | some e => .error (.invalid e)
    | none => return s

/-- The settings a file gives, if there is one. -/
def ofFile (content : Option Bytes) : Except SettingsFileError Settings :=
  match content with
  | none => .error .missing
  | some c => ofContent c

end Settings

end Backtrack
