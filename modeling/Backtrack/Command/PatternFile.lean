/-
# Pattern files

A pattern file holds one pattern on each line.  Lines end with a newline, and carriage returns
before it are no part of the pattern.  Blank lines and lines that start with `#` are skipped.  A
line of a mebibyte or more is too long for a pattern, and then the file holds none at all.
-/
import Backtrack.Text.Ascii
import Backtrack.Unicode.Property

namespace Backtrack.PatternFile

/-- Why a pattern file cannot be used. -/
inductive ReadError where
  | missing
  | lineTooLong
deriving Repr, DecidableEq

/-- The wording of the error for the file at `path`. -/
def ReadError.message (path : String) : ReadError → String
  | missing => "open " ++ path ++ ": no such file or directory"
  | lineTooLong => "reading " ++ path ++ ": bufio.Scanner: token too long"

/-- The number of bytes that are too many for a line. -/
def maxLine : Nat := 1048576

/-! ## 1. Lines -/

/-- Puts a byte in front of some lines. -/
def addByte (b : UInt8) : List Bytes → List Bytes
  | [] => if b = Ascii.newline then [[], []] else [[b]]
  | l :: ls => if b = Ascii.newline then [] :: l :: ls else (b :: l) :: ls

/-- The pieces between newlines. -/
def lines (content : Bytes) : List Bytes := content.foldr addByte []

/-- A line without the carriage returns at its end. -/
def withoutReturns (l : Bytes) : Bytes :=
  (l.reverse.dropWhile (· == Ascii.carriageReturn)).reverse

/-! ## 2. Patterns -/

/-- Whether a code point is white space. -/
def isSpace (c : Nat) : Bool := (Unicode.lookup? "White_Space").any fun t => t.contains c

/-- Whether a line holds nothing but white space. -/
def isBlank : Bytes → Bool
  | [] => true
  | b :: rest =>
    let d := Utf8.decode b rest
    isSpace d.1 && isBlank (rest.drop (d.2 - 1))
termination_by s => s.length
decreasing_by simp only [List.length_drop, List.length_cons]; omega

/-- Whether a line is there for the reader of the file only. -/
def isComment (l : Bytes) : Bool := l.head? == some Ascii.hash

/-- The patterns of a file with this content. -/
def ofContent (content : Bytes) : Except ReadError (List Bytes) :=
  let ls := lines content
  if ls.any fun l => maxLine ≤ l.length then .error .lineTooLong
  else .ok ((ls.map withoutReturns).filter fun l => !isBlank l && !isComment l)

/-- The patterns of a file, if there is one. -/
def ofFile (content : Option Bytes) : Except ReadError (List Bytes) :=
  match content with
  | none => .error .missing
  | some c => ofContent c

end Backtrack.PatternFile
