/-
# The bytes that structure a pattern

Every character that means something in a pattern, a settings file or a command line is
ASCII, so it is one byte and never part of a longer sequence.  This module gives those bytes
names that can be matched on, and the small classes of bytes the readers ask for.
-/
import Backtrack.Text.Utf8

namespace Backtrack.Ascii

/-! ## 1. Named bytes -/

@[match_pattern] abbrev openParen : UInt8 := 0x28
@[match_pattern] abbrev closeParen : UInt8 := 0x29
@[match_pattern] abbrev openBracket : UInt8 := 0x5B
@[match_pattern] abbrev closeBracket : UInt8 := 0x5D
@[match_pattern] abbrev openBrace : UInt8 := 0x7B
@[match_pattern] abbrev closeBrace : UInt8 := 0x7D
@[match_pattern] abbrev less : UInt8 := 0x3C
@[match_pattern] abbrev greater : UInt8 := 0x3E
@[match_pattern] abbrev dot : UInt8 := 0x2E
@[match_pattern] abbrev caret : UInt8 := 0x5E
@[match_pattern] abbrev dollar : UInt8 := 0x24
@[match_pattern] abbrev backslash : UInt8 := 0x5C
@[match_pattern] abbrev slash : UInt8 := 0x2F
@[match_pattern] abbrev star : UInt8 := 0x2A
@[match_pattern] abbrev plus : UInt8 := 0x2B
@[match_pattern] abbrev minus : UInt8 := 0x2D
@[match_pattern] abbrev question : UInt8 := 0x3F
@[match_pattern] abbrev exclamation : UInt8 := 0x21
@[match_pattern] abbrev equals : UInt8 := 0x3D
@[match_pattern] abbrev colon : UInt8 := 0x3A
@[match_pattern] abbrev comma : UInt8 := 0x2C
@[match_pattern] abbrev pipe : UInt8 := 0x7C
@[match_pattern] abbrev hash : UInt8 := 0x23
@[match_pattern] abbrev newline : UInt8 := 0x0A
@[match_pattern] abbrev carriageReturn : UInt8 := 0x0D

/-- The byte of an ASCII character. -/
def byte (c : Char) : UInt8 := UInt8.ofNat c.toNat

/-! ## 2. Classes -/

/-- The digits `0` to `9`. -/
def isDigit (b : UInt8) : Bool := 0x30 ≤ b && b ≤ 0x39

/-- The digits `0` to `7`. -/
def isOctal (b : UInt8) : Bool := 0x30 ≤ b && b ≤ 0x37

/-- The letters `a` to `z` and `A` to `Z`. -/
def isLetter (b : UInt8) : Bool := (0x61 ≤ b && b ≤ 0x7A) || (0x41 ≤ b && b ≤ 0x5A)

/-- The value of a hexadecimal digit. -/
def hexValue? (b : UInt8) : Option Nat :=
  if isDigit b then some (b.toNat - 0x30)
  else if 0x61 ≤ b && b ≤ 0x66 then some (b.toNat - 0x57)
  else if 0x41 ≤ b && b ≤ 0x46 then some (b.toNat - 0x37)
  else none

/-! ## 3. Numbers -/

/-- The number written by decimal digits, most significant first. -/
def decimalValue (digits : Bytes) : Nat :=
  digits.foldl (fun n b => n * 10 + (b.toNat - 0x30)) 0

/-- The number written by hexadecimal digits; `none` if there are none or another byte is met. -/
def hexNumber? : Bytes → Option Nat
  | [] => none
  | digits => digits.foldl (fun n b => n.bind fun n => (hexValue? b).map (n * 16 + ·)) (some 0)

/-- A non-empty run of decimal digits and nothing else. -/
def isDecimal (s : Bytes) : Bool := !s.isEmpty && s.all isDigit

/-- The digits of `n` in base sixteen, upper case, padded with zeros to `width`. -/
def upperHex (width n : Nat) : String :=
  let digits := (Nat.toDigits 16 n).map Char.toUpper
  String.ofList (List.replicate (width - digits.length) '0' ++ digits)

/-- The digits of `n` in base sixteen, lower case, padded with zeros to `width`. -/
def lowerHex (width n : Nat) : String :=
  let digits := Nat.toDigits 16 n
  String.ofList (List.replicate (width - digits.length) '0' ++ digits)

/-! ## 4. Searching -/

/-- The part of `s` before the first `b` and the part after it. -/
def cut? (b : UInt8) : Bytes → Option (Bytes × Bytes)
  | [] => none
  | x :: rest => if x = b then some ([], rest) else (cut? b rest).map fun p => (x :: p.1, p.2)

/-- Cutting loses exactly the byte that was searched for. -/
theorem cut?_eq_some {b : UInt8} : ∀ {s before after : Bytes},
    cut? b s = some (before, after) → s = before ++ b :: after
  | [], _, _, h => by simp [cut?] at h
  | x :: rest, before, after, h => by
    simp only [cut?] at h
    split at h
    · next hx => cases h; simp [hx]
    · obtain ⟨p, hp, he⟩ := Option.map_eq_some_iff.1 h
      cases he
      have := cut?_eq_some hp
      simp [← this]

/-- The last part of `s`, after the last `b`, and what stands before that `b`. -/
def cutLast? (b : UInt8) (s : Bytes) : Option (Bytes × Bytes) :=
  (cut? b s.reverse).map fun p => (p.2.reverse, p.1.reverse)

end Backtrack.Ascii
