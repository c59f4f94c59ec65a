/-
# Bytes as letters

Three bytes are written as four characters of six bits each.  Where one or two bytes are missing
at the end, equals signs fill the place.  Line breaks may stand anywhere.
-/
import Backtrack.Text.Utf8

namespace Backtrack.Base64

/-- The six bits of a character. -/
def value? (c : Char) : Option Nat :=
  if 'A' ≤ c ∧ c ≤ 'Z' then some (c.toNat - 65)
  else if 'a' ≤ c ∧ c ≤ 'z' then some (c.toNat - 71)
  else if c.isDigit then some (c.toNat + 4)
  else if c = '+' then some 62
  else if c = '/' then some 63
  else none

/-- The bits of some characters as one number. -/
def bits? (cs : List Char) : Option Nat :=
  cs.foldl (fun n c => n.bind fun n => (value? c).map (n * 64 + ·)) (some 0)

/-- The bytes characters denote, four at a time. -/
def groups? : List Char → Option Bytes
  | [] => some []
  | [a, b, '=', '='] => (bits? [a, b]).map fun n => [(n / 16).toUInt8]
  | [a, b, c, '='] => (bits? [a, b, c]).map fun n => [(n / 1024).toUInt8, (n / 4).toUInt8]
  | a :: b :: c :: d :: rest =>
    (bits? [a, b, c, d]).bind fun n =>
      (groups? rest).map ([(n / 65536).toUInt8, (n / 256).toUInt8, n.toUInt8] ++ ·)
  | _ => none

/-- The bytes a text denotes. -/
def decode? (s : String) : Option Bytes :=
  groups? (s.toList.filter fun c => c != '\n' && c != '\r')

end Backtrack.Base64
