/-
# Durations

A duration is a number of nanoseconds.  It is written in the largest units that fit, without
superfluous zeros (`1h30m0s`, `1.5ms`, `-1ns`), and read as a sign and a series of decimal
numbers with units.  A duration fits 64 bits; beyond that there is none.
-/
import Backtrack.Text.Integer

namespace Backtrack

/-- A span of time in nanoseconds. -/
structure Duration where
  nanoseconds : Int
deriving Repr, DecidableEq

namespace Duration

/-! ## 1. Units -/

/-- A thousand nanoseconds. -/
def microsecond : Nat := 1000

/-- A thousand microseconds. -/
def millisecond : Nat := 1000 * microsecond

/-- A thousand milliseconds. -/
def second : Nat := 1000 * millisecond

/-- Sixty seconds. -/
def minute : Nat := 60 * second

/-- Sixty minutes. -/
def hour : Nat := 60 * minute

/-! ## 2. Writing -/

/-- A fraction of `n / 10 ^ places` after the point, without trailing zeros; empty if zero. -/
def fraction (places n : Nat) : String :=
  let digits := Nat.toDigits 10 (n % Nat.pow 10 places)
  let padded := List.replicate (places - digits.length) '0' ++ digits
  let trimmed := (padded.reverse.dropWhile (· == '0')).reverse
  if trimmed.isEmpty then "" else "." ++ String.ofList trimmed

/-- The decimal `n / 10 ^ places`. -/
def decimal (places n : Nat) : String := toString (n / Nat.pow 10 places) ++ fraction places n

/-- The text of a number of nanoseconds. -/
def magnitudeText (n : Nat) : String :=
  if n = 0 then "0s"
  else if n < microsecond then toString n ++ "ns"
  else if n < millisecond then decimal 3 n ++ "µs"
  else if n < second then decimal 6 n ++ "ms"
  else
    let seconds := n / second
    let minutes := seconds / 60
    let hours := minutes / 60
    (if 0 < hours then toString hours ++ "h" else "") ++
      (if 0 < minutes then toString (minutes % 60) ++ "m" else "") ++
      toString (seconds % 60) ++ fraction 9 n ++ "s"

/-- The text of a duration. -/
def text (d : Duration) : String :=
  (if d.nanoseconds < 0 then "-" else "") ++ magnitudeText d.nanoseconds.natAbs

/-! ## 3. Reading -/

/-- The nanoseconds of a unit. -/
def unit? (name : List Char) : Option Nat :=
  match String.ofList name with
  | "ns" => some 1
  | "us" => some microsecond
  | "µs" => some microsecond
  | "μs" => some microsecond
  | "ms" => some millisecond
  | "s" => some second
  | "m" => some minute
  | "h" => some hour
  | _ => none

/-- The number written by decimal digits. -/
def digitsValue (ds : List Char) : Nat := ds.foldl (fun n c => n * 10 + (c.toNat - 48)) 0

/-- The number the digits of a fraction write after `value`, and how many digits that takes on
top of `count`.  Digits that would make it too large end the fraction. -/
def fractionValue : (value count : Nat) → List Char → Nat × Nat
  | v, n, [] => (v, n)
  | v, n, c :: cs =>
    let next := v * 10 + (c.toNat - 48)
    if (Integer.limit - 1) / 10 < v ∨ Integer.limit < next then (v, n)
    else fractionValue next (n + 1) cs

/-- The nanoseconds of a fraction of a unit, rounded toward zero in double precision. -/
def fractionOf (unit : Nat) (ds : List Char) : Nat :=
  let f := fractionValue 0 0 ds
  let scale := (List.replicate f.2 (10 : Float)).foldl (· * ·) 1
  (Float.ofNat f.1 * (Float.ofNat unit / scale)).toUInt64.toNat

/-- One number with its unit, in nanoseconds, and what follows it. -/
def part? (cs : List Char) : Option (Nat × List Char) :=
  let whole := cs.takeWhile Char.isDigit
  let afterWhole := cs.dropWhile Char.isDigit
  let hasPoint := afterWhole.head? == some '.'
  let frac := if hasPoint then afterWhole.tail.takeWhile Char.isDigit else []
  let afterNumber := if hasPoint then afterWhole.tail.dropWhile Char.isDigit else afterWhole
  let isUnit (c : Char) : Bool := c != '.' && !c.isDigit
  if whole.isEmpty && frac.isEmpty then none
  else
    (unit? (afterNumber.takeWhile isUnit)).bind fun unit =>
      let value := digitsValue whole * unit + fractionOf unit frac
      if digitsValue whole ≤ Integer.limit ∧ value ≤ Integer.limit then
        some (value, afterNumber.dropWhile isUnit)
      else none

/-- A series of numbers with units; `none` if it is malformed or too large. -/
def parts? (total : Nat) : List Char → Option Nat
  | [] => some total
  | c :: rest =>
    match part? (c :: rest) with
    | none => none
    | some (value, left) =>
      if _h : left.length < (c :: rest).length then
        if total + value ≤ Integer.limit then parts? (total + value) left else none
      else none
termination_by cs => cs.length
decreasing_by exact _h

/-- The duration a text denotes. -/
def parse? (s : String) : Option Duration :=
  let signed (negative : Bool) (cs : List Char) : Option Duration :=
    if cs == ['0'] then some ⟨0⟩
    else if cs.isEmpty then none
    else
      (parts? 0 cs).bind fun n =>
        if negative then some ⟨-(n : Int)⟩ else if n < Integer.limit then some ⟨n⟩ else none
  match s.toList with
  | '-' :: cs => signed true cs
  | '+' :: cs => signed false cs
  | cs => signed false cs

end Duration

end Backtrack
