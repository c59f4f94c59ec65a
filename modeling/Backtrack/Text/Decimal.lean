/-
# Decimals

A decimal is read exactly and then taken to double precision: to the nearest number of the form
`m * 2 ^ e` with a mantissa of 53 bits, and to the even one of two that are as near.  All that is
wanted of the result is its whole part, so a rational number is enough to find it.
-/
import Backtrack.Text.Integer

namespace Backtrack

/-- A decimal `mantissa * 10 ^ exponent`. -/
structure Decimal where
  negative : Bool
  mantissa : Nat
  exponent : Int
deriving Repr, DecidableEq

namespace Decimal

/-! ## 1. Reading -/

/-- The exponent of a decimal: nothing, or a mark, a sign and digits. -/
def exponent? : List Char → Option Int
  | [] => some 0
  | c :: cs =>
    let t := Integer.signed cs
    if (c == 'e' || c == 'E') && !t.2.isEmpty && t.2.all Char.isDigit then
      (Integer.value? 10 t.2).map fun n => if t.1 then -(n : Int) else n
    else none

/-- The decimal a text denotes: a sign, digits with a point before, between or after them, and
an exponent. -/
def parse? (cs : List Char) : Option Decimal :=
  let t := Integer.signed cs
  let whole := t.2.takeWhile Char.isDigit
  let afterWhole := t.2.dropWhile Char.isDigit
  let hasPoint := afterWhole.head? == some '.'
  let fraction := if hasPoint then afterWhole.tail.takeWhile Char.isDigit else []
  let afterNumber := if hasPoint then afterWhole.tail.dropWhile Char.isDigit else afterWhole
  if whole.isEmpty && fraction.isEmpty then none
  else
    (exponent? afterNumber).bind fun e =>
      (Integer.value? 10 (whole ++ fraction)).map fun m => ⟨t.1, m, e - fraction.length⟩

/-- Whether every underscore stands between two digits; `afterDigit` says whether a digit comes
before the text. -/
def separated : (afterDigit : Bool) → List Char → Bool
  | _, [] => true
  | afterDigit, c :: cs =>
    if c == '_' then afterDigit && cs.head?.any Char.isDigit && separated false cs
    else separated c.isDigit cs

/-- The decimal a text with underscores between digits denotes. -/
def parseSeparated? (cs : List Char) : Option Decimal :=
  if separated false cs then parse? (cs.filter (· != '_')) else none

/-! ## 2. Rounding -/

/-- The whole number nearest to a quotient, and the even one of two that are as near. -/
def nearest (num den : Nat) : Nat :=
  let n := num / den
  let r := num % den
  if 2 * r < den then n else if den < 2 * r then n + 1 else n + n % 2

/-- The number of binary digits. -/
def bits (n : Nat) : Nat := if n = 0 then 0 else n.log2 + 1

/-- The number of binary digits of a mantissa. -/
def precision : Nat := 53

/-- The whole part of a quotient in double precision. -/
def wholeOfNearest (num den : Nat) : Nat :=
  let width := bits (num / den)
  if width ≤ precision then
    let scale := Nat.pow 2 (precision - width)
    nearest (num * scale) den / scale
  else
    let scale := Nat.pow 2 (width - precision)
    nearest num (den * scale) * scale

/-- The least number that is too large for double precision. -/
def tooLarge : Nat := Nat.pow 2 1024 - Nat.pow 2 970

/-- The whole part of the size of a decimal in double precision; `none` if it is too large for
that.  Most of what is too large or next to nothing is told by the number of its places. -/
def size? (d : Decimal) : Option Nat :=
  let places : Int := (Nat.toDigits 10 d.mantissa).length + d.exponent
  if d.mantissa = 0 ∨ places < -330 then some 0
  else if 310 < places then none
  else
    let num := d.mantissa * Nat.pow 10 d.exponent.toNat
    let den := Nat.pow 10 (-d.exponent).toNat
    if tooLarge * den ≤ num then none else some (wholeOfNearest num den)

/-- A size with a sign as an integer of 64 bits.  Everything below the least integer counts as
that one, and so does the first number above the greatest one; beyond that there is none. -/
def toInteger? (negative : Bool) (size : Nat) : Option Int :=
  match Integer.fit? negative size with
  | some n => some n
  | none =>
    if negative || size == Integer.limit then some (-(Integer.limit : Int)) else none

end Decimal

end Backtrack
