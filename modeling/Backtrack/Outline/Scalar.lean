/-
# What a scalar means

A quoted scalar is a text.  A plain one may be nothing, a truth value or a number: an integer in
any base (`Integer`), or a decimal, of which the whole part counts.  A tag says what a scalar has
to be, and then quotes do not matter.  A tag that nobody knows makes it a text.
-/
import Backtrack.Outline.Basic
import Backtrack.Text.Base64
import Backtrack.Text.Decimal

namespace Backtrack.Outline

/-- The meaning of a scalar. -/
inductive Scalar where
  | null
  | truth (b : Bool)
  | integer (n : Int)
  /-- A decimal with its whole part, if that is an integer of 64 bits. -/
  | decimal (whole : Option Int)
  | text (s : String)
deriving Repr, DecidableEq

/-! ## 1. Numbers -/

/-- A number of base two or eight whose sign comes after what names the base. -/
def lateSigned? : List Char → Option Int
  | '0' :: c :: cs =>
    let t := Integer.signed cs
    let base := if c == 'b' then 2 else 8
    if (c == 'b' || c == 'o') && !t.2.isEmpty then
      (Integer.value? base t.2).bind (Integer.fit? t.1)
    else none
  | _ => none

/-- The meaning of a decimal, if it is not too large to have one. -/
def Scalar.ofDecimal? (d : Decimal) : Option Scalar :=
  d.size?.map fun n => .decimal (Decimal.toInteger? d.negative n)

/-- The meaning of a number that starts with a digit or a sign.  An integer has 64 bits, of which
none is for the sign if it has none; another one is taken for a decimal. -/
def number? (cs : List Char) : Option Scalar :=
  let cs := cs.filter (· != '_')
  let t := Integer.signed cs
  let isSigned := t.2.length != cs.length
  let integer : Option Scalar :=
    (Integer.magnitude? t.2).bind fun n =>
      match Integer.fit? t.1 n with
      | some n => some (.integer n)
      | none => if !isSigned && n < 2 * Integer.limit then some (.integer n) else none
  (integer.or ((Decimal.parse? cs).bind Scalar.ofDecimal?)).or
    ((lateSigned? cs).map Scalar.integer)

/-! ## 2. Plain scalars -/

/-- The meaning of a plain scalar. -/
def plainScalar (s : String) : Scalar :=
  match s with
  | "" | "~" | "null" | "Null" | "NULL" => .null
  | "true" | "True" | "TRUE" => .truth true
  | "false" | "False" | "FALSE" => .truth false
  | "-.inf" | "-.Inf" | "-.INF" => .decimal (some (-(Integer.limit : Int)))
  | ".inf" | ".Inf" | ".INF" | "+.inf" | "+.Inf" | "+.INF" => .decimal none
  | ".nan" | ".NaN" | ".NAN" => .decimal none
  | _ =>
    match s.toList with
    | [] => .text s
    | c :: cs =>
      let number :=
        if c == '.' then (Decimal.parseSeparated? (c :: cs)).bind Scalar.ofDecimal?
        else if c.isDigit || c == '+' || c == '-' then number? (c :: cs)
        else none
      number.getD (.text s)

/-! ## 3. Tags -/

/-- The number a scalar is, if it is one that fits 64 bits. -/
def Scalar.toInt? : Scalar → Option Int
  | integer n => if n < Integer.limit then some n else none
  | decimal whole => whole
  | _ => none

/-- The meaning of an integer that has to be a decimal. -/
def Scalar.toDecimal? : Scalar → Option Scalar
  | decimal whole => some (.decimal whole)
  | integer n =>
    if n < Integer.limit then Scalar.ofDecimal? ⟨n < 0, n.natAbs, 0⟩ else none
  | _ => none

/-- The text that bytes hold. -/
def textOf (bs : Bytes) : String :=
  String.ofList ((Utf8.glyphs bs).map fun g => Char.ofNat g.value)

/-- The meaning of a scalar; `none` if it is not what its tag says. -/
def Scalar.of? (tag : Option String) (quoted : Bool) (s : String) : Option Scalar :=
  match tag with
  | none => some (if quoted then .text s else plainScalar s)
  | some "!!null" => if plainScalar s = .null then some .null else none
  | some "!!bool" =>
    match plainScalar s with
    | .truth b => some (.truth b)
    | _ => none
  | some "!!int" =>
    match plainScalar s with
    | .integer n => some (.integer n)
    | _ => none
  | some "!!float" => (plainScalar s).toDecimal?
  | some "!!timestamp" => none
  | some "!!binary" => (Base64.decode? s).map fun bs => .text (textOf bs)
  | some _ => some (.text s)

end Backtrack.Outline
