/-
# Integers that say their base

An integer is decimal unless it says otherwise: `0x`, `0o` and `0b` in front stand for the bases
sixteen, eight and two, and a mere `0` in front stands for eight.  Underscores may stand between
digits, one at a time, and after what names the base.  An integer fits 64 bits.
-/

namespace Backtrack.Integer

/-! ## 1. Digits -/

/-- The value of a digit, letters included. -/
def digit? (c : Char) : Option Nat :=
  if c.isDigit then some (c.toNat - 48)
  else if c.toLower.isLower then some (c.toLower.toNat - 87)
  else none

/-- The number written by digits of a base, underscores left aside; `none` if something is no
digit of the base. -/
def value? (base : Nat) (cs : List Char) : Option Nat :=
  (cs.filter (· != '_')).foldl
    (fun n c => n.bind fun n =>
      (digit? c).bind fun d => if d < base then some (n * base + d) else none)
    (some 0)

/-- Whether every underscore stands between two digits.  What comes before the text counts as
a digit if `digitBefore` says so. -/
def separated : (digitBefore : Bool) → List Char → Bool
  | _, [] => true
  | _, ['_'] => false
  | before, '_' :: c :: rest => before && c != '_' && separated false (c :: rest)
  | _, _ :: rest => separated true rest

/-! ## 2. Bases -/

/-- The base a text names, and its digits. -/
def based : List Char → Nat × List Char
  | '0' :: c :: d :: rest =>
    match c.toLower with
    | 'x' => (16, d :: rest)
    | 'o' => (8, d :: rest)
    | 'b' => (2, d :: rest)
    | _ => (8, c :: d :: rest)
  | '0' :: rest => (8, rest)
  | cs => (10, cs)

/-- The number a text without a sign denotes, however large. -/
def magnitude? (cs : List Char) : Option Nat :=
  let b := based cs
  if cs.isEmpty || !separated (b.1 != 10) b.2 then none else value? b.1 b.2

/-! ## 3. Signs and bounds -/

/-- The least number that does not fit 64 bits with a sign. -/
def limit : Nat := 0x8000000000000000

/-- Whether a text starts with a minus sign, and the text without its sign. -/
def signed : List Char → Bool × List Char
  | '-' :: cs => (true, cs)
  | '+' :: cs => (false, cs)
  | cs => (false, cs)

/-- A number with a sign, if it fits 64 bits. -/
def fit? (negative : Bool) (n : Nat) : Option Int :=
  if negative then if n ≤ limit then some (-(n : Int)) else none
  else if n < limit then some n
  else none

/-- The integer a text denotes. -/
def parse? (s : String) : Option Int :=
  let t := signed s.toList
  (magnitude? t.2).bind (fit? t.1)

end Backtrack.Integer
