/-
# Histories of a path

The search gives a path up once its history ends in a *square*: some block of positions that is
immediately repeated.  Histories are kept with the latest position first, so a square at the end
of the history is one at the front of the list.
-/

namespace Backtrack.History

variable {α : Type} [BEq α]

/-- Whether two lists agree in their first `n` members, which both must have. -/
def agree : Nat → List α → List α → Bool
  | 0, _, _ => true
  | n + 1, a :: as, b :: bs => a == b && agree n as bs
  | _ + 1, _, _ => false

/-- Whether a block of `size` members or more at the front of `latest` is repeated; `older` is
`latest` without its first `size` members. -/
def squareFrom (latest : List α) : (size : Nat) → (older : List α) → Bool
  | _, [] => false
  | size, b :: older => agree size latest (b :: older) || squareFrom latest (size + 1) older

/-- Whether the history ends in a block that is immediately repeated. -/
def endsInSquare (latest : List α) : Bool := squareFrom latest 1 latest.tail

end Backtrack.History
