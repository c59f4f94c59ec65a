/-
# Comparing sides with a memory

The same two sides are compared many times over.  A memo keeps the answers by the texts of the
identities of the two sides, in both directions, so that a side need not be looked at again.
-/
import Backtrack.Search.Side

namespace Backtrack

/-- Answers of earlier comparisons. -/
structure Memo where
  answers : List ((String × String) × Bool)
deriving Repr

namespace Memo

/-- Nothing compared yet. -/
def empty : Memo := ⟨[]⟩

/-- Whether two sides are the same, and the memo afterwards. -/
def same (m : Memo) (s t : Side) : Bool × Memo :=
  let a := s.identity.text
  let b := t.identity.text
  match m.answers.lookup (a, b) with
  | some v => (v, m)
  | none =>
    let v := s.same t
    (v, ⟨((a, b), v) :: ((b, a), v) :: m.answers⟩)

/-- Several comparisons in order, with one memo. -/
def sameAll (m : Memo) : List (Side × Side) → List Bool
  | [] => []
  | (s, t) :: rest =>
    let r := m.same s t
    r.1 :: r.2.sameAll rest

/-- Whether two sides are the same where it may be known that they are `one` side: then nothing is
looked up and nothing is remembered. -/
def answer (m : Memo) (one : Bool) (s t : Side) : Bool × Memo :=
  if one then (true, m) else m.same s t

/-- Several such comparisons in order, with one memo. -/
def answerAll (m : Memo) : List (Bool × Side × Side) → List Bool
  | [] => []
  | (one, s, t) :: rest =>
    let r := m.answer one s t
    r.1 :: r.2.answerAll rest

end Memo

end Backtrack
