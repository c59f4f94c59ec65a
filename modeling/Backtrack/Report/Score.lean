/-
# The score of a pattern

How often a matcher backtracks on the worst input is estimated by the number of trails that one
input can drive at once.  Two trails are *compatible* if at every position they share some
character satisfies both.  The score is the size of the largest family of pairwise compatible
trails that is found by starting from one of the first trails and adding the others in order,
each if it is compatible with all members so far.

Requirements are large and come up again and again, and so do whole series of them.  So the
answers to both questions asked here, whether two requirements overlap and whether two series
are compatible, are kept in tables (`Table`), one for the different requirements and one for
the different series.
-/
import Backtrack.Search.Side

namespace Backtrack.Score

/-! ## 1. Compatible trails -/

/-- Whether a relation holds at every position that two lists have in common. -/
def agree {α : Type} (ok : α → α → Bool) : List α → List α → Bool
  | a :: as, b :: bs => ok a b && agree ok as bs
  | _, _ => true

/-- Whether some character may satisfy both requirements. -/
def overlap (g o : Requirement) : Bool :=
  match g.intersect o with
  | .ok r => !r.isEmpty
  | .error _ => false

/-- The requirements of a trail, from the first character on. -/
def requirements (t : Trail) : List Requirement := t.entries.map (·.shared)

/-- Whether one input can drive both trails. -/
def compatible (t u : Trail) : Bool := agree overlap (requirements t) (requirements u)

/-! ## 2. Families -/

/-- Adds `j` to a family if it is compatible with all members. -/
def grow (ok : Nat → Nat → Bool) (family : List Nat) (j : Nat) : List Nat :=
  if family.all fun m => ok m j then j :: family else family

/-- The family that grows from `seed` among the numbers below `n`. -/
def family (ok : Nat → Nat → Bool) (n seed : Nat) : List Nat :=
  ((List.range n).filter (· != seed)).foldl (grow ok) [seed]

/-- How many trails a family is started from. -/
def maxSeeds : Nat := 64

/-- The size of the largest family among the numbers below `n`. -/
def largestFamily (ok : Nat → Nat → Bool) (n : Nat) : Nat :=
  (List.range (min n maxSeeds)).foldl
    (fun best seed => if best = n then best else max best (family ok n seed).length) 0

/-! ## 3. Tables -/

/-- The answers to a question about any two members of a list, by their places. -/
structure Table (α : Type) where
  members : List α
  rows : Array (Array Bool)

namespace Table

variable {α : Type} [DecidableEq α]

/-- The table of the different members of a list. -/
def of (ok : α → α → Bool) (as : List α) : Table α :=
  let members := as.eraseDups
  ⟨members, (members.map fun a => (members.map (ok a)).toArray).toArray⟩

/-- The place of a member. -/
def place (t : Table α) (a : α) : Nat := t.members.idxOf a

/-- The answer for the members at two places. -/
def answer (t : Table α) (i j : Nat) : Bool := (t.rows.getD i #[]).getD j false

/-- A table answers for its members as asking again would. -/
theorem answer_place {ok : α → α → Bool} {as : List α} {a b : α} (ha : a ∈ as) (hb : b ∈ as) :
    (of ok as).answer ((of ok as).place a) ((of ok as).place b) = ok a b := by
  have hia : as.eraseDups.idxOf a < as.eraseDups.length :=
    List.idxOf_lt_length_of_mem (List.mem_eraseDups.2 ha)
  have hib : as.eraseDups.idxOf b < as.eraseDups.length :=
    List.idxOf_lt_length_of_mem (List.mem_eraseDups.2 hb)
  simp [of, place, answer, Array.getD, hia, hib, List.getElem_idxOf]

end Table

/-! ## 4. The score -/

/-- Requirements by their places in a table.  Two series of different lengths are told apart
without a look at their places. -/
structure Series where
  length : Nat
  places : List Nat
deriving Repr, DecidableEq

/-- The series of some requirements. -/
def Series.of (t : Table Requirement) (rs : List Requirement) : Series :=
  ⟨rs.length, rs.map t.place⟩

/-- The largest number of trails one input is found to drive. -/
def ofTrails (ts : List Trail) : Nat :=
  let rs := ts.map requirements
  let overlaps := Table.of overlap rs.flatten
  let series := rs.map (Series.of overlaps)
  let pairs := Table.of (fun s u => agree overlaps.answer s.places u.places) series
  let places := (series.map pairs.place).toArray
  let ok (i j : Nat) : Bool := pairs.answer (places.getD (min i j) 0) (places.getD (max i j) 0)
  largestFamily ok ts.length

end Backtrack.Score
