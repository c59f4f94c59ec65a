/-
# Checking many patterns

A pattern is given as a plain source or as a literal between slashes with flags after it.  Each
one is checked on its own; one that cannot be checked gets a report that says so and does not
keep the others from being checked.  Only if the work is called off before a pattern has its
turn are there no reports at all; a check that is under way when that happens ends with the
status of one that ran out of time.
-/
import Backtrack.Report.Basic

namespace Backtrack

/-! ## 1. Literals -/

/-- The flags a literal may carry. -/
def literalFlags : List Nat := "dgimsuvy".toList.map Char.toNat

/-- Whether a given pattern looks like a literal. -/
def isLiteral (given : Bytes) : Bool :=
  match given with
  | Ascii.slash :: rest =>
    match Ascii.cutLast? Ascii.slash rest with
    | none => false
    | some (_, flags) => (Utf8.glyphs flags).all fun g => literalFlags.contains g.value
  | _ => false

/-- Checks a pattern in whichever form it is given. -/
def checkGiven (given : Bytes) (s : Settings) (watch : Search.Watch) :
    List Log.Record × Except CheckError Report :=
  if isLiteral given then checkLiteral given s watch else checkSource given s watch

/-! ## 2. Batches -/

/-- The report on a pattern, also if it cannot be checked. -/
def reportOn (s : Settings) (given : Bytes) (watch : Search.Watch) : List Log.Record × Report :=
  let r := checkGiven given s watch
  match r.2 with
  | .ok report => (r.1, report)
  | .error e =>
    (r.1 ++ [⟨.warn, "pattern not checked", [("pattern", given), ("err", e.message)]⟩],
      Report.failed given s.flags e)

/-- How the outside treats the patterns of a batch, by their places: the watch their check is
kept under, or nothing if the work has been called off when their turn comes. -/
abbrev Schedule := Nat → Option Search.Watch

/-- The work was called off before all patterns had their turn. -/
structure CalledOff where
deriving Repr, DecidableEq

/-- The wording of the error. -/
def CalledOff.message (_ : CalledOff) : String := "checking patterns: context canceled"

/-- The reports on some patterns, in their order. -/
def checkAll (s : Settings) (schedule : Schedule) (given : List Bytes) :
    Except CalledOff (List Log.Record × List Report) := do
  let rs ← given.zipIdx.mapM fun (pattern, place) =>
    match schedule place with
    | none => .error ⟨⟩
    | some watch => .ok (reportOn s pattern watch)
  return (rs.flatMap (·.1), rs.map (·.2))

/-- What a batch amounts to: two if some pattern could not be checked, one if some pattern is
unsafe, zero otherwise. -/
def exitCode (rs : List Report) : Nat :=
  if rs.any (·.error.isSome) then 2 else if rs.any (!·.safe) then 1 else 0

end Backtrack
