/-
# Searching a pattern

`Pattern.search` sets a search up, runs it and logs how it went.  Limits that are not positive
stand for the usual ones.

A search has no clock of its own.  What it would see of the outside, were it to look up after
some number of steps, is its *watch*: whether it has been called off by then, and how long it
has been running.  Nothing is assumed of a watch.
-/
import Backtrack.Log
import Backtrack.Search.Checker
import Backtrack.Text.Duration

namespace Backtrack

namespace Search

/-- The usual limit on steps. -/
def defaultMaxSteps : Nat := 20000

/-- The usual limit on the height of the stack. -/
def defaultMaxStack : Nat := 1000

/-- The usual time a search may take. -/
def defaultTimeout : Duration := ⟨10 * Duration.second⟩

/-- What a search sees of the outside after some number of steps. -/
structure Watch where
  calledOff : Nat → Bool
  /-- The time since the search began. -/
  elapsed : Nat → Duration

/-- The watch under which no time passes; the search is called off from the start or never. -/
def Watch.still (calledOff : Bool := false) : Watch := ⟨fun _ => calledOff, fun _ => ⟨0⟩⟩

/-- The bounds of a search, the offsets of the atomic groups, and the watch it is kept under. -/
structure Options where
  maxSteps : Int := 0
  timeout : Duration := ⟨0⟩
  maxStack : Int := 0
  atomicOffsets : List Int := []
  watch : Watch := Watch.still

/-- A limit, or the usual one if it is not positive. -/
def limit (given : Int) (usual : Nat) : Nat := if 0 < given then given.toNat else usual

/-- The time a search may take, the usual one if none is given. -/
def timeLimit (given : Duration) : Duration :=
  if 0 < given.nanoseconds then given else defaultTimeout

/-- Whether a search that looks up after some steps has been called off or has run out of time. -/
def Options.interrupted (o : Options) (steps : Nat) : Bool :=
  o.watch.calledOff steps ||
    (timeLimit o.timeout).nanoseconds ≤ (o.watch.elapsed steps).nanoseconds

/-- The group that starts at an offset. -/
def groupAt? (x : Index) (offset : Int) : Option Group :=
  if 0 ≤ offset then x.groupAt? offset.toNat else none

/-! ## 1. Requirements of all leaves -/

/-- The requirements of the leaves of a tree, worked out once. -/
def requirements (flags : Flags) (root : Node) :
    List (Atom × Except UnknownCategory Requirement) :=
  root.walk.filterMap fun
    | .atom a => some (a, a.requirement flags)
    | _ => none

/-- The requirement of a leaf, taken from a table if it is there. -/
def requirementIn (flags : Flags) (table : List (Atom × Except UnknownCategory Requirement))
    (a : Atom) : Except UnknownCategory Requirement :=
  (table.lookup a).getD (a.requirement flags)

/-- The table never changes a requirement. -/
theorem requirementIn_eq (flags : Flags) (root : Node) (a : Atom) :
    requirementIn flags (requirements flags root) a = a.requirement flags := by
  have key : ∀ ns : List Node, ((ns.filterMap fun
      | .atom b => some (b, b.requirement flags)
      | _ => none).lookup a).getD (a.requirement flags) = a.requirement flags := by
    intro ns
    induction ns with
    | nil => rfl
    | cons n ns ih =>
      cases n with
      | atom b =>
        by_cases h : a = b
        · simp [h]
        · have hb : (a == b) = false := by simpa using h
          simpa [List.lookup_cons, hb] using ih
      | _ => simpa using ih
  exact key _

/-! ## 2. The search -/

/-- The surroundings of a search of a pattern. -/
def contextOf (p : Pattern) (o : Options) : Context :=
  let x := Subject.ofPattern p
  { subject := x
    requirement := requirementIn p.flags (requirements p.flags p.root)
    atomic := o.atomicOffsets.filterMap fun off => (groupAt? x.index off).map (·.site.id)
    maxStack := limit o.maxStack defaultMaxStack
    interrupted := o.interrupted }

/-- The first state of a search of a pattern. -/
def State.initial (p : Pattern) : State := ⟨[Work.initial (Resolver.ofPattern p)], 0, []⟩

/-- Searches a pattern. -/
def outcome (p : Pattern) (o : Options) : Except Stuck Result :=
  run (contextOf p o) (limit o.maxSteps defaultMaxSteps) (State.initial p)

/-! ## 3. The log of a search -/

/-- The bytes of a number. -/
def numeral (n : Int) : Bytes := Bytes.ofString (toString n)

/-- Offsets at which no group starts. -/
def offsetRecords (p : Pattern) (o : Options) : List Log.Record :=
  let x := Index.ofNode p.root
  o.atomicOffsets.filterMap fun off =>
    if (groupAt? x off).isSome then none
    else some ⟨.debug, "no group at atomic offset",
      [("pattern", p.source), ("offset", numeral off)]⟩

/-- How a search went. -/
def outcomeRecords (p : Pattern) : Except Stuck Result → List Log.Record
  | .error s =>
    [⟨.debug, "check failed",
      [("pattern", p.source), ("steps", numeral s.steps),
        ("err", Bytes.ofString s.failure.message)]⟩]
  | .ok r =>
    let head := [("pattern", p.source), ("status", Bytes.ofString r.status.text),
      ("steps", numeral r.steps)]
    (if r.status = .ok then [] else [⟨.debug, "check stopped early", head⟩]) ++
      [⟨.debug, "check finished", head ++ [("trails", numeral r.trails.length)]⟩]

end Search

/-- Searches a pattern for input that two derivations of it can both consume. -/
def Pattern.search (p : Pattern) (o : Search.Options) :
    List Log.Record × Except Search.Stuck Search.Result :=
  let r := Search.outcome p o
  (Search.offsetRecords p o ++ Search.outcomeRecords p r, r)

end Backtrack
