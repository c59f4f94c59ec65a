/-
# Replacing references that cannot be followed

The analysis follows a reference only to a group it has seen match in full, with a bounded
number of characters.  Two kinds of references are revised beforehand.

* The pair `(?=(X))\N`, where `N` is the group of `X`, matches `X` and never gives back what it
  took.  The lookahead is dropped and the reference becomes an atomic copy of `X`.
* Any other reference to a group inside a positive lookaround, or to a group that repeats
  something without bound, becomes a plain copy of the group's body.  A reference inside its
  own group is left alone.

The result is written out and parsed again, so that it has a source of its own to point into.
The offsets of the atomic copies in that source go with it.
-/
import Backtrack.Pattern.Index
import Backtrack.Pattern.Parser
import Backtrack.Pattern.Printer

namespace Backtrack

/-- A pattern whose references can be followed, as far as that can be arranged. -/
structure Downgraded where
  pattern : Pattern
  changed : Bool
  atomicOffsets : List Nat
deriving Repr

/-- The revised source of a pattern is no pattern. -/
structure DowngradeError where
  source : Bytes
  revised : Bytes
  error : SyntaxError
deriving Repr, DecidableEq

/-- The wording of the error. -/
def DowngradeError.message (e : DowngradeError) : String :=
  "downgrading " ++ Quoted.text e.source ++ " to " ++ Quoted.text e.revised ++ ": " ++
    e.error.message

namespace Downgrade

/-! ## 1. Atomic pairs -/

/-- A lookahead that consists of one capture group, and the reference to it right after. -/
structure AtomicPair where
  lookahead : Group
  body : Node
  reference : Reference
deriving Repr

/-- The atomic pair two neighbours form. -/
def atomicPair? : Node → Node → Option AtomicPair
  | .group look (.group capture body), .reference r =>
    if look.kind == .lookahead && capture.isCapture && r.index == capture.index then
      some ⟨look, body, r⟩
    else none
  | _, _ => none

/-- The atomic pairs among the elements of a sequence. -/
def pairsIn : List Node → List AtomicPair
  | [] => []
  | [_] => []
  | a :: b :: rest => (atomicPair? a b).toList ++ pairsIn (b :: rest)

/-- The atomic pairs of a tree. -/
def atomicPairs (root : Node) : List AtomicPair :=
  root.walk.flatMap fun
    | .sequence _ ns => pairsIn ns
    | _ => []

/-! ## 2. References to copy -/

/-- Whether the group is inside of a positive lookaround. -/
def behindPositiveLookaround (x : Index) (g : Group) : Bool :=
  (x.lookarounds g.site.id).any fun look => !look.kind.isNegative

/-- The body to copy in place of a reference, if it has to be copied. -/
def copyOf? (x : Index) (r : Reference) : Option Node :=
  match x.group? r.index with
  | some (g, body) =>
    if x.contains g.site.id r.site.id then none
    else if behindPositiveLookaround x g || body.repeatsWithoutBound then some body
    else none
  | none => none

/-- The references of a tree. -/
def references (root : Node) : List Reference :=
  root.walk.filterMap fun
    | .reference r => some r
    | _ => none

theorem mem_references {n : Node} {r : Reference} :
    r ∈ references n ↔ .reference r ∈ n.walk := by
  rw [references, List.mem_filterMap]
  constructor
  · rintro ⟨m, hm, he⟩
    split at he
    · obtain rfl := Option.some.inj he
      exact hm
    · cases he
  · exact fun h => ⟨_, h, rfl⟩

/-- What is left out and replaced in a tree. -/
def revisionOf (root : Node) : Revision :=
  let pairs := atomicPairs root
  let atomic := pairs.map fun p => (⟨p.reference, p.body, true⟩ : Substitution)
  let plain := (references root).filterMap fun r =>
    if atomic.any (·.reference == r) then none
    else (copyOf? (Index.ofNode root) r).map fun body => (⟨r, body, false⟩ : Substitution)
  ⟨pairs.map (·.lookahead.site.id), atomic ++ plain⟩

end Downgrade

/-- The pattern with the references revised that cannot be followed. -/
def Pattern.downgrade (p : Pattern) : Except DowngradeError Downgraded :=
  let w := Downgrade.revisionOf p.root
  if w.substitutions.isEmpty then .ok ⟨p, false, []⟩
  else
    let pieces := w.written p.root
    let source := Revision.textOf pieces
    match Pattern.parse source p.flags with
    | .error e => .error ⟨p.source, source, e⟩
    | .ok q => .ok ⟨q, true, Revision.atomicOffsets 0 pieces⟩

end Backtrack
