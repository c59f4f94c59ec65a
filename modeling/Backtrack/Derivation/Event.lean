/-
# Events of a derivation

A derivation of a pattern is a walk through its tree.  What happens on the way is told by
events, each with the *frames* that enclose it, innermost first: the groups and lookarounds it
is inside of and, for every quantifier around it, the iteration the quantifier is in.

Where a walk can go on in two ways there is a `split`.  The walk that follows the event is one
of them, the branch carried by the event the other; `κ` is what a branch is given by.
-/
import Backtrack.Pattern.Node

namespace Backtrack

/-- The iteration a quantifier is in.  It is optional when it is not the first one and the
quantifier has had as many iterations as it needs. -/
structure Iteration where
  quantifier : Quantifier
  index : Nat
  optional : Bool
deriving Repr, DecidableEq

/-- One enclosing construct. -/
inductive Frame where
  | group (g : Group)
  | iteration (i : Iteration)
deriving Repr, DecidableEq

/-- The enclosing constructs, innermost first. -/
abbrev Frames := List Frame

namespace Frames

/-- The iterations among the frames, innermost first. -/
def iterations (fs : Frames) : List Iteration :=
  fs.filterMap fun
    | .iteration i => some i
    | .group _ => none

/-- The lookarounds among the frames, outermost first. -/
def lookarounds (fs : Frames) : List Group :=
  (fs.filterMap fun
    | .group g => if g.isLookaround then some g else none
    | .iteration _ => none).reverse

/-- The numbers of the nodes of the open groups, lookarounds aside, innermost first. -/
def openGroups (fs : Frames) : List Nat :=
  fs.filterMap fun
    | .group g => if g.isLookaround then none else some g.site.id
    | .iteration _ => none

/-- Whether the capture group with a number is open. -/
def isOpen (fs : Frames) (index : Nat) : Bool :=
  fs.any fun
    | .group g => g.isCapture && g.index == index
    | .iteration _ => false

end Frames

/-- One step of a walk. -/
inductive Event (κ : Type) where
  /-- A leaf consumes a character; `via` are the references that repeat it, oldest first. -/
  | consume (fs : Frames) (a : Atom) (via : List Reference)
  /-- A reference is met. -/
  | refer (fs : Frames) (r : Reference)
  /-- The start of the input is required. -/
  | start (fs : Frames)
  /-- The walk ends, at the end of the input if `bounded`, anywhere else. -/
  | stop (fs : Frames) (bounded : Bool)
  /-- Nothing happens. -/
  | skip (fs : Frames)
  /-- The walk could also go on as `branch`. -/
  | split (fs : Frames) (branch : κ)
  /-- The walk is given up. -/
  | abort (fs : Frames)
  /-- Nothing is left of the walk. -/
  | done
deriving Repr

namespace Event

variable {κ μ : Type}

/-- The frames of an event. -/
def frames : Event κ → Frames
  | consume fs _ _ => fs
  | refer fs _ => fs
  | start fs => fs
  | stop fs _ => fs
  | skip fs => fs
  | split fs _ => fs
  | abort fs => fs
  | done => []

/-- Whether nothing follows the event. -/
def isTerminal : Event κ → Bool
  | stop _ _ => true
  | abort _ => true
  | done => true
  | _ => false

/-- The event with its branch given in another way. -/
def mapBranch (f : κ → μ) : Event κ → Event μ
  | consume fs a via => consume fs a via
  | refer fs r => refer fs r
  | start fs => start fs
  | stop fs b => stop fs b
  | skip fs => skip fs
  | split fs k => split fs (f k)
  | abort fs => abort fs
  | done => done

@[simp] theorem isTerminal_mapBranch (f : κ → μ) (e : Event κ) :
    (e.mapBranch f).isTerminal = e.isTerminal := by
  cases e <;> rfl

@[simp] theorem frames_mapBranch (f : κ → μ) (e : Event κ) :
    (e.mapBranch f).frames = e.frames := by
  cases e <;> rfl

theorem mapBranch_eq_split {f : κ → μ} {e : Event κ} {fs : Frames} {b : μ} :
    e.mapBranch f = .split fs b ↔ ∃ k, e = .split fs k ∧ f k = b := by
  cases e <;> simp [mapBranch, and_assoc]

theorem mapBranch_eq_refer {f : κ → μ} {e : Event κ} {fs : Frames} {r : Reference} :
    e.mapBranch f = .refer fs r ↔ e = .refer fs r := by
  cases e <;> simp [mapBranch]

theorem mapBranch_eq_consume {f : κ → μ} {e : Event κ} {fs : Frames} {a : Atom}
    {via : List Reference} : e.mapBranch f = .consume fs a via ↔ e = .consume fs a via := by
  cases e <;> simp [mapBranch]

theorem mapBranch_eq_stop {f : κ → μ} {e : Event κ} {fs : Frames} {b : Bool} :
    e.mapBranch f = .stop fs b ↔ e = .stop fs b := by
  cases e <;> simp [mapBranch]

theorem mapBranch_eq_abort {f : κ → μ} {e : Event κ} {fs : Frames} :
    e.mapBranch f = .abort fs ↔ e = .abort fs := by
  cases e <;> simp [mapBranch]

theorem mapBranch_eq_done {f : κ → μ} {e : Event κ} : e.mapBranch f = .done ↔ e = .done := by
  cases e <;> simp [mapBranch]

end Event

end Backtrack
