/-
# What identifies a side

A side is written down twice, once to be looked up (`Side.Identity.text`) and once to see whether a
path repeats itself (`Side.Key.text`).  Both texts are numbers in decimal digits, each behind a mark
of its own: node, iterations, references.  A number ends before the next mark or where the text
does, so the text can be taken apart, whatever the numbers are and however many of them there are:
what is written the same is the same (`Side.Identity.text_injective`, `Side.Key.text_injective`).

Over one tree the numbers tell nodes apart.  `Side.Built` is a side as a search builds it, out of the
nodes, quantifiers and references of a tree; they are given by their places in the tree, so that they
are one only if they are at one place.  What identifies such a side is what it was built from, but
for whether its iterations are optional (`Side.Built.identity_eq_iff`).
-/
import Mathlib.Data.Prod.Basic
import Backtrack.Pattern.Downgrade
import Backtrack.Proofs.Pattern.Places
import Backtrack.Proofs.Text.Unambiguous
import Backtrack.Search.Side

namespace Backtrack

/-! ## 1. Texts

A mark tells where the iterations end and the references begin, and no digit is a mark. -/

section Texts

variable {ι : Type} {index : ι → List Char}

/-- An iteration: the number of its quantifier and its own, whatever that is written as. -/
def writeIteration (index : ι → List Char) (i : Nat × ι) : List Char :=
  ['|'] ++ ((toString i.1).toList ++ ([':'] ++ index i.2))

/-- A reference by its number. -/
def writeReference (r : Nat) : List Char := ['\\'] ++ (toString r).toList

/-- Node, iterations and references. -/
def writeSide (index : ι → List Char) (x : Nat × (List (Nat × ι) × List Nat)) : List Char :=
  (toString x.1).toList ++ (x.2.1.flatMap (writeIteration index) ++ x.2.2.flatMap writeReference)

/-- No iteration comes next, and no digit. -/
def EndsIterations (r : List Char) : Prop := NoDigit r ∧ r.head? ≠ some '|'

theorem endsIterations_references (rs : List Nat) :
    EndsIterations (rs.flatMap writeReference ++ []) := by
  cases rs with
  | nil => simp [EndsIterations, NoDigit]
  | cons n rs => simp [EndsIterations, NoDigit, writeReference]

theorem noDigit_iterations (is : List (Nat × ι)) {r : List Char} (h : EndsIterations r) :
    NoDigit (is.flatMap (writeIteration index) ++ r) := by
  cases is with
  | nil => exact h.1
  | cons i is => simp [NoDigit, writeIteration]

/-- **The text of a side can be taken apart**, if the number of an iteration ends where the digits
do. -/
theorem injective_writeSide (h : Unambiguous index NoDigit) :
    Function.Injective (writeSide index) := by
  have iteration : Unambiguous (writeIteration index) NoDigit :=
    (unambiguous_nat.pair (h.after [':']) fun _ _ _ => by simp [NoDigit]).after _
  have iterations : Unambiguous (fun is : List (Nat × ι) => is.flatMap (writeIteration index))
      EndsIterations :=
    iteration.list (fun _ _ => by simp [NoDigit, writeIteration]) (fun _ h => h.1)
      fun _ _ h => h.2 (by simp [writeIteration])
  have references : Unambiguous (fun rs : List Nat => rs.flatMap writeReference) (· = []) := by
    refine (unambiguous_nat.after _).list (fun _ _ => by simp [NoDigit]) ?_ fun _ _ h => ?_
    · rintro _ rfl
      simp [NoDigit]
    · simp at h
  have parts := iterations.pair references fun rs r hr => hr ▸ endsIterations_references rs
  have side : Unambiguous (writeSide index) (· = []) := by
    refine unambiguous_nat.pair parts ?_
    rintro x r rfl
    rw [List.append_assoc]
    exact noDigit_iterations x.1 (endsIterations_references x.2)
  exact side.injective rfl

/-- The number of an iteration, or a star for all that are optional. -/
def writeIndex (i : Option Int) : List Char := ((i.map toString).getD "*").toList

theorem unambiguous_writeIndex : Unambiguous writeIndex NoDigit := by
  -- A star is neither a digit nor a sign, and a number starts with one of these.
  have star : ∀ (i : Int) (r s : List Char), (toString i).toList ++ r ≠ '*' :: s := by
    rintro (n | n) r s
    · exact ne_cons_of_isDigit_eq_false rfl n r s
    · rw [toList_toString_negSucc]
      simp
  rintro (_ | i) (_ | j) r s hr hs same
  · exact ⟨rfl, (List.cons.inj same).2⟩
  · exact absurd same.symm (star j s _)
  · exact absurd same (star i r _)
  · obtain ⟨rfl, rest⟩ := unambiguous_int hr hs same
    exact ⟨rfl, rest⟩

end Texts

namespace Side

/-- **What identifies a side can be read off its text.** -/
theorem Identity.text_injective : Function.Injective Identity.text := by
  have written : ∀ x : Identity, x.text.toList =
      writeSide (fun i : Int => (toString i).toList) (x.node, (x.iterations, x.via)) := by
    intro x
    simp only [text, writeSide, String.toList_append, String.toList_join, List.flatMap_map,
      List.append_assoc]
    rfl
  rintro ⟨n, is, rs⟩ ⟨m, js, ss⟩ same
  have same := congrArg String.toList same
  rw [written, written] at same
  cases injective_writeSide unambiguous_int same
  rfl

/-- **So can its key.** -/
theorem Key.text_injective : Function.Injective Key.text := by
  have written : ∀ x : Key, x.text.toList = writeSide writeIndex (x.node, (x.iterations, x.via)) := by
    intro x
    simp only [text, writeSide, String.toList_append, String.toList_join, List.flatMap_map,
      List.append_assoc]
    rfl
  rintro ⟨n, is, rs⟩ ⟨m, js, ss⟩ same
  have same := congrArg String.toList same
  rw [written, written] at same
  cases injective_writeSide unambiguous_writeIndex same
  rfl

/-! ## 2. Sides of one tree

The parts of a side are given by their places in lists of nodes.  Numbers tell the members of such
a list apart, as no two nodes of a tree have the same. -/

/-- A side as it is built out of a tree: its leaf or other node, the quantifiers around it with the
number of the iteration and whether that is optional, and the references it was repeated by.  Each is
given by its place among those of the tree: two of them look alike only if they are at one place. -/
structure Built (root : Node) where
  node : Fin root.walk.length
  iterations : List (Fin (quantifiersIn root.walk).length × Int × Bool)
  via : List (Fin (Downgrade.references root).length)

namespace Built

variable {root : Node}

/-- The side that is built. -/
def side (x : Built root) : Side :=
  ⟨root.walk[x.node].id, root.walk[x.node].site.span,
    x.iterations.map fun i => ⟨(quantifiersIn root.walk)[i.1], i.2.1, i.2.2⟩,
    x.via.map fun r => (Downgrade.references root)[r]⟩

/-- The iterations as far as they are compared: which quantifier, and which iteration of it. -/
def turns (x : Built root) : List (Fin (quantifiersIn root.walk).length × Int) :=
  x.iterations.map fun i => (i.1, i.2.1)

/-- **The sides are compared directly**: one node, the same iterations of the same quantifiers, one
after the other, and the same references. -/
def Agrees (x y : Built root) : Prop := x.node = y.node ∧ x.turns = y.turns ∧ x.via = y.via

instance (x y : Built root) : Decidable (x.Agrees y) := instDecidableAnd

theorem agrees_comm (x y : Built root) : x.Agrees y ↔ y.Agrees x := by
  simp only [Agrees, eq_comm]

/-- Numbers tell the members of a list apart if none comes twice. -/
theorem injective_number {α : Type} {number : α → Nat} {as : List α} (h : (as.map number).Nodup) :
    Function.Injective fun i : Fin as.length => number as[i] := by
  intro i j same
  have bound : ∀ k : Fin as.length, k.val < (as.map number).length := fun k => by simp
  have same : (as.map number).get ⟨i, bound i⟩ = (as.map number).get ⟨j, bound j⟩ := by
    simpa using same
  exact Fin.ext (Fin.mk.inj (h.get_inj_iff.mp same))

/-- **What identifies a side of a tree is what it was built from.**  Whether an iteration is optional
is no part of it. -/
theorem identity_eq_iff (distinct : root.IsDistinct) {x y : Built root} :
    x.side.identity = y.side.identity ↔ x.Agrees y := by
  have node := injective_number distinct
  have quantifier := injective_number (distinct.sublist (map_quantifiersIn_sublist root.walk))
  have reference := injective_number (distinct.sublist (Downgrade.map_references_sublist root))
  have turns : ∀ x : Built root, x.side.identity.iterations =
      x.turns.map (Prod.map (fun q => (quantifiersIn root.walk)[q].site.id) id) := by
    intro x
    simp [side, identity, Built.turns]
  have via : ∀ x : Built root, x.side.identity.via =
      x.via.map fun r => (Downgrade.references root)[r].site.id := by
    intro x
    simp [side, identity]
  have parts : x.side.identity = y.side.identity ↔
      x.side.identity.node = y.side.identity.node ∧
        x.side.identity.iterations = y.side.identity.iterations ∧
          x.side.identity.via = y.side.identity.via := Identity.mk.injEq _ _ _ _ _ _ ▸ Iff.rfl
  rw [parts, turns, turns, via, via, Agrees]
  refine and_congr node.eq_iff (and_congr ?_ ?_)
  · refine (List.map_injective_iff.mpr ?_).eq_iff
    exact quantifier.prodMap Function.injective_id
  · exact (List.map_injective_iff.mpr reference).eq_iff

end Built

end Side

end Backtrack
