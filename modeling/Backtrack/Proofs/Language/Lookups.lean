/-
# What a derivation looks up

A reference that is replaced by the body of its group stands for a match of the body, and the copy
can match the same text again, but not always:

* if the group is unset, the reference stands for nothing, and the body need not match nothing;
* in the body there may be references and anchors, and what they see from the copy is not what they
  saw in the group.

So it is recorded what a derivation looks up around it (`Lookup`), and along with the text that a
group took, what was looked up for it (`Held`).  A lookup *stands* in a copy if it comes to the same
there (`Lookup.Stands`), and a derivation is careful if it refers to groups only where that is so
(`Reading.careful`).

What groups hold always comes from derivations of their bodies (`Registers.Sound`); it is these that
copies will have to repeat.
-/
import Backtrack.Pattern.Downgrade
import Backtrack.Proofs.Derivation.Origin
import Backtrack.Proofs.Language.Readings

namespace Backtrack

/-! ## 1. Lookups

A lookup is noted with what it was about, and not only with its outcome, since the same question
is going to be asked in another place. -/

/-- What a derivation looks up around it: where it is, or what a group holds. -/
inductive Lookup where
  | anchor
  | reference (r : Reference) (text : List Nat)

/-- What a group took last, and what was looked up for it. -/
structure Held where
  text : List Nat
  lookups : List Lookup

/-- What groups hold, and what has been looked up since the innermost open group was opened. -/
structure Notes where
  held : Registers Held
  lookups : List Lookup

/-- The texts that groups hold. -/
def Registers.texts (E : Registers Held) : Registers (List Nat) := E.map Held.text

mutual

/-- Whether the node can match nothing, wherever it stands. -/
def Node.isSkippable : Node → Bool
  | .atom _ => false
  | .anchor _ _ => false
  | .reference _ => false
  | .group g body => !g.isLookaround && body.isSkippable
  | .quantifier q body => q.count.min == 0 || body.isSkippable
  | .sequence _ ns => Node.allSkippable ns
  | .alternation _ ns => Node.someSkippable ns

/-- Whether all of several nodes can match nothing. -/
def Node.allSkippable : List Node → Bool
  | [] => true
  | n :: ns => n.isSkippable && Node.allSkippable ns

/-- Whether one of several nodes can match nothing. -/
def Node.someSkippable : List Node → Bool
  | [] => false
  | n :: ns => n.isSkippable || Node.someSkippable ns

end

/-- **A lookup stands in a copy**, while the groups in `copying` are being copied and groups hold
`E`: what takes the place of the reference can match the same text.  Anchors never stand. -/
inductive Lookup.Stands (w : Revision) (E : Registers Held) : (copying : List Nat) → Lookup → Prop
  | copied {copying : List Nat} {r : Reference} (hc : copying.contains r.index = true) :
    Stands w E copying (.reference r [])
  | kept {copying : List Nat} {r : Reference} {s : List Nat}
    (hc : ¬copying.contains r.index = true) (hf : w.find? r = none)
    (same : (E.texts r.index).getD [] = s) : Stands w E copying (.reference r s)
  | repeated {copying : List Nat} {r : Reference} {sub : Substitution} {h : Held}
    (hc : ¬copying.contains r.index = true) (hf : w.find? r = some sub) (hE : E r.index = some h)
    (all : ∀ k ∈ h.lookups, Stands w E (r.index :: copying) k) :
    Stands w E copying (.reference r h.text)
  | skipped {copying : List Nat} {r : Reference} {sub : Substitution}
    (hc : ¬copying.contains r.index = true) (hf : w.find? r = some sub)
    (he : sub.body.isSkippable = true) : Stands w E copying (.reference r [])

/-- The plain reading, with notes of what is looked up.  A reference is read only if it stands. -/
def Reading.careful (w : Revision) (flags : Flags) (holds : Anchor → List Nat → List Nat → Prop) :
    Reading Notes where
  flags := flags
  anchor k before after N N' :=
    holds k before after ∧ N' = { N with lookups := N.lookups ++ [.anchor] }
  reference r s N N' :=
    s = (N.held.texts r.index).getD [] ∧ Lookup.Stands w N.held [] (.reference r s) ∧
      N' = { N with lookups := N.lookups ++ [.reference r s] }
  reset is N := { N with held := N.held.reset is }
  enter i N := ⟨N.held.reset [i], []⟩
  leave i s N N' := ⟨N'.held.set i ⟨s, N'.lookups⟩, N.lookups ++ N'.lookups⟩

/-- **The texts that a pattern consumes carefully**: every reference, if it is replaced, finds its
group set and what was looked up for the group unchanged, or finds a body that can match nothing. -/
def Pattern.AcceptsCarefully (p : Pattern) (holds : Anchor → List Nat → List Nat → Prop)
    (s : List Nat) : Prop :=
  ∃ N, p.root.Accepts (.careful (Downgrade.revisionOf p.root) p.flags holds) [] s []
    ⟨Registers.empty, []⟩ N

namespace Registers

theorem texts_reset (is : List Nat) (E : Registers Held) :
    (E.reset is).texts = E.texts.reset is := by
  funext i
  simp only [texts, map, reset]
  split <;> rfl

theorem texts_set (i : Nat) (h : Held) (E : Registers Held) :
    (E.set i h).texts = E.texts.set i h.text := by
  funext j
  simp only [texts, map, set]
  split <;> rfl

theorem reset_nil {α : Type} (E : Registers α) : E.reset [] = E := by
  funext i
  exact if_neg List.not_mem_nil

end Registers

section

variable {w : Revision} {flags : Flags} {holds : Anchor → List Nat → List Nat → Prop}

/-- A careful derivation is a derivation. -/
theorem Reading.tracks_plain :
    (careful w flags holds).Tracks (plain flags holds) (fun N => N.held.texts) where
  flags := rfl
  anchor := by
    rintro k before after N _ ⟨h, rfl⟩
    exact ⟨h, rfl⟩
  reference := by
    rintro r s N _ ⟨hs, -, rfl⟩
    exact ⟨hs, rfl⟩
  reset is N := Registers.texts_reset is N.held
  enter i N := Registers.texts_reset [i] N.held
  leave i s N N' := Registers.texts_set i _ N'.held

/-- What is consumed carefully is consumed. -/
theorem Pattern.AcceptsCarefully.accepts {p : Pattern} {s : List Nat}
    (h : p.AcceptsCarefully holds s) : p.Accepts holds s := by
  obtain ⟨N, h⟩ := h
  exact ⟨_, Node.Accepts.map Reading.tracks_plain p.root h⟩

/-! ## 2. Notes

What is held is not invented: it comes from a derivation of the body of its group, and further
derivations only add to the notes. -/

variable {root : Node}

/-- What the group with a number holds comes from a derivation of its body. -/
def Held.Stems (x : Reading Notes) (root : Node) (i : Nat) (h : Held) : Prop :=
  ∃ g body before after N N', .group g body ∈ root.walk ∧ g.isCapture = true ∧ g.index = i ∧
    body.Accepts x before h.text after N N' ∧ N'.lookups = h.lookups

/-- All that is held comes from derivations. -/
def Registers.Sound (x : Reading Notes) (root : Node) (E : Registers Held) : Prop :=
  ∀ i h, E i = some h → h.Stems x root i

theorem Registers.Sound.reset {x : Reading Notes} {E : Registers Held} (h : E.Sound x root)
    (is : List Nat) : (E.reset is).Sound x root := by
  intro i k hk
  rw [Registers.reset] at hk
  split at hk
  · cases hk
  · exact h i k hk

/-- What a derivation does to the notes: it adds lookups, and what is held still comes from
derivations. -/
structure Notes.Grows (x : Reading Notes) (root : Node) (N N' : Notes) : Prop where
  lookups : N.lookups ⊆ N'.lookups
  sound : N.held.Sound x root → N'.held.Sound x root

namespace Notes.Grows

variable {x : Reading Notes} {N N' N'' : Notes}

theorem refl (N : Notes) : Grows x root N N := ⟨List.Subset.refl _, id⟩

theorem trans (h : Grows x root N N') (h' : Grows x root N' N'') : Grows x root N N'' :=
  ⟨List.Subset.trans h.lookups h'.lookups, h'.sound ∘ h.sound⟩

theorem append (N : Notes) (k : Lookup) :
    Grows x root N { N with lookups := N.lookups ++ [k] } :=
  ⟨List.subset_append_left _ _, id⟩

end Notes.Grows

theorem Turns.grows {x : Reading Notes} {B : (before s after : List Nat) → Notes → Notes → Prop}
    {is : List Nat} (hB : ∀ before s after N N', B before s after N N' → N.Grows x root N')
    {before after : List Nat} {ss : List (List Nat)} {N N' : Notes}
    (h : Turns B (fun N => { N with held := N.held.reset is }) before ss after N N') :
    N.Grows x root N' := by
  induction h with
  | none N => exact .refl N
  | more h _ ih =>
    have body := hB _ _ _ _ _ h
    exact ⟨List.Subset.trans body.lookups ih.lookups, fun hs => ih.sound (body.sound (hs.reset is))⟩

namespace Node

mutual

theorem grows : ∀ (n : Node), root.Below n → ∀ {before s after : List Nat} {N N' : Notes},
    n.Accepts (.careful w flags holds) before s after N N' →
      N.Grows (.careful w flags holds) root N'
  | .atom _, _, _, _, _, _, _, h => by
    obtain ⟨c, -, -, rfl⟩ := h
    exact .refl _
  | .anchor _ _, _, _, _, _, _, _, h => by
    obtain ⟨⟨-, rfl⟩, -⟩ := h
    exact .append _ _
  | .reference _, _, _, _, _, _, _, h => by
    obtain ⟨-, -, rfl⟩ := h
    exact .append _ _
  | .group g body, hb, _, s, _, N, _, h => by
    rw [Accepts] at h
    split at h
    · exact h.elim
    split at h
    · rename_i hc
      obtain ⟨N₁, h, rfl⟩ := h
      refine ⟨List.subset_append_left _ _, fun hs i k hk => ?_⟩
      have sound := (grows body hb.group h).sound (hs.reset [g.index])
      simp only [Reading.careful, Registers.set] at hk
      split at hk
      · rename_i hi
        obtain rfl := Option.some.inj hk
        exact ⟨g, body, _, _, _, _, hb.mem, hc, hi.symm, h, rfl⟩
      · exact sound i k hk
    · exact grows body hb.group h
  | .quantifier q body, hb, _, _, _, _, _, h => by
    obtain ⟨ss, -, -, -, turns⟩ := h
    exact turns.grows fun _ _ _ _ _ hB => grows body hb.quantifier hB
  | .sequence _ ns, hb, _, _, _, _, _, h => growsAll ns hb.sequence h
  | .alternation _ ns, hb, _, _, _, _, _, h => growsOne ns hb.alternation h

theorem growsAll : ∀ (ns : List Node), (∀ n ∈ ns, root.Below n) →
    ∀ {before s after : List Nat} {N N' : Notes},
      AcceptsAll (.careful w flags holds) ns before s after N N' →
        N.Grows (.careful w flags holds) root N'
  | [], _, _, _, _, _, _, h => by
    obtain ⟨-, rfl⟩ := h
    exact .refl _
  | n :: ns, hb, _, _, _, _, _, h => by
    obtain ⟨s₁, s₂, N₁, -, hn, hns⟩ := h
    obtain ⟨hb, hbs⟩ := List.forall_mem_cons.mp hb
    exact (grows n hb hn).trans (growsAll ns hbs hns)

theorem growsOne : ∀ (ns : List Node), (∀ n ∈ ns, root.Below n) →
    ∀ {before s after : List Nat} {N N' : Notes},
      AcceptsOne (.careful w flags holds) ns before s after N N' →
        N.Grows (.careful w flags holds) root N'
  | n :: ns, hb, _, _, _, _, _, h => by
    obtain ⟨hb, hbs⟩ := List.forall_mem_cons.mp hb
    exact h.elim (grows n hb) (growsOne ns hbs)

end

end Node

end

end Backtrack
