/-
# What a tree consumes

`Node.Accepts` tells which texts a tree consumes.  It leaves to a `Reading` what is remembered on
the way, where anchors hold and what references stand for; `Reading.plain` is the reading in which a
reference repeats what its group took last, and nothing if the group is unset or still open.

A tree is written before it is read again, so what it consumes must not depend on places
(`Node.accepts_bare`), on separators (`Node.accepts_separated`) or on sequences of one element
(`Node.accepts_collapsed`).  A reading that follows another one accepts what that one accepts
(`Node.Accepts.map`).
-/
import Backtrack.Pattern.Compile
import Backtrack.Proofs.Derivation.Words
import Backtrack.Proofs.Pattern.Walks

namespace Backtrack

/-! ## 1. Readings

What a tree consumes and what is remembered are kept apart, since several things will be
remembered: the texts of groups, or also what was looked up for them. -/

/-- What is held for groups, by their numbers. -/
abbrev Registers (α : Type) := Nat → Option α

namespace Registers

variable {α β : Type}

/-- No group is set. -/
def empty : Registers α := fun _ => none

/-- Forgets what some groups hold. -/
def reset (indexes : List Nat) (E : Registers α) : Registers α :=
  fun i => if i ∈ indexes then none else E i

/-- Changes what one group holds. -/
def set (index : Nat) (a : α) (E : Registers α) : Registers α :=
  fun i => if i = index then some a else E i

/-- Keeps a part of what is held. -/
def map (f : α → β) (E : Registers α) : Registers β := fun i => (E i).map f

end Registers

/-- How a tree is read, with something remembered on the way. -/
structure Reading (σ : Type) where
  flags : Flags
  /-- An anchor, between what stands before and after it. -/
  anchor : Anchor → (before after : List Nat) → σ → σ → Prop
  /-- A reference that stands for a text. -/
  reference : Reference → List Nat → σ → σ → Prop
  /-- Some capture groups are unset. -/
  reset : List Nat → σ → σ
  /-- A capture group is opened. -/
  enter : Nat → σ → σ
  /-- A capture group has taken a text, given what was remembered before it and in it. -/
  leave : Nat → List Nat → σ → σ → σ

/-- **References repeat what their groups took last**, and stand for nothing if the group is unset.
A group is unset while it is open. -/
def Reading.plain (flags : Flags) (holds : Anchor → List Nat → List Nat → Prop) :
    Reading (Registers (List Nat)) where
  flags := flags
  anchor k before after E E' := holds k before after ∧ E' = E
  reference r s E E' := s = (E r.index).getD [] ∧ E' = E
  reset := Registers.reset
  enter i := Registers.reset [i]
  leave i s _ E := E.set i s

/-- Iterations one after the other, each with the groups of the body unset.  `B` is what the body
consumes. -/
inductive Turns {σ : Type} (B : (before s after : List Nat) → σ → σ → Prop) (reset : σ → σ) :
    (before : List Nat) → List (List Nat) → (after : List Nat) → σ → σ → Prop
  | none {before after : List Nat} (E : σ) : Turns B reset before [] after E E
  | more {before s after : List Nat} {ss : List (List Nat)} {E E₁ E₂ : σ}
    (h : B before s (ss.flatten ++ after) (reset E) E₁)
    (rest : Turns B reset (before ++ s) ss after E₁ E₂) :
    Turns B reset before (s :: ss) after E E₂

/-- A character that a leaf takes. -/
def Shape.Takes (flags : Flags) (s : Shape) (c : Nat) : Prop :=
  ∃ g, s.requirement flags = .ok g ∧ g.contains c = true

namespace Node

variable {σ : Type} (x : Reading σ)

mutual

/-- **The texts that a tree consumes** between what stands before and after it, from what is
remembered in `E` to what is remembered in `E'`.  Iterations beyond those that are needed consume
something.  Trees with lookarounds are not covered: nothing is said to consume anything by them. -/
def Accepts : Node → (before s after : List Nat) → (E E' : σ) → Prop
  | atom a, _, s, _, E, E' => ∃ c, a.shape.Takes x.flags c ∧ s = [c] ∧ E' = E
  | anchor _ k, before, s, after, E, E' => x.anchor k before after E E' ∧ s = []
  | reference r, _, s, _, E, E' => x.reference r s E E'
  | group g body, before, s, after, E, E' =>
    if g.isLookaround then False
    else if g.isCapture then
      ∃ E₁, body.Accepts before s after (x.enter g.index E) E₁ ∧ E' = x.leave g.index s E E₁
    else body.Accepts before s after E E'
  | quantifier q body, before, s, after, E, E' =>
    ∃ ss, q.count.Allows ss.length ∧ (∀ t ∈ ss.drop q.count.min, t ≠ []) ∧ s = ss.flatten ∧
      Turns body.Accepts (x.reset (captureIndexes body.walk)) before ss after E E'
  | sequence _ ns, before, s, after, E, E' => AcceptsAll ns before s after E E'
  | alternation _ ns, before, s, after, E, E' => AcceptsOne ns before s after E E'

/-- The texts that several trees consume one after the other. -/
def AcceptsAll : List Node → (before s after : List Nat) → (E E' : σ) → Prop
  | [], _, s, _, E, E' => s = [] ∧ E' = E
  | n :: ns, before, s, after, E, E' =>
    ∃ s₁ s₂ E₁, s = s₁ ++ s₂ ∧ n.Accepts before s₁ (s₂ ++ after) E E₁ ∧
      AcceptsAll ns (before ++ s₁) s₂ after E₁ E'

/-- The texts that one of several trees consumes. -/
def AcceptsOne : List Node → (before s after : List Nat) → (E E' : σ) → Prop
  | [], _, _, _, _, _ => False
  | n :: ns, before, s, after, E, E' =>
    n.Accepts before s after E E' ∨ AcceptsOne ns before s after E E'

end

end Node

/-- **The texts that a pattern consumes**, given where anchors hold. -/
def Pattern.Accepts (p : Pattern) (holds : Anchor → List Nat → List Nat → Prop) (s : List Nat) :
    Prop :=
  ∃ E, p.root.Accepts (.plain p.flags holds) [] s [] Registers.empty E

/-! ## 2. One reading follows another

A reading that remembers more can be compared with one that remembers less by forgetting, and this
is said once for all trees. -/

/-- What is remembered in one reading tells what is remembered in another, and the second one allows
what the first one does. -/
structure Reading.Tracks {σ τ : Type} (x : Reading σ) (y : Reading τ) (f : σ → τ) : Prop where
  flags : x.flags = y.flags
  anchor : ∀ k before after E E', x.anchor k before after E E' →
    y.anchor k before after (f E) (f E')
  reference : ∀ r s E E', x.reference r s E E' → y.reference r s (f E) (f E')
  reset : ∀ is E, f (x.reset is E) = y.reset is (f E)
  enter : ∀ i E, f (x.enter i E) = y.enter i (f E)
  leave : ∀ i s E E', f (x.leave i s E E') = y.leave i s (f E) (f E')

theorem Turns.map {σ τ : Type} {B : (before s after : List Nat) → σ → σ → Prop}
    {B' : (before s after : List Nat) → τ → τ → Prop} {reset : σ → σ} {reset' : τ → τ} {f : σ → τ}
    (hB : ∀ before s after E E', B before s after E E' → B' before s after (f E) (f E'))
    (hr : ∀ E, f (reset E) = reset' (f E)) {before after : List Nat} {ss : List (List Nat)}
    {E E' : σ} (h : Turns B reset before ss after E E') :
    Turns B' reset' before ss after (f E) (f E') := by
  induction h with
  | none E => exact .none (f E)
  | more h _ ih => exact .more (hr _ ▸ hB _ _ _ _ _ h) ih

namespace Node

variable {σ τ : Type} {x : Reading σ} {y : Reading τ} {f : σ → τ}

mutual

/-- What is accepted in one reading is accepted in a reading that it tracks. -/
theorem Accepts.map (t : x.Tracks y f) : ∀ (n : Node) {before s after : List Nat} {E E' : σ},
    n.Accepts x before s after E E' → n.Accepts y before s after (f E) (f E')
  | atom a, _, s, _, E, E', h => by
    obtain ⟨c, hc, rfl, rfl⟩ := h
    exact ⟨c, t.flags ▸ hc, rfl, rfl⟩
  | anchor _ k, _, _, _, _, _, h => ⟨t.anchor _ _ _ _ _ h.1, h.2⟩
  | reference r, _, _, _, _, _, h => t.reference _ _ _ _ h
  | group g body, _, s, _, E, E', h => by
    rw [Accepts] at h ⊢
    split at h
    · exact h.elim
    · rename_i hl
      rw [if_neg hl]
      split at h
      · rename_i hc
        obtain ⟨E₁, hb, rfl⟩ := h
        rw [if_pos hc]
        exact ⟨f E₁, t.enter _ _ ▸ Accepts.map t body hb, t.leave _ _ _ _⟩
      · rename_i hc
        rw [if_neg hc]
        exact Accepts.map t body h
  | quantifier q body, _, _, _, _, _, h => by
    obtain ⟨ss, allowed, busy, hs, turns⟩ := h
    exact ⟨ss, allowed, busy, hs,
      turns.map (fun _ _ _ _ _ hb => Accepts.map t body hb) (t.reset _)⟩
  | sequence _ ns, _, _, _, _, _, h => AcceptsAll.map t ns h
  | alternation _ ns, _, _, _, _, _, h => AcceptsOne.map t ns h

theorem AcceptsAll.map (t : x.Tracks y f) : ∀ (ns : List Node) {before s after : List Nat}
    {E E' : σ}, AcceptsAll x ns before s after E E' →
      AcceptsAll y ns before s after (f E) (f E')
  | [], _, _, _, _, _, h => ⟨h.1, congrArg f h.2⟩
  | n :: ns, _, _, _, _, _, h => by
    obtain ⟨s₁, s₂, E₁, hs, hn, hns⟩ := h
    exact ⟨s₁, s₂, f E₁, hs, Accepts.map t n hn, AcceptsAll.map t ns hns⟩

theorem AcceptsOne.map (t : x.Tracks y f) : ∀ (ns : List Node) {before s after : List Nat}
    {E E' : σ}, AcceptsOne x ns before s after E E' →
      AcceptsOne y ns before s after (f E) (f E')
  | n :: ns, _, _, _, _, _, h =>
    h.imp (fun hn => Accepts.map t n hn) (fun hns => AcceptsOne.map t ns hns)

end

end Node

/-! ## 3. Places, separators, sequences of one element

One case for each kind of node, three times over.  Each is an equation between what two trees
consume, so that it can be used inside of any other tree. -/

theorem CharClass.requirement_bare (k : CharClass) (ignoreCase : Bool) :
    k.bare.requirement ignoreCase = k.requirement ignoreCase := by
  have escapes : k.bare.escapes.map (·.2.requirement) = k.escapes.map (·.2.requirement) :=
    List.map_map
  have properties :
      k.bare.properties.map (·.2.requirement) = k.properties.map (·.2.requirement) :=
    List.map_map
  rw [requirement, escapes, properties]
  rfl

theorem Shape.takes_bare (flags : Flags) (s : Shape) (c : Nat) :
    s.bare.Takes flags c ↔ s.Takes flags c := by
  cases s with
  | charClass k => simp only [bare, Takes, Shape.requirement, CharClass.requirement_bare]
  | _ => exact Iff.rfl

namespace Node

variable {σ : Type} {x : Reading σ}

/-- What the two bodies of a quantifier consume is the same if they capture the same. -/
theorem accepts_quantifier_congr {q q' : Quantifier} {body body' : Node} (hq : q'.count = q.count)
    (hb : body'.Accepts x = body.Accepts x)
    (hc : captureIndexes body'.walk = captureIndexes body.walk) :
    (quantifier q' body').Accepts x = (quantifier q body).Accepts x := by
  funext before s after E E'
  rw [Accepts, Accepts, hq, hb, hc]

theorem accepts_group_congr {g g' : Group} {body body' : Node} (hk : g'.kind = g.kind)
    (hi : g'.index = g.index) (hb : body'.Accepts x = body.Accepts x) :
    (group g' body').Accepts x = (group g body).Accepts x := by
  funext before s after E E'
  rw [Accepts, Accepts, Group.isLookaround, Group.isCapture, hk, hi, hb]
  rfl

theorem acceptsAll_cons_congr {n n' : Node} {ns ns' : List Node}
    (hn : n'.Accepts x = n.Accepts x) (hns : AcceptsAll x ns' = AcceptsAll x ns) :
    AcceptsAll x (n' :: ns') = AcceptsAll x (n :: ns) := by
  funext before s after E E'
  rw [AcceptsAll, AcceptsAll, hn, hns]

theorem acceptsOne_cons_congr {n n' : Node} {ns ns' : List Node}
    (hn : n'.Accepts x = n.Accepts x) (hns : AcceptsOne x ns' = AcceptsOne x ns) :
    AcceptsOne x (n' :: ns') = AcceptsOne x (n :: ns) := by
  funext before s after E E'
  rw [AcceptsOne, AcceptsOne, hn, hns]

/-- A separator consumes nothing. -/
theorem accepts_separator {before s after : List Nat} {E E' : σ} :
    separator.Accepts x before s after E E' ↔ s = [] ∧ E' = E := Iff.rfl

theorem acceptsAll_separator_cons (ns : List Node) :
    AcceptsAll x (separator :: ns) = AcceptsAll x ns := by
  funext before s after E E'
  refine propext ⟨?_, fun h => ⟨[], s, E, rfl, ⟨rfl, rfl⟩, by rwa [List.append_nil]⟩⟩
  rintro ⟨s₁, s₂, E₁, rfl, ⟨rfl, rfl⟩, h⟩
  rwa [List.append_nil] at h

theorem acceptsAll_singleton (n : Node) : AcceptsAll x [n] = n.Accepts x := by
  funext before s after E E'
  refine propext ⟨?_, fun h => ⟨s, [], E', (List.append_nil s).symm, h, rfl, rfl⟩⟩
  rintro ⟨s₁, s₂, E₁, rfl, h, rfl, rfl⟩
  rwa [List.append_nil]

mutual

/-- **Separators make no difference.**  They are groups that match nothing and capture nothing,
wherever they are put. -/
theorem accepts_separated : ∀ n : Node, n.separated.Accepts x = n.Accepts x
  | atom _ => rfl
  | anchor _ _ => rfl
  | reference _ => rfl
  | group _ body => accepts_group_congr rfl rfl (accepts_separated body)
  | quantifier _ body =>
    accepts_quantifier_congr rfl (accepts_separated body) (captureIndexes_separated body)
  | sequence _ ns => acceptsAll_separated ns
  | alternation _ ns => acceptsOne_separated ns

theorem acceptsAll_separated : ∀ ns : List Node,
    AcceptsAll x (separatedAll ns) = AcceptsAll x ns
  | [] => rfl
  | n :: ns => by
    have ih := acceptsAll_separated ns
    rw [separatedAll]
    split
    · refine acceptsAll_cons_congr (accepts_separated n) ?_
      rw [acceptsAll_separator_cons, ih]
    · exact acceptsAll_cons_congr (accepts_separated n) ih

theorem acceptsOne_separated : ∀ ns : List Node,
    AcceptsOne x (separatedEach ns) = AcceptsOne x ns
  | [] => rfl
  | n :: ns => acceptsOne_cons_congr (accepts_separated n) (acceptsOne_separated ns)

end

mutual

/-- **A sequence of one element consumes what the element consumes.** -/
theorem accepts_collapsed : ∀ n : Node, n.collapsed.Accepts x = n.Accepts x
  | atom _ => rfl
  | anchor _ _ => rfl
  | reference _ => rfl
  | group _ body => accepts_group_congr rfl rfl (accepts_collapsed body)
  | quantifier _ body =>
    accepts_quantifier_congr rfl (accepts_collapsed body) (captureIndexes_collapsed body)
  | sequence s ns => by
    have ih := acceptsAll_collapsed ns
    rw [collapsed]
    split
    · rename_i m hm
      rw [hm, acceptsAll_singleton] at ih
      exact ih
    · exact ih
  | alternation _ ns => acceptsOne_collapsed ns

theorem acceptsAll_collapsed : ∀ ns : List Node,
    AcceptsAll x (collapsedAll ns) = AcceptsAll x ns
  | [] => rfl
  | n :: ns => acceptsAll_cons_congr (accepts_collapsed n) (acceptsAll_collapsed ns)

theorem acceptsOne_collapsed : ∀ ns : List Node,
    AcceptsOne x (collapsedAll ns) = AcceptsOne x ns
  | [] => rfl
  | n :: ns => acceptsOne_cons_congr (accepts_collapsed n) (acceptsOne_collapsed ns)

end

mutual

/-- **Places make no difference**, if they make none to references. -/
theorem accepts_bare (hr : ∀ r, x.reference r.bare = x.reference r) : ∀ n : Node,
    n.bare.Accepts x = n.Accepts x
  | atom a => by
    funext before s after E E'
    simp only [bare, Accepts, Shape.takes_bare]
  | anchor _ _ => rfl
  | reference r => by
    funext before s after E E'
    rw [bare, Accepts, hr, Accepts]
  | group _ body => accepts_group_congr rfl rfl (accepts_bare hr body)
  | quantifier _ body =>
    accepts_quantifier_congr rfl (accepts_bare hr body) (captureIndexes_bare body)
  | sequence _ ns => acceptsAll_bare hr ns
  | alternation _ ns => acceptsOne_bare hr ns

theorem acceptsAll_bare (hr : ∀ r, x.reference r.bare = x.reference r) : ∀ ns : List Node,
    AcceptsAll x (bareAll ns) = AcceptsAll x ns
  | [] => rfl
  | n :: ns => acceptsAll_cons_congr (accepts_bare hr n) (acceptsAll_bare hr ns)

theorem acceptsOne_bare (hr : ∀ r, x.reference r.bare = x.reference r) : ∀ ns : List Node,
    AcceptsOne x (bareAll ns) = AcceptsOne x ns
  | [] => rfl
  | n :: ns => acceptsOne_cons_congr (accepts_bare hr n) (acceptsOne_bare hr ns)

end

end Node

end Backtrack
