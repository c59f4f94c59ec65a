/-
# Downgrading widens, with care

Downgrading a pattern without lookarounds puts copies of bodies in the place of references and does
nothing else (`Revision.Inlines`).  A copy can match again what its group has matched if all that was
looked up for the group stands (`Revision.repeats`).  Copies nest, so this is shown by induction on
the groups that can still be copied.  Outside of copies the tree is as it was, so that careful
derivations are derivations after downgrading, too (`Pattern.downgrade_widens`).

Others may be lost: in `\1(a+)` the reference stands for nothing, and the copy for at least one
character (`Pattern.downgrade_narrows`).
-/
import Backtrack.Proofs.Language.Lookups
import Backtrack.Proofs.Pattern.Downgrading

namespace Backtrack

section

variable {w : Revision} {flags : Flags} {holds : Anchor → List Nat → List Nat → Prop} {root : Node}

/-! ## 1. Copies

In a copy nothing is captured, so a copy leaves what groups hold as it is, and in its iterations
nothing is unset.  What was looked up for a group has to come to the same in the copy: for
references this is what standing means, and anchors are excluded by it. -/

/-- A revision that only puts copies in the place of references: nothing is left out, and groups keep
their numbers. -/
structure Revision.Inlines (w : Revision) (root : Node) (kept : List Nat) : Prop where
  omitted : w.omitted = []
  renumber : ∀ i, renumber kept i = i
  target : ∀ r s, w.find? r = some s → root.Below s.body
  unique : ∀ r s g body, w.find? r = some s → .group g body ∈ root.walk → g.isCapture = true →
    g.index = r.index → body = s.body
  plain : ∀ g body, .group g body ∈ root.walk → g.isLookaround = false
  ordered : ∀ q body, .quantifier q body ∈ root.walk → q.count.IsOrdered

namespace Revision

variable {kept copying : List Nat}

theorem Inlines.omits (inlines : w.Inlines root kept) (n : Node) : w.omits n = false := by
  cases n with
  | group => rw [Revision.omits, inlines.omitted]; rfl
  | _ => rfl

theorem Inlines.revised_group (inlines : w.Inlines root kept) (copying : List Nat) (g : Group)
    (body : Node) : w.revised kept copying (.group g body) =
      .group (regroup kept copying g) (w.revised kept copying body) := by
  rw [revised, inlines.omitted, if_neg (by simp)]

theorem Inlines.revisedAll_cons (inlines : w.Inlines root kept) (copying : List Nat) (n : Node)
    (ns : List Node) : w.revisedAll kept copying (n :: ns) =
      w.revised kept copying n :: w.revisedAll kept copying ns := by
  rw [revisedAll, inlines.omits, if_neg (by simp)]

/-- A group that captures nothing consumes what its body consumes. -/
theorem accepts_nonCapture {σ : Type} {x : Reading σ} (site : Site) (body : Node)
    {before s after : List Nat} {E E' : σ} (h : body.Accepts x before s after E E') :
    (Node.group ⟨site, .nonCapture, 0, []⟩ body).Accepts x before s after E E' := h

/-- In a copy, groups capture nothing. -/
theorem accepts_regroup (hcopy : copying ≠ []) {g : Group} (hg : g.isLookaround = false)
    {body : Node} {before s after : List Nat} {E E' : Registers (List Nat)}
    (h : body.Accepts (.plain flags holds) before s after E E') :
    (Node.group (regroup kept copying g) body).Accepts (.plain flags holds) before s after E E' := by
  obtain ⟨i, copying, rfl⟩ := List.exists_cons_of_ne_nil hcopy
  unfold regroup
  split
  · exact accepts_nonCapture g.site body h
  · rename_i hc
    rw [Node.Accepts, hg, if_neg Bool.false_ne_true, if_neg hc]
    exact h

/-- In a copy, iterations unset nothing. -/
theorem reset_revised (hcopy : copying ≠ []) (body : Node) (E : Registers (List Nat)) :
    E.reset (captureIndexes (w.revised kept copying body).walk) = E := by
  rw [captureIndexes_eq_map, captureGroups_copy hcopy]
  exact E.reset_nil

theorem turns_replicate {σ : Type} {B : (before s after : List Nat) → σ → σ → Prop} {reset : σ → σ}
    {before after : List Nat} {E : σ} (hr : reset E = E) (h : B before [] after E E) :
    ∀ k, Turns B reset before (List.replicate k []) after E E
  | 0 => .none E
  | k + 1 => by
    have first : B before [] ((List.replicate k []).flatten ++ after) (reset E) E := by
      rw [hr, List.flatten_replicate_nil]
      exact h
    exact .more first ((List.append_nil before).symm ▸ turns_replicate hr h k)

mutual

theorem skips (inlines : w.Inlines root kept) (hcopy : copying ≠ []) : ∀ n : Node, root.Below n →
    n.isSkippable = true → ∀ before after E,
      (w.revised kept copying n).Accepts (.plain flags holds) before [] after E E
  | .group g body, hb, h, before, after, E => by
    rw [Node.isSkippable, Bool.and_eq_true] at h
    rw [inlines.revised_group]
    exact accepts_regroup hcopy (inlines.plain g body hb.mem)
      (skips inlines hcopy body hb.group h.2 before after E)
  | .quantifier q body, hb, h, before, after, E => by
    rw [Node.isSkippable, Bool.or_eq_true, beq_iff_eq] at h
    rw [revised]
    refine ⟨List.replicate q.count.min [], ⟨by simp, ?_⟩, by simp, by simp, ?_⟩
    · rw [List.length_replicate]
      exact inlines.ordered q body hb.mem
    · rcases h with h | h
      · rw [h]
        exact .none E
      · exact turns_replicate (reset_revised hcopy body E)
          (skips inlines hcopy body hb.quantifier h before after E) _
  | .sequence _ ns, hb, h, before, after, E => by
    rw [revised]
    exact skipsAll inlines hcopy ns hb.sequence h before after E
  | .alternation _ ns, hb, h, before, after, E => by
    rw [revised]
    exact skipsOne inlines hcopy ns hb.alternation h before after E

theorem skipsAll (inlines : w.Inlines root kept) (hcopy : copying ≠ []) : ∀ ns : List Node,
    (∀ n ∈ ns, root.Below n) → Node.allSkippable ns = true → ∀ before after E,
      Node.AcceptsAll (.plain flags holds) (w.revisedAll kept copying ns) before [] after E E
  | [], _, _, _, _, _ => by
    rw [revisedAll]
    exact ⟨rfl, rfl⟩
  | n :: ns, hb, h, before, after, E => by
    rw [Node.allSkippable, Bool.and_eq_true] at h
    obtain ⟨hb, hbs⟩ := List.forall_mem_cons.mp hb
    rw [inlines.revisedAll_cons]
    exact ⟨[], [], E, rfl, skips inlines hcopy n hb h.1 before _ E,
      skipsAll inlines hcopy ns hbs h.2 _ after E⟩

theorem skipsOne (inlines : w.Inlines root kept) (hcopy : copying ≠ []) : ∀ ns : List Node,
    (∀ n ∈ ns, root.Below n) → Node.someSkippable ns = true → ∀ before after E,
      Node.AcceptsOne (.plain flags holds) (w.revisedEach kept copying ns) before [] after E E
  | n :: ns, hb, h, before, after, E => by
    rw [Node.someSkippable, Bool.or_eq_true] at h
    obtain ⟨hb, hbs⟩ := List.forall_mem_cons.mp hb
    rw [revisedEach]
    exact h.imp (skips inlines hcopy n hb · before after E)
      (skipsOne inlines hcopy ns hbs · before after E)

end

/-- Whether a copy can match again what has been matched, if all that was looked up stands. -/
def Repeats (w : Revision) (root : Node) (kept : List Nat) (flags : Flags)
    (holds : Anchor → List Nat → List Nat → Prop) (E : Registers Held) (copying : List Nat) : Prop :=
  copying ≠ [] → ∀ n, root.Below n → ∀ before s after N N',
    n.Accepts (.careful w flags holds) before s after N N' →
    (∀ k ∈ N'.lookups, k.Stands w E copying) → ∀ before' after',
      (w.revised kept copying n).Accepts (.plain flags holds) before' s after' E.texts E.texts

/-- What takes the place of a reference that stands can match the same text. -/
theorem accepts_of_stands (inlines : w.Inlines root kept) {E : Registers Held}
    (sound : E.Sound (.careful w flags holds) root)
    (ih : w.Copies copying (w.Repeats root kept flags holds E)) {r : Reference} {s : List Nat}
    (h : Lookup.Stands w E copying (.reference r s)) (before after : List Nat) :
    (w.revised kept copying (.reference r)).Accepts (.plain flags holds) before s after
      E.texts E.texts := by
  cases h with
  | copied hc =>
    rw [revised_copied hc]
    exact Node.accepts_separator.mpr ⟨rfl, rfl⟩
  | kept hc hf same =>
    rw [revised_kept hc hf]
    refine ⟨?_, rfl⟩
    rw [redirect, inlines.renumber]
    exact same.symm
  | @repeated _ _ sub held hc hf hE all =>
    obtain ⟨g, body, b, a, N, N', hg, hcap, hi, hbody, hl⟩ := sound _ _ hE
    obtain rfl := inlines.unique r sub g body hf hg hcap hi
    rw [revised_copy hc hf]
    refine accepts_nonCapture r.site _ ?_
    exact ih r sub hc hf (by simp) sub.body (inlines.target r sub hf) b held.text a N N' hbody
      (hl ▸ all) before after
  | @skipped _ _ sub hc hf he =>
    rw [revised_copy hc hf]
    exact accepts_nonCapture r.site _
      (skips inlines (by simp) sub.body (inlines.target r sub hf) he before after _)

/-- The iterations of a copy. -/
theorem turns_again {B : (before s after : List Nat) → Notes → Notes → Prop}
    {B' : (before s after : List Nat) → Registers (List Nat) → Registers (List Nat) → Prop}
    {is : List Nat} {reset' : Registers (List Nat) → Registers (List Nat)}
    {F : Registers (List Nat)} {stands : Lookup → Prop} (hr : reset' F = F)
    (hg : ∀ before s after N N', B before s after N N' → N.Grows (.careful w flags holds) root N')
    (hB : ∀ before s after N N', B before s after N N' → (∀ k ∈ N'.lookups, stands k) →
      ∀ before' after', B' before' s after' F F)
    {before after : List Nat} {ss : List (List Nat)} {N N' : Notes}
    (h : Turns B (fun N => { N with held := N.held.reset is }) before ss after N N')
    (hs : ∀ k ∈ N'.lookups, stands k) (before' after' : List Nat) :
    Turns B' reset' before' ss after' F F := by
  induction h generalizing before' after' with
  | none => exact .none F
  | more h rest ih =>
    have earlier : ∀ k ∈ _, stands k := fun k hk => hs k ((rest.grows hg).lookups hk)
    exact .more (hr.symm ▸ hB _ _ _ _ _ h earlier _ _) (ih hs _ _)

mutual

theorem repeats_step (inlines : w.Inlines root kept) {E : Registers Held}
    (sound : E.Sound (.careful w flags holds) root) (hcopy : copying ≠ [])
    (ih : w.Copies copying (w.Repeats root kept flags holds E)) : ∀ n : Node, root.Below n →
    ∀ {before s after : List Nat} {N N' : Notes},
      n.Accepts (.careful w flags holds) before s after N N' →
      (∀ k ∈ N'.lookups, k.Stands w E copying) → ∀ before' after',
        (w.revised kept copying n).Accepts (.plain flags holds) before' s after' E.texts E.texts
  | .atom a, _, _, _, _, _, _, h, _, _, _ => by
    obtain ⟨c, hc, hs, -⟩ := h
    rw [revised]
    exact ⟨c, hc, hs, rfl⟩
  | .anchor _ _, _, _, _, _, _, _, h, hs, _, _ => by
    obtain ⟨⟨-, rfl⟩, -⟩ := h
    nomatch hs .anchor (by simp)
  | .reference r, _, _, s, _, _, _, h, hs, before', after' => by
    obtain ⟨-, -, rfl⟩ := h
    exact accepts_of_stands inlines sound ih (hs (.reference r s) (by simp)) before' after'
  | .group g body, hb, _, _, _, _, _, h, hs, before', after' => by
    have hl := inlines.plain g body hb.mem
    rw [Node.Accepts, hl, if_neg Bool.false_ne_true] at h
    rw [inlines.revised_group]
    refine accepts_regroup hcopy hl ?_
    split at h
    · obtain ⟨N₁, h, rfl⟩ := h
      exact repeats_step inlines sound hcopy ih body hb.group h
        (fun k hk => hs k (List.mem_append_right _ hk)) before' after'
    · exact repeats_step inlines sound hcopy ih body hb.group h hs before' after'
  | .quantifier q body, hb, _, _, _, _, _, h, hs, before', after' => by
    obtain ⟨ss, allowed, busy, rfl, turns⟩ := h
    have again : ∀ b s a N N', body.Accepts (.careful w flags holds) b s a N N' →
        (∀ k ∈ N'.lookups, k.Stands w E copying) → ∀ b' a',
          (w.revised kept copying body).Accepts (.plain flags holds) b' s a' E.texts E.texts :=
      fun _ _ _ _ _ h hs => repeats_step inlines sound hcopy ih body hb.quantifier h hs
    rw [revised]
    exact ⟨ss, allowed, busy, rfl, turns_again (reset_revised hcopy body _)
      (fun _ _ _ _ _ => Node.grows body hb.quantifier) again turns hs before' after'⟩
  | .sequence _ ns, hb, _, _, _, _, _, h, hs, before', after' => by
    rw [revised]
    exact repeatsAll_step inlines sound hcopy ih ns hb.sequence h hs before' after'
  | .alternation _ ns, hb, _, _, _, _, _, h, hs, before', after' => by
    rw [revised]
    exact repeatsOne_step inlines sound hcopy ih ns hb.alternation h hs before' after'

theorem repeatsAll_step (inlines : w.Inlines root kept) {E : Registers Held}
    (sound : E.Sound (.careful w flags holds) root) (hcopy : copying ≠ [])
    (ih : w.Copies copying (w.Repeats root kept flags holds E)) : ∀ ns : List Node,
    (∀ n ∈ ns, root.Below n) → ∀ {before s after : List Nat} {N N' : Notes},
      Node.AcceptsAll (.careful w flags holds) ns before s after N N' →
      (∀ k ∈ N'.lookups, k.Stands w E copying) → ∀ before' after',
        Node.AcceptsAll (.plain flags holds) (w.revisedAll kept copying ns) before' s after'
          E.texts E.texts
  | [], _, _, _, _, _, _, h, _, _, _ => by
    rw [revisedAll]
    exact ⟨h.1, rfl⟩
  | n :: ns, hb, _, _, _, _, _, h, hs, before', after' => by
    obtain ⟨s₁, s₂, N₁, rfl, hn, hns⟩ := h
    obtain ⟨hb, hbs⟩ := List.forall_mem_cons.mp hb
    have later := Node.growsAll ns hbs hns
    rw [inlines.revisedAll_cons]
    exact ⟨s₁, s₂, E.texts, rfl,
      repeats_step inlines sound hcopy ih n hb hn (fun k hk => hs k (later.lookups hk)) before' _,
      repeatsAll_step inlines sound hcopy ih ns hbs hns hs _ after'⟩

theorem repeatsOne_step (inlines : w.Inlines root kept) {E : Registers Held}
    (sound : E.Sound (.careful w flags holds) root) (hcopy : copying ≠ [])
    (ih : w.Copies copying (w.Repeats root kept flags holds E)) : ∀ ns : List Node,
    (∀ n ∈ ns, root.Below n) → ∀ {before s after : List Nat} {N N' : Notes},
      Node.AcceptsOne (.careful w flags holds) ns before s after N N' →
      (∀ k ∈ N'.lookups, k.Stands w E copying) → ∀ before' after',
        Node.AcceptsOne (.plain flags holds) (w.revisedEach kept copying ns) before' s after'
          E.texts E.texts
  | n :: ns, hb, _, _, _, _, _, h, hs, before', after' => by
    obtain ⟨hb, hbs⟩ := List.forall_mem_cons.mp hb
    rw [revisedEach]
    exact h.imp (fun h => repeats_step inlines sound hcopy ih n hb h hs before' after')
      (fun h => repeatsOne_step inlines sound hcopy ih ns hbs h hs before' after')

end

/-- **A copy can match again what has been matched**, if all that was looked up stands.  The
induction is on the groups that can still be copied, and in each copy on the tree. -/
theorem repeats (inlines : w.Inlines root kept) {E : Registers Held}
    (sound : E.Sound (.careful w flags holds) root) (copying : List Nat) :
    w.Repeats root kept flags holds E copying :=
  w.copying_induction (motive := w.Repeats root kept flags holds E)
    (fun _ ih hcopy n hb _ _ _ _ _ h hs => repeats_step inlines sound hcopy ih n hb h hs) copying

/-! ## 2. The whole tree

Outside of copies a tree is gone through as before, with the same groups at the same places.  The
one case that is new is that of a reference that has become a copy. -/

/-- Outside of copies, the groups of a tree are the same as before. -/
theorem Inlines.captureIndexes_revised (inlines : w.Inlines root kept) (n : Node) :
    captureIndexes (w.revised kept [] n).walk = captureIndexes n.walk := by
  have same : regroup kept [] = id := funext (regroup_nil inlines.renumber)
  rw [captureIndexes_eq_map, captureIndexes_eq_map, captureGroups_revised,
    keptGroups_of_omitted inlines.omitted, same, List.map_id]

/-- The iterations outside of copies. -/
theorem turns_widen {B : (before s after : List Nat) → Notes → Notes → Prop}
    {B' : (before s after : List Nat) → Registers (List Nat) → Registers (List Nat) → Prop}
    {is : List Nat} {x : Reading Notes}
    (hg : ∀ before s after N N', B before s after N N' → N.Grows x root N')
    (hB : ∀ before s after N N', B before s after N N' → N.held.Sound x root →
      B' before s after N.held.texts N'.held.texts)
    {before after : List Nat} {ss : List (List Nat)} {N N' : Notes}
    (h : Turns B (fun N => { N with held := N.held.reset is }) before ss after N N')
    (sound : N.held.Sound x root) :
    Turns B' (Registers.reset is) before ss after N.held.texts N'.held.texts := by
  induction h with
  | none => exact .none _
  | more h _ ih =>
    have first := hB _ _ _ _ _ h (sound.reset is)
    rw [Registers.texts_reset] at first
    exact .more first (ih ((hg _ _ _ _ _ h).sound (sound.reset is)))

mutual

theorem widens (inlines : w.Inlines root kept) : ∀ n : Node, root.Below n →
    ∀ {before s after : List Nat} {N N' : Notes},
      n.Accepts (.careful w flags holds) before s after N N' →
      N.held.Sound (.careful w flags holds) root →
        (w.revised kept [] n).Accepts (.plain flags holds) before s after N.held.texts N'.held.texts
  | .atom a, _, _, _, _, _, _, h, _ => by
    obtain ⟨c, hc, hs, rfl⟩ := h
    rw [revised]
    exact ⟨c, hc, hs, rfl⟩
  | .anchor _ _, _, _, _, _, _, _, h, _ => by
    obtain ⟨⟨holds, rfl⟩, hs⟩ := h
    rw [revised]
    exact ⟨⟨holds, rfl⟩, hs⟩
  | .reference r, _, before, s, after, _, _, h, sound => by
    obtain ⟨-, stands, rfl⟩ := h
    exact accepts_of_stands inlines sound (fun _ _ _ _ => repeats inlines sound _) stands before after
  | .group g body, hb, before, s, after, N, _, h, sound => by
    have hl := inlines.plain g body hb.mem
    rw [Node.Accepts, hl, if_neg Bool.false_ne_true] at h
    rw [inlines.revised_group, regroup_nil inlines.renumber, Node.Accepts, hl,
      if_neg Bool.false_ne_true]
    split at h
    · rename_i hc
      obtain ⟨N₁, h, rfl⟩ := h
      rw [if_pos hc]
      have inner := widens inlines body hb.group h (sound.reset [g.index])
      rw [Reading.careful, Registers.texts_reset] at inner
      exact ⟨_, inner, Registers.texts_set _ _ _⟩
    · rename_i hc
      rw [if_neg hc]
      exact widens inlines body hb.group h sound
  | .quantifier q body, hb, _, _, _, _, _, h, sound => by
    obtain ⟨ss, allowed, busy, rfl, turns⟩ := h
    have body' : ∀ b s a N N', body.Accepts (.careful w flags holds) b s a N N' →
        N.held.Sound (.careful w flags holds) root →
        (w.revised kept [] body).Accepts (.plain flags holds) b s a N.held.texts N'.held.texts :=
      fun _ _ _ _ _ h hs => widens inlines body hb.quantifier h hs
    rw [revised]
    refine ⟨ss, allowed, busy, rfl, ?_⟩
    rw [inlines.captureIndexes_revised]
    exact turns_widen (fun _ _ _ _ _ => Node.grows body hb.quantifier) body' turns sound
  | .sequence _ ns, hb, _, _, _, _, _, h, sound => by
    rw [revised]
    exact widensAll inlines ns hb.sequence h sound
  | .alternation _ ns, hb, _, _, _, _, _, h, sound => by
    rw [revised]
    exact widensOne inlines ns hb.alternation h sound

theorem widensAll (inlines : w.Inlines root kept) : ∀ ns : List Node,
    (∀ n ∈ ns, root.Below n) → ∀ {before s after : List Nat} {N N' : Notes},
      Node.AcceptsAll (.careful w flags holds) ns before s after N N' →
      N.held.Sound (.careful w flags holds) root →
        Node.AcceptsAll (.plain flags holds) (w.revisedAll kept [] ns) before s after
          N.held.texts N'.held.texts
  | [], _, _, _, _, _, _, h, _ => by
    obtain ⟨hs, rfl⟩ := h
    rw [revisedAll]
    exact ⟨hs, rfl⟩
  | n :: ns, hb, _, _, _, _, _, h, sound => by
    obtain ⟨s₁, s₂, N₁, rfl, hn, hns⟩ := h
    obtain ⟨hb, hbs⟩ := List.forall_mem_cons.mp hb
    rw [inlines.revisedAll_cons]
    exact ⟨s₁, s₂, N₁.held.texts, rfl, widens inlines n hb hn sound,
      widensAll inlines ns hbs hns ((Node.grows n hb hn).sound sound)⟩

theorem widensOne (inlines : w.Inlines root kept) : ∀ ns : List Node,
    (∀ n ∈ ns, root.Below n) → ∀ {before s after : List Nat} {N N' : Notes},
      Node.AcceptsOne (.careful w flags holds) ns before s after N N' →
      N.held.Sound (.careful w flags holds) root →
        Node.AcceptsOne (.plain flags holds) (w.revisedEach kept [] ns) before s after
          N.held.texts N'.held.texts
  | n :: ns, hb, _, _, _, _, _, h, sound => by
    obtain ⟨hb, hbs⟩ := List.forall_mem_cons.mp hb
    rw [revisedEach]
    exact h.imp (fun h => widens inlines n hb h sound) (fun h => widensOne inlines ns hbs h sound)

end

end Revision

end

/-! ## 3. Downgrading

Without lookarounds there are no pairs, so nothing is left out and no group gets another
number. -/

/-- Whether the node is a lookaround. -/
def Node.looksAround : Node → Bool
  | .group g _ => g.isLookaround
  | _ => false

/-- There are no lookarounds in the tree. -/
def Node.NoLookarounds (root : Node) : Prop := ∀ n ∈ root.walk, n.looksAround = false

instance (root : Node) : Decidable root.NoLookarounds :=
  inferInstanceAs (Decidable (∀ n ∈ root.walk, n.looksAround = false))

/-- Without lookarounds, downgrading leaves nothing out. -/
theorem Downgrade.omitted_revisionOf {root : Node} (plain : root.NoLookarounds) :
    (revisionOf root).omitted = [] := by
  refine List.map_eq_nil_iff.mpr (List.eq_nil_iff_forall_not_mem.mpr fun pair hp => ?_)
  obtain ⟨s, ns, capture, hs, hl, -, hk, -⟩ := exists_of_mem_atomicPairs hp
  have := plain _ (mem_walk_of_element hs hl)
  rw [Node.looksAround, Group.isLookaround, hk] at this
  cases this

theorem Downgrade.inlines_revisionOf {root : Node} {flags : Flags} {captures : Nat}
    (distinct : root.IsDistinct) (writable : root.Writable flags captures)
    (sound : ∀ n ∈ root.walk, n.IsSound) (plain : root.NoLookarounds) :
    (revisionOf root).Inlines root ((revisionOf root).kept root) where
  omitted := omitted_revisionOf plain
  renumber := by
    rw [Revision.kept_of_omitted (omitted_revisionOf plain) writable.indexes]
    exact Revision.renumber_range' captures
  target := by
    intro r s hs
    obtain ⟨g, hg, -⟩ := target_of_find? hs
    exact (Node.below_of_mem hg).group
  unique := by
    intro r s g body hs hg hc hi
    obtain ⟨g', hg', hc', hi'⟩ := target_of_find? hs
    exact (Revision.group_eq_of_index writable distinct hg hg' hc hc' (hi.trans hi'.symm)).2
  plain g body hg := plain _ hg
  ordered q body hq := sound _ hq

/-- Without lookarounds, the revision suits the tree. -/
theorem Downgrade.suits_of_plain {root : Node} {flags : Flags} {captures : Nat}
    (writable : root.Writable flags captures) (plain : root.NoLookarounds) :
    (revisionOf root).Suits root where
  target r s hs := target_of_find? hs
  repeated q body _ := by
    cases body with
    | group => rw [Revision.omits, omitted_revisionOf plain]; rfl
    | _ => rfl
  remains r hr _ := by
    rw [Revision.kept_of_omitted (omitted_revisionOf plain) writable.indexes, ← writable.indexes]
    exact mem_captureIndexes_of_reference writable hr

/-- A pattern without lookarounds can be downgraded, and consumes what its revised tree does. -/
theorem Pattern.downgrade_of_plain {source : Bytes} {flags : Flags} {p : Pattern}
    (h : parse source flags = .ok p) (limit : source.length < numberLimit)
    (known : ∀ r ∈ Downgrade.references p.root, 1 ≤ r.index) (plain : p.root.NoLookarounds) :
    ∃ d, p.downgrade = .ok d ∧ (d.changed = false → d.pattern = p) ∧
      (d.changed = true → let w := Downgrade.revisionOf p.root
        ∀ holds s, d.pattern.Accepts holds s ↔ ∃ E, (w.revised (w.kept p.root) [] p.root).Accepts
          (.plain p.flags holds) [] s [] Registers.empty E) := by
  obtain ⟨writable, -⟩ := writable_of_parse h known
  obtain ⟨d, hd, same, changed⟩ :=
    downgrade_of_suits h limit writable (Downgrade.suits_of_plain writable plain)
  refine ⟨d, hd, same, fun hc holds s => ?_⟩
  obtain ⟨hf, -, tree⟩ := changed hc
  rw [Accepts, hf, ← Node.accepts_bare (fun _ => rfl), tree, Node.accepts_bare (fun _ => rfl),
    Node.accepts_collapsed, Node.accepts_separated]

/-- **Downgrading a pattern without lookarounds loses no careful derivation.**  The copies match
again what was matched, and outside of them nothing has changed. -/
theorem Pattern.downgrade_widens {source : Bytes} {flags : Flags} {p : Pattern}
    (h : parse source flags = .ok p) (limit : source.length < numberLimit)
    (known : ∀ r ∈ Downgrade.references p.root, 1 ≤ r.index) (plain : p.root.NoLookarounds) :
    ∃ d, p.downgrade = .ok d ∧
      ∀ holds s, p.AcceptsCarefully holds s → d.pattern.Accepts holds s := by
  obtain ⟨writable, -⟩ := writable_of_parse h known
  have wellFormed := isWellFormed_of_parse h
  have inlines := Downgrade.inlines_revisionOf wellFormed.distinct writable wellFormed.sound plain
  obtain ⟨d, hd, same, changed⟩ := downgrade_of_plain h limit known plain
  refine ⟨d, hd, fun holds s hs => ?_⟩
  cases hc : d.changed with
  | false =>
    rw [same hc]
    exact hs.accepts
  | true =>
    obtain ⟨N, hN⟩ := hs
    refine (changed hc holds s).mpr ⟨N.held.texts, ?_⟩
    exact Revision.widens inlines p.root (.refl p.root) hN nofun

section

variable {σ : Type} {x : Reading σ} {q : Quantifier} {site : Site} {c : Nat} {E E' : σ}
  {before s after : List Nat}

/-- A character that is repeated may be consumed once. -/
theorem Node.accepts_repeated (hq : q.count = ⟨1, none, false⟩) (hr : x.reset [] E = E)
    (hc : Shape.Takes x.flags (.char c) c) :
    (quantifier q (atom ⟨site, .char c⟩)).Accepts x before [c] after E E := by
  have once : (atom ⟨site, .char c⟩).Accepts x before [c] ([] ++ after) (x.reset [] E) E :=
    ⟨c, hc, rfl, hr.symm⟩
  refine ⟨[[c]], ?_, ?_, rfl, .more once (.none E)⟩
  · rw [hq]
    exact ⟨Nat.le_refl 1, nofun⟩
  · rw [hq]
    exact List.forall_mem_nil _

/-- It is consumed at least once, and nothing is captured. -/
theorem Node.ne_nil_of_repeated (hq : q.count = ⟨1, none, false⟩) (hr : ∀ E, x.reset [] E = E)
    (h : (quantifier q (atom ⟨site, .char c⟩)).Accepts x before s after E E') :
    s ≠ [] ∧ E' = E := by
  obtain ⟨ss, allowed, busy, rfl, turns⟩ := h
  have keeps : ∀ {before ss after E E'}, Turns ((atom ⟨site, .char c⟩).Accepts x)
      (x.reset (captureIndexes (atom ⟨site, .char c⟩).walk)) before ss after E E' → E' = E := by
    intro before ss after E E' turns
    induction turns with
    | none => rfl
    | more h _ ih =>
      obtain ⟨c', -, -, rfl⟩ := h
      exact ih.trans (hr _)
  refine ⟨?_, keeps turns⟩
  rw [hq] at allowed
  cases turns with
  | none => exact absurd allowed.1 (by simp)
  | more h _ =>
    obtain ⟨c', -, rfl, -⟩ := h
    simp

end

/-- In `(a+)\1` the reference becomes another `a+`. -/
theorem Pattern.downgrade_widens_of_repeated :
    ∃ p d, parse (Bytes.ofString "(a+)\\1") {} = .ok p ∧ p.root.NoLookarounds ∧
      p.downgrade = .ok d ∧ d.changed = true ∧
      ∀ holds, p.AcceptsCarefully holds [97, 97] ∧ d.pattern.Accepts holds [97, 97] := by
  let a : Node := .quantifier ⟨⟨2, 1, 3⟩, ⟨1, none, false⟩⟩ (.atom ⟨⟨1, 1, 2⟩, .char 97⟩)
  let r : Reference := ⟨⟨4, 4, 6⟩, 1, []⟩
  let p : Pattern :=
    { source := Bytes.ofString "(a+)\\1"
      flags := {}
      root := .sequence ⟨5, 0, 6⟩ [.group ⟨⟨3, 0, 4⟩, .capture, 1, []⟩ a, .reference r]
      captures := 1 }
  have parsed : parse (Bytes.ofString "(a+)\\1") {} = .ok p := by
    with_unfolding_all rfl
  have known : ∀ r ∈ Downgrade.references p.root, 1 ≤ r.index := by decide
  have plain : p.root.NoLookarounds := by decide
  obtain ⟨d, hd, widens⟩ := downgrade_widens parsed (by decide) known plain
  have changed : d.changed = true := by
    rw [changed_of_downgrade hd]
    decide
  have takes : Shape.Takes {} (.char 97) 97 := ⟨_, rfl, by with_unfolding_all rfl⟩
  have careful : ∀ holds, p.AcceptsCarefully holds [97, 97] := by
    intro holds
    have found : (Downgrade.revisionOf p.root).find? r = some ⟨r, a, false⟩ := rfl
    unfold AcceptsCarefully
    generalize Downgrade.revisionOf p.root = w at found
    have group : (Node.group ⟨⟨3, 0, 4⟩, .capture, 1, []⟩ a).Accepts (.careful w {} holds)
        [] [97] ([97] ++ []) ⟨Registers.empty, []⟩
        ⟨Registers.set 1 ⟨[97], []⟩ (Registers.reset [1] Registers.empty), []⟩ :=
      ⟨_, Node.accepts_repeated rfl rfl takes, rfl⟩
    refine ⟨_, [97], [97], _, rfl, group, [97], [], _, rfl, ⟨rfl, ?_, rfl⟩, rfl, rfl⟩
    exact .repeated (h := ⟨[97], []⟩) (by decide) found rfl (List.forall_mem_nil _)
  exact ⟨p, d, parsed, plain, hd, changed,
    fun holds => ⟨careful holds, widens holds _ (careful holds)⟩⟩

/-! ## 4. What is lost

One pattern for each of the ways in which a lookup fails to stand, as they are listed in
`Lookups.lean`. -/

/-- Downgrading loses a text of the pattern, which has no lookarounds. -/
def Pattern.Narrows (source : Bytes) (s : List Nat) : Prop :=
  ∃ p d, parse source {} = .ok p ∧ p.root.NoLookarounds ∧ p.downgrade = .ok d ∧
    ∀ holds, (∀ before after, holds .start before after ↔ before = []) →
      p.Accepts holds s ∧ ¬d.pattern.Accepts holds s

/-- What is accepted by the tree and not by the revised tree is lost. -/
theorem Pattern.narrows_of_revised {source : Bytes} {p : Pattern} {w : Revision}
    {kept s : List Nat} {revised : Node} (parsed : parse source {} = .ok p)
    (limit : source.length < numberLimit)
    (known : ∀ r ∈ Downgrade.references p.root, 1 ≤ r.index) (plain : p.root.NoLookarounds)
    (hw : Downgrade.revisionOf p.root = w) (changed : w.substitutions.isEmpty = false)
    (hk : w.kept p.root = kept) (hr : w.revised kept [] p.root = revised)
    (lost : ∀ holds, (∀ before after, holds .start before after ↔ before = []) →
      p.Accepts holds s ∧
        ∀ E, ¬revised.Accepts (.plain {} holds) [] s [] Registers.empty E) : Narrows source s := by
  obtain ⟨d, hd, -, accepts⟩ := downgrade_of_plain parsed limit known plain
  refine ⟨p, d, parsed, plain, hd, fun holds anchored => ⟨(lost holds anchored).1, fun h => ?_⟩⟩
  have hc : d.changed = true := by rw [changed_of_downgrade hd, hw, changed]; rfl
  obtain ⟨E, h⟩ := (accepts hc holds s).mp h
  rw [hw, hk, hr, flags_of_parse parsed] at h
  exact (lost holds anchored).2 E h

namespace Pattern

theorem takes_a : Shape.Takes {} (.char 97) 97 := ⟨_, rfl, by with_unfolding_all rfl⟩

/-- The group is unset. -/
theorem narrows_unset : Narrows (Bytes.ofString "\\1(a+)") [97] := by
  let a : Node := .quantifier ⟨⟨3, 3, 5⟩, ⟨1, none, false⟩⟩ (.atom ⟨⟨2, 3, 4⟩, .char 97⟩)
  let r : Reference := ⟨⟨1, 0, 2⟩, 1, []⟩
  let g : Group := ⟨⟨4, 2, 6⟩, .capture, 1, []⟩
  let p : Pattern :=
    { source := Bytes.ofString "\\1(a+)"
      flags := {}
      root := .sequence ⟨5, 0, 6⟩ [.reference r, .group g a]
      captures := 1 }
  let w : Revision := ⟨[], [⟨r, a, false⟩]⟩
  have parsed : parse (Bytes.ofString "\\1(a+)") {} = .ok p := by
    with_unfolding_all rfl
  have found : w.find? r = some ⟨r, a, false⟩ := rfl
  have same : Revision.regroup [1] [] g = g := rfl
  have revised : w.revised [1] [] p.root =
      .sequence ⟨5, 0, 6⟩ [.group ⟨r.site, .nonCapture, 0, []⟩ a, .group g a] := by
    simp [p, a, w, Revision.revised, Revision.revisedAll, Revision.omits,
      Revision.revised_copy _ found, same]
  refine narrows_of_revised parsed (by decide) (by decide) (by decide) rfl rfl rfl revised ?_
  intro holds _
  constructor
  · have group : (Node.group g a).Accepts (.plain {} holds) [] [97] [] Registers.empty
        (Registers.set 1 [97] (Registers.reset [1] Registers.empty)) :=
      ⟨_, Node.accepts_repeated rfl (Registers.reset_nil _) takes_a, rfl⟩
    exact ⟨_, [], [97], _, rfl, ⟨rfl, rfl⟩, [97], [], _, rfl, group, rfl, rfl⟩
  · rintro E ⟨s₁, s₂, E₁, hs, copy, s₃, s₄, E₂, rfl, ⟨E₃, body, -⟩, -⟩
    -- Both the copy and the group take a character.
    have h₁ := (Node.ne_nil_of_repeated rfl Registers.reset_nil copy).1
    have h₂ := (Node.ne_nil_of_repeated rfl Registers.reset_nil body).1
    have := congrArg List.length hs
    have := List.length_pos_iff.mpr h₁
    have := List.length_pos_iff.mpr h₂
    simp only [List.length_append, List.length_singleton] at *
    omega

/-- The body has an anchor. -/
theorem narrows_anchor : Narrows (Bytes.ofString "(^a+)\\1") [97, 97] := by
  let a : Node := .quantifier ⟨⟨3, 2, 4⟩, ⟨1, none, false⟩⟩ (.atom ⟨⟨2, 2, 3⟩, .char 97⟩)
  let body : Node := .sequence ⟨4, 1, 4⟩ [.anchor ⟨1, 1, 2⟩ .start, a]
  let r : Reference := ⟨⟨6, 5, 7⟩, 1, []⟩
  let g : Group := ⟨⟨5, 0, 5⟩, .capture, 1, []⟩
  let p : Pattern :=
    { source := Bytes.ofString "(^a+)\\1"
      flags := {}
      root := .sequence ⟨7, 0, 7⟩ [.group g body, .reference r]
      captures := 1 }
  let w : Revision := ⟨[], [⟨r, body, false⟩]⟩
  have parsed : parse (Bytes.ofString "(^a+)\\1") {} = .ok p := by
    with_unfolding_all rfl
  have found : w.find? r = some ⟨r, body, false⟩ := rfl
  have same : Revision.regroup [1] [] g = g := rfl
  have revised : w.revised [1] [] p.root =
      .sequence ⟨7, 0, 7⟩ [.group g body, .group ⟨r.site, .nonCapture, 0, []⟩ body] := by
    simp [p, body, a, w, Revision.revised, Revision.revisedAll, Revision.omits,
      Revision.revised_copy _ found, same]
  refine narrows_of_revised parsed (by decide) (by decide) (by decide) rfl rfl rfl revised ?_
  intro holds anchored
  constructor
  · let E : Registers (List Nat) := Registers.reset [1] Registers.empty
    have repeated : a.Accepts (.plain {} holds) [] [97] [97] E E :=
      Node.accepts_repeated rfl (Registers.reset_nil _) takes_a
    have group : (Node.group g body).Accepts (.plain {} holds) [] [97] [97] Registers.empty
        (E.set 1 [97]) :=
      ⟨E, ⟨[], [97], E, rfl, ⟨⟨(anchored [] _).mpr rfl, rfl⟩, rfl⟩, [97], [], E, rfl, repeated,
        rfl, rfl⟩, rfl⟩
    exact ⟨_, [97], [97], _, rfl, group, [97], [], _, rfl, ⟨rfl, rfl⟩, rfl, rfl⟩
  · rintro E ⟨s₁, s₂, E₁, -, ⟨E₂, ⟨t₁, t₂, E₃, rfl, -, u₁, u₂, E₄, rfl, repeated, -⟩, -⟩,
      s₃, s₄, E₅, -, ⟨v₁, v₂, E₆, -, ⟨⟨start, -⟩, -⟩, -⟩, -⟩
    -- The copy starts where the group has ended, and that is not the start.
    have := (Node.ne_nil_of_repeated rfl Registers.reset_nil repeated).1
    simp_all

/-- In the body there is a reference, and its group has been set since. -/
theorem narrows_inner : Narrows (Bytes.ofString "(a+\\2)(b)\\1") [97, 98, 97] := by
  let a : Node := .quantifier ⟨⟨2, 1, 3⟩, ⟨1, none, false⟩⟩ (.atom ⟨⟨1, 1, 2⟩, .char 97⟩)
  let b : Node := .atom ⟨⟨6, 7, 8⟩, .char 98⟩
  let inner : Reference := ⟨⟨3, 3, 5⟩, 2, []⟩
  let body : Node := .sequence ⟨4, 1, 5⟩ [a, .reference inner]
  let r : Reference := ⟨⟨8, 9, 11⟩, 1, []⟩
  let g : Group := ⟨⟨5, 0, 6⟩, .capture, 1, []⟩
  let h : Group := ⟨⟨7, 6, 9⟩, .capture, 2, []⟩
  let p : Pattern :=
    { source := Bytes.ofString "(a+\\2)(b)\\1"
      flags := {}
      root := .sequence ⟨9, 0, 11⟩ [.group g body, .group h b, .reference r]
      captures := 2 }
  let w : Revision := ⟨[], [⟨r, body, false⟩]⟩
  have parsed : parse (Bytes.ofString "(a+\\2)(b)\\1") {} = .ok p := by
    with_unfolding_all rfl
  have found : w.find? r = some ⟨r, body, false⟩ := rfl
  have outside : w.revised [1, 2] [] (.reference inner) = .reference inner :=
    Revision.revised_kept (by decide) rfl
  have copied : w.revised [1, 2] [r.index] (.reference inner) = .reference inner :=
    Revision.revised_kept (by decide) rfl
  have same : Revision.regroup [1, 2] [] g = g ∧ Revision.regroup [1, 2] [] h = h := ⟨rfl, rfl⟩
  have revised : w.revised [1, 2] [] p.root = .sequence ⟨9, 0, 11⟩
      [.group g body, .group h b, .group ⟨r.site, .nonCapture, 0, []⟩ body] := by
    have omitted : w.omitted = [] := rfl
    simp [p, body, a, b, Revision.revised, Revision.revisedAll, Revision.omits, omitted,
      Revision.revised_copy _ found, outside, copied, same]
  refine narrows_of_revised parsed (by decide) (by decide) (by decide) rfl rfl rfl revised ?_
  intro holds _
  have takes : Shape.Takes {} (.char 98) 98 := ⟨_, rfl, by with_unfolding_all rfl⟩
  constructor
  · let E : Registers (List Nat) := Registers.reset [1] Registers.empty
    have repeated : a.Accepts (.plain {} holds) [] [97] [98, 97] E E :=
      Node.accepts_repeated rfl (Registers.reset_nil _) takes_a
    have group : (Node.group g body).Accepts (.plain {} holds) [] [97] [98, 97] Registers.empty
        (E.set 1 [97]) :=
      ⟨E, ⟨[97], [], E, rfl, repeated, [], [], E, rfl, ⟨rfl, rfl⟩, rfl, rfl⟩, rfl⟩
    exact ⟨_, [97], [98, 97], _, rfl, group, [98], [97], _, rfl, ⟨_, ⟨98, takes, rfl, rfl⟩, rfl⟩,
      [97], [], _, rfl, ⟨rfl, rfl⟩, rfl, rfl⟩
  · rintro E ⟨s₁, s₂, E₁, hs, -, s₃, s₄, E₂, rfl, ⟨E₃, ⟨c, hc, rfl, -⟩, rfl⟩,
      s₅, s₆, E₄, rfl, ⟨t₁, t₂, E₅, rfl, repeated, t₃, t₄, E₆, rfl, ⟨ht, -⟩, rfl, -⟩, rfl, -⟩
    -- The copy ends with what the second group has taken.
    obtain ⟨-, rfl⟩ := Node.ne_nil_of_repeated rfl Registers.reset_nil repeated
    obtain rfl : t₃ = [c] := ht
    have last : [97, 98, 97] = (s₁ ++ c :: t₁) ++ [c] := by
      simpa using hs
    have last := congrArg List.getLast? last
    rw [List.getLast?_concat] at last
    obtain rfl : 97 = c := Option.some.inj last
    obtain ⟨e, he, hc⟩ := hc
    obtain rfl : Requirement.literal 98 false = e := Except.ok.inj he
    have : (Requirement.literal 98 false).contains 97 = false := by
      with_unfolding_all rfl
    exact Bool.false_ne_true (this.symm.trans hc)

/-- **Downgrading loses texts** if the group is unset, if its body has an anchor, and if in the body
there is a reference to a group that has been set since. -/
theorem downgrade_narrows :
    Narrows (Bytes.ofString "\\1(a+)") [97] ∧ Narrows (Bytes.ofString "(^a+)\\1") [97, 97] ∧
      Narrows (Bytes.ofString "(a+\\2)(b)\\1") [97, 98, 97] :=
  ⟨narrows_unset, narrows_anchor, narrows_inner⟩

end Pattern

end Backtrack
