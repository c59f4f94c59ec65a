/-
# Downgraded patterns can be followed

A reference that remains after a revision is to the same group as before, but the group need not be
the same: copies have been put into it, and a copy may repeat without bound where the reference did
not.  If no group that is still referred to repeats without bound after the revision
(`Downgrade.StaysBounded`), the downgraded pattern can be followed (`Pattern.exists_followable`).

That groups which are referred to are not in positive lookarounds needs no such condition: references
to those are replaced.  And the layout of a tree has no part in it (`Node.Followable.congr`).
-/
import Backtrack.Proofs.Derivation.Followable
import Backtrack.Proofs.Pattern.Downgrading
import Backtrack.Proofs.Pattern.Walks

namespace Backtrack

/-! ## 1. Layout

Between the revised tree and the one that is read again lie separators, places and sequences of
one element.  To see at once that none of them matters, all that does matter is listed as
landmarks. -/

/-- What matters of a node for following references. -/
inductive Landmark where
  | reference (index : Nat)
  | group (kind : GroupKind) (index : Nat) (repeats : Bool) (indexes : List Nat)

namespace Node

/-- The landmark that a node is. -/
def landmark? : Node → Option Landmark
  | reference r => some (.reference r.index)
  | group g body =>
    if g.kind = .nonCapture then none
    else some (.group g.kind g.index body.repeatsWithoutBound (captureIndexes body.walk))
  | _ => none

variable {n m : Node}

theorem exists_reference_of_landmarks
    (h : m.walk.filterMap landmark? = n.walk.filterMap landmark?) {r : Reference}
    (hr : reference r ∈ m.walk) : ∃ r', reference r' ∈ n.walk ∧ r'.index = r.index := by
  have hl : .reference r.index ∈ m.walk.filterMap landmark? := List.mem_filterMap.mpr ⟨_, hr, rfl⟩
  rw [h] at hl
  obtain ⟨k, hk, he⟩ := List.mem_filterMap.mp hl
  cases k with
  | reference r' =>
    obtain hi := Landmark.reference.inj (Option.some.inj he)
    exact ⟨r', hk, hi⟩
  | group g body =>
    rw [landmark?] at he
    split at he <;> simp at he
  | _ => simp [landmark?] at he

theorem exists_group_of_landmarks
    (h : m.walk.filterMap landmark? = n.walk.filterMap landmark?) {g : Group} {body : Node}
    (hg : group g body ∈ m.walk) (hk : g.kind ≠ .nonCapture) :
    ∃ g' body', group g' body' ∈ n.walk ∧ g'.kind = g.kind ∧ g'.index = g.index ∧
      body'.repeatsWithoutBound = body.repeatsWithoutBound ∧
      captureIndexes body'.walk = captureIndexes body.walk := by
  have hl : .group g.kind g.index body.repeatsWithoutBound (captureIndexes body.walk) ∈
      m.walk.filterMap landmark? := List.mem_filterMap.mpr ⟨_, hg, if_neg hk⟩
  rw [h] at hl
  obtain ⟨k, hkn, he⟩ := List.mem_filterMap.mp hl
  cases k with
  | group g' body' =>
    rw [landmark?] at he
    split at he
    · simp at he
    · obtain ⟨h1, h2, h3, h4⟩ := Landmark.group.inj (Option.some.inj he)
      exact ⟨g', body', hkn, h1, h2, h3, h4⟩
  | _ => simp [landmark?] at he

/-- Only landmarks matter. -/
theorem Followable.congr (hn : n.Followable)
    (h : m.walk.filterMap landmark? = n.walk.filterMap landmark?) : m.Followable where
  bounded := by
    intro r g body hr hg hc hi
    obtain ⟨r', hr', hri⟩ := exists_reference_of_landmarks h hr
    have kind : g.kind = .capture := beq_iff_eq.mp hc
    obtain ⟨g', body', hg', hk', hi', hb', -⟩ := exists_group_of_landmarks h hg (by simp [kind])
    rw [← hb']
    refine hn.bounded r' g' body' hr' hg' ?_ (by omega)
    rw [Group.isCapture, hk', kind]
    rfl
  visible := by
    intro r look body hr hg hl hp
    obtain ⟨r', hr', hri⟩ := exists_reference_of_landmarks h hr
    have kind : look.kind ≠ .nonCapture := by
      intro hk
      rw [Group.isLookaround, hk] at hl
      cases hl
    obtain ⟨look', body', hg', hk', -, -, hb'⟩ := exists_group_of_landmarks h hg kind
    rw [← hb', ← hri]
    exact hn.visible r' look' body' hr' hg' (by rw [Group.isLookaround, hk']; exact hl) (hk' ▸ hp)

theorem landmarks_bare (n : Node) :
    n.bare.walk.filterMap landmark? = n.walk.filterMap landmark? := by
  rw [walk_bare, List.filterMap_map]
  congr 1
  funext m
  cases m with
  | group g body =>
    simp only [Function.comp_apply, bare, landmark?, repeatsWithoutBound_bare,
      captureIndexes_bare]
    rfl
  | _ => rfl

theorem landmarks_separated (n : Node) :
    n.separated.walk.filterMap landmark? = n.walk.filterMap landmark? := by
  refine filterMap_walk_separated ⟨fun g body => ?_, fun _ _ => rfl, fun _ _ => rfl, fun _ _ => rfl⟩
    rfl n
  simp only [landmark?, repeatsWithoutBound_separated, captureIndexes_separated]

theorem landmarks_collapsed (n : Node) :
    n.collapsed.walk.filterMap landmark? = n.walk.filterMap landmark? := by
  refine filterMap_walk_collapsed ⟨fun g body => ?_, fun _ _ => rfl, fun _ _ => rfl, fun _ _ => rfl⟩
    n
  simp only [landmark?, repeatsWithoutBound_collapsed, captureIndexes_collapsed]

/-- A tree can be followed whatever its layout. -/
theorem Followable.layout (hn : n.Followable) (h : m.bare = n.separated.collapsed.bare) :
    m.Followable := by
  refine hn.congr ?_
  rw [← landmarks_bare, h, landmarks_bare, landmarks_collapsed, landmarks_separated]

end Node

/-! ## 2. Nodes of revised trees

A node of the revised tree is followed back to where it comes from.  Copies are all that can bring
a repetition without bound into a group. -/

/-- What a node of a revised tree is: a reference that remains, a revised group, a copy, or neither
reference nor group. -/
inductive Revision.Part (w : Revision) (root : Node) (kept : List Nat) : Node → Prop
  | reference {copying : List Nat} {r : Reference} (hr : .reference r ∈ root.walk)
    (hs : w.find? r = none) : Part w root kept (.reference (redirect kept copying r))
  | group {copying : List Nat} {g : Group} {body : Node} (hg : .group g body ∈ root.walk) :
    Part w root kept (.group (regroup kept copying g) (w.revised kept copying body))
  | copy {site : Site} {body : Node} : Part w root kept (.group ⟨site, .nonCapture, 0, []⟩ body)
  | other {n : Node} (hr : ∀ r, n ≠ .reference r) (hg : ∀ g body, n ≠ .group g body) :
    Part w root kept n

namespace Revision

variable {w : Revision} {root : Node} {kept copying : List Nat}

/-- Whether the nodes of revised trees are such parts, while some groups are being copied. -/
def Parts (w : Revision) (root : Node) (kept copying : List Nat) : Prop :=
  ∀ n, root.Below n → ∀ m ∈ (w.revised kept copying n).walk, w.Part root kept m

mutual

theorem part_step (target : ∀ r s, w.find? r = some s → root.Below s.body)
    (ih : w.Copies copying (w.Parts root kept)) : ∀ n : Node, root.Below n →
      ∀ m ∈ (w.revised kept copying n).walk, w.Part root kept m
  | .atom a, _, m, hm => by
    rw [revised] at hm
    obtain ⟨b, rfl⟩ := Node.exists_atom_of_mem_walk hm
    exact .other nofun nofun
  | .anchor _ _, _, m, hm => by
    rw [revised] at hm
    rw [List.mem_singleton.mp hm]
    exact .other nofun nofun
  | .reference r, hb, m, hm => by
    by_cases hc : copying.contains r.index = true
    · rw [revised_copied hc] at hm
      rcases List.mem_cons.mp hm with rfl | hm
      · exact .copy
      · rw [List.mem_singleton.mp hm]
        exact .other nofun nofun
    · cases hs : w.find? r with
      | some s =>
        rw [revised_copy hc hs] at hm
        rcases List.mem_cons.mp hm with rfl | hm
        · exact .copy
        · exact ih r s hc hs s.body (target r s hs) m hm
      | none =>
        rw [revised_kept hc hs] at hm
        rw [List.mem_singleton.mp hm]
        exact .reference hb.mem hs
  | .group g body, hb, m, hm => by
    rw [revised] at hm
    split at hm
    · rw [List.mem_singleton.mp hm]
      exact .other nofun nofun
    · rcases List.mem_cons.mp hm with rfl | hm
      · exact .group hb.mem
      · exact part_step target ih body hb.group m hm
  | .quantifier q body, hb, m, hm => by
    rw [revised] at hm
    rcases List.mem_cons.mp hm with rfl | hm
    · exact .other nofun nofun
    · exact part_step target ih body hb.quantifier m hm
  | .sequence _ ns, hb, m, hm => by
    rw [revised] at hm
    rcases List.mem_cons.mp hm with rfl | hm
    · exact .other nofun nofun
    · exact partAll_step target ih ns hb.sequence m hm
  | .alternation _ ns, hb, m, hm => by
    rw [revised] at hm
    rcases List.mem_cons.mp hm with rfl | hm
    · exact .other nofun nofun
    · exact partEach_step target ih ns hb.alternation m hm

theorem partAll_step (target : ∀ r s, w.find? r = some s → root.Below s.body)
    (ih : w.Copies copying (w.Parts root kept)) : ∀ ns : List Node, (∀ n ∈ ns, root.Below n) →
      ∀ m ∈ Node.walkAll (w.revisedAll kept copying ns), w.Part root kept m
  | [], _, m, hm => by
    rw [revisedAll] at hm
    cases hm
  | n :: ns, hb, m, hm => by
    obtain ⟨hb, hbs⟩ := List.forall_mem_cons.mp hb
    rw [revisedAll] at hm
    split at hm
    · exact partAll_step target ih ns hbs m hm
    · rcases List.mem_append.mp hm with hm | hm
      · exact part_step target ih n hb m hm
      · exact partAll_step target ih ns hbs m hm

theorem partEach_step (target : ∀ r s, w.find? r = some s → root.Below s.body)
    (ih : w.Copies copying (w.Parts root kept)) : ∀ ns : List Node, (∀ n ∈ ns, root.Below n) →
      ∀ m ∈ Node.walkAll (w.revisedEach kept copying ns), w.Part root kept m
  | [], _, m, hm => by
    rw [revisedEach] at hm
    cases hm
  | n :: ns, hb, m, hm => by
    obtain ⟨hb, hbs⟩ := List.forall_mem_cons.mp hb
    rw [revisedEach] at hm
    rcases List.mem_append.mp hm with hm | hm
    · exact part_step target ih n hb m hm
    · exact partEach_step target ih ns hbs m hm

end

theorem part_of_mem_revised (target : ∀ r s, w.find? r = some s → root.Below s.body) {m : Node}
    (hm : m ∈ (w.revised kept [] root).walk) : w.Part root kept m :=
  w.copying_induction (motive := w.Parts root kept) (fun _ ih => part_step target ih) []
    root (.refl root) m hm

/-- Lookarounds stay as they are. -/
theorem regroup_of_isLookaround {g : Group} (h : (regroup kept copying g).isLookaround = true) :
    regroup kept copying g = g := by
  unfold regroup at h ⊢
  split at h
  · rename_i hc
    have kind : g.kind = .capture := beq_iff_eq.mp hc
    split at h
    · rw [Group.isLookaround, kind] at h
      cases h
    · cases h
  · rename_i hc
    rw [if_neg hc]

theorem index_regroup {g : Group} (hc : g.isCapture = true) :
    (regroup kept [] g).index = renumber kept g.index := by
  rw [regroup, if_pos hc]
  rfl

/-- A capture group of the revised tree is a group that remains. -/
theorem mem_kept_of_mem_revised (distinct : root.IsDistinct) {g : Group} {body body' : Node}
    (hg : .group g body ∈ root.walk) (hc : g.isCapture = true)
    (hm : .group (regroup kept [] g) body' ∈ (w.revised kept [] root).walk) :
    g.index ∈ w.kept root := by
  have capture : (regroup kept [] g).isCapture = true := by
    rw [isCapture_regroup, hc]
    rfl
  have mem := mem_captureGroups.mpr ⟨capture, body', hm⟩
  rw [captureGroups_revised] at mem
  obtain ⟨g', hg', he⟩ := List.mem_map.mp mem
  have site : g'.site = g.site := by
    have site : ∀ g : Group, (regroup kept [] g).site = g.site := fun g => by
      unfold regroup
      split <;> rfl
    rw [← site g', he, site]
  obtain ⟨-, b, hb⟩ := mem_captureGroups.mp ((keptGroups_sublist root).subset hg')
  have := Node.eq_of_id distinct hb hg (congrArg Site.id site)
  rw [← (Node.group.inj this).1, kept_eq_map]
  exact List.mem_map_of_mem hg'

theorem Suits.below (suits : w.Suits root) (r : Reference) (s : Substitution)
    (hs : w.find? r = some s) : root.Below s.body := by
  obtain ⟨g, hg, -⟩ := suits.target r s hs
  exact (Node.below_of_mem hg).group

/-- A reference of the revised tree is one that remains. -/
theorem exists_reference_of_mem_revised (suits : w.Suits root) {r : Reference}
    (hr : .reference r ∈ (w.revised (w.kept root) [] root).walk) :
    ∃ r₀, .reference r₀ ∈ root.walk ∧ w.find? r₀ = none ∧ r₀.index ∈ w.kept root ∧
      r.index = renumber (w.kept root) r₀.index := by
  generalize hn : Node.reference r = n at hr
  cases part_of_mem_revised suits.below hr with
  | reference mem hs =>
    obtain rfl := Node.reference.inj hn
    exact ⟨_, mem, hs, suits.remains _ mem hs, rfl⟩
  | other none => exact absurd hn.symm (none r)
  | group | copy => cases hn

/-- A group of the revised tree is one of the tree, or it is there for a copy. -/
theorem exists_group_of_mem_revised (suits : w.Suits root) {g : Group} {body : Node}
    (hg : .group g body ∈ (w.revised (w.kept root) [] root).walk) :
    (∃ copying g₀ body₀, .group g₀ body₀ ∈ root.walk ∧ g = regroup (w.kept root) copying g₀ ∧
      body = w.revised (w.kept root) copying body₀) ∨ g.kind = .nonCapture := by
  generalize hn : Node.group g body = n at hg
  cases part_of_mem_revised suits.below hg with
  | group mem =>
    obtain ⟨rfl, rfl⟩ := Node.group.inj hn
    exact .inl ⟨_, _, _, mem, rfl, rfl⟩
  | copy =>
    obtain ⟨rfl, -⟩ := Node.group.inj hn
    exact .inr rfl
  | other _ none => exact absurd hn.symm (none g body)
  | reference => cases hn

/-- A group that remains was in the body if it is in the revised body. -/
theorem mem_captureIndexes_of_revised (distinct : root.IsDistinct) {g g' : Group} {body : Node}
    {i : Nat} (hg : .group g body ∈ root.walk)
    (hm : .group g' (w.revised (w.kept root) copying body) ∈
      (w.revised (w.kept root) [] root).walk) (hk : i ∈ w.kept root)
    (hi : renumber (w.kept root) i ∈
      captureIndexes (w.revised (w.kept root) copying body).walk) :
    i ∈ captureIndexes body.walk := by
  rw [captureIndexes_eq_map] at hi
  obtain ⟨g', hg', hgi⟩ := List.mem_map.mp hi
  cases copying with
  | cons j copying =>
    rw [captureGroups_copy (by simp)] at hg'
    cases hg'
  | nil =>
    obtain ⟨-, b', hb'⟩ := mem_captureGroups.mp hg'
    rw [captureGroups_revised] at hg'
    obtain ⟨g, hgk, rfl⟩ := List.mem_map.mp hg'
    obtain ⟨hc, b, hb⟩ := mem_captureGroups.mp ((keptGroups_sublist body).subset hgk)
    have inside : root.Below body := (Node.below_of_mem hg).group
    have inside' : (w.revised (w.kept root) [] root).Below (w.revised (w.kept root) [] body) :=
      (Node.below_of_mem hm).group
    have hgk := mem_kept_of_mem_revised distinct (inside _ hb) hc (inside' _ hb')
    rw [index_regroup hc] at hgi
    exact mem_captureIndexes.mpr ⟨g, b, hb, hc, renumber_inj hgk hk hgi⟩

/-- **The revised tree can be followed**, if this is so for the references that remain.  A group
of it repeats without bound only because of itself, as it did before, or because of a copy in
it. -/
theorem followable_revised (suits : w.Suits root) (distinct : root.IsDistinct)
    (bounded : ∀ r g body, .reference r ∈ root.walk → w.find? r = none →
      .group g body ∈ root.walk → g.isCapture = true → g.index = r.index →
      (w.revised (w.kept root) [] body).repeatsWithoutBound = false)
    (visible : ∀ r look body, .reference r ∈ root.walk → w.find? r = none →
      .group look body ∈ root.walk → look.isLookaround = true → look.kind.isNegative = false →
      r.index ∉ captureIndexes body.walk) :
    (w.revised (w.kept root) [] root).Followable where
  bounded := by
    intro r' g' body' hr' hg' hc hi
    obtain ⟨r, hr, hs, hk, hri⟩ := exists_reference_of_mem_revised suits hr'
    rcases exists_group_of_mem_revised suits hg' with ⟨copying, g, body, hg, rfl, rfl⟩ | plain
    · rw [isCapture_regroup, Bool.and_eq_true, List.isEmpty_iff] at hc
      obtain ⟨hc, rfl⟩ := hc
      have hgk := mem_kept_of_mem_revised distinct hg hc hg'
      rw [index_regroup hc, hri] at hi
      exact bounded r g body hr hs hg hc (renumber_inj hgk hk hi)
    · rw [Group.isCapture, plain] at hc
      cases hc
  visible := by
    intro r' look' body' hr' hg' hl hp hi
    obtain ⟨r, hr, hs, hk, hri⟩ := exists_reference_of_mem_revised suits hr'
    rcases exists_group_of_mem_revised suits hg' with ⟨copying, look, body, hg, rfl, rfl⟩ | plain
    · rw [hri] at hi
      have inside := mem_captureIndexes_of_revised distinct hg hg' hk hi
      have same := regroup_of_isLookaround hl
      rw [same] at hl hp
      exact visible r look body hr hs hg hl hp inside
    · rw [Group.isLookaround, plain] at hl
      cases hl

end Revision

/-! ## 3. Downgraded patterns

Of the two things that keep a reference from being followed, lookarounds are dealt with by the
revision itself.  Repeating without bound is asked of the tree before the copies are put in, and a
copy may bring it back; so it is a condition. -/

/-- No group that a reference remains to repeats without bound once copies have been put into it. -/
def Downgrade.StaysBounded (root : Node) : Prop :=
  let w := revisionOf root
  ∀ r g body, .reference r ∈ root.walk → w.find? r = none → .group g body ∈ root.walk →
    g.isCapture = true → g.index = r.index →
      (w.revised (w.kept root) [] body).repeatsWithoutBound = false

namespace Downgrade

variable {root : Node}

/-- A reference that remains is not to a group in a positive lookaround. -/
theorem not_mem_captureIndexes_of_find? {flags : Flags} {captures : Nat}
    (distinct : root.IsDistinct) (writable : root.Writable flags captures)
    (outside : IsOutside root) {r : Reference} (hr : .reference r ∈ root.walk)
    (hf : (revisionOf root).find? r = none) {look : Group} {body : Node}
    (hl : .group look body ∈ root.walk) (hk : look.isLookaround = true)
    (hp : look.kind.isNegative = false) : r.index ∉ captureIndexes body.walk := by
  intro hi
  obtain ⟨g, b, hg, hc, hgi⟩ := mem_captureIndexes.mp hi
  have hgr : Node.group g b ∈ root.walk := (Node.below_of_mem hl).group _ hg
  obtain ⟨g', b', hg'⟩ := Index.exists_group? (mem_captureIndexes_of_reference writable hr)
  obtain ⟨hm, hc', hi'⟩ := Index.mem_of_group? hg'
  obtain ⟨rfl, rfl⟩ := Revision.group_eq_of_index writable distinct hgr hm hc hc'
    (hgi.trans hi'.symm)
  have front := (of_copyOf?_eq_none distinct outside hr hg' (copyOf?_eq_none hr hf)).1
  rw [behindPositiveLookaround_of_mem distinct hl hk hp hg] at front
  cases front

/-- A reference that remains is to a group that repeats nothing without bound by itself. -/
theorem bounded_of_find? {flags : Flags} {captures : Nat} (distinct : root.IsDistinct)
    (writable : root.Writable flags captures) (outside : IsOutside root) {r : Reference}
    (hr : .reference r ∈ root.walk) (hf : (revisionOf root).find? r = none) {g : Group}
    {body : Node} (hg : .group g body ∈ root.walk) (hc : g.isCapture = true)
    (hi : g.index = r.index) : body.repeatsWithoutBound = false := by
  obtain ⟨g', b', hg'⟩ := Index.exists_group? (mem_captureIndexes_of_reference writable hr)
  obtain ⟨hm, hc', hi'⟩ := Index.mem_of_group? hg'
  obtain ⟨rfl, rfl⟩ := Revision.group_eq_of_index writable distinct hg hm hc hc' (hi.trans hi'.symm)
  exact (of_copyOf?_eq_none distinct outside hr hg' (copyOf?_eq_none hr hf)).2

end Downgrade

/-- What comes out of downgrading has been parsed. -/
theorem Pattern.exists_parse_of_downgrade {source : Bytes} {flags : Flags} {p : Pattern}
    {d : Downgraded} (h : parse source flags = .ok p) (hd : p.downgrade = .ok d) :
    ∃ source flags, parse source flags = .ok d.pattern := by
  rcases exists_of_downgrade hd with ⟨-, rfl⟩ | ⟨-, q, hq, rfl⟩
  · exact ⟨source, flags, h⟩
  · exact ⟨_, _, hq⟩

/-- **A downgraded pattern can be followed**, if no group that a reference remains to repeats
without bound after the revision.  The tree that is read again has the landmarks of the revised
one. -/
theorem Pattern.exists_followable {source : Bytes} {flags : Flags} {p : Pattern}
    (h : parse source flags = .ok p) (limit : source.length < numberLimit)
    (known : ∀ r ∈ Downgrade.references p.root, 1 ≤ r.index)
    (outside : Downgrade.IsOutside p.root) (bounded : Downgrade.StaysBounded p.root) :
    ∃ d, p.downgrade = .ok d ∧ d.pattern.root.Followable := by
  obtain ⟨writable, -⟩ := writable_of_parse h known
  have distinct : p.root.IsDistinct := (isWellFormed_of_parse h).distinct
  have suits := Downgrade.suits_revisionOf distinct outside fun r hr =>
    Downgrade.mem_captureIndexes_of_reference writable hr
  obtain ⟨d, hd, same, changed⟩ := downgrade_of_suits h limit writable suits
  refine ⟨d, hd, ?_⟩
  cases hc : d.changed with
  | false =>
    have none : ∀ r, (Downgrade.revisionOf p.root).find? r = none := fun r => by
      have := changed_of_downgrade hd
      rw [hc, eq_comm, Bool.not_eq_false', List.isEmpty_iff] at this
      rw [Revision.find?, this]
      rfl
    rw [same hc]
    exact ⟨fun r g body hr hg hc hi => Downgrade.bounded_of_find? distinct writable outside hr
        (none r) hg hc hi,
      fun r look body hr hl hk hp => Downgrade.not_mem_captureIndexes_of_find? distinct writable
        outside hr (none r) hl hk hp⟩
  | true =>
    obtain ⟨-, -, tree⟩ := changed hc
    refine Node.Followable.layout (Revision.followable_revised suits distinct bounded ?_) tree
    intro r look body hr hf hl hk hp
    exact Downgrade.not_mem_captureIndexes_of_find? distinct writable outside hr hf hl hk hp

end Backtrack
