/-
# Revised trees can be written

A tree that can be written can still be written after a revision (`Revision.Suits.writable`), if the
revision suits it: what it copies are bodies of groups, it leaves nothing out that is counted, and
every reference that remains still has its group (`Revision.Suits`).

The last of these need not hold of all references of the tree.  It is enough if it holds of those
that are written (`Revision.Respects.writable`): a reference that no copy and no part that is kept
shows has no need of its group.
-/
import Backtrack.Proofs.Pattern.Places
import Backtrack.Proofs.Pattern.Revised

namespace Backtrack

/-! ## 1. Where revised trees stand

A body that takes the place of a reference is wrapped in a group, so it stands where the reference
did.  What is left out must not be missed: an element of a sequence is not, the body of a
quantifier would be. -/

namespace Node

variable {flags : Flags} {root : Node}

mutual

/-- The tokens of a node of the tree are tokens of the tree. -/
theorem tokens_subset {m : Node} (hm : ∀ a, m ≠ atom a) : ∀ {n : Node}, m ∈ n.walk →
    m.tokens ⊆ n.tokens
  | atom a, h => by
    obtain ⟨b, rfl⟩ := exists_atom_of_mem_walk h
    exact absurd rfl (hm b)
  | anchor _ _, h => by
    rw [List.mem_singleton.mp h]
    exact List.Subset.refl _
  | reference _, h => by
    rw [List.mem_singleton.mp h]
    exact List.Subset.refl _
  | group g body, h => by
    rcases List.mem_cons.mp h with rfl | h
    · exact List.Subset.refl _
    · exact fun t ht => List.mem_cons_of_mem _ (List.mem_append_left _ (tokens_subset hm h ht))
  | quantifier q body, h => by
    rcases List.mem_cons.mp h with rfl | h
    · exact List.Subset.refl _
    · exact fun t ht => List.mem_append_left _ (tokens_subset hm h ht)
  | sequence _ ns, h => by
    rcases List.mem_cons.mp h with rfl | h
    · exact List.Subset.refl _
    · exact tokensAll_subset hm h
  | alternation _ ns, h => by
    rcases List.mem_cons.mp h with rfl | h
    · exact List.Subset.refl _
    · exact tokensBetween_subset hm h

theorem tokensAll_subset {m : Node} (hm : ∀ a, m ≠ atom a) : ∀ {ns : List Node},
    m ∈ walkAll ns → m.tokens ⊆ tokensAll ns
  | n :: ns, h => by
    rcases List.mem_append.mp h with h | h
    · exact fun t ht => List.mem_append_left _ (tokens_subset hm h ht)
    · exact fun t ht => List.mem_append_right _ (tokensAll_subset hm h ht)

theorem tokensBetween_subset {m : Node} (hm : ∀ a, m ≠ atom a) : ∀ {ns : List Node},
    m ∈ walkAll ns → m.tokens ⊆ tokensBetween ns
  | [n], h => by
    rw [walkAll, walkAll, List.append_nil] at h
    exact tokens_subset hm h
  | n :: k :: ns, h => by
    rcases List.mem_append.mp h with h | h
    · exact fun t ht => List.mem_append_left _ (tokens_subset hm h ht)
    · exact fun t ht => List.mem_append_right _
        (List.mem_cons_of_mem _ (tokensBetween_subset hm h ht))

end

theorem tokensBetween_subset_of_mem {n : Node} : ∀ {ns : List Node}, n ∈ ns →
    n.tokens ⊆ tokensBetween ns
  | [m], h => by
    rw [List.mem_singleton.mp h]
    exact List.Subset.refl _
  | m :: k :: ns, h => by
    rcases List.mem_cons.mp h with rfl | h
    · exact fun t ht => List.mem_append_left _ ht
    · exact fun t ht => List.mem_append_right _
        (List.mem_cons_of_mem _ (tokensBetween_subset_of_mem h ht))

theorem bar_mem_tokensBetween {ns : List Node} (h : 2 ≤ ns.length) : .bar ∈ tokensBetween ns := by
  match ns, h with
  | n :: m :: ns, _ => exact List.mem_append_right _ List.mem_cons_self

mutual

/-- The bodies of groups stand as bodies. -/
theorem stands_of_mem_walk {g : Group} {body : Node} : ∀ {n : Node} {place : Place},
    n.stands flags place = true → group g body ∈ n.walk → body.stands flags .body = true
  | atom a, _, _, h => by
    rw [walk] at h
    split at h <;> simp at h
  | anchor _ _, _, _, h => by simp [walk] at h
  | reference _, _, _, h => by simp [walk] at h
  | group g' body', _, hs, h => by
    simp only [stands, Bool.and_eq_true] at hs
    rcases List.mem_cons.mp h with he | h
    · obtain ⟨rfl, rfl⟩ := Node.group.inj he
      exact hs.2
    · exact stands_of_mem_walk hs.2 h
  | quantifier q body', _, hs, h => by
    simp only [stands, Bool.and_eq_true] at hs
    exact stands_of_mem_walk hs.2 (List.mem_of_ne_of_mem (by simp) h)
  | sequence _ ns, _, hs, h => by
    simp only [stands, Bool.and_eq_true] at hs
    exact stands_of_mem_walkAll hs.2 (List.mem_of_ne_of_mem (by simp) h)
  | alternation _ ns, _, hs, h => by
    simp only [stands, Bool.and_eq_true] at hs
    exact stands_of_mem_walkAll hs.2 (List.mem_of_ne_of_mem (by simp) h)

theorem stands_of_mem_walkAll {g : Group} {body : Node} : ∀ {ns : List Node} {place : Place},
    standAll flags place ns = true → group g body ∈ walkAll ns → body.stands flags .body = true
  | n :: ns, _, hs, h => by
    rw [standAll, Bool.and_eq_true] at hs
    rcases List.mem_append.mp h with h | h
    · exact stands_of_mem_walk hs.1 h
    · exact stands_of_mem_walkAll hs.2 h

end

end Node

/-- What a revision has to know of the tree: copies are made of the bodies of groups, and nothing
that is repeated is left out. -/
structure Revision.Respects (w : Revision) (root : Node) : Prop where
  target : ∀ r s, w.find? r = some s →
    ∃ g, .group g s.body ∈ root.walk ∧ g.isCapture = true ∧ g.index = r.index
  repeated : ∀ q body, .quantifier q body ∈ root.walk → w.omits body = false

/-- Besides, the group of a reference that is not replaced is not left out. -/
structure Revision.Suits (w : Revision) (root : Node) : Prop where
  target : ∀ r s, w.find? r = some s →
    ∃ g, .group g s.body ∈ root.walk ∧ g.isCapture = true ∧ g.index = r.index
  repeated : ∀ q body, .quantifier q body ∈ root.walk → w.omits body = false
  remains : ∀ r, .reference r ∈ root.walk → w.find? r = none → r.index ∈ w.kept root

theorem Revision.Suits.respects {w : Revision} {root : Node} (h : w.Suits root) :
    w.Respects root :=
  ⟨h.target, h.repeated⟩

namespace Revision

variable {w : Revision} {kept copying : List Nat} {flags : Flags} {root : Node}

theorem length_revisedEach (ns : List Node) :
    (w.revisedEach kept copying ns).length = ns.length := by
  induction ns with
  | nil =>
    rw [revisedEach]
  | cons n ns ih => rw [revisedEach, List.length_cons, List.length_cons, ih]

/-- What a count counts can still be counted. -/
theorem isUnit_revised (kept copying : List Nat) {n : Node} (ho : w.omits n = false)
    (hu : n.isUnit = true)
    (hr : Parser.isRepeatable flags n = true) :
    (w.revised kept copying n).isUnit = true ∧
      Parser.isRepeatable flags (w.revised kept copying n) = true := by
  cases n with
  | atom a =>
    rw [revised]
    exact ⟨rfl, rfl⟩
  | reference r =>
    by_cases hc : copying.contains r.index = true
    · rw [revised_copied hc]
      exact ⟨rfl, rfl⟩
    · cases hs : w.find? r with
      | some s =>
        rw [revised_copy hc hs]
        exact ⟨rfl, rfl⟩
      | none =>
        rw [revised_kept hc hs]
        exact ⟨rfl, rfl⟩
  | group g body =>
    have : ¬w.omitted.contains g.site.id = true := by
      rw [← Bool.not_eq_true] at ho
      exact ho
    rw [revised, if_neg this]
    refine ⟨rfl, ?_⟩
    unfold regroup
    split
    · split <;> simp_all [Parser.isRepeatable, Group.isLookaround, Group.isCapture,
        GroupKind.isLookaround]
    · exact hr
  | _ => cases hu

/-- Whether revised trees stand where the trees do, while some groups are being copied.  What is left
out leaves no element. -/
def Stand (w : Revision) (flags : Flags) (root : Node) (kept copying : List Nat) : Prop :=
  ∀ n place, root.Below n → n.stands flags place = true → (place = .element → w.omits n = false) →
    (w.revised kept copying n).stands flags place = true

/-- A group stands where it did, unless it is left out, and then it was no element. -/
theorem stands_revised_group {g : Group} {body : Node} {place : Node.Place}
    (h : (Node.group g body).stands flags place = true)
    (ho : place = .element → w.omits (.group g body) = false)
    (inside : (w.revised kept copying body).stands flags .body = true) :
    (w.revised kept copying (.group g body)).stands flags place = true := by
  simp only [Node.stands, Bool.and_eq_true] at h
  rw [revised]
  split
  · rename_i omitted
    have free : place ≠ .element := by
      intro hp
      have kept := ho hp
      rw [omits, omitted] at kept
      cases kept
    simpa [Node.stands, Node.standAll] using free
  · rw [Node.stands, inside, Bool.and_true]
    unfold regroup
    split
    · rename_i hc
      split
      · rw [Bool.or_eq_true]
        exact .inl hc
      · rfl
    · exact h.1

mutual

theorem stands_revised_step (respects : w.Respects root) (hroot : root.stands flags .body = true)
    (ih : w.Copies copying (w.Stand flags root kept)) : ∀ (n : Node) (place : Node.Place),
    root.Below n → n.stands flags place = true → (place = .element → w.omits n = false) →
      (w.revised kept copying n).stands flags place = true
  | .atom _, _, _, _, _ => by
    rw [revised]
    rfl
  | .anchor _ _, _, _, _, _ => by
    rw [revised]
    rfl
  | .reference r, place, _, _, _ => by
    by_cases hc : copying.contains r.index = true
    · rw [revised_copied hc]
      rfl
    · cases hs : w.find? r with
      | some s =>
        obtain ⟨g, hg, -⟩ := respects.target r s hs
        have body := ih r s hc hs s.body .body (Node.below_of_mem hg).group
          (Node.stands_of_mem_walk hroot hg) (by simp)
        rw [revised_copy hc hs, Node.stands, body]
        rfl
      | none =>
        rw [revised_kept hc hs]
        rfl
  | .group g body, place, hb, h, ho => by
    have stands := (Bool.and_eq_true _ _).mp h
    exact stands_revised_group h ho
      (stands_revised_step respects hroot ih body .body hb.group stands.2 (by simp))
  | .quantifier q body, _, hb, h, _ => by
    simp only [Node.stands, Bool.and_eq_true] at h
    have ho := respects.repeated q body hb.mem
    have ih' := stands_revised_step respects hroot ih body .element hb.quantifier h.2 fun _ => ho
    obtain ⟨hu, hr⟩ := isUnit_revised kept copying ho h.1.1 h.1.2
    rw [revised, Node.stands, hu, hr, ih']
    rfl
  | .sequence _ ns, _, hb, h, _ => by
    simp only [Node.stands, Bool.and_eq_true] at h
    rw [revised, Node.stands, h.1, standAll_revisedAll_step respects hroot ih ns hb.sequence h.2]
    rfl
  | .alternation _ ns, _, hb, h, _ => by
    simp only [Node.stands, Bool.and_eq_true] at h
    rw [revised, Node.stands, length_revisedEach, h.1.1, h.1.2,
      standAll_revisedEach_step respects hroot ih ns hb.alternation h.2]
    rfl

theorem standAll_revisedAll_step (respects : w.Respects root)
    (hroot : root.stands flags .body = true)
    (ih : w.Copies copying (w.Stand flags root kept)) : ∀ ns : List Node,
    (∀ n ∈ ns, root.Below n) → Node.standAll flags .element ns = true →
      Node.standAll flags .element (w.revisedAll kept copying ns) = true
  | [], _, _ => by
    rw [revisedAll]
    rfl
  | n :: ns, hb, h => by
    rw [Node.standAll, Bool.and_eq_true] at h
    have rest := standAll_revisedAll_step respects hroot ih ns
      (fun m hm => hb m (List.mem_cons_of_mem _ hm)) h.2
    rw [revisedAll]
    split
    · exact rest
    · rename_i ho
      rw [Node.standAll, rest, stands_revised_step respects hroot ih n .element
        (hb n List.mem_cons_self) h.1 fun _ => by simpa using ho]
      rfl

theorem standAll_revisedEach_step (respects : w.Respects root)
    (hroot : root.stands flags .body = true)
    (ih : w.Copies copying (w.Stand flags root kept)) : ∀ ns : List Node,
    (∀ n ∈ ns, root.Below n) → Node.standAll flags .alternative ns = true →
      Node.standAll flags .alternative (w.revisedEach kept copying ns) = true
  | [], _, _ => by
    rw [revisedEach]
    rfl
  | n :: ns, hb, h => by
    rw [Node.standAll, Bool.and_eq_true] at h
    rw [revisedEach, Node.standAll, stands_revised_step respects hroot ih n .alternative
        (hb n List.mem_cons_self) h.1 (by simp),
      standAll_revisedEach_step respects hroot ih ns (fun m hm => hb m (List.mem_cons_of_mem _ hm)) h.2]
    rfl

end

/-- **The revised tree stands as the tree does.**  A copy is a group, and what is left out was an
element of a sequence, so no place gets anything it cannot hold. -/
theorem stands_revised (respects : w.Respects root) (hroot : root.stands flags .body = true) :
    (w.revised kept [] root).stands flags .body = true :=
  w.copying_induction (motive := w.Stand flags root kept)
    (fun _ ih => stands_revised_step respects hroot ih) [] root .body (.refl root) hroot (by simp)

end Revision

/-! ## 2. Where the tokens come from

Tokens of a revised tree are legible if those of the tree are, and to see this it is enough to
know where each one comes from. -/

/-- Where a token of a revised tree comes from: it was there, it belongs to a group that captures
nothing, or it is a reference that remains. -/
inductive Revision.Origin (w : Revision) (root : Node) (kept : List Nat) : Token → Prop
  | same {t : Token} (ht : t ∈ root.tokens) (hr : ∀ index name, t ≠ .reference index name) :
    Origin w root kept t
  | opening : Origin w root kept (.opening .nonCapture [])
  | closing : Origin w root kept .closing
  | reference {r : Reference} {name : Bytes} (hr : .reference r ∈ root.walk)
    (hs : w.find? r = none) (hn : name = [] ∨ name = r.name) :
    Origin w root kept (.reference (renumber kept r.index) name)

namespace Revision

variable {w : Revision} {kept copying : List Nat} {root : Node}

/-- Whether the tokens of revised trees have such an origin, while some groups are being copied. -/
def Traced (w : Revision) (root : Node) (kept copying : List Nat) : Prop :=
  ∀ n, root.Below n → n.tokens ⊆ root.tokens →
    ∀ t ∈ (w.revised kept copying n).tokens, w.Origin root kept t

/-- A reference is taken for nothing, it is copied, or it remains. -/
theorem origin_reference (respects : w.Respects root) (ih : w.Copies copying (w.Traced root kept))
    {r : Reference} (hb : root.Below (.reference r)) :
    ∀ t ∈ (w.revised kept copying (.reference r)).tokens, w.Origin root kept t := by
  intro t ht
  by_cases hc : copying.contains r.index = true
  · rw [revised_copied hc] at ht
    rcases List.mem_cons.mp ht with rfl | ht
    · exact .opening
    · rw [List.mem_singleton.mp ht]
      exact .closing
  cases hs : w.find? r with
  | some s =>
    obtain ⟨g, hg, -⟩ := respects.target r s hs
    have inner : (Node.group g s.body).tokens ⊆ root.tokens := Node.tokens_subset (by simp) hg
    rw [revised_copy hc hs] at ht
    rcases List.mem_cons.mp ht with rfl | ht
    · exact .opening
    rcases List.mem_append.mp ht with ht | ht
    · refine ih r s hc hs s.body (Node.below_of_mem hg).group (fun u hu => inner ?_) t ht
      exact List.mem_cons_of_mem _ (List.mem_append_left _ hu)
    · rw [List.mem_singleton.mp ht]
      exact .closing
  | none =>
    rw [revised_kept hc hs] at ht
    rw [List.mem_singleton.mp ht]
    refine .reference hb.mem hs ?_
    unfold redirect
    dsimp only
    split
    · exact .inr rfl
    · exact .inl rfl

/-- A group is left out, or it is there with another kind perhaps. -/
theorem origin_group {g : Group} {body : Node} (hs : (Node.group g body).tokens ⊆ root.tokens)
    (inside : ∀ t ∈ (w.revised kept copying body).tokens, w.Origin root kept t) :
    ∀ t ∈ (w.revised kept copying (.group g body)).tokens, w.Origin root kept t := by
  intro t ht
  rw [revised] at ht
  split at ht
  · cases ht
  rcases List.mem_cons.mp ht with rfl | ht
  · unfold regroup
    split
    · split
      · exact .same (hs List.mem_cons_self) (by simp)
      · exact .opening
    · exact .same (hs List.mem_cons_self) (by simp)
  rcases List.mem_append.mp ht with ht | ht
  · exact inside t ht
  · rw [List.mem_singleton.mp ht]
    exact .closing

mutual

theorem origin_step (respects : w.Respects root) (ih : w.Copies copying (w.Traced root kept)) :
    ∀ n : Node, root.Below n → n.tokens ⊆ root.tokens →
      ∀ t ∈ (w.revised kept copying n).tokens, w.Origin root kept t
  | .atom _, _, hs, t, ht => by
    rw [revised] at ht
    exact .same (hs ht) (by rw [List.mem_singleton.mp ht]; simp)
  | .anchor _ _, _, hs, t, ht => by
    rw [revised] at ht
    exact .same (hs ht) (by rw [List.mem_singleton.mp ht]; simp)
  | .reference _, hb, _, t, ht => origin_reference respects ih hb t ht
  | .group _ body, hb, hs, t, ht => by
    refine origin_group hs (origin_step respects ih body hb.group fun u hu => hs ?_) t ht
    exact List.mem_cons_of_mem _ (List.mem_append_left _ hu)
  | .quantifier q body, hb, hs, t, ht => by
    rw [revised] at ht
    rcases List.mem_append.mp ht with ht | ht
    · exact origin_step respects ih body hb.quantifier
        (fun u hu => hs (List.mem_append_left _ hu)) t ht
    · refine .same (hs (List.mem_append_right _ ht)) ?_
      rw [List.mem_singleton.mp ht]
      simp
  | .sequence _ ns, hb, hs, t, ht => by
    rw [revised] at ht
    exact originAll_step respects ih ns hb.sequence hs t ht
  | .alternation _ ns, hb, hs, t, ht => by
    rw [revised] at ht
    refine originEach_step respects ih ns hb.alternation (fun n hn => ?_) ?_ t ht
    · exact fun u hu => hs (Node.tokensBetween_subset_of_mem hn hu)
    · exact fun h2 => hs (Node.bar_mem_tokensBetween h2)

theorem originAll_step (respects : w.Respects root) (ih : w.Copies copying (w.Traced root kept)) :
    ∀ ns : List Node, (∀ n ∈ ns, root.Below n) → Node.tokensAll ns ⊆ root.tokens →
      ∀ t ∈ Node.tokensAll (w.revisedAll kept copying ns), w.Origin root kept t
  | [], _, _, t, ht => by
    rw [revisedAll] at ht
    cases ht
  | n :: ns, hb, hs, t, ht => by
    have rest := originAll_step respects ih ns (fun m hm => hb m (List.mem_cons_of_mem _ hm))
      (fun u hu => hs (List.mem_append_right _ hu))
    rw [revisedAll] at ht
    split at ht
    · exact rest t ht
    · rcases List.mem_append.mp ht with ht | ht
      · exact origin_step respects ih n (hb n List.mem_cons_self)
          (fun u hu => hs (List.mem_append_left _ hu)) t ht
      · exact rest t ht

theorem originEach_step (respects : w.Respects root) (ih : w.Copies copying (w.Traced root kept)) :
    ∀ ns : List Node, (∀ n ∈ ns, root.Below n) → (∀ n ∈ ns, n.tokens ⊆ root.tokens) →
      (2 ≤ ns.length → .bar ∈ root.tokens) →
      ∀ t ∈ Node.tokensBetween (w.revisedEach kept copying ns), w.Origin root kept t
  | [], _, _, _, t, ht => by
    rw [revisedEach] at ht
    cases ht
  | [n], hb, hs, _, t, ht => by
    rw [revisedEach, revisedEach] at ht
    exact origin_step respects ih n (hb n List.mem_cons_self) (hs n List.mem_cons_self) t ht
  | n :: m :: ns, hb, hs, bar, t, ht => by
    have rest := originEach_step respects ih (m :: ns) (fun k hk => hb k (List.mem_cons_of_mem _ hk))
      (fun k hk => hs k (List.mem_cons_of_mem _ hk)) (fun _ => bar (by simp))
    rw [revisedEach] at rest
    rw [revisedEach, revisedEach] at ht
    rcases List.mem_append.mp ht with ht | ht
    · exact origin_step respects ih n (hb n List.mem_cons_self) (hs n List.mem_cons_self) t ht
    rcases List.mem_cons.mp ht with rfl | ht
    · exact .same (bar (by simp)) (by simp)
    · exact rest t ht

end

/-- **Every token of the revised tree has an origin.**  By induction on what can still be copied,
as a token of a copy comes from the body that is copied. -/
theorem origin_of_mem_revised (respects : w.Respects root) :
    ∀ t ∈ (w.revised kept [] root).tokens, w.Origin root kept t :=
  w.copying_induction (motive := w.Traced root kept) (fun _ ih => origin_step respects ih) [] root
    (.refl root) (List.Subset.refl _)

end Revision

/-! ## 3. Revised trees can be written

Of what is asked of a tree that can be written, its layout and its tokens are settled above.  Its
groups are numbered from one on by the way they are renumbered, and names stay with their
groups. -/

theorem Token.filterMap_name?_eq (ts : List Token) :
    ts.filterMap name? = (ts.filterMap groupName?).filter (!·.isEmpty) := by
  rw [List.filter_filterMap]
  congr 1
  funext t
  cases t with
  | opening kind name => cases kind <;> cases name <;> rfl
  | _ => rfl

/-- Two ways to look a member up that both single it out find it at the same place. -/
theorem idxOf?_map_eq {α β γ : Type} [BEq β] [LawfulBEq β] [BEq γ] [LawfulBEq γ] {f : α → β}
    {g : α → γ} {l : List α} {a : α} (hf : ∀ b ∈ l, f b = f a → b = a)
    (hg : ∀ b ∈ l, g b = g a → b = a) : (l.map f).idxOf? (f a) = (l.map g).idxOf? (g a) := by
  induction l with
  | nil => rfl
  | cons b l ih =>
    have ih := ih (fun c hc => hf c (List.mem_cons_of_mem _ hc))
      (fun c hc => hg c (List.mem_cons_of_mem _ hc))
    rw [List.map_cons, List.map_cons, List.idxOf?_cons, List.idxOf?_cons, ih]
    by_cases hb : b = a
    · simp [hb]
    · have h1 : (f b == f a) = false := by
        rw [beq_eq_false_iff_ne]
        exact fun h => hb (hf b List.mem_cons_self h)
      have h2 : (g b == g a) = false := by
        rw [beq_eq_false_iff_ne]
        exact fun h => hb (hg b List.mem_cons_self h)
      rw [h1, h2]

namespace Revision

variable {w : Revision} {flags : Flags} {captures : Nat} {root : Node} {kept : List Nat}

theorem renumber_of_mem {i : Nat} (h : i ∈ kept) :
    ∃ k, kept.idxOf? i = some k ∧ renumber kept i = k + 1 ∧ k < kept.length := by
  cases hk : kept.idxOf? i with
  | none => exact absurd h (List.idxOf?_eq_none_iff.mp hk)
  | some k => exact ⟨k, rfl, by rw [renumber, hk], (List.idxOf?_eq_some_iff.mp hk).1⟩

theorem renumber_inj {i j : Nat} (hi : i ∈ kept) (hj : j ∈ kept)
    (h : renumber kept i = renumber kept j) : i = j := by
  obtain ⟨k, hk, hik, -⟩ := renumber_of_mem hi
  obtain ⟨l, hl, hjl, -⟩ := renumber_of_mem hj
  obtain rfl : k = l := by omega
  obtain ⟨-, rfl, -⟩ := List.idxOf?_eq_some_iff.mp hk
  obtain ⟨-, rfl, -⟩ := List.idxOf?_eq_some_iff.mp hl
  rfl

/-- Numbers get their places, counted from one. -/
theorem map_renumber (h : kept.Nodup) :
    kept.map (renumber kept) = List.range' 1 kept.length := by
  refine List.ext_getElem (by simp) fun i h1 h2 => ?_
  have hi : i < kept.length := by simpa using h1
  have : kept.idxOf? kept[i] = some i :=
    List.idxOf?_eq_some_iff.mpr ⟨hi, rfl, fun j hj he => Nat.ne_of_lt hj (h.getElem_inj_iff.mp he)⟩
  simp [renumber, this, Nat.add_comm]

/-- The names of the groups of a revised tree. -/
theorem filterMap_groupName?_revised (root : Node) :
    (w.revised kept [] root).tokens.filterMap Token.groupName? =
      (w.keptGroups root).map (·.name) := by
  rw [Node.filterMap_groupName?_tokens, captureGroups_revised, List.map_map]
  refine List.map_congr_left fun g _ => ?_
  simp only [Function.comp_apply, regroup]
  split <;> rfl

/-- No two groups of a revised tree have the same name. -/
theorem distinct_revised (h : root.Spelled flags captures) (kept : List Nat) :
    ((w.revised kept [] root).tokens.filterMap Token.name?).Nodup := by
  have distinct := h.distinct
  rw [Token.filterMap_name?_eq, Node.filterMap_groupName?_tokens] at distinct
  rw [Token.filterMap_name?_eq, filterMap_groupName?_revised]
  exact (((keptGroups_sublist root).map _).filter _).nodup distinct

/-- No two groups have the same name. -/
theorem eq_of_name (h : root.Spelled flags captures) {g g' : Group}
    (hg : g ∈ captureGroups root.walk) (hg' : g' ∈ captureGroups root.walk) (hn : g.name = g'.name)
    (hne : g'.name ≠ []) : g = g' := by
  have distinct := h.distinct
  rw [Token.filterMap_name?_eq, Node.filterMap_groupName?_tokens, List.filter_map] at distinct
  refine List.inj_on_of_nodup_map distinct (List.mem_filter.mpr ⟨hg, ?_⟩)
    (List.mem_filter.mpr ⟨hg', ?_⟩) hn
  · simpa [hn] using hne
  · simpa using hne

/-- No two groups have the same number. -/
theorem eq_of_index (h : root.Spelled flags captures) {g g' : Group}
    (hg : g ∈ captureGroups root.walk) (hg' : g' ∈ captureGroups root.walk)
    (hi : g.index = g'.index) : g = g' := by
  refine List.inj_on_of_nodup_map ?_ hg hg' hi
  rw [← captureIndexes_eq_map, h.indexes]
  exact List.nodup_range'

/-- No two groups have the same number, bodies included. -/
theorem group_eq_of_index (h : root.Writable flags captures) (distinct : root.IsDistinct)
    {g g' : Group} {body body' : Node} (hg : .group g body ∈ root.walk)
    (hg' : .group g' body' ∈ root.walk) (hc : g.isCapture = true) (hc' : g'.isCapture = true)
    (hi : g.index = g'.index) : g = g' ∧ body = body' := by
  obtain rfl := eq_of_index h.spelled (mem_captureGroups.mpr ⟨hc, body, hg⟩)
    (mem_captureGroups.mpr ⟨hc', body', hg'⟩) hi
  exact ⟨rfl, (Node.group.inj (Node.eq_of_id distinct hg hg' rfl)).2⟩

/-- A group has the name by which it is referred to. -/
theorem name_eq_of_reference (h : root.Spelled flags captures) {r : Reference}
    (hr : .reference r ∈ root.walk) (hn : r.name ≠ []) {g : Group}
    (hg : g ∈ captureGroups root.walk) (hi : g.index = r.index) : g.name = r.name := by
  obtain ⟨pos, index⟩ := h.named r.index r.name
    (Node.tokens_subset (m := .reference r) (by simp) hr (List.mem_singleton_self _)) hn
  rw [Node.filterMap_groupName?_tokens, Parser.indexOfName] at index
  split at index
  · rename_i k hk
    obtain ⟨hlt, hname, -⟩ := List.idxOf?_eq_some_iff.mp hk
    rw [List.getElem_map] at hname
    have hlt' : k < (captureGroups root.walk).length := by simpa using hlt
    have indexes := h.indexes
    rw [captureIndexes_eq_map] at indexes
    have number : (captureGroups root.walk)[k].index = 1 + k := by
      have := List.getElem_of_eq indexes (i := k) (by simpa using hlt')
      simpa using this
    rw [eq_of_index h hg (List.getElem_mem hlt') (by omega), hname]
  · omega

/-- A reference that remains comes from one of the tree that is not replaced. -/
theorem exists_of_mem_leftovers (respects : w.Respects root) {l : Reference}
    (h : l ∈ w.leftovers root) :
    ∃ r, .reference r ∈ root.walk ∧ w.find? r = none ∧ l.index = r.index ∧
      (l.name = [] ∨ l.name = r.name) := by
  have ht : .reference l.index l.name ∈ (w.revised [] [] root).tokens :=
    Node.tokens_subset (m := .reference l) (by simp) (Downgrade.mem_references.mp h)
      (List.mem_singleton_self _)
  generalize htok : Token.reference l.index l.name = t at ht
  cases origin_of_mem_revised respects t ht with
  | same _ hr => exact absurd htok.symm (hr _ _)
  | opening => cases htok
  | closing => cases htok
  | @reference r name hr hs hn =>
    obtain ⟨hi, rfl⟩ := Token.reference.inj htok
    exact ⟨r, hr, hs, hi, hn⟩

/-- A reference among the tokens of a revised tree is one that remains, to the new number. -/
theorem exists_leftover {index : Nat} {name : Bytes}
    (h : .reference index name ∈ (w.revised kept [] root).tokens) :
    ∃ l ∈ w.leftovers root, index = renumber kept l.index ∧ name = l.name := by
  obtain ⟨r, hr, rfl, rfl⟩ := Node.exists_reference h
  rw [← Downgrade.mem_references, references_revised] at hr
  obtain ⟨l, hl, rfl⟩ := List.mem_map.mp hr
  exact ⟨l, hl, rfl, rfl⟩

/-- The groups that remain are numbered from one on. -/
theorem captureIndexes_revised (h : root.Spelled flags captures) :
    captureIndexes (w.revised (w.kept root) [] root).walk =
      List.range' 1 (w.kept root).length := by
  have indexes : ∀ g ∈ w.keptGroups root,
      (regroup (w.kept root) [] g).index = renumber (w.kept root) g.index := fun g hg => by
    rw [regroup, if_pos (mem_captureGroups.mp ((keptGroups_sublist root).subset hg)).1]
    rfl
  have nodup : (w.kept root).Nodup :=
    (kept_sublist root).nodup (h.indexes ▸ List.nodup_range')
  rw [captureIndexes_eq_map, captureGroups_revised, List.map_map, ← map_renumber nodup]
  conv => rhs; rw [kept_eq_map, List.map_map]
  refine List.map_congr_left fun g hg => ?_
  rw [Function.comp_apply, indexes g hg, kept_eq_map]
  rfl

/-- All tokens of a revised tree can be written. -/
theorem Respects.legible (respects : w.Respects root)
    (remains : ∀ r ∈ w.leftovers root, r.index ∈ w.kept root) (h : root.Spelled flags captures)
    (limit : captures < numberLimit) :
    ∀ t ∈ (w.revised (w.kept root) [] root).tokens, t.IsLegible flags (w.kept root).length := by
  have length : (w.kept root).length ≤ captures := by
    simpa [h.indexes] using (kept_sublist (w := w) root).length_le
  intro t ht
  cases origin_of_mem_revised respects t ht with
  | same ht' hr =>
    have := h.legible t ht' (hr 0 [])
    cases t with
    | reference index name => exact absurd rfl (hr index name)
    | _ => exact this
  | opening => exact .inl rfl
  | closing => trivial
  | @reference _ name _ _ _ =>
    obtain ⟨l, hl, hnumber, hname⟩ := exists_leftover ht
    obtain ⟨r, hr, -, -, hn⟩ := exists_of_mem_leftovers respects hl
    obtain ⟨k, -, hk, hlt⟩ := renumber_of_mem (remains l hl)
    rw [← hname] at hn
    cases name with
    | nil => exact ⟨by omega, by omega, by omega⟩
    | cons b name =>
      have hn := hn.resolve_left (by simp)
      have origin := h.legible _
        (Node.tokens_subset (m := .reference r) (by simp) hr (List.mem_singleton_self _))
        (by rw [← hn]; simp)
      rw [← hn] at origin
      exact origin

/-- References by name get the new numbers of the groups that have their names. -/
theorem Respects.named (respects : w.Respects root)
    (remains : ∀ r ∈ w.leftovers root, r.index ∈ w.kept root) (h : root.Spelled flags captures)
    {index : Nat} {name : Bytes}
    (ht : .reference index name ∈ (w.revised (w.kept root) [] root).tokens) (hne : name ≠ []) :
    1 ≤ index ∧ Parser.indexOfName
      ((w.revised (w.kept root) [] root).tokens.filterMap Token.groupName?) name = index := by
  have sublist := keptGroups_sublist (w := w) root
  obtain ⟨l, hl, rfl, rfl⟩ := exists_leftover ht
  obtain ⟨r, hr, -, hlr, hn⟩ := exists_of_mem_leftovers respects hl
  have hn := hn.resolve_left hne
  obtain ⟨k, hk, hnumber, -⟩ := renumber_of_mem (remains l hl)
  refine ⟨by omega, ?_⟩
  have mem := remains l hl
  rw [kept_eq_map] at mem
  obtain ⟨g, hg, hi⟩ := List.mem_map.mp mem
  rw [hn] at hne ⊢
  have hname := name_eq_of_reference h hr hne (sublist.subset hg) (hi.trans hlr)
  -- Among the groups that remain, name and number single out the same group.
  have places := idxOf?_map_eq (f := fun g : Group => g.name) (g := fun g : Group => g.index)
    (l := w.keptGroups root) (a := g)
    (fun b hb he => eq_of_name h (sublist.subset hb) (sublist.subset hg) he (hname ▸ hne))
    (fun b hb he => eq_of_index h (sublist.subset hb) (sublist.subset hg) he)
  rw [← kept_eq_map, hi, hname, hk] at places
  rw [filterMap_groupName?_revised, Parser.indexOfName, places, hnumber]

/-- **A revised tree can be written**, if the groups of all references that are written remain. -/
theorem Respects.writable (respects : w.Respects root)
    (remains : ∀ r ∈ w.leftovers root, r.index ∈ w.kept root) (h : root.Spelled flags captures)
    (limit : captures < numberLimit) :
    (w.revised (w.kept root) [] root).Writable flags (w.kept root).length where
  stands := stands_revised respects h.stands
  legible := respects.legible remains h limit
  indexes := captureIndexes_revised h
  distinct := distinct_revised h (w.kept root)
  named _ _ := respects.named remains h

/-- A revised tree can be written, if the revision suits the tree. -/
theorem Suits.writable (suits : w.Suits root) (h : root.Writable flags captures)
    (limit : captures < numberLimit) :
    (w.revised (w.kept root) [] root).Writable flags (w.kept root).length := by
  refine suits.respects.writable (fun l hl => ?_) h.spelled limit
  obtain ⟨r, hr, hs, hi, -⟩ := exists_of_mem_leftovers suits.respects hl
  exact hi ▸ suits.remains r hr hs

end Revision

end Backtrack
