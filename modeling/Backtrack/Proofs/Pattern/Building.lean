/-
# From the tokens of a tree back to the tree

The parser is run on lexemes that spell the tokens of a tree.  Wherever it is, an element leaves
exactly that element behind, a body all of its alternatives (`reads_tree`), and closing a level
makes one node of them.  The numbers of groups are given in the order in which
the groups open; the tree has to have them in that order already.

A sequence of one element is not found again, only its element (`Node.collapsed`).
-/
import Backtrack.Proofs.Pattern.Children
import Backtrack.Proofs.Pattern.Layout

namespace Backtrack

/-! ## 1. Tokens up to places -/

/-- What names stand for, as far as some tokens refer to them. -/
def Token.Resolved (resolve : Bytes → Nat) (ts : List Token) : Prop :=
  ∀ index name, .reference index name ∈ ts → name ≠ [] → resolve name = index

theorem Token.Resolved.of_append {resolve : Bytes → Nat} {ts us : List Token}
    (h : Resolved resolve (ts ++ us)) : Resolved resolve ts ∧ Resolved resolve us :=
  ⟨fun i n hm => h i n (List.mem_append_left _ hm), fun i n hm => h i n (List.mem_append_right _ hm)⟩

theorem Token.eq_closing {t : Token} (h : t.bare = Token.closing.bare) : t = .closing := by
  cases t with
  | closing => rfl
  | _ => simp [bare] at h

theorem Token.eq_bar {t : Token} (h : t.bare = Token.bar.bare) : t = .bar := by
  cases t with
  | bar => rfl
  | _ => simp [bare] at h

theorem Token.eq_opening {t : Token} {kind : GroupKind} {name : Bytes}
    (h : t.bare = (Token.opening kind name).bare) : t = .opening kind name := by
  cases t with
  | opening => exact h
  | _ => simp [bare] at h

theorem Token.eq_count {t : Token} {c : Count} (h : t.bare = (Token.count c).bare) :
    t = .count c := by
  cases t with
  | count => exact h
  | _ => simp [bare] at h

namespace Node

theorem bareAll_eq_map (ns : List Node) : bareAll ns = ns.map bare := by
  induction ns with
  | nil => rfl
  | cons n ns ih => rw [bareAll, ih, List.map_cons]

theorem collapsedAll_eq_map (ns : List Node) : collapsedAll ns = ns.map collapsed := by
  induction ns with
  | nil => rfl
  | cons n ns ih => rw [collapsedAll, ih, List.map_cons]

/-- Collapsing does not change what can be repeated. -/
theorem isRepeatable_of_bare (flags : Flags) {n n' : Node} (hu : n.isUnit = true)
    (h : n'.bare = n.collapsed.bare) :
    Parser.isRepeatable flags n' = Parser.isRepeatable flags n := by
  cases n <;> cases n' <;> simp_all [bare, collapsed, Group.bare, Parser.isRepeatable, isUnit,
    Group.isLookaround]

end Node

/-! ## 2. What the parser leaves behind

A tree as an element adds an element, as an alternative it adds elements, and as a body
alternatives.  Each is said of the state before and the state after, whatever there was before. -/

namespace Parser

variable {flags : Flags} {resolve : Bytes → Nat}

/-- The tokens of lexemes, up to places. -/
def spelling (ls : List Lexeme) : List Token := ls.map (·.token.bare)

theorem run_append {s s' : State} {ls ms : List Lexeme} (h : run flags resolve s ls = .ok s') :
    run flags resolve s (ls ++ ms) = run flags resolve s' ms := by
  induction ls generalizing s with
  | nil =>
    obtain rfl := Except.ok.inj h
    rfl
  | cons l ls ih =>
    obtain ⟨s₁, step₁, h⟩ := run_cons.mp h
    rw [List.cons_append, run, step₁]
    exact ih h

theorem run_singleton {s : State} {l : Lexeme} :
    run flags resolve s [l] = step flags resolve s l := by
  rw [run]
  cases step flags resolve s l <;> rfl

/-- The state with some more elements in the current alternative, and some more groups. -/
def State.pushed (s : State) (used captures : Nat) (es : List Node) : State :=
  { s with
    used := used
    captures := s.captures + captures
    level := { s.level with elements := es.reverse ++ s.level.elements } }

/-- Lexemes that spell several tokens are as many. -/
theorem spelling_eq_append {ls : List Lexeme} {ts us : List Token}
    (h : spelling ls = (ts ++ us).map Token.bare) :
    ∃ ls₁ ls₂, ls = ls₁ ++ ls₂ ∧ spelling ls₁ = ts.map Token.bare ∧
      spelling ls₂ = us.map Token.bare := by
  rw [List.map_append] at h
  exact List.map_eq_append_iff.mp h

theorem spelling_eq_cons {ls : List Lexeme} {t : Token} {us : List Token}
    (h : spelling ls = (t :: us).map Token.bare) :
    ∃ l ls', ls = l :: ls' ∧ l.token.bare = t.bare ∧ spelling ls' = us.map Token.bare := by
  rw [List.map_cons] at h
  exact List.map_eq_cons_iff.mp h

theorem spelling_eq_singleton {ls : List Lexeme} {t : Token}
    (h : spelling ls = [t].map Token.bare) : ∃ l, ls = [l] ∧ l.token.bare = t.bare := by
  obtain ⟨l, ls', rfl, hl, hls⟩ := spelling_eq_cons h
  exact ⟨l, by rw [List.map_eq_nil_iff.mp hls], hl⟩

/-- What a body has been read as: whatever number and place it gets, it is `n`. -/
structure Reads (s s' : State) (captures : Nat) (ns : List Node) : Prop where
  captures : s'.captures = s.captures + captures
  opened : s'.opened = s.opened
  alternatives : ∀ used pos, Node.bareAll (s'.level.alternatives.reverse ++
    [(s'.level.finishAlternative used pos).1]) =
      Node.bareAll s.level.alternatives.reverse ++ Node.bareAll (Node.collapsedAll ns)

/-- The elements of an alternative. -/
def elementsOf : Node → List Node
  | .sequence _ ns => ns
  | n => [n]

/-- The alternatives of a body. -/
def alternativesOf : Node → List Node
  | .alternation _ ns => ns
  | n => [n]

theorem bare_finishAlternative {n : Node} (h : n.stands flags .alternative = true)
    {es : List Node} (hes : Node.bareAll es = Node.bareAll (Node.collapsedAll (elementsOf n)))
    {l : Level} (hl : l.elements = es.reverse) (used pos : Nat) :
    (l.finishAlternative used pos).1.bare = n.collapsed.bare := by
  -- A node that is no sequence is the one element of its alternative.
  have one : elementsOf n = [n] → (l.finishAlternative used pos).1.bare = n.collapsed.bare := by
    intro he
    rw [he] at hes
    cases es with
    | nil => simp [Node.bareAll, Node.collapsedAll] at hes
    | cons e es =>
      cases es with
      | cons e' es => simp [Node.bareAll, Node.collapsedAll] at hes
      | nil =>
        unfold Level.finishAlternative
        rw [hl]
        exact (List.cons.inj hes).1
  cases n with
  | sequence s ns =>
    rw [elementsOf] at hes
    rw [Node.collapsed]
    unfold Level.finishAlternative
    have length := congrArg List.length hes
    rw [Node.bareAll_eq_map, Node.bareAll_eq_map, List.length_map, List.length_map] at length
    rw [hl]
    split
    · rename_i m hm
      obtain rfl : es = [m] := by simpa using congrArg List.reverse hm
      obtain ⟨m', hm'⟩ := List.length_eq_one_iff.mp length.symm
      rw [hm'] at hes ⊢
      exact (List.cons.inj hes).1
    · rename_i hno
      split
      · rename_i m' hm'
        rw [hm'] at length
        obtain ⟨m, rfl⟩ := List.length_eq_one_iff.mp length
        exact absurd rfl (hno m)
      · rw [Node.bare, Node.bare, List.reverse_reverse, hes]
  | alternation s ns => simp [Node.stands] at h
  | _ => exact one rfl

/-- The end of an alternative that was begun with nothing. -/
theorem reads_alternative {n : Node} (h : n.stands flags .alternative = true) {s : State}
    (he : s.level.elements = []) (used k : Nat) {es : List Node}
    (hes : Node.bareAll es = Node.bareAll (Node.collapsedAll (elementsOf n))) :
    Reads s (s.pushed used k es) k [n] := by
  refine ⟨rfl, rfl, fun used' pos => ?_⟩
  have := bare_finishAlternative h hes (l := (s.pushed used k es).level)
    (by simp only [State.pushed, he, List.append_nil]) used' pos
  rw [Node.bareAll_eq_map, Node.bareAll_eq_map, List.map_append, List.map_singleton, this]
  rfl

/-- A bar, and more alternatives. -/
theorem Reads.bar {s s₁ s' : State} {k₁ k₂ : Nat} {n : Node} {ns : List Node}
    (h : Reads s s₁ k₁ [n]) (start stop : Nat)
    (h' : Reads { s₁ with
      used := (s₁.level.finishAlternative s₁.used start).2
      level := ⟨s₁.level.start, (s₁.level.finishAlternative s₁.used start).1 ::
        s₁.level.alternatives, stop, []⟩ } s' k₂ ns) : Reads s s' (k₁ + k₂) (n :: ns) := by
  refine ⟨?_, h'.opened.trans h.opened, fun used pos => ?_⟩
  · rw [h'.captures, h.captures, Nat.add_assoc]
  · rw [h'.alternatives used pos, List.reverse_cons, h.alternatives, List.append_assoc,
      Node.collapsedAll, Node.collapsedAll, Node.collapsedAll]
    rfl

theorem bare_finish {n : Node} (h : n.stands flags .body = true) {s s' : State} {k : Nat}
    (hs : s.level.alternatives = []) (hr : Reads s s' k (alternativesOf n)) (used pos : Nat) :
    (s'.level.finish used pos).1.bare = n.collapsed.bare := by
  have alternatives := hr.alternatives used pos
  rw [hs] at alternatives
  simp only [List.reverse_nil, Node.bareAll, List.nil_append] at alternatives
  have one : alternativesOf n = [n] → (s'.level.finish used pos).1.bare = n.collapsed.bare := by
    intro hn
    rw [hn] at alternatives
    unfold Level.finish
    dsimp only
    cases hl : s'.level.alternatives with
    | nil =>
      rw [hl] at alternatives
      exact (List.cons.inj alternatives).1
    | cons a as =>
      have := congrArg List.length alternatives
      simp [hl, Node.bareAll_eq_map, Node.collapsedAll_eq_map] at this
  cases n with
  | alternation t ns =>
    simp only [Node.stands, Bool.and_eq_true, decide_eq_true_eq] at h
    unfold Level.finish
    dsimp only
    cases hl : s'.level.alternatives with
    | nil =>
      have := congrArg List.length alternatives
      simp [hl, Node.bareAll_eq_map, Node.collapsedAll_eq_map, alternativesOf] at this
      omega
    | cons a as =>
      rw [Node.bare, Node.collapsed, Node.bare, ← hl, alternatives]
      rfl
  | _ => exact one rfl

theorem range'_of_append {is js : List Nat} {start k : Nat} (h : is ++ js = List.range' start k) :
    ∃ k₁ k₂, k₁ + k₂ = k ∧ is = List.range' start k₁ ∧ js = List.range' (start + k₁) k₂ := by
  obtain ⟨k₁, hle, h₁, h₂⟩ := List.range'_eq_append_iff.mp h.symm
  rw [Nat.mul_one] at h₂
  exact ⟨k₁, k - k₁, Nat.add_sub_cancel' hle, h₁, h₂⟩

theorem eq_nil_of_range' {is : List Nat} {start k : Nat} (h : is = List.range' start k)
    (hi : is = []) : k = 0 := by
  rw [hi] at h
  have := congrArg List.length h
  simpa using this.symm

theorem bare_leaf {used : Nat} {site : Site} {shape shape' : Shape} (h : shape'.bare = shape.bare) :
    (leaf used site shape').bare = .atom ⟨.blank, shape.bare⟩ := by
  unfold leaf
  split
  · rename_i k
    rw [Node.bare, ← h]
    simp [Shape.bare, CharClass.bare, shiftSites]
  · rw [Node.bare, ← h]

/-! ## 3. One lexeme

A leaf, an anchor and a reference are one lexeme each.  A group is two of them with a body in
between, and a quantifier one lexeme after its body. -/

theorem run_atom (s : State) {a : Atom} {ls : List Lexeme}
    (hls : spelling ls = (Node.atom a).tokens.map Token.bare) :
    ∃ used n', run flags resolve s ls = .ok (s.pushed used 0 [n']) ∧
      n'.bare = (Node.atom a).bare := by
  obtain ⟨l, rfl, hl⟩ := spelling_eq_singleton hls
  obtain ⟨start, stop, nodes, t⟩ := l
  cases t with
  | leaf shape =>
    refine ⟨_, _, run_singleton, bare_leaf ?_⟩
    simpa [Token.bare] using hl
  | _ => simp [Token.bare] at hl

theorem run_anchor (s : State) {site : Site} {kind : Anchor} {ls : List Lexeme}
    (hls : spelling ls = (Node.anchor site kind).tokens.map Token.bare) :
    ∃ used n', run flags resolve s ls = .ok (s.pushed used 0 [n']) ∧
      n'.bare = (Node.anchor site kind).bare := by
  obtain ⟨l, rfl, hl⟩ := spelling_eq_singleton hls
  obtain ⟨start, stop, nodes, t⟩ := l
  cases t with
  | anchor kind' =>
    obtain rfl : kind' = kind := by simpa [Token.bare] using hl
    exact ⟨_, _, run_singleton, rfl⟩
  | _ => simp [Token.bare] at hl

theorem run_reference (s : State) {r : Reference} {ls : List Lexeme}
    (hls : spelling ls = (Node.reference r).tokens.map Token.bare)
    (hr : Token.Resolved resolve (Node.reference r).tokens) :
    ∃ used n', run flags resolve s ls = .ok (s.pushed used 0 [n']) ∧
      n'.bare = (Node.reference r).bare := by
  obtain ⟨l, rfl, hl⟩ := spelling_eq_singleton hls
  obtain ⟨start, stop, nodes, t⟩ := l
  cases t with
  | reference index name =>
    refine ⟨_, _, run_singleton, ?_⟩
    simp only [Token.bare, Token.reference.injEq] at hl
    obtain ⟨hi, rfl⟩ := hl
    have : (if r.name.isEmpty then index else resolve r.name) = r.index := by
      cases hn : r.name with
      | nil => simpa [hn] using hi
      | cons b name =>
        exact hr r.index (b :: name) (by rw [← hn]; exact List.mem_singleton_self _) (by simp)
    simp only [this]
    rfl
  | _ => simp [Token.bare] at hl

/-- A group whose body is read as it should be. -/
theorem run_group {s : State} {g : Group} {body : Node} {ls : List Lexeme} {k : Nat}
    (hstands : body.stands flags .body = true) (hindex : g.isCapture = true ∨ g.index = 0)
    (hls : spelling ls = (Node.group g body).tokens.map Token.bare)
    (hk : captureIndexes (Node.group g body).walk = List.range' (s.captures + 1) k)
    (ih : ∀ {s₁ : State} {ls₁ : List Lexeme} {k₁ : Nat}, s₁.level.elements = [] →
      spelling ls₁ = body.tokens.map Token.bare →
      captureIndexes body.walk = List.range' (s₁.captures + 1) k₁ →
      ∃ s₂, run flags resolve s₁ ls₁ = .ok s₂ ∧ Reads s₁ s₂ k₁ (alternativesOf body)) :
    ∃ used n', run flags resolve s ls = .ok (s.pushed used k [n']) ∧
      n'.bare = (Node.group g body.collapsed).bare := by
  rw [Node.tokens] at hls
  obtain ⟨lo, ls', rfl, ho, hls⟩ := spelling_eq_cons hls
  obtain ⟨lb, lcs, rfl, hb, hlcs⟩ := spelling_eq_append hls
  obtain ⟨⟨start, stop, nodes, t⟩, rfl, hc⟩ := spelling_eq_singleton hlcs
  -- The opening gives the group its number and starts a level of its own.
  obtain ⟨s₁, k₁, hs₁, step₁, hopened, hk₁, hsum⟩ : ∃ (s₁ : State) (k₁ : Nat),
      s₁.level = Level.at lo.stop ∧ step flags resolve s lo = .ok s₁ ∧
      s₁.opened = ⟨lo.start, g.kind, g.index, g.name, s.level⟩ :: s.opened ∧
      captureIndexes body.walk = List.range' (s₁.captures + 1) k₁ ∧
      s₁.captures + k₁ = s.captures + k := by
    have token := Token.eq_opening ho
    rw [Node.captureIndexes_group] at hk
    by_cases hc : g.kind = .capture
    · have hcapture : g.isCapture = true := by rw [Group.isCapture, hc]; rfl
      rw [if_pos hcapture] at hk
      cases k with
      | zero => cases hk
      | succ k =>
        rw [List.range'_succ, List.singleton_append, List.cons.injEq] at hk
        refine ⟨⟨s.used, s.captures + 1, Level.at lo.stop, _⟩, k, rfl, ?_, rfl, hk.2, by
          simp only; omega⟩
        simp only [step, token, hc, if_true, hk.1]
    · have hcapture : g.isCapture = false := by
        rw [Group.isCapture, beq_eq_false_iff_ne]
        exact hc
      rw [hcapture] at hk hindex
      have hzero : g.index = 0 := by simpa using hindex
      refine ⟨⟨s.used, s.captures, Level.at lo.stop, _⟩, k, rfl, ?_, rfl, hk, rfl⟩
      simp only [step, token, if_neg hc, hzero]
  obtain ⟨s₂, run₂, hr⟩ := ih (by rw [hs₁]; rfl) hb hk₁
  have opened := hr.opened.trans hopened
  obtain rfl := Token.eq_closing hc
  have bare := bare_finish hstands (s := s₁) (by rw [hs₁]; rfl) hr s₂.used start
  refine ⟨(s₂.level.finish s₂.used start).2 + 1, .group ⟨⟨(s₂.level.finish s₂.used start).2 + 1,
    lo.start, stop⟩, g.kind, g.index, g.name⟩ (s₂.level.finish s₂.used start).1, ?_, ?_⟩
  · rw [run, step₁]
    refine (run_append run₂).trans (run_singleton.trans ?_)
    simp only [step, opened, State.pushed, hr.captures, hsum, List.reverse_singleton,
      List.singleton_append]
  · rw [Node.bare, bare, Node.bare]
    rfl

/-- A count of something that can be counted. -/
theorem run_quantifier {s : State} {q : Quantifier} {body : Node} {ls : List Lexeme} {k : Nat}
    (hu : body.isUnit = true) (hrep : isRepeatable flags body = true)
    (hls : spelling ls = (Node.quantifier q body).tokens.map Token.bare)
    (ih : ∀ {ls₁ : List Lexeme}, spelling ls₁ = body.tokens.map Token.bare →
      ∃ used n', run flags resolve s ls₁ = .ok (s.pushed used k [n']) ∧
        n'.bare = body.collapsed.bare) :
    ∃ used n', run flags resolve s ls = .ok (s.pushed used k [n']) ∧
      n'.bare = (Node.quantifier q body.collapsed).bare := by
  rw [Node.tokens] at hls
  obtain ⟨lb, lcs, rfl, hb, hlcs⟩ := spelling_eq_append hls
  obtain ⟨⟨start, stop, nodes, t⟩, rfl, hc⟩ := spelling_eq_singleton hlcs
  obtain ⟨used, n', run₁, hn⟩ := ih hb
  obtain rfl := Token.eq_count hc
  refine ⟨used + nodes, .quantifier ⟨⟨used + nodes, n'.site.start, stop⟩, q.count⟩ n', ?_, ?_⟩
  · refine (run_append run₁).trans (run_singleton.trans ?_)
    have := (Node.isRepeatable_of_bare flags hu hn).trans hrep
    simp only [step, State.pushed, List.reverse_singleton, List.singleton_append, this, if_true]
  · rw [Node.bare, hn, Node.bare]
    rfl

/-! ## 4. All lexemes of a tree

A node stands as an element, as an alternative or as a body, and each statement uses the one
before: the three are proved together, by induction over the children. -/

/-- Lexemes that spell the node as an element leave exactly that element behind. -/
def ReadAsElement (flags : Flags) (resolve : Bytes → Nat) (n : Node) : Prop :=
  ∀ ⦃s : State⦄ ⦃ls : List Lexeme⦄ ⦃k : Nat⦄, n.stands flags .element = true →
    spelling ls = n.tokens.map Token.bare → Token.Resolved resolve n.tokens →
    captureIndexes n.walk = List.range' (s.captures + 1) k →
    ∃ used n', run flags resolve s ls = .ok (s.pushed used k [n']) ∧ n'.bare = n.collapsed.bare

/-- Lexemes that spell the node as an alternative leave its elements behind. -/
def ReadAsAlternative (flags : Flags) (resolve : Bytes → Nat) (n : Node) : Prop :=
  ∀ ⦃s : State⦄ ⦃ls : List Lexeme⦄ ⦃k : Nat⦄, n.stands flags .alternative = true →
    spelling ls = n.tokens.map Token.bare → Token.Resolved resolve n.tokens →
    captureIndexes n.walk = List.range' (s.captures + 1) k →
    ∃ used es, run flags resolve s ls = .ok (s.pushed used k es) ∧
      Node.bareAll es = Node.bareAll (Node.collapsedAll (elementsOf n))

/-- Lexemes that spell the node as a body leave its alternatives behind. -/
def ReadAsBody (flags : Flags) (resolve : Bytes → Nat) (n : Node) : Prop :=
  ∀ ⦃s : State⦄ ⦃ls : List Lexeme⦄ ⦃k : Nat⦄, n.stands flags .body = true →
    s.level.elements = [] → spelling ls = n.tokens.map Token.bare →
    Token.Resolved resolve n.tokens →
    captureIndexes n.walk = List.range' (s.captures + 1) k →
    ∃ s', run flags resolve s ls = .ok s' ∧ Reads s s' k (alternativesOf n)

theorem readAsElement {n : Node}
    (below : ∀ m ∈ n.children, ReadAsElement flags resolve m ∧ ReadAsBody flags resolve m) :
    ReadAsElement flags resolve n := by
  intro s ls k h hls hr hk
  cases n with
  | atom a =>
    obtain rfl := eq_nil_of_range' hk (Node.captureIndexes_atom a)
    exact run_atom s hls
  | anchor _ kind =>
    obtain rfl := eq_nil_of_range' hk rfl
    exact run_anchor s hls
  | reference r =>
    obtain rfl := eq_nil_of_range' hk rfl
    exact run_reference s hls hr
  | group g body =>
    simp only [Node.stands, Bool.and_eq_true, Bool.or_eq_true, beq_iff_eq] at h
    have hr : Token.Resolved resolve body.tokens := fun i n hm => hr i n (by simp [Node.tokens, hm])
    have hb := (below body List.mem_cons_self).2
    exact run_group h.2 h.1 hls hk fun he hls hk => hb h.2 he hls hr hk
  | quantifier q body =>
    simp only [Node.stands, Bool.and_eq_true] at h
    have hr : Token.Resolved resolve body.tokens := fun i n hm => hr i n (by simp [Node.tokens, hm])
    have hb := (below body List.mem_cons_self).1
    exact run_quantifier h.1.1 h.1.2 hls fun hls => hb h.2 hls hr hk
  | sequence | alternation => simp [Node.stands] at h

theorem run_elements {ns : List Node} (below : ∀ n ∈ ns, ReadAsElement flags resolve n)
    (h : Node.standAll flags .element ns = true) {s : State} {ls : List Lexeme} {k : Nat}
    (hls : spelling ls = (Node.tokensAll ns).map Token.bare)
    (hr : Token.Resolved resolve (Node.tokensAll ns))
    (hk : captureIndexes (Node.walkAll ns) = List.range' (s.captures + 1) k) :
    ∃ used es, run flags resolve s ls = .ok (s.pushed used k es) ∧
      Node.bareAll es = Node.bareAll (Node.collapsedAll ns) := by
  induction ns generalizing s ls k with
  | nil =>
    obtain rfl := List.map_eq_nil_iff.mp hls
    obtain rfl := eq_nil_of_range' hk rfl
    exact ⟨s.used, [], rfl, rfl⟩
  | cons n ns ih =>
    obtain ⟨first, others⟩ := List.forall_mem_cons.mp below
    rw [Node.standAll, Bool.and_eq_true] at h
    rw [Node.captureIndexes_walkAll_cons] at hk
    obtain ⟨k₁, k₂, rfl, hk₁, hk₂⟩ := range'_of_append hk
    obtain ⟨ls₁, ls₂, rfl, hls₁, hls₂⟩ := spelling_eq_append hls
    obtain ⟨hr₁, hr₂⟩ := hr.of_append
    obtain ⟨used₁, n', run₁, hn⟩ := first h.1 hls₁ hr₁ hk₁
    have start : s.captures + 1 + k₁ = (s.pushed used₁ k₁ [n']).captures + 1 := by
      simp only [State.pushed]
      omega
    rw [start] at hk₂
    obtain ⟨used₂, es, run₂, hes⟩ := ih others h.2 hls₂ hr₂ hk₂
    refine ⟨used₂, n' :: es, ?_, ?_⟩
    · rw [run_append run₁, run₂]
      simp only [State.pushed, List.reverse_cons, List.reverse_nil, List.nil_append,
        List.append_assoc, Nat.add_assoc]
    · rw [Node.bareAll, Node.collapsedAll, Node.bareAll, hn, hes]

theorem readAsAlternative {n : Node} (own : ReadAsElement flags resolve n)
    (below : ∀ m ∈ n.children, ReadAsElement flags resolve m) :
    ReadAsAlternative flags resolve n := by
  intro s ls k h hls hr hk
  have one : n.stands flags .element = true → elementsOf n = [n] → ∃ used es,
      run flags resolve s ls = .ok (s.pushed used k es) ∧
        Node.bareAll es = Node.bareAll (Node.collapsedAll (elementsOf n)) := by
    intro h he
    obtain ⟨used, n', hrun, hn⟩ := own h hls hr hk
    exact ⟨used, [n'], hrun, by rw [he, Node.bareAll, hn]; rfl⟩
  cases n with
  | sequence _ ns =>
    simp only [Node.stands, Bool.and_eq_true] at h
    exact run_elements below h.2 hls hr hk
  | alternation => simp [Node.stands] at h
  | group | quantifier => exact one (by simpa only [Node.stands] using h) rfl
  | _ => exact one (by simp only [Node.stands]) rfl

theorem run_alternatives {ns : List Node} (hne : ns ≠ [])
    (below : ∀ n ∈ ns, ReadAsAlternative flags resolve n)
    (h : Node.standAll flags .alternative ns = true) {s : State} (he : s.level.elements = [])
    {ls : List Lexeme} {k : Nat} (hls : spelling ls = (Node.tokensBetween ns).map Token.bare)
    (hr : Token.Resolved resolve (Node.tokensBetween ns))
    (hk : captureIndexes (Node.walkAll ns) = List.range' (s.captures + 1) k) :
    ∃ s', run flags resolve s ls = .ok s' ∧ Reads s s' k ns := by
  induction ns generalizing s ls k with
  | nil => exact absurd rfl hne
  | cons n ns ih =>
    obtain ⟨first, others⟩ := List.forall_mem_cons.mp below
    rw [Node.standAll, Bool.and_eq_true] at h
    rw [Node.captureIndexes_walkAll_cons] at hk
    cases ns with
    | nil =>
      obtain ⟨used, es, hrun, hes⟩ := first h.1 hls hr (hk.symm ▸ List.append_nil _).symm
      exact ⟨_, hrun, reads_alternative h.1 he _ _ hes⟩
    | cons m ns =>
      obtain ⟨k₁, k₂, rfl, hk₁, hk₂⟩ := range'_of_append hk
      rw [Node.tokensBetween] at hls hr
      obtain ⟨ls₁, ls₂, rfl, hls₁, hls₂⟩ := spelling_eq_append hls
      obtain ⟨l, ls₃, rfl, hl, hls₃⟩ := spelling_eq_cons hls₂
      obtain ⟨hr₁, hr₂⟩ := hr.of_append
      have hr₃ : Token.Resolved resolve (Node.tokensBetween (m :: ns)) :=
        fun i n hm => hr₂ i n (List.mem_cons_of_mem _ hm)
      obtain ⟨used, es, run₁, hes⟩ := first h.1 hls₁ hr₁ hk₁
      have reads := reads_alternative h.1 he used k₁ hes
      obtain ⟨start, stop, nodes, t⟩ := l
      obtain rfl := Token.eq_bar hl
      have captures : s.captures + 1 + k₁ = s.captures + k₁ + 1 := by omega
      rw [captures] at hk₂
      obtain ⟨s', run₂, hreads⟩ := ih (List.cons_ne_nil m ns) others h.2
        (s := { s.pushed used k₁ es with
          used := ((s.pushed used k₁ es).level.finishAlternative used start).2
          level := ⟨s.level.start, ((s.pushed used k₁ es).level.finishAlternative used start).1 ::
            s.level.alternatives, stop, []⟩ }) rfl hls₃ hr₃ hk₂
      refine ⟨s', ?_, reads.bar start stop hreads⟩
      rw [run_append run₁, run]
      exact run₂

theorem readAsBody {n : Node} (own : ReadAsAlternative flags resolve n)
    (below : ∀ m ∈ n.children, ReadAsAlternative flags resolve m) :
    ReadAsBody flags resolve n := by
  intro s ls k h he hls hr hk
  have one : n.stands flags .alternative = true → alternativesOf n = [n] →
      ∃ s', run flags resolve s ls = .ok s' ∧ Reads s s' k (alternativesOf n) := by
    intro h hn
    obtain ⟨used, es, hrun, hes⟩ := own h hls hr hk
    exact ⟨_, hrun, hn ▸ reads_alternative h he _ _ hes⟩
  cases n with
  | alternation _ ns =>
    simp only [Node.stands, Bool.and_eq_true, decide_eq_true_eq] at h
    have hne : ns ≠ [] := by
      rintro rfl
      simp at h
    exact run_alternatives hne below h.2 he hls hr hk
  | sequence _ ns =>
    refine one ?_ rfl
    simp only [Node.stands, Bool.and_eq_true] at h ⊢
    exact ⟨rfl, h.2⟩
  | group | quantifier => exact one (by simpa only [Node.stands] using h) rfl
  | _ => exact one (by simp only [Node.stands]) rfl

/-- **The tokens of a tree are read as that tree**, wherever it stands.  The numbers of its groups
have to be those that come next when it is read. -/
theorem reads_tree (flags : Flags) (resolve : Bytes → Nat) (n : Node) :
    ReadAsElement flags resolve n ∧ ReadAsAlternative flags resolve n ∧
      ReadAsBody flags resolve n := by
  induction n using Node.induction_children with
  | step n ih =>
    have element : ReadAsElement flags resolve n :=
      readAsElement fun m hm => ⟨(ih m hm).1, (ih m hm).2.2⟩
    have alternative : ReadAsAlternative flags resolve n :=
      readAsAlternative element fun m hm => (ih m hm).1
    exact ⟨element, alternative, readAsBody alternative fun m hm => (ih m hm).2.1⟩

end Parser

end Backtrack
