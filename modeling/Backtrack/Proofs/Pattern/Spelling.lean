/-
# The tree of a source and its tokens

When a source is parsed, its tree has the tokens of the source, in the same order
(`Parser.State.Follows`): whatever the parser holds at a time spells what it has read.  Besides
that, everything it holds stands where it may, and the groups are numbered as they open.

So a tree that was parsed can be written and read again (`Pattern.writable_of_parse`).
`Node.Writable` is what reading needs; it does not mention a source.  Only a reference by
no name, to no group, keeps a parsed tree from being writable; `Node.Spelled` leaves it aside and
holds of every parsed tree (`Pattern.spelled_of_parse`).
-/
import Backtrack.Proofs.Pattern.Building
import Backtrack.Proofs.Pattern.Sources
import Backtrack.Proofs.Pattern.Counting
import Backtrack.Pattern.Downgrade

namespace Backtrack

open Lexer (Before)

/-- A token without places. -/
def Token.blank : Token → Token
  | .leaf s => .leaf s.bare
  | t => t

/-- A token with the number of the group that a name refers to. -/
def Token.resolved (resolve : Bytes → Nat) : Token → Token
  | .reference index name => .reference (if name.isEmpty then index else resolve name) name
  | t => t

namespace Parser

/-! ## 1. What the parser has read

The parser holds finished nodes, open groups and an alternative that is being read.  Each of these
spells some tokens, and together they are what has been read so far. -/

/-- The tokens a level has taken in. -/
def Level.tokens (l : Level) : List Token :=
  l.alternatives.reverse.flatMap (fun n => n.tokens ++ [.bar]) ++ Node.tokensAll l.elements.reverse

/-- The tokens the parser has taken in. -/
def State.tokens (s : State) : List Token :=
  s.opened.reverse.flatMap (fun o => o.outer.tokens ++ [.opening o.kind o.name]) ++ s.level.tokens

/-- The numbers of the groups of a level, in order. -/
def Level.indexes (l : Level) : List Nat :=
  captureIndexes (Node.walkAll (l.alternatives.reverse ++ l.elements.reverse))

/-- The numbers of the groups the parser has met, in order. -/
def State.indexes (s : State) : List Nat :=
  s.opened.reverse.flatMap (fun o => o.outer.indexes ++ if o.kind = .capture then [o.index] else []) ++
    s.level.indexes

/-- What a level holds stands where it may, and there is nothing to collapse. -/
structure Level.Tidy (flags : Flags) (l : Level) : Prop where
  elements : ∀ n ∈ l.elements, n.stands flags .element = true ∧ n.collapsed = n
  alternatives : ∀ n ∈ l.alternatives, n.stands flags .alternative = true ∧ n.collapsed = n

theorem tokensBetween_concat (ns : List Node) (n : Node) :
    Node.tokensBetween (ns ++ [n]) = ns.flatMap (fun n => n.tokens ++ [.bar]) ++ n.tokens := by
  induction ns with
  | nil => rfl
  | cons m ns ih =>
    cases ns with
    | nil => simp [Node.tokensBetween]
    | cons m' ns =>
      rw [List.cons_append, List.cons_append, Node.tokensBetween, ← List.cons_append, ih,
        List.flatMap_cons]
      simp

theorem tokens_finishAlternative (l : Level) (used pos : Nat) :
    (l.finishAlternative used pos).1.tokens = Node.tokensAll l.elements.reverse := by
  unfold Level.finishAlternative
  split
  · rename_i n hn
    rw [hn]
    simp [Node.tokensAll]
  · rfl

theorem tokens_finish (l : Level) (used pos : Nat) : (l.finish used pos).1.tokens = l.tokens := by
  unfold Level.finish Level.tokens
  dsimp only
  split
  · rename_i hl
    rw [hl, tokens_finishAlternative]
    rfl
  · rw [Node.tokens, tokensBetween_concat, tokens_finishAlternative]

theorem captureIndexes_finishAlternative (l : Level) (used pos : Nat) :
    captureIndexes (l.finishAlternative used pos).1.walk =
      captureIndexes (Node.walkAll l.elements.reverse) := by
  unfold Level.finishAlternative
  split
  · rename_i n hn
    rw [hn]
    simp [Node.walkAll]
  · rfl

theorem captureIndexes_finish (l : Level) (used pos : Nat) :
    captureIndexes (l.finish used pos).1.walk = l.indexes := by
  unfold Level.finish Level.indexes
  dsimp only
  split
  · rename_i hl
    rw [hl, captureIndexes_finishAlternative]
    rfl
  · rename_i ns hne
    change captureIndexes (Node.walkAll _) = _
    rw [Node.walkAll_append, Node.walkAll_append, captureIndexes_append, captureIndexes_append]
    congr 1
    rw [← captureIndexes_finishAlternative l used pos]
    exact congrArg captureIndexes (List.append_nil _)

theorem tidy_finishAlternative {flags : Flags} {l : Level} (h : l.Tidy flags) (used pos : Nat) :
    (l.finishAlternative used pos).1.stands flags .alternative = true ∧
      (l.finishAlternative used pos).1.collapsed = (l.finishAlternative used pos).1 := by
  unfold Level.finishAlternative
  split
  · rename_i n hn
    have := h.elements n (by rw [hn]; exact List.mem_singleton_self n)
    exact ⟨Node.stands_mono this.1, this.2⟩
  · rename_i hne
    have elements : ∀ n ∈ l.elements.reverse, n.stands flags .element = true ∧ n.collapsed = n :=
      fun n hn => h.elements n (List.mem_reverse.mp hn)
    constructor
    · simp only [Node.stands, Bool.and_eq_true]
      exact ⟨rfl, Node.standAll_iff.mpr fun n hn => (elements n hn).1⟩
    · have : Node.collapsedAll l.elements.reverse = l.elements.reverse := by
        rw [Node.collapsedAll_eq_map]
        exact (List.map_congr_left fun n hn => (elements n hn).2).trans (List.map_id _)
      rw [Node.collapsed, this]
      split
      · rename_i n hn
        exact absurd (by simpa using congrArg List.reverse hn) (hne n)
      · rfl

theorem tidy_finish {flags : Flags} {l : Level} (h : l.Tidy flags) (used pos : Nat) :
    (l.finish used pos).1.stands flags .body = true ∧
      (l.finish used pos).1.collapsed = (l.finish used pos).1 := by
  have last := tidy_finishAlternative h used pos
  unfold Level.finish
  dsimp only
  split
  · refine ⟨?_, last.2⟩
    generalize (l.finishAlternative used pos).1 = n at last
    cases n with
    | alternation => simp [Node.stands] at last
    | sequence =>
      simp only [Node.stands, Bool.and_eq_true] at last ⊢
      exact ⟨rfl, last.1.2⟩
    | group | quantifier => simpa only [Node.stands] using last.1
    | _ => simp only [Node.stands]
  · rename_i hne
    have all : ∀ n ∈ l.alternatives.reverse ++ [(l.finishAlternative used pos).1],
        n.stands flags .alternative = true ∧ n.collapsed = n := by
      intro n hn
      rcases List.mem_append.mp hn with hn | hn
      · exact h.alternatives n (List.mem_reverse.mp hn)
      · rw [List.mem_singleton.mp hn]
        exact last
    constructor
    · simp only [Node.stands, Bool.and_eq_true, decide_eq_true_eq]
      refine ⟨⟨rfl, ?_⟩, Node.standAll_iff.mpr fun n hn => (all n hn).1⟩
      cases hl : l.alternatives with
      | nil => exact absurd hl hne
      | cons a as => simp
    · rw [Node.collapsed, Node.collapsedAll_eq_map]
      exact congrArg _ ((List.map_congr_left fun n hn => (all n hn).2).trans (List.map_id _))

/-! ## 2. One lexeme

A lexeme changes one level at most, and the tokens of all other levels stay as they are.  A count
is the one that takes something back, as it wraps the last element. -/

/-- What holds of the parser after some tokens, `before` being what the last of them is to a
count. -/
structure State.Follows (flags : Flags) (resolve : Bytes → Nat) (s : State) (before : Before)
    (ts : List Token) : Prop where
  tokens : s.tokens.map Token.blank = ts.map fun t => (t.resolved resolve).blank
  level : s.level.Tidy flags
  outer : ∀ o ∈ s.opened, o.outer.Tidy flags ∧ (o.kind = .capture ∨ o.index = 0)
  indexes : s.indexes = List.range' 1 s.captures
  unit : before = .repeatable → ∃ n rest, s.level.elements = n :: rest ∧ n.isUnit = true

theorem leaf_eq_atom (used : Nat) (site : Site) (shape : Shape) :
    ∃ shape', leaf used site shape = .atom ⟨site, shape'⟩ ∧ shape'.bare = shape.bare := by
  unfold leaf
  split
  · exact ⟨_, rfl, by simp [Shape.bare, CharClass.bare, shiftSites]⟩
  · exact ⟨_, rfl, rfl⟩

variable {flags : Flags} {resolve : Bytes → Nat} {s s' : State} {before : Before}
  {ts : List Token}

theorem State.follows_initial : State.initial.Follows flags resolve .nothing [] :=
  ⟨rfl, ⟨by simp [initial, Level.at], by simp [initial, Level.at]⟩, by simp [initial], rfl,
    by simp⟩

/-- One more element that captures nothing. -/
theorem State.Follows.push (h : s.Follows flags resolve before ts) {n : Node} {t : Token}
    (used : Nat) (stands : n.stands flags .element = true) (collapsed : n.collapsed = n)
    (tokens : n.tokens.map Token.blank = [(t.resolved resolve).blank])
    (indexes : captureIndexes n.walk = [])
    (unit : Before.of t = .repeatable → n.isUnit = true) :
    (s.push used n).Follows flags resolve (Before.of t) (ts ++ [t]) := by
  refine ⟨?_, ⟨?_, h.level.alternatives⟩, h.outer, ?_, fun hb => ⟨n, _, rfl, unit hb⟩⟩
  · have : (s.push used n).tokens = s.tokens ++ n.tokens := by
      simp [State.tokens, Level.tokens, State.push, Node.tokensAll_append, Node.tokensAll]
    rw [this, List.map_append, h.tokens, tokens, List.map_append, List.map_singleton]
  · intro m hm
    rcases List.mem_cons.mp hm with rfl | hm
    · exact ⟨stands, collapsed⟩
    · exact h.level.elements m hm
  · have : (s.push used n).indexes = s.indexes ++ captureIndexes n.walk := by
      simp [State.indexes, Level.indexes, State.push, Node.walkAll_append, captureIndexes_append,
        Node.walkAll]
    rw [this, indexes, List.append_nil]
    exact h.indexes

/-- A group that opens is open. -/
theorem State.Follows.opening (h : s.Follows flags resolve before ts) {kind : GroupKind}
    {name : Bytes} {start stop : Nat} :
    State.Follows flags resolve
      { s with
        captures := if kind = .capture then s.captures + 1 else s.captures
        level := Level.at stop
        opened := ⟨start, kind, if kind = .capture then if kind = .capture then s.captures + 1
          else s.captures else 0, name, s.level⟩ :: s.opened }
      (Before.of (.opening kind name)) (ts ++ [.opening kind name]) := by
  refine ⟨?_, ⟨by simp [Level.at], by simp [Level.at]⟩, ?_, ?_, by simp [Before.of]⟩
  · have := h.tokens
    simp only [State.tokens, Level.tokens, Level.at] at this ⊢
    simp only [List.reverse_cons, List.flatMap_append, List.flatMap_singleton, List.reverse_nil,
      List.flatMap_nil, Node.tokensAll, List.append_nil]
    rw [← List.append_assoc, List.map_append, this, List.map_append]
    rfl
  · intro o ho
    rcases List.mem_cons.mp ho with rfl | ho
    · refine ⟨h.level, ?_⟩
      by_cases hk : kind = .capture
      · exact .inl hk
      · exact .inr (if_neg hk)
    · exact h.outer o ho
  · have := h.indexes
    simp only [State.indexes, Level.indexes, Level.at] at this ⊢
    simp only [List.reverse_cons, List.flatMap_append, List.flatMap_singleton, List.reverse_nil,
      List.append_nil]
    rw [← List.append_assoc, this]
    by_cases hk : kind = .capture
    · rw [if_pos hk, if_pos hk, if_pos hk, List.range'_concat]
      simp [Node.walkAll, captureIndexes, Nat.add_comm]
    · rw [if_neg hk, if_neg hk]
      simp [Node.walkAll, captureIndexes]

/-- A group that closes is an element. -/
theorem State.Follows.closing (h : s.Follows flags resolve before ts) {o : Opened}
    {opened : List Opened} (ho : s.opened = o :: opened) (pos stop : Nat) :
    State.Follows flags resolve
      { used := (s.level.finish s.used pos).2 + 1
        captures := s.captures
        level := { o.outer with
          elements := .group ⟨⟨(s.level.finish s.used pos).2 + 1, o.start, stop⟩, o.kind,
            o.index, o.name⟩ (s.level.finish s.used pos).1 :: o.outer.elements }
        opened := opened } .repeatable (ts ++ [.closing]) := by
  obtain ⟨outer, index⟩ := h.outer o (by rw [ho]; exact List.mem_cons_self)
  obtain ⟨stands, collapsed⟩ := tidy_finish h.level s.used pos
  refine ⟨?_, ⟨?_, outer.alternatives⟩, ?_, ?_, fun _ => ⟨_, _, rfl, rfl⟩⟩
  · have := h.tokens
    simp only [State.tokens, ho, List.reverse_cons, List.flatMap_append,
      List.flatMap_singleton] at this
    simp only [State.tokens, Level.tokens, List.reverse_cons, Node.tokensAll_append,
      Node.tokensAll, Node.tokens, tokens_finish, List.append_nil]
    rw [List.map_append (f := fun t => (Token.resolved resolve t).blank), ← this]
    simp [Level.tokens, Token.resolved]
  · intro n hn
    rcases List.mem_cons.mp hn with rfl | hn
    · refine ⟨?_, by rw [Node.collapsed, collapsed]⟩
      simp only [Node.stands, stands, Bool.and_true, Bool.or_eq_true, beq_iff_eq]
      exact index.imp_left fun hk => by rw [Group.isCapture, hk]; rfl
    · exact outer.elements n hn
  · exact fun o' ho' => h.outer o' (by rw [ho]; exact List.mem_cons_of_mem _ ho')
  · have := h.indexes
    simp only [State.indexes, ho, List.reverse_cons, List.flatMap_append,
      List.flatMap_singleton] at this
    rw [← this]
    simp only [State.indexes, Level.indexes, List.reverse_cons, Node.walkAll_append,
      captureIndexes_append, Node.captureIndexes_walkAll_cons, Node.captureIndexes_group,
      captureIndexes_finish, List.append_assoc]
    have own : (if (⟨⟨(s.level.finish s.used pos).2 + 1, o.start, stop⟩, o.kind, o.index,
        o.name⟩ : Group).isCapture then [o.index] else []) =
          if o.kind = .capture then [o.index] else [] := by
      by_cases hk : o.kind = .capture <;> simp [hk, Group.isCapture]
    have last : captureIndexes (Node.walkAll []) = [] := rfl
    rw [own, last, List.append_nil]

/-- An alternative that ends is an alternative. -/
theorem State.Follows.bar (h : s.Follows flags resolve before ts) (pos stop : Nat) :
    State.Follows flags resolve
      { s with
        used := (s.level.finishAlternative s.used pos).2
        level := ⟨s.level.start, (s.level.finishAlternative s.used pos).1 ::
          s.level.alternatives, stop, []⟩ } (Before.of .bar) (ts ++ [.bar]) := by
  obtain ⟨stands, collapsed⟩ := tidy_finishAlternative h.level s.used pos
  refine ⟨?_, ⟨by simp, ?_⟩, h.outer, ?_, by simp [Before.of]⟩
  · have := h.tokens
    rw [List.map_append, ← this]
    simp [State.tokens, Level.tokens, tokens_finishAlternative, Node.tokensAll, Token.resolved]
  · intro n hn
    rcases List.mem_cons.mp hn with rfl | hn
    · exact ⟨stands, collapsed⟩
    · exact h.level.alternatives n hn
  · have := h.indexes
    rw [← this]
    simp [State.indexes, Level.indexes, Node.walkAll_append, captureIndexes_append,
      captureIndexes_finishAlternative, Node.walkAll]

/-- A count wraps what it counts. -/
theorem State.Follows.count (h : s.Follows flags resolve .repeatable ts) {n : Node}
    {rest : List Node} (hn : s.level.elements = n :: rest)
    (hrep : isRepeatable flags n = true) (q : Quantifier) (used : Nat) :
    State.Follows flags resolve
      { s with
        used := used
        level := { s.level with elements := .quantifier q n :: rest } }
      (Before.of (.count q.count)) (ts ++ [.count q.count]) := by
  obtain ⟨m, rest', hm, unit⟩ := h.unit rfl
  obtain ⟨rfl, rfl⟩ := List.cons.inj (hn.symm.trans hm)
  refine ⟨?_, ⟨?_, h.level.alternatives⟩, h.outer, ?_, by simp [Before.of]⟩
  · have := h.tokens
    rw [List.map_append, ← this]
    simp [State.tokens, Level.tokens, hn, Node.tokensAll_append, Node.tokensAll, Node.tokens,
      Token.resolved]
  · intro m hm
    rcases List.mem_cons.mp hm with rfl | hm
    · obtain ⟨stands, collapsed⟩ := h.level.elements n (by rw [hn]; exact List.mem_cons_self)
      refine ⟨?_, by rw [Node.collapsed, collapsed]⟩
      rw [Node.stands, unit, hrep, stands]
      rfl
    · exact h.level.elements m (by rw [hn]; exact List.mem_cons_of_mem _ hm)
  · have := h.indexes
    rw [← this]
    simp [State.indexes, Level.indexes, hn, Node.walkAll_append, captureIndexes_append,
      Node.captureIndexes_walkAll_cons]
    rfl

/-- **One lexeme more**, if it is a count only after something that can be repeated. -/
theorem State.Follows.step (h : s.Follows flags resolve before ts) {l : Lexeme}
    (hl : l.token.isCount = true → before = .repeatable)
    (hs : Parser.step flags resolve s l = .ok s') :
    s'.Follows flags resolve (Before.of l.token) (ts ++ [l.token]) := by
  cases steps_of_step hs with
  | @leaf shape token =>
    rw [token]
    obtain ⟨shape', ha, hbare⟩ := leaf_eq_atom s.used ⟨s.used + l.nodes, l.start, l.stop⟩ shape
    rw [ha]
    exact h.push _ rfl rfl (by simp [Node.tokens, Token.blank, Token.resolved, hbare])
      (Node.captureIndexes_atom _) (fun _ => rfl)
  | anchor token =>
    rw [token]
    exact h.push _ rfl rfl rfl rfl (by simp [Before.of])
  | reference token =>
    rw [token]
    exact h.push _ rfl rfl rfl rfl (fun _ => rfl)
  | opening token counted =>
    rw [token, counted]
    exact h.opening
  | closing token ho =>
    rw [token]
    exact h.closing ho l.start l.stop
  | bar token =>
    rw [token]
    exact h.bar l.start l.stop
  | count token hn repeatable =>
    obtain rfl := hl (by rw [token]; rfl)
    rw [token]
    exact h.count hn repeatable ⟨_, _⟩ _

/-! ## 3. All lexemes -/

theorem State.Follows.run {ls : List Lexeme} (h : s.Follows flags resolve before ts)
    (first : ∀ t, (ls.map (·.token)).head? = some t → t.isCount = true → before = .repeatable)
    (chain : (ls.map (·.token)).IsChain Token.CountsAfter)
    (hs : Parser.run flags resolve s ls = .ok s') :
    ∃ before', s'.Follows flags resolve before' (ts ++ ls.map (·.token)) := by
  induction ls generalizing s before ts with
  | nil =>
    obtain rfl := Except.ok.inj hs
    exact ⟨before, by simpa using h⟩
  | cons l ls ih =>
    obtain ⟨s₁, h₁, hs⟩ := run_cons.mp hs
    have next : ∀ t, (ls.map (·.token)).head? = some t → t.isCount = true →
        Before.of l.token = .repeatable := by
      intro t ht
      obtain ⟨us, hus⟩ := List.head?_eq_some_iff.mp ht
      rw [List.map_cons, hus] at chain
      exact (List.isChain_cons_cons.mp chain).1
    obtain ⟨b, hb⟩ := ih (h.step (first l.token rfl) h₁) next chain.tail hs
    exact ⟨b, by simpa using hb⟩

end Parser

/-! ## 4. What a parsed tree has in common with its source

Tokens of a lexeme have names where those of a tree have numbers, and the two are compared after
names have been looked up.  That a name has a number at all is checked by the parser at the end,
and nothing but the reference by no name escapes the check. -/

/-- The name of the group a token opens, empty if it has none. -/
def Token.groupName? : Token → Option Bytes
  | .opening .capture name => some name
  | _ => none

theorem Parser.captureNames_eq (ls : List Lexeme) :
    captureNames ls = (ls.map (·.token)).filterMap Token.groupName? := by
  rw [captureNames, List.filterMap_map]
  rfl

theorem Token.groupName?_blank (t : Token) : t.blank.groupName? = t.groupName? := by
  cases t <;> rfl

theorem Token.groupName?_resolved (resolve : Bytes → Nat) (t : Token) :
    (t.resolved resolve).groupName? = t.groupName? := by
  cases t <;> rfl

theorem Token.isCapture_blank (t : Token) : t.blank.isCapture = t.isCapture := by
  cases t <;> rfl

theorem Token.isCapture_resolved (resolve : Bytes → Nat) (t : Token) :
    (t.resolved resolve).isCapture = t.isCapture := by
  cases t <;> rfl

theorem Token.name?_blank (t : Token) : t.blank.name? = t.name? := by
  cases t <;> rfl

theorem Token.name?_resolved (resolve : Bytes → Nat) (t : Token) :
    (t.resolved resolve).name? = t.name? := by
  cases t <;> rfl

/-- A tree that can be written, and read again: it stands right, its tokens are legible, its groups
are numbered in order and have names of their own, and references by name are to groups. -/
structure Node.Writable (flags : Flags) (captures : Nat) (n : Node) : Prop where
  stands : n.stands flags .body = true
  legible : ∀ t ∈ n.tokens, t.IsLegible flags captures
  indexes : captureIndexes n.walk = List.range' 1 captures
  distinct : (n.tokens.filterMap Token.name?).Nodup
  named : ∀ index name, .reference index name ∈ n.tokens → name ≠ [] →
    1 ≤ index ∧ Parser.indexOfName (n.tokens.filterMap Token.groupName?) name = index

/-- A tree as it comes out of a source: it could be written but for references by no name, which have
no number either. -/
structure Node.Spelled (flags : Flags) (captures : Nat) (n : Node) : Prop where
  stands : n.stands flags .body = true
  legible : ∀ t ∈ n.tokens, t ≠ .reference 0 [] → t.IsLegible flags captures
  indexes : captureIndexes n.walk = List.range' 1 captures
  distinct : (n.tokens.filterMap Token.name?).Nodup
  named : ∀ index name, .reference index name ∈ n.tokens → name ≠ [] →
    1 ≤ index ∧ Parser.indexOfName (n.tokens.filterMap Token.groupName?) name = index

theorem Node.Writable.spelled {flags : Flags} {captures : Nat} {n : Node}
    (h : n.Writable flags captures) : n.Spelled flags captures :=
  ⟨h.stands, fun t ht _ => h.legible t ht, h.indexes, h.distinct, h.named⟩

theorem Shape.isLegible_of_bare {unicode : Bool} {s s' : Shape} (h : s.bare = s'.bare)
    (hs : s.IsLegible unicode) : s'.IsLegible unicode := by
  cases s with
  | charClass k =>
    cases s' with
    | charClass k' =>
      simp only [bare, Shape.charClass.injEq, CharClass.bare, CharClass.mk.injEq] at h
      obtain ⟨-, hr, -, hp⟩ := h
      refine ⟨hr ▸ hs.ranges, fun p hp' => ?_⟩
      have : (Site.blank, p.2) ∈ k.properties.map fun p => (Site.blank, p.2) := by
        rw [hp]
        exact List.mem_map.mpr ⟨p, hp', rfl⟩
      obtain ⟨q, hq, he⟩ := List.mem_map.mp this
      rw [← (Prod.mk.inj he).2]
      exact hs.properties q hq
    | _ => cases h
  | _ =>
    cases s' with
    | charClass k' => cases h
    | _ => exact Eq.mp (congrArg (IsLegible unicode) h) hs

theorem Token.isLegible_of_blank {flags : Flags} {captures : Nat} {resolve : Bytes → Nat}
    {t u : Token} (h : (u.resolved resolve).blank = t.blank) (hu : u.IsLegible flags captures) :
    t.IsLegible flags captures := by
  cases u with
  | leaf s =>
    cases t with
    | leaf s' =>
      simp only [resolved, blank, Token.leaf.injEq] at h
      exact Shape.isLegible_of_bare h hu
    | _ => cases h
  | reference index name =>
    cases t with
    | reference index' name' =>
      simp only [resolved, blank, Token.reference.injEq] at h
      obtain ⟨hi, rfl⟩ := h
      cases name with
      | nil =>
        obtain rfl : index = index' := hi
        exact hu
      | cons b name => exact hu
    | _ => cases h
  | _ =>
    cases t with
    | leaf | reference => cases h
    | _ => exact Eq.mp (congrArg (IsLegible flags captures) h) hu

/-- The numbers a name can stand for. -/
theorem Parser.indexOfName_of_mem {names : List Bytes} {name : Bytes} (h : name ∈ names) :
    1 ≤ indexOfName names name := by
  unfold indexOfName
  cases hi : names.idxOf? name with
  | none => exact absurd h (List.idxOf?_eq_none_iff.mp hi)
  | some i => exact Nat.succ_le_succ (Nat.zero_le i)

theorem Parser.mem_of_indexOfName {names : List Bytes} {name : Bytes}
    (h : 1 ≤ indexOfName names name) : name ∈ names := by
  refine Classical.byContradiction fun hn => ?_
  rw [indexOfName, List.idxOf?_eq_none_iff.mpr hn] at h
  exact absurd h (by decide)

namespace Node

/-- As many groups capture as there are tokens that open such a group. -/
theorem length_captureIndexes (n : Node) :
    (captureIndexes n.walk).length = n.tokens.countP Token.isCapture := by
  have owns : n.tokens.countP Token.isCapture =
      (n.tokens.filter Token.isOwn).countP Token.isCapture := by
    rw [List.countP_filter]
    refine List.countP_congr fun t _ => ?_
    cases t <;> simp [Token.isCapture, Token.isOwn]
  rw [owns, filter_isOwn_tokens, List.countP_filterMap, captureIndexes,
    List.length_filterMap_eq_countP]
  refine List.countP_congr fun m _ => ?_
  cases m with
  | group g body => cases hk : g.kind <;> simp [ownToken?, Token.isCapture, Group.isCapture, hk]
  | _ => simp [ownToken?, Token.isCapture]

/-- A reference among the tokens of a tree is one of its nodes. -/
theorem exists_reference {index : Nat} {name : Bytes} {n : Node}
    (h : .reference index name ∈ n.tokens) :
    ∃ r, reference r ∈ n.walk ∧ r.index = index ∧ r.name = name := by
  have own : .reference index name ∈ n.tokens.filter Token.isOwn :=
    List.mem_filter.mpr ⟨h, rfl⟩
  rw [filter_isOwn_tokens] at own
  obtain ⟨m, hm, he⟩ := List.mem_filterMap.mp own
  cases m with
  | reference r =>
    obtain ⟨rfl, rfl⟩ := Token.reference.inj (Option.some.inj he)
    exact ⟨r, hm, rfl, rfl⟩
  | _ => cases he

end Node

open Backtrack.Parser

/-- A group that has a name can have it. -/
theorem isGroupName_of_mem_captureNames {flags : Flags} {captures : Nat} {names : List Bytes}
    {before : Before} {ls : List Lexeme}
    (h : Lexer.Readable flags captures names before (ls.map (·.token))) :
    ∀ name ∈ captureNames ls, name = [] ∨ Lexer.isGroupName name = true := by
  intro name hn
  rw [captureNames_eq] at hn
  obtain ⟨t, ht, he⟩ := List.mem_filterMap.mp hn
  cases t with
  | opening kind n =>
    have := h.legible _ ht (by simp)
    cases kind with
    | capture =>
      obtain rfl := Option.some.inj he
      exact this.imp_right And.right
    | _ => cases he
  | _ => cases he

/-- Names that are used are defined. -/
theorem isDefined_of_undefinedName? {names : List Bytes} {ls : List Lexeme}
    (h : undefinedName? names ls = none)
    (hn : ∀ name ∈ names, name = [] ∨ Lexer.isGroupName name = true) :
    ∀ l ∈ ls, l.token.IsDefined := by
  intro l hl
  have := List.findSome?_eq_none_iff.mp h l hl
  unfold Token.IsDefined
  split
  · rename_i index name ht
    rw [ht] at this
    dsimp only at this
    split at this
    · rename_i hc
      rw [Bool.or_eq_true] at hc
      rcases hc with hc | hc
      · exact .inl (List.isEmpty_iff.mp hc)
      · exact hn name (List.contains_iff_mem.mp hc)
    · cases this
  · trivial

namespace Pattern

/-- What a parsed tree has in common with the lexemes of its source: their tokens, with names
resolved.  Besides, it stands right, its groups are numbered in order, and there is nothing to
collapse in it. -/
structure Follows (source : Bytes) (flags : Flags) (p : Pattern) (ls : List Lexeme) : Prop where
  lexemes : Lexer.lexemes flags source = (ls, none)
  names : undefinedName? (captureNames ls) ls = none
  flags_eq : p.flags = flags
  tokens : p.root.tokens.map Token.blank =
    (ls.map (·.token)).map fun t => (t.resolved (indexOfName (captureNames ls))).blank
  indexes : captureIndexes p.root.walk = List.range' 1 p.captures
  stands : p.root.stands flags .body = true
  collapsed : p.root.collapsed = p.root

theorem exists_follows_of_parse {source : Bytes} {flags : Flags} {p : Pattern}
    (h : parse source flags = .ok p) : ∃ ls, Follows source flags p ls := by
  obtain ⟨ls, s, hls, hrun, ho, hnames, rfl⟩ := exists_lexemes_of_parse h
  have readable := Lexer.readable_of_scan hls
  obtain ⟨before, hs⟩ := State.follows_initial.run readable.first readable.chain hrun
  obtain ⟨stands, collapsed⟩ := tidy_finish hs.level s.used source.length
  have tokens := hs.tokens
  rw [State.tokens, ho, List.reverse_nil, List.flatMap_nil, List.nil_append, List.nil_append,
    ← tokens_finish s.level s.used source.length] at tokens
  have indexes := hs.indexes
  rw [State.indexes, ho, List.reverse_nil, List.flatMap_nil, List.nil_append,
    ← captureIndexes_finish s.level s.used source.length] at indexes
  exact ⟨ls, hls, hnames, rfl, tokens, indexes, stands, collapsed⟩

section Follows

variable {source : Bytes} {flags : Flags} {p : Pattern} {ls : List Lexeme}

theorem Follows.groupNames (h : Follows source flags p ls) :
    p.root.tokens.filterMap Token.groupName? = captureNames ls := by
  have := congrArg (List.filterMap Token.groupName?) h.tokens
  rw [List.filterMap_map, List.filterMap_map] at this
  simpa only [Function.comp_def, Token.groupName?_blank, Token.groupName?_resolved,
    captureNames_eq] using this

theorem Follows.ownNames (h : Follows source flags p ls) :
    p.root.tokens.filterMap Token.name? = (ls.map (·.token)).filterMap Token.name? := by
  have := congrArg (List.filterMap Token.name?) h.tokens
  rw [List.filterMap_map, List.filterMap_map] at this
  simpa only [Function.comp_def, Token.name?_blank, Token.name?_resolved] using this

/-- The groups of a parsed tree are those that were counted beforehand. -/
theorem Follows.countCaptures (h : Follows source flags p ls) :
    Lexer.countCaptures source = p.captures := by
  have readable := Lexer.readable_of_scan h.lexemes
  have captures : p.root.tokens.countP Token.isCapture = ls.countP (·.token.isCapture) := by
    have := congrArg (List.countP Token.isCapture) h.tokens
    rw [List.countP_map, List.countP_map, List.countP_map] at this
    simpa only [Function.comp_def, Token.isCapture_blank, Token.isCapture_resolved] using this
  rw [Lexer.countCaptures, Lexer.countCapturesFrom_scan h.lexemes
    (isDefined_of_undefinedName? h.names (isGroupName_of_mem_captureNames readable)), ← captures,
    ← Node.length_captureIndexes, h.indexes, List.length_range']

/-- Every token of a parsed tree was one of the source. -/
theorem Follows.exists_lexeme (h : Follows source flags p ls) {t : Token}
    (ht : t ∈ p.root.tokens) :
    ∃ l ∈ ls, (l.token.resolved (indexOfName (captureNames ls))).blank = t.blank := by
  have := List.mem_map_of_mem (f := Token.blank) ht
  rw [h.tokens, List.map_map] at this
  exact List.mem_map.mp this

theorem flags_of_parse (h : parse source flags = .ok p) : p.flags = flags := by
  obtain ⟨ls, follows⟩ := exists_follows_of_parse h
  exact follows.flags_eq

theorem source_of_parse (h : parse source flags = .ok p) : p.source = source := by
  obtain ⟨ls, s, -, -, -, -, rfl⟩ := exists_lexemes_of_parse h
  rfl

end Follows

/-- **A parsed tree can be written but for references by no name**, and there is nothing to
collapse in it.  What the parser has read is spelled by what it holds, and in the end it holds the
tree. -/
theorem spelled_of_parse {source : Bytes} {flags : Flags} {p : Pattern}
    (h : parse source flags = .ok p) :
    p.root.Spelled flags p.captures ∧ p.root.collapsed = p.root := by
  obtain ⟨ls, follows⟩ := exists_follows_of_parse h
  have readable := Lexer.readable_of_scan follows.lexemes
  refine ⟨⟨follows.stands, ?_, follows.indexes, follows.ownNames ▸ readable.distinct, ?_⟩,
    follows.collapsed⟩
  · intro t ht hz
    obtain ⟨l, hl, he⟩ := follows.exists_lexeme ht
    rw [← follows.countCaptures]
    refine Token.isLegible_of_blank he (readable.legible _ (List.mem_map_of_mem hl) ?_)
    -- A reference without a group would be one of the tree, too.
    intro hv
    rw [hv] at he
    cases t with
    | leaf => cases he
    | _ => exact hz he.symm
  · intro index name ht hname
    obtain ⟨l, hl, he⟩ := follows.exists_lexeme ht
    have names := follows.names
    rw [follows.groupNames]
    cases hlt : l.token with
    | reference index' name' =>
      simp only [hlt, Token.resolved, Token.blank, Token.reference.injEq] at he
      obtain ⟨hi, rfl⟩ := he
      rw [if_neg (by simpa using hname)] at hi
      have := List.findSome?_eq_none_iff.mp names l hl
      rw [hlt] at this
      dsimp only at this
      split at this
      · rename_i hc
        rw [Bool.or_eq_true] at hc
        have used := hc.resolve_left (by simpa using hname)
        exact ⟨hi ▸ indexOfName_of_mem (List.contains_iff_mem.mp used), hi⟩
      · cases this
    | _ =>
      rw [hlt] at he
      cases he

/-- **A parsed tree can be written**, if each of its references has a group, and there is nothing
to collapse in it. -/
theorem writable_of_parse {source : Bytes} {flags : Flags} {p : Pattern}
    (h : parse source flags = .ok p) (hr : ∀ r ∈ Downgrade.references p.root, 1 ≤ r.index) :
    p.root.Writable flags p.captures ∧ p.root.collapsed = p.root := by
  obtain ⟨spelled, collapsed⟩ := spelled_of_parse h
  refine ⟨⟨spelled.stands, fun t ht => spelled.legible t ht ?_, spelled.indexes, spelled.distinct,
    spelled.named⟩, collapsed⟩
  rintro rfl
  obtain ⟨r, hr', hi, -⟩ := Node.exists_reference ht
  have := hr r (List.mem_filterMap.mpr ⟨_, hr', rfl⟩)
  omega

end Pattern

end Backtrack
