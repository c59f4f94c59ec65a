/-
# Trees as rows of tokens

A tree is written by listing its tokens from left to right (`Node.tokens`).  Two things decide
whether the row can be read as the same tree again:

* where a node stands (`Node.stands`): bodies hold alternatives, alternatives hold elements, and
  only some elements can be counted;
* what stands next to each other: a digit after a numeric reference is kept away from it by an
  empty group (`Node.separated`).

The tokens of a tree that stands right follow each other as tokens of a source do
(`Node.chain_tokens`), and separating the tokens is separating the tree
(`Node.separate_tokens`).  Openings and references among the tokens are those of the nodes
(`Node.filter_isOwn_tokens`), and all that is told by them alone is read off a walk.
-/
import Backtrack.Proofs.Pattern.Legible
import Backtrack.Proofs.Pattern.Trees

namespace Backtrack

open Lexer (Before)

/-! ## 1. Trees without places

Two trees that differ in places and in the numbers of nodes are the same for what is written.
Reading a text again gives new places, so equality is only ever asked of trees without them. -/

/-- A quantifier, reference or group without its place. -/
def Quantifier.bare (q : Quantifier) : Quantifier := { q with site := .blank }

def Reference.bare (r : Reference) : Reference := { r with site := .blank }

def Group.bare (g : Group) : Group := { g with site := .blank }

namespace Node

mutual

/-- The tree without places. -/
def bare : Node → Node
  | atom a => atom ⟨.blank, a.shape.bare⟩
  | anchor _ k => anchor .blank k
  | reference r => reference r.bare
  | group g body => group g.bare body.bare
  | quantifier q body => quantifier q.bare body.bare
  | sequence _ ns => sequence .blank (bareAll ns)
  | alternation _ ns => alternation .blank (bareAll ns)

/-- Several trees without places. -/
def bareAll : List Node → List Node
  | [] => []
  | n :: ns => n.bare :: bareAll ns

end

end Node

/-! ## 2. Tokens of a tree

Bars stand between alternatives and nowhere else, so three functions are needed, for one tree and
for several in a row or between bars.  Openings and references are the only tokens that later
modules look for, and they are in the order of the walk. -/

/-- Whether a token is one of a node: it opens a group or is a reference. -/
def Token.isOwn : Token → Bool
  | .opening _ _ => true
  | .reference _ _ => true
  | _ => false

namespace Node

mutual

/-- The tokens of a tree from left to right. -/
def tokens : Node → List Token
  | atom a => [.leaf a.shape]
  | anchor _ k => [.anchor k]
  | reference r => [.reference r.index r.name]
  | group g body => .opening g.kind g.name :: (body.tokens ++ [.closing])
  | quantifier q body => body.tokens ++ [.count q.count]
  | sequence _ ns => tokensAll ns
  | alternation _ ns => tokensBetween ns

/-- The tokens of several trees in a row. -/
def tokensAll : List Node → List Token
  | [] => []
  | n :: ns => n.tokens ++ tokensAll ns

/-- The tokens of several trees with bars between them. -/
def tokensBetween : List Node → List Token
  | [] => []
  | [n] => n.tokens
  | n :: m :: ns => n.tokens ++ .bar :: tokensBetween (m :: ns)

end

theorem tokensAll_append (ns ms : List Node) :
    tokensAll (ns ++ ms) = tokensAll ns ++ tokensAll ms := by
  induction ns with
  | nil => rfl
  | cons n ns ih => rw [List.cons_append, tokensAll, tokensAll, ih, List.append_assoc]

/-- The token that a group opens with, or that a reference is written as. -/
def ownToken? : Node → Option Token
  | reference r => some (.reference r.index r.name)
  | group g _ => some (.opening g.kind g.name)
  | _ => none

mutual

/-- **The openings and references among the tokens of a tree are those of its nodes**, in the
order of its walk.  Signs and counts belong to no node of their own, and they are what is filtered
out. -/
theorem filter_isOwn_tokens : ∀ n : Node,
    n.tokens.filter Token.isOwn = n.walk.filterMap ownToken?
  | atom a => by
    rw [filterMap_walk_atom fun _ => rfl]
    rfl
  | anchor _ _ => rfl
  | reference _ => rfl
  | group g body => by
    rw [tokens, List.filter_cons_of_pos rfl, List.filter_append, filter_isOwn_tokens body]
    exact congrArg _ (List.append_nil _)
  | quantifier q body => by
    rw [tokens, List.filter_append, filter_isOwn_tokens body]
    exact List.append_nil _
  | sequence _ ns => filter_isOwn_tokensAll ns
  | alternation _ ns => filter_isOwn_tokensBetween ns

theorem filter_isOwn_tokensAll : ∀ ns : List Node,
    (tokensAll ns).filter Token.isOwn = (walkAll ns).filterMap ownToken?
  | [] => rfl
  | n :: ns => by
    rw [tokensAll, walkAll, List.filter_append, List.filterMap_append,
      filter_isOwn_tokens n, filter_isOwn_tokensAll ns]

theorem filter_isOwn_tokensBetween : ∀ ns : List Node,
    (tokensBetween ns).filter Token.isOwn = (walkAll ns).filterMap ownToken?
  | [] => rfl
  | [n] => by
    rw [tokensBetween, walkAll, walkAll, List.append_nil, filter_isOwn_tokens n]
  | n :: m :: ns => by
    rw [tokensBetween, walkAll, List.filter_append, List.filterMap_append,
      filter_isOwn_tokens n, ← filter_isOwn_tokensBetween (m :: ns)]
    rfl

end

/-- What is read off openings and references alone is read off the nodes. -/
theorem filterMap_tokens {α : Type} {f : Token → Option α}
    (h : ∀ t, t.isOwn = false → f t = none) (n : Node) :
    n.tokens.filterMap f = n.walk.filterMap fun m => m.ownToken?.bind f := by
  rw [← List.filterMap_filterMap, ← filter_isOwn_tokens, List.filterMap_filter]
  refine List.filterMap_congr fun t _ => ?_
  cases ht : t.isOwn with
  | false => exact h t ht
  | true => rfl

/-! ## 3. Places in a tree

A tree that is built by hand may have a quantifier around a quantifier, or an alternation in a
sequence without a group.  Neither can be written so that it is read as the same tree, since
parentheses are written for groups only. -/

/-- Where a node may stand: as an element of an alternative, as an alternative of a body, or as a
body. -/
inductive Place where
  | element
  | alternative
  | body
deriving Repr, DecidableEq

/-- Whether something is a single unit that a count may follow. -/
def isUnit : Node → Bool
  | atom _ => true
  | reference _ => true
  | group _ _ => true
  | _ => false

mutual

/-- Whether a tree can stand at a place, as it is read from a source.  Only groups that capture
have a number. -/
def stands (flags : Flags) : Place → Node → Bool
  | _, atom _ => true
  | _, anchor _ _ => true
  | _, reference _ => true
  | _, group g body => (g.isCapture || g.index == 0) && body.stands flags .body
  | _, quantifier _ body =>
    body.isUnit && Parser.isRepeatable flags body && body.stands flags .element
  | place, sequence _ ns => place != .element && standAll flags .element ns
  | place, alternation _ ns =>
    place == .body && 2 ≤ ns.length && standAll flags .alternative ns

/-- Whether several trees can stand at places of one kind. -/
def standAll (flags : Flags) (place : Place) : List Node → Bool
  | [] => true
  | n :: ns => n.stands flags place && standAll flags place ns

end

/-! ## 4. One-element sequences -/

mutual

/-- The tree with each sequence of one element replaced by the element. -/
def collapsed : Node → Node
  | group g body => group g body.collapsed
  | quantifier q body => quantifier q body.collapsed
  | sequence s ns =>
    match collapsedAll ns with
    | [n] => n
    | ns => sequence s ns
  | alternation s ns => alternation s (collapsedAll ns)
  | n => n

/-- The same for several trees. -/
def collapsedAll : List Node → List Node
  | [] => []
  | n :: ns => n.collapsed :: collapsedAll ns

end

/-! ## 5. Separators

The separator is put into the tree here, and into the row of tokens in section 7.  That these are
the same is what the rest of the module is for: rendering works on tokens, and what is read is a
tree. -/

/-- The group that matches nothing. -/
def separator : Node := group ⟨.blank, .nonCapture, 0, []⟩ (sequence .blank [])

/-- Whether the text of a node ends in the number of a reference. -/
def endsInNumber : Node → Bool
  | reference r => r.name.isEmpty
  | _ => false

/-- Whether the text of a node starts with a digit. -/
def startsWithDigit : Node → Bool
  | atom ⟨_, .char c⟩ => '0'.toNat ≤ c && c ≤ '9'.toNat
  | quantifier _ body => body.startsWithDigit
  | _ => false

mutual

/-- The tree with a separator between each numeric reference and a digit right after it. -/
def separated : Node → Node
  | group g body => group g body.separated
  | quantifier q body => quantifier q body.separated
  | sequence s ns => sequence s (separatedAll ns)
  | alternation s ns => alternation s (separatedEach ns)
  | n => n

/-- The elements of a sequence, separated. -/
def separatedAll : List Node → List Node
  | [] => []
  | n :: ns =>
    if n.endsInNumber && ns.head?.any startsWithDigit then
      n.separated :: separator :: separatedAll ns
    else n.separated :: separatedAll ns

/-- Several trees, separated each by itself. -/
def separatedEach : List Node → List Node
  | [] => []
  | n :: ns => n.separated :: separatedEach ns

end

end Node

/-! ## 6. What stands next to each other

Whether two elements need a separator is decided by the last token of one and the first token of
the next.  For an element both can be told from the tree (`Ends`), as an element has at least one
token. -/

/-- Whether a token is a numeric reference. -/
def Token.isNumeric : Token → Bool
  | .reference _ [] => true
  | _ => false

/-- Whether a token is the character of a digit. -/
def Token.isDigit : Token → Bool
  | .leaf (.char c) => '0'.toNat ≤ c && c ≤ '9'.toNat
  | _ => false

theorem Revision.runsTogether_eq (t u : Token) :
    Revision.runsTogether t u = (t.isNumeric && u.isDigit) := by
  unfold Revision.runsTogether Token.isNumeric Token.isDigit
  split
  · rfl
  · rename_i h
    split
    · split
      · exact absurd rfl (h _ _ rfl)
      · rfl
    · rfl

namespace Node

/-- The ends of an element: it has tokens, the first is no count, and whether the first is a digit
and the last a numeric reference can be told from the tree. -/
structure Ends (n : Node) : Prop where
  first : ∃ t, n.tokens.head? = some t ∧ t.isCount = false ∧ t.isDigit = n.startsWithDigit
  last : ∃ t, n.tokens.getLast? = some t ∧ t.isNumeric = n.endsInNumber ∧
    (n.isUnit = true → Before.of t = .repeatable)

theorem ends_of_stands {flags : Flags} : ∀ {n : Node}, n.stands flags .element = true → n.Ends
  | atom ⟨s, shape⟩, _ => by
    refine ⟨⟨_, rfl, rfl, ?_⟩, ⟨_, rfl, rfl, fun _ => rfl⟩⟩
    cases shape <;> rfl
  | anchor s k, _ => ⟨⟨_, rfl, rfl, rfl⟩, ⟨_, rfl, rfl, by simp [isUnit]⟩⟩
  | reference r, _ => by
    refine ⟨⟨_, rfl, rfl, rfl⟩, ⟨_, rfl, ?_, fun _ => rfl⟩⟩
    rw [endsInNumber]
    cases r.name <;> rfl
  | group g body, _ => by
    refine ⟨⟨_, rfl, rfl, rfl⟩, ⟨.closing, ?_, rfl, fun _ => rfl⟩⟩
    rw [tokens, ← List.cons_append, List.getLast?_concat]
  | quantifier q body, h => by
    simp only [stands, Bool.and_eq_true] at h
    obtain ⟨t, ht, hc, hd⟩ := (ends_of_stands h.2).first
    refine ⟨⟨t, ?_, hc, hd⟩, ⟨.count q.count, ?_, rfl, by simp [isUnit]⟩⟩
    · rw [tokens, List.head?_append, ht]
      rfl
    · rw [tokens, List.getLast?_concat]
  | sequence s ns, h => by simp [stands] at h
  | alternation s ns, h => by simp [stands] at h

theorem standAll_iff {flags : Flags} {place : Place} {ns : List Node} :
    standAll flags place ns = true ↔ ∀ n ∈ ns, n.stands flags place = true := by
  induction ns with
  | nil => simp [standAll]
  | cons n ns ih => simp [standAll, ih]

/-- What stands as an element can stand anywhere, and so on. -/
theorem stands_mono {flags : Flags} {n : Node} {place : Place}
    (h : n.stands flags .element = true) : n.stands flags place = true := by
  cases n with
  | sequence | alternation => simp [stands] at h
  | group | quantifier => simpa only [stands] using h
  | _ => simp only [stands]

end Node

/-- Tokens that may stand at the start of a source. -/
structure Token.Row (ts : List Token) : Prop where
  chain : ts.IsChain CountsAfter
  first : ∀ t, ts.head? = some t → t.isCount = false

namespace Token.Row

theorem nil : Row [] := ⟨.nil, by simp⟩

theorem single {t : Token} (h : t.isCount = false) : Row [t] :=
  ⟨.singleton t, fun u hu => by rwa [← Option.some.inj hu]⟩

theorem append {ts us : List Token} (h : Row ts) (h' : Row us) : Row (ts ++ us) := by
  refine ⟨List.isChain_append.mpr ⟨h.chain, h'.chain, ?_⟩, ?_⟩
  · intro t _ u hu hc
    exact absurd (hc.symm.trans (h'.first u hu)) (by decide)
  · intro t ht
    cases ts with
    | nil => exact h'.first t ht
    | cons u ts => exact h.first t ht

theorem count {ts : List Token} (h : Row ts) {t : Token} (ht : ts.getLast? = some t)
    (hb : Before.of t = .repeatable) (c : Count) : Row (ts ++ [.count c]) := by
  refine ⟨List.isChain_append.mpr ⟨h.chain, .singleton _, ?_⟩, ?_⟩
  · intro u hu v _ _
    rw [ht] at hu
    rw [← Option.some.inj hu]
    exact hb
  · intro u hu
    cases ts with
    | nil => simp at ht
    | cons v ts => exact h.first u hu

end Token.Row

namespace Node

open Token (Row)

mutual

/-- **A tree that stands right is a row of tokens.**  The induction is on the tree, and what two
neighbours have to satisfy is known from their ends. -/
theorem row_tokens {flags : Flags} {place : Place} :
    ∀ {n : Node}, n.stands flags place = true → Row n.tokens
  | atom _, _ => .single rfl
  | anchor _ _, _ => .single rfl
  | reference _, _ => .single rfl
  | group _ body, h => by
    simp only [stands, Bool.and_eq_true] at h
    rw [tokens, ← List.singleton_append]
    exact (Row.single rfl).append ((row_tokens h.2).append (.single rfl))
  | quantifier q body, h => by
    simp only [stands, Bool.and_eq_true] at h
    obtain ⟨t, ht, -, hb⟩ := (ends_of_stands h.2).last
    exact (row_tokens h.2).count ht (hb h.1.1) q.count
  | sequence _ ns, h => by
    simp only [stands, Bool.and_eq_true] at h
    exact row_tokensAll h.2
  | alternation _ ns, h => by
    simp only [stands, Bool.and_eq_true] at h
    exact row_tokensBetween h.2

theorem row_tokensAll {flags : Flags} {place : Place} :
    ∀ {ns : List Node}, standAll flags place ns = true → Row (tokensAll ns)
  | [], _ => .nil
  | n :: ns, h => by
    rw [standAll, Bool.and_eq_true] at h
    exact (row_tokens h.1).append (row_tokensAll h.2)

theorem row_tokensBetween {flags : Flags} {place : Place} :
    ∀ {ns : List Node}, standAll flags place ns = true → Row (tokensBetween ns)
  | [], _ => .nil
  | [n], h => by
    rw [standAll, Bool.and_eq_true] at h
    exact row_tokens h.1
  | n :: m :: ns, h => by
    rw [standAll, Bool.and_eq_true] at h
    rw [tokensBetween, ← List.singleton_append]
    exact (row_tokens h.1).append ((Row.single rfl).append (row_tokensBetween h.2))

end

end Node

/-! ## 7. Separating tokens -/

namespace Token

/-- The empty group as tokens. -/
def gap (t u : Option Token) : List Token :=
  match t, u with
  | some t, some u =>
    if Revision.runsTogether t u then [.opening .nonCapture [], .closing] else []
  | _, _ => []

/-- Puts the empty group between a numeric reference and a digit. -/
def separate : List Token → List Token
  | [] => []
  | t :: ts => t :: (gap (some t) ts.head? ++ separate ts)

theorem map_separate : ∀ ps : List Piece,
    (Revision.separate ps).map (·.token) = separate (ps.map (·.token))
  | [] => rfl
  | [p] => rfl
  | p :: q :: ps => by
    have ih := map_separate (q :: ps)
    simp only [List.map_cons, separate, List.head?_cons, gap, Revision.separate] at ih ⊢
    split
    · rw [List.map_cons, List.map_append, ih]
      rfl
    · rw [List.map_cons, ih]
      rfl

theorem separate_append (ts us : List Token) :
    separate (ts ++ us) = separate ts ++ (gap ts.getLast? us.head? ++ separate us) := by
  induction ts with
  | nil => rfl
  | cons t ts ih =>
    rw [List.cons_append, separate, separate, ih]
    cases ts with
    | nil => simp [gap, separate]
    | cons u ts => simp [List.getLast?_cons_cons]

theorem gap_eq_nil {t u : Option Token} (h : ∀ x, t = some x → x.isNumeric = false) :
    gap t u = [] := by
  unfold gap
  split
  · rw [Revision.runsTogether_eq, h _ rfl]
    rfl
  · rfl

theorem gap_eq_nil' {t u : Option Token} (h : ∀ x, u = some x → x.isDigit = false) :
    gap t u = [] := by
  unfold gap
  split
  · rw [Revision.runsTogether_eq, h _ rfl, Bool.and_false]
    rfl
  · rfl

/-- **Separated tokens fit.** -/
theorem fits_separate {ts : List Token} (h : ts.IsChain CountsAfter) :
    (separate ts).IsChain Fits := by
  induction ts with
  | nil => exact .nil
  | cons t ts ih =>
    have ih := ih h.tail
    have head : ∀ u, (separate ts).head? = some u → ts.head? = some u := by
      cases ts <;> exact fun _ h => h
    have counts : ∀ u, ts.head? = some u → t.CountsAfter u := by
      intro u hu
      obtain ⟨us, rfl⟩ := List.head?_eq_some_iff.mp hu
      exact (List.isChain_cons_cons.mp h).1
    rw [separate]
    cases hts : ts.head? with
    | none => exact ih.cons fun u hu => by simp [head u hu] at hts
    | some u =>
      unfold gap
      dsimp only
      split
      -- The empty group comes between, and the digit after it is no count.
      · rename_i hr
        rw [Revision.runsTogether_eq, Bool.and_eq_true] at hr
        have digit : ∀ v, (separate ts).head? = some v → Token.closing.Fits v := by
          intro v hv
          obtain rfl := Option.some.inj (hts.symm.trans (head v hv))
          exact ⟨fun _ => rfl, rfl⟩
        refine List.IsChain.cons (List.IsChain.cons (ih.cons digit) ?_) ?_
        · rintro v hv
          obtain rfl := Option.some.inj hv
          exact ⟨by simp [CountsAfter, isCount], rfl⟩
        · rintro v hv
          obtain rfl := Option.some.inj hv
          refine ⟨by simp [CountsAfter, isCount], ?_⟩
          rw [Revision.runsTogether_eq]
          exact Bool.and_false _
      · rename_i hr
        refine ih.cons fun v hv => ?_
        have hv := head v hv
        obtain rfl := Option.some.inj (hts.symm.trans hv)
        exact ⟨counts u hv, by simpa using hr⟩

end Token

namespace Node

/-! ## 8. Separating trees

Separators are put between elements of a sequence.  Anywhere else a sign stands in between, so
that no digit comes right after a reference. -/

/-- The first token of some elements is that of the first of them. -/
theorem isDigit_of_head? {flags : Flags} {ns : List Node} (h : standAll flags .element ns = true) :
    (tokensAll ns).head?.any Token.isDigit = ns.head?.any startsWithDigit := by
  cases ns with
  | nil => rfl
  | cons n ns =>
    rw [standAll, Bool.and_eq_true] at h
    obtain ⟨t, ht, -, hd⟩ := (ends_of_stands h.1).first
    rw [tokensAll, List.head?_append, ht]
    exact hd

theorem gap_elements {flags : Flags} {n : Node} {ns : List Node}
    (h : standAll flags .element (n :: ns) = true) :
    Token.gap n.tokens.getLast? (tokensAll ns).head? =
      if n.endsInNumber && ns.head?.any startsWithDigit then separator.tokens else [] := by
  rw [standAll, Bool.and_eq_true] at h
  obtain ⟨t, ht, hn, -⟩ := (ends_of_stands h.1).last
  rw [← isDigit_of_head? h.2, ht, ← hn]
  unfold Token.gap
  split
  · rename_i a u heq hu
    obtain rfl := Option.some.inj heq
    rw [hu, Revision.runsTogether_eq]
    rfl
  · rename_i hno
    cases hu : (tokensAll ns).head? with
    | none => simp
    | some u => exact absurd hu (hno t u rfl)

mutual

/-- **Separating the tokens of a tree is separating the tree.**  The induction is on the tree;
only between the elements of a sequence is there anything to put. -/
theorem separate_tokens {flags : Flags} {place : Place} :
    ∀ {n : Node}, n.stands flags place = true → Token.separate n.tokens = n.separated.tokens
  | atom _, _ => rfl
  | anchor _ _, _ => rfl
  | reference _, _ => rfl
  | group g body, h => by
    simp only [stands, Bool.and_eq_true] at h
    have ih := separate_tokens h.2
    have open_ : ∀ u, Token.gap (some (.opening g.kind g.name)) u = [] := fun u =>
      Token.gap_eq_nil fun x hx => by rw [← Option.some.inj hx]; rfl
    have close : ∀ t, Token.gap t (some .closing) = [] := fun t =>
      Token.gap_eq_nil' fun x hx => by rw [← Option.some.inj hx]; rfl
    rw [tokens, Token.separate, open_, Token.separate_append, ih, List.head?_cons, close, separated,
      tokens]
    rfl
  | quantifier q body, h => by
    simp only [stands, Bool.and_eq_true] at h
    have count : ∀ t, Token.gap t (some (.count q.count)) = [] := fun t =>
      Token.gap_eq_nil' fun x hx => by rw [← Option.some.inj hx]; rfl
    rw [tokens, Token.separate_append, separate_tokens h.2, List.head?_cons, count, separated,
      tokens]
    rfl
  | sequence _ ns, h => by
    simp only [stands, Bool.and_eq_true] at h
    exact separate_tokensAll h.2
  | alternation _ ns, h => by
    simp only [stands, Bool.and_eq_true] at h
    exact separate_tokensBetween h.2

theorem separate_tokensAll {flags : Flags} :
    ∀ {ns : List Node}, standAll flags .element ns = true →
      Token.separate (tokensAll ns) = tokensAll (separatedAll ns)
  | [], _ => rfl
  | n :: ns, h => by
    have gap := gap_elements h
    rw [standAll, Bool.and_eq_true] at h
    rw [tokensAll, Token.separate_append, gap, separate_tokens h.1, separate_tokensAll h.2,
      separatedAll]
    split
    · rw [tokensAll, tokensAll]
    · rw [tokensAll, List.nil_append]

theorem separate_tokensBetween {flags : Flags} {place : Place} :
    ∀ {ns : List Node}, standAll flags place ns = true →
      Token.separate (tokensBetween ns) = tokensBetween (separatedEach ns)
  | [], _ => rfl
  | [n], h => by
    rw [standAll, Bool.and_eq_true] at h
    exact separate_tokens h.1
  | n :: m :: ns, h => by
    rw [standAll, Bool.and_eq_true] at h
    have ih := separate_tokensBetween h.2
    have before : ∀ t, Token.gap t (some .bar) = [] := fun t =>
      Token.gap_eq_nil' fun x hx => by rw [← Option.some.inj hx]; rfl
    have after : ∀ u, Token.gap (some .bar) u = [] := fun u =>
      Token.gap_eq_nil fun x hx => by rw [← Option.some.inj hx]; rfl
    rw [tokensBetween, Token.separate_append, separate_tokens h.1, Token.separate, ih,
      List.head?_cons, before, after]
    rfl

end

theorem isUnit_separated (n : Node) : n.separated.isUnit = n.isUnit := by
  cases n <;> rfl

theorem isRepeatable_separated (flags : Flags) (n : Node) :
    Parser.isRepeatable flags n.separated = Parser.isRepeatable flags n := by
  cases n <;> rfl

theorem length_separatedEach (ns : List Node) : (separatedEach ns).length = ns.length := by
  induction ns with
  | nil => rfl
  | cons n ns ih => rw [separatedEach, List.length_cons, List.length_cons, ih]

mutual

/-- A separated tree stands where the tree does. -/
theorem stands_separated {flags : Flags} {place : Place} :
    ∀ {n : Node}, n.stands flags place = true → n.separated.stands flags place = true
  | atom _, _ => rfl
  | anchor _ _, _ => rfl
  | reference _, _ => rfl
  | group g body, h => by
    simp only [stands, separated, Bool.and_eq_true] at h ⊢
    exact ⟨h.1, stands_separated h.2⟩
  | quantifier q body, h => by
    simp only [stands, Bool.and_eq_true] at h
    simp only [separated, stands, isUnit_separated, isRepeatable_separated, Bool.and_eq_true]
    exact ⟨h.1, stands_separated h.2⟩
  | sequence _ ns, h => by
    simp only [stands, separated, Bool.and_eq_true] at h ⊢
    exact ⟨h.1, standAll_separatedAll h.2⟩
  | alternation _ ns, h => by
    simp only [stands, separated, Bool.and_eq_true, length_separatedEach] at h ⊢
    exact ⟨h.1, standAll_separatedEach h.2⟩

theorem standAll_separatedAll {flags : Flags} :
    ∀ {ns : List Node}, standAll flags .element ns = true →
      standAll flags .element (separatedAll ns) = true
  | [], _ => rfl
  | n :: ns, h => by
    rw [standAll, Bool.and_eq_true] at h
    have hn := stands_separated h.1
    have hns := standAll_separatedAll h.2
    rw [separatedAll]
    split
    · simp only [standAll, hn, hns, Bool.and_true, Bool.true_and]
      rfl
    · rw [standAll, hn, hns]
      rfl

theorem standAll_separatedEach {flags : Flags} {place : Place} :
    ∀ {ns : List Node}, standAll flags place ns = true →
      standAll flags place (separatedEach ns) = true
  | [], _ => rfl
  | n :: ns, h => by
    rw [standAll, Bool.and_eq_true] at h
    rw [separatedEach, standAll, stands_separated h.1, standAll_separatedEach h.2]
    rfl

end

/-! ## 9. Numbers of groups -/

mutual

/-- Separators capture nothing. -/
theorem captureIndexes_separated :
    ∀ n : Node, captureIndexes n.separated.walk = captureIndexes n.walk
  | atom _ => rfl
  | anchor _ _ => rfl
  | reference _ => rfl
  | group g body => by
    rw [separated, captureIndexes_group, captureIndexes_group, captureIndexes_separated body]
  | quantifier _ body => captureIndexes_separated body
  | sequence _ ns => captureIndexes_separatedAll ns
  | alternation _ ns => captureIndexes_separatedEach ns

theorem captureIndexes_separatedAll : ∀ ns : List Node,
    captureIndexes (walkAll (separatedAll ns)) = captureIndexes (walkAll ns)
  | [] => rfl
  | n :: ns => by
    rw [separatedAll]
    split
    · rw [captureIndexes_walkAll_cons, captureIndexes_walkAll_cons, captureIndexes_walkAll_cons,
        captureIndexes_separated n, captureIndexes_separatedAll ns]
      rfl
    · rw [captureIndexes_walkAll_cons, captureIndexes_walkAll_cons, captureIndexes_separated n,
        captureIndexes_separatedAll ns]

theorem captureIndexes_separatedEach : ∀ ns : List Node,
    captureIndexes (walkAll (separatedEach ns)) = captureIndexes (walkAll ns)
  | [] => rfl
  | n :: ns => by
    rw [separatedEach, captureIndexes_walkAll_cons, captureIndexes_walkAll_cons,
      captureIndexes_separated n, captureIndexes_separatedEach ns]

end

end Node

/-- What holds of some tokens and of the empty group holds of the separated tokens. -/
theorem Token.forall_mem_separate {p : Token → Prop} (ho : p (.opening .nonCapture []))
    (hc : p .closing) {ts : List Token} (h : ∀ t ∈ ts, p t) : ∀ t ∈ separate ts, p t := by
  induction ts with
  | nil => exact h
  | cons t ts ih =>
    obtain ⟨ht, hts⟩ := List.forall_mem_cons.mp h
    refine List.forall_mem_cons.mpr ⟨ht, fun u hu => ?_⟩
    rcases List.mem_append.mp hu with hu | hu
    · unfold gap at hu
      split at hu
      · split at hu
        · simp only [List.mem_cons, List.not_mem_nil, or_false] at hu
          rcases hu with rfl | rfl
          · exact ho
          · exact hc
        · cases hu
      · cases hu
    · exact ih hts u hu

theorem Token.filterMap_name?_separate (ts : List Token) :
    (separate ts).filterMap name? = ts.filterMap name? := by
  induction ts with
  | nil => rfl
  | cons t ts ih =>
    have gap : (gap (some t) ts.head?).filterMap name? = [] := by
      unfold Token.gap
      split
      · split <;> rfl
      · rfl
    rw [separate, filterMap_name?_cons, filterMap_name?_cons, List.filterMap_append, gap, ih]
    rfl

end Backtrack
