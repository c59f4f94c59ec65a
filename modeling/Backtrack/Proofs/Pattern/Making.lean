/-
# What the lexemes of a source become

A token that is no mark becomes a node at once, at the place of its lexeme: a leaf, an anchor, a
reference, or the quantifier around what a count repeats.  The opening of a group becomes a node
only when the group closes; until then the parser keeps what it says.  `Lexeme.Makes` is that
relation between lexemes and nodes.

`Pattern.made_of_parse` says that it misses nothing: in a parsed tree every lexeme but the marks has
its node, and every node has its lexeme, but for sequences and alternations, which nothing in the
source stands for, and the members of classes, which are read with the class.
-/
import Backtrack.Proofs.Pattern.Spelling
import Backtrack.Proofs.Pattern.Tiling

namespace Backtrack

/-- The marks that give a tree its shape. -/
def Token.isMark : Token → Bool
  | .opening _ _ | .closing | .bar => true
  | _ => false

/-- The node is what becomes of the lexeme: it has what the token says, with names resolved, and its
place.  A group starts where its opening does, and a quantifier stops where its count does. -/
def Lexeme.Makes (resolve : Bytes → Nat) (l : Lexeme) : Node → Prop
  | .atom a =>
    (∃ shape, l.token = .leaf shape ∧ a.shape.bare = shape.bare) ∧ l.start = a.site.start ∧
      l.stop = a.site.stop
  | .anchor s k => l.token = .anchor k ∧ l.start = s.start ∧ l.stop = s.stop
  | .reference r =>
    (∃ index, l.token = .reference index r.name ∧
      r.index = if r.name.isEmpty then index else resolve r.name) ∧ l.start = r.site.start ∧
      l.stop = r.site.stop
  | .group g _ => l.token = .opening g.kind g.name ∧ l.start = g.site.start
  | .quantifier q body => l.token = .count q.count ∧ l.start = body.site.stop ∧ l.stop = q.site.stop
  | .sequence _ _ => False
  | .alternation _ _ => False

/-- A leaf is made of a token that is one. -/
theorem Lexeme.Makes.exists_atom {resolve : Bytes → Nat} {l : Lexeme} {n : Node}
    (h : l.Makes resolve n) {shape : Shape} (token : l.token = .leaf shape) :
    ∃ a, n = .atom a ∧ a.shape.bare = shape.bare ∧ a.site.start = l.start ∧
      a.site.stop = l.stop := by
  cases n with
  | atom a =>
    obtain ⟨⟨shape', token', bare⟩, start, stop⟩ := h
    obtain rfl := Token.leaf.inj (token.symm.trans token')
    exact ⟨a, rfl, bare, start.symm, stop.symm⟩
  | reference r =>
    obtain ⟨⟨index, token', -⟩, -⟩ := h
    cases token.symm.trans token'
  | sequence s ns => cases h
  | alternation s ns => cases h
  | _ => cases token.symm.trans h.1

/-- A quantifier is made of a token that counts. -/
theorem Lexeme.Makes.exists_quantifier {resolve : Bytes → Nat} {l : Lexeme} {n : Node}
    (h : l.Makes resolve n) {c : Count} (token : l.token = .count c) :
    ∃ q body, n = .quantifier q body ∧ q.count = c ∧ body.site.stop = l.start ∧
      q.site.stop = l.stop := by
  cases n with
  | quantifier q body =>
    obtain ⟨token', start, stop⟩ := h
    exact ⟨q, body, rfl, Token.count.inj (token'.symm.trans token), start.symm, stop.symm⟩
  | atom a =>
    obtain ⟨⟨shape, token', -⟩, -⟩ := h
    cases token.symm.trans token'
  | reference r =>
    obtain ⟨⟨index, token', -⟩, -⟩ := h
    cases token.symm.trans token'
  | sequence s ns => cases h
  | alternation s ns => cases h
  | _ => cases token.symm.trans h.1

/-- The node is made of one of the lexemes, unless nothing in the source stands for it alone.  A
leaf may be a member of a class. -/
def Node.IsMadeOf (resolve : Bytes → Nat) (ls : List Lexeme) (n : Node) : Prop :=
  (∃ a, n = .atom a) ∨ n.isJoint = true ∨ ∃ l ∈ ls, l.Makes resolve n

theorem Node.IsMadeOf.mono {resolve : Bytes → Nat} {ls ls' : List Lexeme} {n : Node}
    (h : n.IsMadeOf resolve ls) (subset : ls ⊆ ls') : n.IsMadeOf resolve ls' := by
  rcases h with h | h | ⟨l, hl, makes⟩
  · exact .inl h
  · exact .inr (.inl h)
  · exact .inr (.inr ⟨l, subset hl, makes⟩)

namespace Parser

open Lexer (InPlace Contiguous)

/-! ## 1. What the parser holds -/

/-- Everything the parser holds is made of the lexemes behind it, and those are not lost. -/
structure State.Made (resolve : Bytes → Nat) (ls : List Lexeme) (s : State) : Prop where
  becomes : ∀ l ∈ ls, l.token.isMark = false → ∃ n ∈ s.walk, l.Makes resolve n
  nodes : ∀ n ∈ s.walk, n.IsMadeOf resolve ls
  opened : ∀ o ∈ s.opened, ∃ l ∈ ls, l.token = .opening o.kind o.name ∧ l.start = o.start

variable {flags : Flags} {resolve : Bytes → Nat} {source : Bytes} {s s' : State}
  {ls : List Lexeme} {l : Lexeme}

theorem State.made_initial : State.initial.Made resolve [] :=
  ⟨by simp, by simp [initial, walk, Level.nodes, Level.at, Node.walkAll], by simp [initial]⟩

/-- Nodes that are added are made of the lexeme that is read. -/
theorem State.Made.grow (h : s.Made resolve ls) (new : List Node)
    (walk : s'.walk.Perm (new ++ s.walk))
    (becomes : l.token.isMark = false → ∃ n ∈ new, l.Makes resolve n)
    (nodes : ∀ n ∈ new, n.IsMadeOf resolve (ls ++ [l]))
    (opened : ∀ o ∈ s'.opened, o ∈ s.opened ∨
      l.token = .opening o.kind o.name ∧ l.start = o.start) :
    s'.Made resolve (ls ++ [l]) := by
  have old : ls ⊆ ls ++ [l] := List.subset_append_left _ _
  have last : l ∈ ls ++ [l] := List.mem_append_right _ (List.mem_singleton_self l)
  refine ⟨?_, ?_, ?_⟩
  · intro m hm mark
    rcases List.mem_append.mp hm with hm | hm
    · obtain ⟨n, hn, makes⟩ := h.becomes m hm mark
      exact ⟨n, walk.mem_iff.mpr (List.mem_append_right _ hn), makes⟩
    · obtain rfl := List.mem_singleton.mp hm
      obtain ⟨n, hn, makes⟩ := becomes mark
      exact ⟨n, walk.mem_iff.mpr (List.mem_append_left _ hn), makes⟩
  · intro n hn
    rcases List.mem_append.mp (walk.mem_iff.mp hn) with hn | hn
    · exact nodes n hn
    · exact (h.nodes n hn).mono old
  · intro o ho
    rcases opened o ho with ho | ho
    · obtain ⟨m, hm, opens⟩ := h.opened o ho
      exact ⟨m, old hm, opens⟩
    · exact ⟨l, last, ho⟩

/-- A lexeme becomes an element. -/
theorem State.Made.push (h : s.Made resolve ls) (used : Nat) {n : Node} (makes : l.Makes resolve n)
    (below : ∀ m ∈ n.walk, m = n ∨ ∃ a, m = .atom a) :
    (s.push used n).Made resolve (ls ++ [l]) := by
  refine h.grow n.walk (.of_eq (s.walk_push used n)) (fun _ => ⟨n, n.mem_walk_self, makes⟩) ?_
    fun o ho => .inl ho
  intro m hm
  rcases below m hm with rfl | leaf
  · exact .inr (.inr ⟨l, by simp, makes⟩)
  · exact .inl leaf

/-- A group that closes is made of the opening that was kept. -/
theorem State.Made.closing (h : s.Made resolve ls) {o : Opened} {opened : List Opened}
    (ho : s.opened = o :: opened) (token : l.token = .closing) (id pos stop : Nat) :
    State.Made resolve (ls ++ [l])
      { used := id
        captures := s.captures
        level := { o.outer with
          elements := .group ⟨⟨id, o.start, stop⟩, o.kind, o.index, o.name⟩
            (s.level.finish s.used pos).1 :: o.outer.elements }
        opened := opened } := by
  obtain ⟨new, perm, -, joints⟩ := fresh_finish s.level s.used pos
  refine h.grow _ (State.walk_closing ho perm _) (by simp [token, Token.isMark]) ?_ ?_
  · intro n hn
    rcases List.mem_cons.mp hn with rfl | hn
    · obtain ⟨m, hm, opens⟩ := h.opened o (ho ▸ List.mem_cons_self)
      exact .inr (.inr ⟨m, List.mem_append_left _ hm, opens⟩)
    · exact .inr (.inl (joints n hn))
  · intro o' ho'
    exact .inl (ho ▸ List.mem_cons_of_mem _ ho')

/-! ## 2. One lexeme -/

/-- The last element stops where the parser is. -/
theorem State.Tiled.last {pos : Nat} (h : s.Tiled source pos) {n : Node} {rest : List Node}
    (hn : s.level.elements = n :: rest) : n.site.stop = pos := by
  have elements := h.level.elements
  rw [hn, List.reverse_cons, Node.abut_concat] at elements
  exact elements.2

/-- **One lexeme becomes what it makes.**  A count makes a node of the element before it, and a
bar and a closing parenthesis make none. -/
theorem State.Made.step (h : s.Made resolve ls) (tiled : s.Tiled source l.start)
    (hs : Parser.step flags resolve s l = .ok s') : s'.Made resolve (ls ++ [l]) := by
  have single : ∀ {n : Node}, n.walk = [n] → ∀ m ∈ n.walk, m = n ∨ ∃ a, m = .atom a :=
    fun hn m hm => .inl (List.mem_singleton.mp (hn ▸ hm))
  cases steps_of_step hs with
  | @leaf shape token =>
    obtain ⟨shape', ha, bare⟩ := leaf_eq_atom s.used ⟨s.used + l.nodes, l.start, l.stop⟩ shape
    rw [ha]
    exact h.push _ ⟨⟨shape, token, bare⟩, rfl, rfl⟩ fun m hm =>
      .inr (Node.exists_atom_of_mem_walk hm)
  | anchor token => exact h.push _ ⟨token, rfl, rfl⟩ (single (by simp only [Node.walk]))
  | @reference index name token =>
    exact h.push _ ⟨⟨index, token, rfl⟩, rfl, rfl⟩ (single (by simp only [Node.walk]))
  | opening token =>
    refine h.grow [] (.of_eq (State.walk_opening rfl)) (by simp [token, Token.isMark]) (by simp) ?_
    intro o ho
    rcases List.mem_cons.mp ho with rfl | ho
    · exact .inr ⟨token, rfl⟩
    · exact .inl ho
  | closing token ho => exact h.closing ho token _ l.start l.stop
  | bar token =>
    obtain ⟨new, perm, -, joints⟩ := fresh_finishAlternative s.level s.used l.start
    exact h.grow new (State.walk_bar perm l.stop) (by simp [token, Token.isMark])
      (fun n hn => .inr (.inl (joints n hn))) fun o ho => .inl ho
  | @count c n rest token hn =>
    let q : Quantifier := ⟨⟨s.used + l.nodes, n.site.start, l.stop⟩, c⟩
    have makes : l.Makes resolve (.quantifier q n) := ⟨token, (tiled.last hn).symm, rfl⟩
    refine h.grow [.quantifier q n] (.of_eq (State.walk_count hn q))
      (fun _ => ⟨_, List.mem_singleton_self _, makes⟩) ?_ fun o ho => .inl ho
    intro m hm
    rw [List.mem_singleton.mp hm]
    exact .inr (.inr ⟨l, by simp, makes⟩)

/-! ## 3. All lexemes -/

theorem State.Made.run {stop : Nat} : ∀ {rest ls : List Lexeme} {pos : Nat} {s s' : State},
    s.Made resolve ls → s.Tiled source pos → Contiguous source stop pos rest →
      Parser.run flags resolve s rest = .ok s' → s'.Made resolve (ls ++ rest)
  | [], ls, pos, s, s', h, _, _, hs => by
    obtain rfl := Except.ok.inj hs
    rwa [List.append_nil]
  | l :: rest, ls, pos, s, s', h, tiled, hc, hs => by
    obtain ⟨rfl, place, contiguous⟩ := hc
    obtain ⟨s₁, h₁, hs⟩ := run_cons.mp hs
    have made := (h.step tiled h₁).run (tiled.step place h₁) contiguous hs
    rwa [List.append_assoc, List.singleton_append] at made

end Parser

namespace Pattern

open Backtrack.Parser
open Lexer (Contiguous)

/-- **Lexemes become nodes, and nodes were lexemes**: in a parsed tree every lexeme but the marks
has its node, and every node its lexeme, but for what nothing in the source stands for. -/
theorem made_of_parse {source : Bytes} {flags : Flags} {p : Pattern}
    (h : parse source flags = .ok p) :
    ∃ ls, Lexer.lexemes flags source = (ls, none) ∧
      (∀ l ∈ ls, l.token.isMark = false →
        ∃ n ∈ p.root.walk, l.Makes (indexOfName (captureNames ls)) n) ∧
      ∀ n ∈ p.root.walk, n.IsMadeOf (indexOfName (captureNames ls)) ls := by
  obtain ⟨ls, s, hls, hrun, ho, -, rfl⟩ := exists_lexemes_of_parse h
  have contiguous : Contiguous source source.length 0 ls := by
    have := Lexer.contiguous_lexemes (congrArg Prod.snd hls)
    rwa [hls] at this
  have made := State.made_initial.run State.tiled_initial contiguous hrun
  rw [List.nil_append] at made
  obtain ⟨new, perm, -, joints⟩ := fresh_finish s.level s.used source.length
  have walk : s.walk = Node.walkAll s.level.nodes := by simp [State.walk, ho]
  refine ⟨ls, hls, ?_, ?_⟩
  · intro l hl mark
    obtain ⟨n, hn, makes⟩ := made.becomes l hl mark
    exact ⟨n, perm.mem_iff.mpr (List.mem_append_right _ (walk ▸ hn)), makes⟩
  · intro n hn
    rcases List.mem_append.mp (perm.mem_iff.mp hn) with hn | hn
    · exact .inr (.inl (joints n hn))
    · exact made.nodes n (walk ▸ hn)

end Pattern

end Backtrack
