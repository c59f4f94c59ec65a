/-
# A parsed tree tiles its source

The bytes of a node are those of its parts with nothing between them but what the node itself is
written with: nothing in a sequence, a bar between alternatives, parentheses around a group, a count
after what it repeats (`Node.Tiled`).  The root has all bytes of the source, so every byte belongs to
just one of the nodes or marks.

The parser gives a node its place when the node is finished, from positions it has kept meanwhile.
What is kept true of those (`State.Tiled`): what is finished lies back to back, from where its level
starts to where the parser is, and a level starts after the parenthesis that opened it.
-/
import Backtrack.Proofs.Pattern.Extents
import Backtrack.Proofs.Pattern.Trees

namespace Backtrack

/-! ## 1. Tiled nodes

Lists of nodes are read from the front, and the parser adds at the back.  So each relation has a
lemma for one more node at the end. -/

namespace Node

/-- The nodes lie back to back, up to `stop`. -/
def Abut (stop : Nat) : Nat → List Node → Prop
  | start, [] => start = stop
  | start, n :: ns => n.site.start = start ∧ Abut stop n.site.stop ns

/-- The nodes lie one after the other up to `stop`, with just a bar between neighbours. -/
def Barred (source : Bytes) (stop : Nat) : Nat → List Node → Prop
  | _, [] => False
  | start, [n] => n.site.start = start ∧ n.site.stop = stop
  | start, n :: ns =>
    n.site.start = start ∧ source[n.site.stop]? = some Ascii.pipe ∧
      Barred source stop (n.site.stop + 1) ns

/-- How the parts of a node lie in it. -/
def PartsTiled (source : Bytes) : Node → Prop
  | .atom ⟨s, .charClass k⟩ => Lexer.MembersInside s.start s.stop k
  | .group g body =>
    source[g.site.start]? = some Ascii.openParen ∧ g.site.start < body.site.start ∧
      source[body.site.stop]? = some Ascii.closeParen ∧ g.site.stop = body.site.stop + 1
  | .quantifier q body => body.site.start = q.site.start ∧ body.site.stop < q.site.stop
  | .sequence s ns => Abut s.stop s.start ns
  | .alternation s ns => Barred source s.stop s.start ns
  | _ => True

/-- The node does not stop before it starts, and its parts tile it. -/
structure Tiled (source : Bytes) (n : Node) : Prop where
  ordered : n.site.start ≤ n.site.stop
  parts : n.PartsTiled source

theorem abut_concat {stop start : Nat} {n : Node} {ns : List Node} :
    Abut stop start (ns ++ [n]) ↔ Abut n.site.start start ns ∧ n.site.stop = stop := by
  induction ns generalizing start with
  | nil => simp only [List.nil_append, Abut, eq_comm (a := start)]
  | cons m ns ih => simp only [List.cons_append, Abut, ih, and_assoc]

theorem Abut.le {stop : Nat} : ∀ {start : Nat} {ns : List Node}, Abut stop start ns →
    (∀ n ∈ ns, n.site.start ≤ n.site.stop) → start ≤ stop
  | _, [], h, _ => Nat.le_of_eq h
  | _, n :: _, ⟨first, rest⟩, ordered =>
    calc _ = n.site.start := first.symm
      _ ≤ n.site.stop := ordered n List.mem_cons_self
      _ ≤ stop := rest.le fun m hm => ordered m (List.mem_cons_of_mem _ hm)

/-- The nodes lie one after the other, each before a bar, and the last bar is right before `stop`. -/
def Ended (source : Bytes) (stop : Nat) : Nat → List Node → Prop
  | start, [] => start = stop
  | start, n :: ns =>
    n.site.start = start ∧ source[n.site.stop]? = some Ascii.pipe ∧
      Ended source stop (n.site.stop + 1) ns

theorem ended_concat {source : Bytes} {start : Nat} {n : Node} {ns : List Node} :
    Ended source (n.site.stop + 1) start (ns ++ [n]) ↔
      Ended source n.site.start start ns ∧ source[n.site.stop]? = some Ascii.pipe := by
  induction ns generalizing start with
  | nil => simp [Ended, eq_comm (a := start)]
  | cons m ns ih => simp only [List.cons_append, Ended, ih, and_assoc]

/-- After the last bar comes one more alternative. -/
theorem Ended.barred {source : Bytes} {n : Node} : ∀ {start : Nat} {ns : List Node},
    Ended source n.site.start start ns → Barred source n.site.stop start (ns ++ [n])
  | _, [], h => ⟨h.symm, rfl⟩
  | _, m :: ns, ⟨first, bar, rest⟩ => by
    cases ns with
    | nil => exact ⟨first, bar, rest.barred⟩
    | cons => exact ⟨first, bar, rest.barred⟩

theorem Ended.le {source : Bytes} {stop : Nat} : ∀ {start : Nat} {ns : List Node},
    Ended source stop start ns → (∀ n ∈ ns, n.site.start ≤ n.site.stop) → start ≤ stop
  | _, [], h, _ => Nat.le_of_eq h
  | _, n :: _, ⟨first, _, rest⟩, ordered =>
    calc _ = n.site.start := first.symm
      _ ≤ n.site.stop := ordered n List.mem_cons_self
      _ ≤ n.site.stop + 1 := Nat.le_succ _
      _ ≤ stop := rest.le fun m hm => ordered m (List.mem_cons_of_mem _ hm)

end Node

namespace Parser

open Lexer (Marks InPlace Contiguous Inside MembersInside)

variable {source : Bytes}

/-! ## 2. Levels

A level has two lists, finished alternatives and elements of the current one, and knows where each
starts.  Finishing it makes one node of them with the place that is left to it. -/

/-- What a level has finished lies back to back, up to `pos`. -/
structure Level.Tiled (source : Bytes) (pos : Nat) (l : Level) : Prop where
  alternatives : Node.Ended source l.current l.start l.alternatives.reverse
  elements : Node.Abut pos l.current l.elements.reverse

theorem Level.tiled_at (pos : Nat) : (Level.at pos).Tiled source pos := ⟨rfl, rfl⟩

/-- All nodes below some nodes are tiled. -/
def AllTiled (source : Bytes) (ns : List Node) : Prop := ∀ n ∈ Node.walkAll ns, n.Tiled source

theorem allTiled_append {ns ms : List Node} :
    AllTiled source (ns ++ ms) ↔ AllTiled source ns ∧ AllTiled source ms := by
  simp only [AllTiled, Node.walkAll_append, List.forall_mem_append]

theorem allTiled_cons {n : Node} {ns : List Node} :
    AllTiled source (n :: ns) ↔ (∀ m ∈ n.walk, m.Tiled source) ∧ AllTiled source ns := by
  simp only [AllTiled, Node.walkAll, List.forall_mem_append]

theorem AllTiled.perm {ns ms : List Node} (h : AllTiled source ns) (perm : ns.Perm ms) :
    AllTiled source ms := fun n hn => h n ((Node.walkAll_perm perm).mem_iff.mpr hn)

theorem AllTiled.ordered {ns : List Node} (h : AllTiled source ns) :
    ∀ n ∈ ns, n.site.start ≤ n.site.stop := fun n hn =>
  (h n (Node.mem_walkAll.mpr ⟨n, hn, n.mem_walk_self⟩)).ordered

/-- A node that is tiled, with all that is below it, and lies between two positions. -/
structure Covers (source : Bytes) (start stop : Nat) (n : Node) : Prop where
  start : n.site.start = start
  stop : n.site.stop = stop
  tiled : ∀ m ∈ n.walk, m.Tiled source

theorem covers_finishAlternative {l : Level} {pos : Nat} (h : l.Tiled source pos)
    (tiled : AllTiled source l.elements) (used : Nat) :
    Covers source l.current pos (l.finishAlternative used pos).1 := by
  unfold Level.finishAlternative
  split
  · rename_i n hn
    have elements := h.elements
    rw [hn] at elements tiled
    exact ⟨elements.1, elements.2, (allTiled_cons.mp tiled).1⟩
  · have tiled := tiled.perm l.elements.reverse_perm.symm
    refine ⟨rfl, rfl, ?_⟩
    rw [Node.walk]
    exact List.forall_mem_cons.mpr ⟨⟨h.elements.le tiled.ordered, h.elements⟩, tiled⟩

theorem covers_finish {l : Level} {pos : Nat} (h : l.Tiled source pos)
    (tiled : AllTiled source l.nodes) (used : Nat) :
    Covers source l.start pos (l.finish used pos).1 := by
  obtain ⟨elements, alternatives⟩ := allTiled_append.mp tiled
  have last := covers_finishAlternative h elements used
  unfold Level.finish
  dsimp only
  split
  · rename_i hl
    have first := h.alternatives
    rw [hl] at first
    rw [show l.start = l.current from first]
    exact last
  · have alternatives := alternatives.perm l.alternatives.reverse_perm.symm
    have ended := h.alternatives
    rw [← last.start] at ended
    have barred := ended.barred
    rw [last.stop] at barred
    refine ⟨rfl, rfl, ?_⟩
    rw [Node.walk]
    refine List.forall_mem_cons.mpr ⟨⟨?_, barred⟩, ?_⟩
    · calc l.start ≤ (l.finishAlternative used pos).1.site.start := ended.le alternatives.ordered
        _ ≤ (l.finishAlternative used pos).1.site.stop :=
          (last.tiled _ (Node.mem_walk_self _)).ordered
        _ = pos := last.stop
    · exact allTiled_append.mpr ⟨alternatives, allTiled_cons.mpr ⟨last.tiled, by simp [AllTiled,
        Node.walkAll]⟩⟩

/-! ## 3. What the parser holds

Outer levels wait, and each goes on where the inner one will have ended.  What has to be kept of
them is where they start. -/

/-- Each level starts after the parenthesis that opened it; the first one starts where the source
does. -/
def Nested (source : Bytes) : Nat → List Opened → Prop
  | start, [] => start = 0
  | start, o :: opened =>
    source[o.start]? = some Ascii.openParen ∧ o.start < start ∧ o.outer.Tiled source o.start ∧
      Nested source o.outer.start opened

/-- What is kept true of the parser when the lexemes up to `pos` are behind. -/
structure State.Tiled (source : Bytes) (pos : Nat) (s : State) : Prop where
  level : s.level.Tiled source pos
  nested : Nested source s.level.start s.opened
  nodes : AllTiled source s.level.nodes
  outer : AllTiled source (s.opened.flatMap (·.outer.nodes))

theorem State.tiled_initial : State.initial.Tiled source 0 :=
  ⟨Level.tiled_at 0, rfl, by simp [AllTiled, initial, Level.at, Level.nodes, Node.walkAll],
    by simp [AllTiled, initial, Node.walkAll]⟩

/-- One more element, right after the others. -/
theorem State.Tiled.element {s : State} {used captures pos stop : Nat} {n : Node}
    (h : s.Tiled source pos) (hn : Covers source pos stop n) :
    State.Tiled source stop
      ⟨used, captures, { s.level with elements := n :: s.level.elements }, s.opened⟩ := by
  refine ⟨⟨h.level.alternatives, ?_⟩, h.nested, ?_, h.outer⟩
  · simp only [List.reverse_cons]
    rw [Node.abut_concat, hn.start]
    exact ⟨h.level.elements, hn.stop⟩
  · exact allTiled_cons.mpr ⟨hn.tiled, h.nodes⟩

/-- The members of a class stay where they are when they get their numbers. -/
theorem membersInside_shiftSites {start stop : Nat} {k : CharClass} (used : Nat)
    (h : MembersInside start stop k) : MembersInside start stop (shiftSites used k) := by
  have shift : ∀ {sites : List Site}, Inside start stop sites →
      Inside start stop (sites.map fun s => { s with id := s.id + used }) := by
    intro sites hs
    refine ⟨?_, hs.2.map _ fun _ _ h => h⟩
    intro s hm
    obtain ⟨t, ht, rfl⟩ := List.mem_map.mp hm
    exact hs.1 t ht
  refine ⟨?_, ?_⟩
  · simpa [shiftSites, Function.comp_def] using shift h.1
  · simpa [shiftSites, Function.comp_def] using shift h.2

/-- A leaf at the place of its lexeme. -/
theorem covers_leaf {l : Lexeme} {shape : Shape} (h : InPlace source l)
    (token : l.token = .leaf shape) (used id : Nat) :
    Covers source l.start l.stop (leaf used ⟨id, l.start, l.stop⟩ shape) := by
  obtain ⟨positive, b, -, marks⟩ := h
  have plain : ∀ {shape : Shape}, (∀ k, shape ≠ .charClass k) →
      Covers source l.start l.stop (.atom ⟨⟨id, l.start, l.stop⟩, shape⟩) := by
    intro shape hs
    refine ⟨rfl, rfl, ?_⟩
    have parts : Node.PartsTiled source (.atom ⟨⟨id, l.start, l.stop⟩, shape⟩) := by
      cases shape with
      | charClass k => exact absurd rfl (hs k)
      | _ => trivial
    cases shape with
    | charClass k => exact absurd rfl (hs k)
    | _ =>
      simp only [Node.walk, List.forall_mem_singleton]
      exact ⟨Nat.le_of_lt positive, parts⟩
  cases shape with
  | charClass k =>
    rw [token] at marks
    simp only [Marks, Nat.add_sub_cancel' (Nat.le_of_lt positive)] at marks
    have inside := membersInside_shiftSites used marks
    refine ⟨rfl, rfl, ?_⟩
    simp only [leaf, Node.walk]
    refine List.forall_mem_cons.mpr ⟨⟨Nat.le_of_lt positive, inside⟩, ?_⟩
    -- The members are leaves of their own.
    intro m hm
    rcases List.mem_append.mp hm with hm | hm
    · obtain ⟨e, he, rfl⟩ := List.mem_map.mp hm
      have := inside.1.1 e.1 (List.mem_map_of_mem he)
      exact ⟨Nat.le_of_lt this.2.1, trivial⟩
    · obtain ⟨e, he, rfl⟩ := List.mem_map.mp hm
      have := inside.2.1 e.1 (List.mem_map_of_mem he)
      exact ⟨Nat.le_of_lt this.2.1, trivial⟩
  | _ => exact plain (by simp)

/-! ## 4. One lexeme

A lexeme stands where the parser is, as the scan leaves no gaps.  So a new element abuts the ones
before. -/

/-- A group that closes has everything from its parenthesis on. -/
theorem State.Tiled.closing {s : State} {o : Opened} {opened : List Opened} {pos : Nat}
    (h : s.Tiled source pos) (ho : s.opened = o :: opened)
    (paren : source[pos]? = some Ascii.closeParen) (used id : Nat) :
    State.Tiled source (pos + 1)
      { used := used
        captures := s.captures
        level := { o.outer with
          elements := .group ⟨⟨id, o.start, pos + 1⟩, o.kind, o.index, o.name⟩
            (s.level.finish s.used pos).1 :: o.outer.elements }
        opened := opened } := by
  have nested := h.nested
  have outer := h.outer
  rw [ho] at nested outer
  obtain ⟨open_, before, level, nested⟩ := nested
  obtain ⟨nodes, outer⟩ := allTiled_append.mp outer
  have body := covers_finish h.level h.nodes s.used
  have ordered := (body.tiled _ (Node.mem_walk_self _)).ordered
  rw [body.start, body.stop] at ordered
  have inner : State.Tiled source o.start ⟨s.used, s.captures, o.outer, opened⟩ :=
    ⟨level, nested, nodes, outer⟩
  refine inner.element ⟨rfl, rfl, ?_⟩
  rw [Node.walk]
  refine List.forall_mem_cons.mpr ⟨⟨?_, open_, ?_, ?_, ?_⟩, body.tiled⟩
  · simp only [Node.site]
    omega
  · rw [body.start]
    exact before
  · rw [body.stop]
    exact paren
  · rw [body.stop]

/-- An alternative that ends at a bar is followed by the next one. -/
theorem State.Tiled.bar {s : State} {pos : Nat} (h : s.Tiled source pos)
    (pipe : source[pos]? = some Ascii.pipe) (used : Nat) :
    State.Tiled source (pos + 1)
      { s with
        used := used
        level := ⟨s.level.start, (s.level.finishAlternative s.used pos).1 ::
          s.level.alternatives, pos + 1, []⟩ } := by
  obtain ⟨elements, alternatives⟩ := allTiled_append.mp h.nodes
  have last := covers_finishAlternative h.level elements s.used
  refine ⟨⟨?_, rfl⟩, h.nested, ?_, h.outer⟩
  · simp only [List.reverse_cons]
    have ended := h.level.alternatives
    rw [← last.start] at ended
    have bar : source[(s.level.finishAlternative s.used pos).1.site.stop]? = some Ascii.pipe := by
      rwa [last.stop]
    have := Node.ended_concat.mpr ⟨ended, bar⟩
    rwa [last.stop] at this
  · exact allTiled_cons.mpr ⟨last.tiled, alternatives⟩

/-- A count repeats the last element, and stands right after it. -/
theorem State.Tiled.count {s : State} {n : Node} {rest : List Node} {pos stop : Nat}
    (h : s.Tiled source pos) (hn : s.level.elements = n :: rest) (after : pos < stop)
    {q : Quantifier} (start : q.site.start = n.site.start) (hstop : q.site.stop = stop)
    (used : Nat) :
    State.Tiled source stop
      { s with used := used, level := { s.level with elements := .quantifier q n :: rest } } := by
  have elements := h.level.elements
  have nodes := h.nodes
  rw [Level.nodes, hn, List.cons_append, allTiled_cons] at nodes
  rw [hn, List.reverse_cons, Node.abut_concat] at elements
  have ordered := (nodes.1 n n.mem_walk_self).ordered
  refine ⟨⟨h.level.alternatives, ?_⟩, h.nested, allTiled_cons.mpr ⟨?_, nodes.2⟩, h.outer⟩
  · simp only [List.reverse_cons]
    rw [Node.abut_concat]
    exact ⟨start.symm ▸ elements.1, hstop⟩
  · rw [Node.walk]
    refine List.forall_mem_cons.mpr ⟨⟨?_, start.symm, ?_⟩, nodes.1⟩
    · simp only [Node.site]
      omega
    · omega

/-- **One lexeme keeps everything tiled**, if it stands where the parser is.  By cases on what the
lexeme does; in each of them one level changes, and the outer ones wait. -/
theorem State.Tiled.step {flags : Flags} {resolve : Bytes → Nat} {s s' : State} {l : Lexeme}
    (h : s.Tiled source l.start) (hl : InPlace source l)
    (hs : Parser.step flags resolve s l = .ok s') : s'.Tiled source l.stop := by
  have single : ∀ {n : Node}, n.walk = [n] → n.PartsTiled source → n.site.start = l.start →
      n.site.stop = l.stop → Covers source l.start l.stop n := by
    intro n walk parts start stop
    refine ⟨start, stop, ?_⟩
    rw [walk, List.forall_mem_singleton]
    refine ⟨?_, parts⟩
    have := hl.positive
    omega
  obtain ⟨b, hb, marks⟩ := hl.marks
  cases steps_of_step hs with
  | leaf token => exact h.element (covers_leaf hl token _ _)
  | anchor | reference => exact h.element (single (by simp only [Node.walk]) trivial rfl rfl)
  | opening token =>
    rw [token] at marks
    refine ⟨Level.tiled_at l.stop, ⟨marks ▸ hb, hl.positive, h.level, h.nested⟩, ?_, ?_⟩
    · simp [AllTiled, Level.at, Level.nodes, Node.walkAll]
    · exact allTiled_append.mpr ⟨h.nodes, h.outer⟩
  | closing token ho =>
    rw [token] at marks
    obtain ⟨rfl, width⟩ := marks
    have stop : l.stop = l.start + 1 := by omega
    rw [stop]
    exact h.closing ho hb _ _
  | bar token =>
    rw [token] at marks
    obtain ⟨rfl, width⟩ := marks
    have stop : l.stop = l.start + 1 := by omega
    rw [stop]
    exact h.bar hb _
  | count _ hn => exact h.count hn hl.positive rfl rfl _

/-! ## 5. All lexemes -/

theorem State.Tiled.run {flags : Flags} {resolve : Bytes → Nat} {stop : Nat} :
    ∀ {ls : List Lexeme} {pos : Nat} {s s' : State}, s.Tiled source pos →
      Contiguous source stop pos ls → Parser.run flags resolve s ls = .ok s' →
        s'.Tiled source stop
  | [], pos, s, s', h, hc, hs => by
    obtain rfl := Except.ok.inj hs
    obtain rfl : pos = stop := hc
    exact h
  | l :: ls, pos, s, s', h, hc, hs => by
    obtain ⟨rfl, place, rest⟩ := hc
    obtain ⟨s₁, h₁, hs⟩ := run_cons.mp hs
    exact (h.step place h₁).run rest hs

end Parser

namespace Pattern

open Backtrack.Parser

/-- The root of a parsed pattern has all of its source, and all of its nodes are tiled. -/
theorem covers_of_parse {source : Bytes} {flags : Flags} {p : Pattern}
    (h : parse source flags = .ok p) : Covers source 0 source.length p.root := by
  obtain ⟨ls, s, hls, hs, ho, -, rfl⟩ := exists_lexemes_of_parse h
  have contiguous := Lexer.contiguous_lexemes (congrArg Prod.snd hls)
  rw [hls] at contiguous
  have tiled := State.tiled_initial.run contiguous hs
  have whole := covers_finish tiled.level tiled.nodes s.used
  have start := tiled.nested
  rw [ho] at start
  exact ⟨whole.start.trans start, whole.stop, whole.tiled⟩

/-- **The nodes of a parsed pattern tile its source**: the root has all of it, every node is tiled by
its parts, and no two nodes have the same number. -/
theorem tiles_of_parse {source : Bytes} {flags : Flags} {p : Pattern}
    (h : parse source flags = .ok p) :
    p.root.site.start = 0 ∧ p.root.site.stop = source.length ∧
      (∀ n ∈ p.root.walk, n.Tiled source) ∧ (p.root.walk.map Node.id).Nodup := by
  obtain ⟨start, stop, tiled⟩ := covers_of_parse h
  exact ⟨start, stop, tiled, (isWellFormed_of_parse h).distinct⟩

/-- In `a{2}|([b-\d\w]\1)` the class backs off from a range, and the number of the escape that was
read in vain is lost. -/
theorem tiles_of_parse_of_range :
    ∃ p, parse (Bytes.ofString "a\x7b2\x7d|([b-\\d\\w]\\1)") {} = .ok p ∧ p.root.site.start = 0 ∧
      p.root.site.stop = 17 ∧ p.root.walk.map Node.id = [10, 2, 1, 9, 8, 6, 4, 5, 7] ∧
      (p.root.walk.map Node.id).Nodup ∧
      ∀ n ∈ p.root.walk, n.Tiled (Bytes.ofString "a\x7b2\x7d|([b-\\d\\w]\\1)") := by
  let p : Pattern :=
    { source := Bytes.ofString "a\x7b2\x7d|([b-\\d\\w]\\1)"
      flags := {}
      root := .alternation ⟨10, 0, 17⟩
        [.quantifier ⟨⟨2, 0, 4⟩, 2, some 2, false⟩ (.atom ⟨⟨1, 0, 1⟩, .char 97⟩),
          .group ⟨⟨9, 5, 17⟩, .capture, 1, []⟩ (.sequence ⟨8, 6, 16⟩
            [.atom ⟨⟨6, 6, 14⟩, .charClass ⟨false, [⟨98, 98⟩, ⟨45, 45⟩],
                [(⟨4, 9, 11⟩, ⟨.digit, false⟩), (⟨5, 11, 13⟩, ⟨.word, false⟩)], []⟩⟩,
              .reference ⟨⟨7, 14, 16⟩, 1, []⟩])]
      captures := 1 }
  have parsed : parse (Bytes.ofString "a\x7b2\x7d|([b-\\d\\w]\\1)") {} = .ok p := by
    with_unfolding_all rfl
  obtain ⟨start, stop, tiled, distinct⟩ := tiles_of_parse parsed
  exact ⟨p, parsed, start, stop, by decide, distinct, tiled⟩

end Pattern

end Backtrack
