/-
# What every parsed tree has in common

Whatever source a tree was read from:

* each of its leaves means a set of characters, each of its counts can be met, and none of its
  alternations is without an alternative (`Node.IsSound`);
* no two of its nodes have the same number, members of classes included;
* no two of its capture groups have the same index.

The tree is built bottom up, so all three are carried through the parser as statements about
the nodes it holds at a time, wherever they stand (`State.walk`).  What a lexeme does to what the
parser holds is listed once (`Steps`), and every invariant of the parser goes by its cases.  A
lexeme adds nodes and leaves the others as they are, up to their order (`Fresh`,
`State.Inv.grow`).
-/
import Backtrack.Pattern.Parser
import Backtrack.Proofs.Pattern.Tokens

namespace Backtrack

open scoped List

/-! ## 1. Sound nodes, distinct numbers

What is sound about a node is seen on the node alone.  That numbers are distinct is not, and it is
what makes places, groups and quantifiers known by their numbers later on. -/

/-- What holds of a node of a parsed tree by itself. -/
def Node.IsSound : Node → Prop
  | .atom a => a.shape.IsSound
  | .quantifier q _ => q.count.IsOrdered
  | .alternation _ ns => ns ≠ []
  | _ => True

/-- Whether the node only strings others together: nothing in the source stands for it alone. -/
def Node.isJoint : Node → Bool
  | .sequence _ _ => true
  | .alternation _ _ => true
  | _ => false

/-- The numbers of the capture groups among some nodes. -/
def captureIndexes (ns : List Node) : List Nat :=
  ns.filterMap fun
    | .group g _ => if g.isCapture then some g.index else none
    | _ => none

/-- What holds of a parsed pattern as a whole. -/
structure Pattern.IsWellFormed (p : Pattern) : Prop where
  sound : ∀ n ∈ p.root.walk, n.IsSound
  distinct : (p.root.walk.map Node.id).Nodup
  captures : (captureIndexes p.root.walk).Nodup

theorem captureIndexes_append (ns ms : List Node) :
    captureIndexes (ns ++ ms) = captureIndexes ns ++ captureIndexes ms :=
  List.filterMap_append

namespace Node

theorem walkAll_eq_flatMap : ∀ ns : List Node, walkAll ns = ns.flatMap walk
  | [] => rfl
  | n :: ns => by rw [walkAll, walkAll_eq_flatMap ns, List.flatMap_cons]

theorem walkAll_append (ns ms : List Node) : walkAll (ns ++ ms) = walkAll ns ++ walkAll ms := by
  simp only [walkAll_eq_flatMap, List.flatMap_append]

theorem walkAll_perm {ns ms : List Node} (h : ns.Perm ms) : (walkAll ns).Perm (walkAll ms) := by
  simp only [walkAll_eq_flatMap]
  exact h.flatMap_right walk

/-- A node is on its own walk. -/
theorem mem_walk_self (n : Node) : n ∈ n.walk := by
  cases n with
  | atom a =>
    rw [walk]
    split <;> exact List.mem_cons_self
  | _ => simp [walk]

theorem mem_walkAll {m : Node} {ns : List Node} : m ∈ walkAll ns ↔ ∃ n ∈ ns, m ∈ n.walk := by
  rw [walkAll_eq_flatMap, List.mem_flatMap]

/-- A walk from a leaf comes to leaves: the leaf itself and the members of its class. -/
theorem exists_atom_of_mem_walk {a : Atom} {m : Node} (h : m ∈ (atom a).walk) :
    ∃ b, m = atom b := by
  rw [walk] at h
  split at h
  · simp only [List.mem_cons, List.mem_append, List.mem_map] at h
    rcases h with rfl | ⟨e, -, rfl⟩ | ⟨p, -, rfl⟩ <;> exact ⟨_, rfl⟩
  · exact ⟨a, List.mem_singleton.mp h⟩

/-- What no leaf has is found nowhere on a walk from a leaf. -/
theorem filterMap_walk_atom {α : Type} {f : Node → Option α} (h : ∀ b, f (atom b) = none)
    (a : Atom) : (atom a).walk.filterMap f = [] := by
  rw [List.filterMap_eq_nil_iff]
  intro n hn
  obtain ⟨b, rfl⟩ := exists_atom_of_mem_walk hn
  exact h b

theorem captureIndexes_atom (a : Atom) : captureIndexes (atom a).walk = [] :=
  filterMap_walk_atom (fun _ => rfl) a

theorem captureIndexes_group (g : Group) (body : Node) :
    captureIndexes (group g body).walk =
      (if g.isCapture then [g.index] else []) ++ captureIndexes body.walk := by
  rw [walk, captureIndexes]
  cases h : g.isCapture with
  | false => exact List.filterMap_cons_none (by simp [h])
  | true => exact List.filterMap_cons_some (by simp [h])

theorem captureIndexes_walkAll_cons (n : Node) (ns : List Node) :
    captureIndexes (walkAll (n :: ns)) = captureIndexes n.walk ++ captureIndexes (walkAll ns) :=
  captureIndexes_append _ _

end Node

namespace Parser

/-! ## 2. Nodes that are added

The parser numbers its nodes in the order in which it meets them, members of classes included, and
some numbers are never used.  So new nodes have numbers in an interval, without any claim that
they fill it. -/

/-- Sound nodes that get the numbers after `used` up to `used'`, and the indexes of the capture
groups among them. -/
structure Fresh (used used' : Nat) (new : List Node) (indexes : List Nat) : Prop where
  le : used ≤ used'
  sound : ∀ n ∈ new, n.IsSound
  distinct : (new.map Node.id).Nodup
  between : ∀ n ∈ new, used < n.id ∧ n.id ≤ used'
  captures : captureIndexes new = indexes

theorem Fresh.nil (used : Nat) : Fresh used used [] [] :=
  ⟨Nat.le_refl _, by simp, by simp, by simp, rfl⟩

/-- One more node, with a number of its own. -/
theorem Fresh.cons {used used' : Nat} {new : List Node} {indexes : List Nat}
    (h : Fresh used used' new indexes) {n : Node} (sound : n.IsSound) (id : n.id = used' + 1) :
    Fresh used (used' + 1) (n :: new) (captureIndexes [n] ++ indexes) := by
  refine ⟨Nat.le_succ_of_le h.le, ?_, ?_, ?_, ?_⟩
  · rintro m (_ | ⟨_, hm⟩)
    · exact sound
    · exact h.sound m hm
  · rw [List.map_cons, List.nodup_cons]
    refine ⟨?_, h.distinct⟩
    rw [List.mem_map]
    rintro ⟨m, hm, hid⟩
    have := (h.between m hm).2
    omega
  · rintro m (_ | ⟨_, hm⟩)
    · have := h.le
      omega
    · have := h.between m hm
      omega
  · rw [← h.captures, ← captureIndexes_append]
    rfl

theorem Fresh.one {used nodes : Nat} {n : Node} (h : 1 ≤ nodes) (sound : n.IsSound)
    (id : n.id = used + nodes) : Fresh used (used + nodes) [n] (captureIndexes [n]) := by
  refine ⟨by omega, by simpa using sound, by simp, ?_, rfl⟩
  intro m hm
  rw [List.mem_singleton.mp hm]
  omega

/-- Finishing an alternative adds at most a sequence. -/
theorem fresh_finishAlternative (l : Level) (used pos : Nat) :
    ∃ new, (l.finishAlternative used pos).1.walk.Perm (new ++ Node.walkAll l.elements) ∧
      Fresh used (l.finishAlternative used pos).2 new [] ∧ ∀ n ∈ new, n.isJoint = true := by
  unfold Level.finishAlternative
  split
  · rename_i n hn
    refine ⟨[], ?_, Fresh.nil used, by simp⟩
    simp [hn, Node.walkAll]
  · refine ⟨[.sequence ⟨used + 1, l.current, pos⟩ l.elements.reverse], ?_,
      (Fresh.nil used).cons trivial rfl, by simp [Node.isJoint]⟩
    rw [Node.walk]
    exact (Node.walkAll_perm l.elements.reverse_perm).cons _

/-- Finishing a level adds at most a sequence and an alternation. -/
theorem fresh_finish (l : Level) (used pos : Nat) :
    ∃ new, (l.finish used pos).1.walk.Perm
        (new ++ Node.walkAll (l.elements ++ l.alternatives)) ∧
      Fresh used (l.finish used pos).2 new [] ∧ ∀ n ∈ new, n.isJoint = true := by
  obtain ⟨new, perm, fresh, joints⟩ := fresh_finishAlternative l used pos
  unfold Level.finish
  dsimp only
  split
  · rename_i hl
    rw [hl, List.append_nil]
    exact ⟨new, perm, fresh, joints⟩
  · refine ⟨.alternation ⟨_, l.start, pos⟩ (l.alternatives.reverse ++
      [(l.finishAlternative used pos).1]) :: new, ?_, fresh.cons (by simp [Node.IsSound]) rfl,
      List.forall_mem_cons.mpr ⟨rfl, joints⟩⟩
    rw [Node.walk, Node.walkAll_append, Node.walkAll_append, List.cons_append]
    refine List.Perm.cons _ ?_
    calc Node.walkAll l.alternatives.reverse ++
            Node.walkAll [(l.finishAlternative used pos).1]
        ~ Node.walkAll l.alternatives ++ (new ++ Node.walkAll l.elements) := by
          refine (Node.walkAll_perm l.alternatives.reverse_perm).append ?_
          simpa [Node.walkAll] using perm
      _ ~ new ++ (Node.walkAll l.elements ++ Node.walkAll l.alternatives) := by
          rw [← List.append_assoc new]
          exact List.perm_append_comm

/-! ## 3. What a lexeme does

One constructor for each kind of token, with the state after it.  Invariants go by cases of this
relation, and none of them opens the parser. -/

/-- The state after a lexeme that fits. -/
inductive Steps (flags : Flags) (resolve : Bytes → Nat) (s : State) (l : Lexeme) : State → Prop
  | leaf {shape : Shape} (token : l.token = .leaf shape) :
    Steps flags resolve s l
      (s.push (s.used + l.nodes) (leaf s.used ⟨s.used + l.nodes, l.start, l.stop⟩ shape))
  | anchor {k : Anchor} (token : l.token = .anchor k) :
    Steps flags resolve s l
      (s.push (s.used + l.nodes) (.anchor ⟨s.used + l.nodes, l.start, l.stop⟩ k))
  | reference {index : Nat} {name : Bytes} (token : l.token = .reference index name) :
    Steps flags resolve s l
      (s.push (s.used + l.nodes) (.reference ⟨⟨s.used + l.nodes, l.start, l.stop⟩,
        if name.isEmpty then index else resolve name, name⟩))
  | opening {kind : GroupKind} {name : Bytes} {captures : Nat}
    (token : l.token = .opening kind name)
    (counted : captures = if kind = .capture then s.captures + 1 else s.captures) :
    Steps flags resolve s l
      { s with
        captures := captures
        level := Level.at l.stop
        opened := ⟨l.start, kind, if kind = .capture then captures else 0, name, s.level⟩ ::
          s.opened }
  | closing {o : Opened} {opened : List Opened} (token : l.token = .closing)
    (ho : s.opened = o :: opened) :
    Steps flags resolve s l
      { used := (s.level.finish s.used l.start).2 + 1
        captures := s.captures
        level := { o.outer with
          elements := .group ⟨⟨(s.level.finish s.used l.start).2 + 1, o.start, l.stop⟩, o.kind,
            o.index, o.name⟩ (s.level.finish s.used l.start).1 :: o.outer.elements }
        opened := opened }
  | bar (token : l.token = .bar) :
    Steps flags resolve s l
      { s with
        used := (s.level.finishAlternative s.used l.start).2
        level := ⟨s.level.start, (s.level.finishAlternative s.used l.start).1 ::
          s.level.alternatives, l.stop, []⟩ }
  | count {c : Count} {n : Node} {rest : List Node} (token : l.token = .count c)
    (hn : s.level.elements = n :: rest) (repeatable : isRepeatable flags n = true) :
    Steps flags resolve s l
      { s with
        used := s.used + l.nodes
        level := { s.level with
          elements := .quantifier ⟨⟨s.used + l.nodes, n.site.start, l.stop⟩, c⟩ n :: rest } }

theorem steps_of_step {flags : Flags} {resolve : Bytes → Nat} {s s' : State} {l : Lexeme}
    (h : step flags resolve s l = .ok s') : Steps flags resolve s l s' := by
  unfold step at h
  dsimp only at h
  split at h
  · rename_i token
    obtain rfl := Except.ok.inj h
    exact .leaf token
  · rename_i token
    obtain rfl := Except.ok.inj h
    exact .anchor token
  · rename_i token
    obtain rfl := Except.ok.inj h
    exact .reference token
  · rename_i token
    obtain rfl := Except.ok.inj h
    exact .opening token rfl
  · rename_i token
    split at h
    · cases h
    · rename_i ho
      obtain rfl := Except.ok.inj h
      exact .closing token ho
  · rename_i token
    obtain rfl := Except.ok.inj h
    exact .bar token
  · rename_i token
    split at h
    · cases h
    · rename_i hn
      split at h
      · rename_i repeatable
        obtain rfl := Except.ok.inj h
        exact .count token hn repeatable
      · cases h

theorem run_cons {flags : Flags} {resolve : Bytes → Nat} {s s' : State} {l : Lexeme}
    {ls : List Lexeme} :
    run flags resolve s (l :: ls) = .ok s' ↔
      ∃ s₁, step flags resolve s l = .ok s₁ ∧ run flags resolve s₁ ls = .ok s' := by
  rw [run]
  cases step flags resolve s l <;> simp

/-! ## 4. What the parser holds

The nodes that the parser holds at a time, in whatever level they are.  Closing a group and ending
an alternative only move them about. -/

/-- The nodes of a level. -/
def Level.nodes (l : Level) : List Node := l.elements ++ l.alternatives

/-- The nodes the parser holds, with all that are below them. -/
def State.walk (s : State) : List Node :=
  Node.walkAll (s.level.nodes ++ s.opened.flatMap (·.outer.nodes))

section Walk

variable {s : State} {used captures : Nat}

/-- An element adds the nodes below it. -/
theorem State.walk_push (s : State) (used : Nat) (n : Node) :
    (s.push used n).walk = n.walk ++ s.walk :=
  rfl

/-- A group that opens changes no node. -/
theorem State.walk_opening {o : Opened} {pos : Nat} (outer : o.outer = s.level) :
    State.walk ⟨used, captures, Level.at pos, o :: s.opened⟩ = s.walk := by
  simp [State.walk, Level.at, Level.nodes, outer]

/-- A group that closes takes the nodes of its level along. -/
theorem State.walk_closing {o : Opened} {opened : List Opened} (ho : s.opened = o :: opened)
    {body : Node} {new : List Node} (hb : body.walk.Perm (new ++ Node.walkAll s.level.nodes))
    (g : Group) :
    (State.walk ⟨used, captures,
      { o.outer with elements := .group g body :: o.outer.elements }, opened⟩).Perm
        (.group g body :: new ++ s.walk) := by
  have inner : s.walk = Node.walkAll s.level.nodes ++
      Node.walkAll (o.outer.nodes ++ opened.flatMap (·.outer.nodes)) := by
    rw [State.walk, ho, List.flatMap_cons, Node.walkAll_append]
  rw [inner, List.cons_append, ← List.append_assoc]
  exact (hb.append_right _).cons _

/-- An alternative that ends takes its elements along. -/
theorem State.walk_bar {last : Node} {new : List Node}
    (hl : last.walk.Perm (new ++ Node.walkAll s.level.elements)) (stop : Nat) :
    (State.walk { s with
      used := used
      level := ⟨s.level.start, last :: s.level.alternatives, stop, []⟩ }).Perm (new ++ s.walk) := by
  simp only [State.walk, Level.nodes, List.nil_append, List.cons_append, Node.walkAll,
    Node.walkAll_append, List.append_assoc]
  rw [← List.append_assoc new]
  exact hl.append_right _

/-- A count wraps the last element. -/
theorem State.walk_count {n : Node} {rest : List Node} (hn : s.level.elements = n :: rest)
    (q : Quantifier) :
    State.walk { s with
      used := used
      level := { s.level with elements := .quantifier q n :: rest } } =
        .quantifier q n :: s.walk := by
  simp [State.walk, Level.nodes, hn, Node.walkAll, Node.walk]

end Walk

/-- The indexes of the capture groups that are open. -/
def openIndexes (opened : List Opened) : List Nat :=
  opened.filterMap fun o => if o.kind == .capture then some o.index else none

/-- The invariant of the parser. -/
structure State.Inv (s : State) : Prop where
  sound : ∀ n ∈ s.walk, n.IsSound
  distinct : (s.walk.map Node.id).Nodup
  numbered : ∀ n ∈ s.walk, n.id ≤ s.used
  captures : (captureIndexes s.walk ++ openIndexes s.opened).Nodup
  counted : ∀ i ∈ captureIndexes s.walk ++ openIndexes s.opened, i ≤ s.captures

theorem State.inv_initial : State.initial.Inv :=
  ⟨by simp [initial, walk, Level.nodes, Level.at, Node.walkAll],
    by simp [initial, walk, Level.nodes, Level.at, Node.walkAll],
    by simp [initial, walk, Level.nodes, Level.at, Node.walkAll],
    by simp [initial, walk, Level.nodes, Level.at, Node.walkAll, captureIndexes, openIndexes],
    by simp [initial, walk, Level.nodes, Level.at, Node.walkAll, captureIndexes, openIndexes]⟩

/-- Fresh nodes keep the invariant, if the groups among them were open before. -/
theorem State.Inv.grow {s s' : State} (h : s.Inv) {new : List Node} {indexes : List Nat}
    (fresh : Fresh s.used s'.used new indexes) (walk : s'.walk.Perm (new ++ s.walk))
    (captures : s'.captures = s.captures)
    (opened : (indexes ++ openIndexes s'.opened).Perm (openIndexes s.opened)) : s'.Inv := by
  have indexes_perm : (captureIndexes s'.walk ++ openIndexes s'.opened).Perm
      (captureIndexes s.walk ++ openIndexes s.opened) := by
    have hw : (captureIndexes s'.walk).Perm (indexes ++ captureIndexes s.walk) := by
      rw [← fresh.captures, ← captureIndexes_append]
      exact walk.filterMap _
    calc captureIndexes s'.walk ++ openIndexes s'.opened
        ~ indexes ++ captureIndexes s.walk ++ openIndexes s'.opened := hw.append_right _
      _ ~ captureIndexes s.walk ++ indexes ++ openIndexes s'.opened :=
          List.perm_append_comm.append_right _
      _ = captureIndexes s.walk ++ (indexes ++ openIndexes s'.opened) := List.append_assoc ..
      _ ~ captureIndexes s.walk ++ openIndexes s.opened := opened.append_left _
  refine ⟨?_, ?_, ?_, indexes_perm.nodup_iff.mpr h.captures, ?_⟩
  · intro n hn
    rcases List.mem_append.mp (walk.mem_iff.mp hn) with hn | hn
    · exact fresh.sound n hn
    · exact h.sound n hn
  · rw [(walk.map Node.id).nodup_iff, List.map_append, List.nodup_append]
    refine ⟨fresh.distinct, h.distinct, ?_⟩
    -- The numbers of the fresh nodes are larger than all numbers used before.
    intro i hi j hj hij
    obtain ⟨n, hn, rfl⟩ := List.mem_map.mp hi
    obtain ⟨m, hm, rfl⟩ := List.mem_map.mp hj
    have := (fresh.between n hn).1
    have := h.numbered m hm
    omega
  · intro n hn
    rcases List.mem_append.mp (walk.mem_iff.mp hn) with hn | hn
    · exact (fresh.between n hn).2
    · exact Nat.le_trans (h.numbered n hn) fresh.le
  · intro i hi
    rw [captures]
    exact h.counted i (indexes_perm.mem_iff.mp hi)

/-! ## 5. One lexeme

What is new are the nodes of the lexeme itself, and at most a sequence and an alternation when a
level is finished. -/

/-- The members of a class as leaves, once their numbers count from the start. -/
def members (used : Nat) (k : CharClass) : List Node :=
  (shiftSites used k).escapes.map (fun e => .atom ⟨e.1, .escape e.2⟩) ++
    (shiftSites used k).properties.map (fun p => .atom ⟨p.1, .property p.2⟩)

theorem map_id_members (used : Nat) (k : CharClass) :
    (members used k).map Node.id =
      (k.escapes.map (·.1.id) ++ k.properties.map (·.1.id)).map (· + used) := by
  simp [members, shiftSites, Node.id, Node.site, Function.comp_def]

theorem captureIndexes_members (used : Nat) (k : CharClass) :
    captureIndexes (members used k) = [] := by
  rw [captureIndexes, List.filterMap_eq_nil_iff]
  intro n hn
  rcases List.mem_append.mp hn with hn | hn
  · obtain ⟨e, -, rfl⟩ := List.mem_map.mp hn
    rfl
  · obtain ⟨e, -, rfl⟩ := List.mem_map.mp hn
    rfl

theorem fresh_members {used nodes : Nat} {k : CharClass} (h : Lexer.Members nodes k) :
    Fresh used (used + nodes) (members used k) [] := by
  refine ⟨by omega, ?_, ?_, ?_, captureIndexes_members used k⟩
  · intro n hn
    simp only [members, shiftSites, List.map_map, List.mem_append, List.mem_map] at hn
    rcases hn with ⟨e, -, rfl⟩ | ⟨p, hp, rfl⟩
    · trivial
    · exact h.sound.2 p hp
  · rw [map_id_members]
    refine List.Pairwise.map (· + used) ?_ h.distinct
    intro i j hij
    omega
  · intro n hn
    have hi : n.id ∈ (members used k).map Node.id := List.mem_map_of_mem hn
    rw [map_id_members] at hi
    obtain ⟨i, hi, hid⟩ := List.mem_map.mp hi
    have := h.numbered i hi
    omega

theorem isSound_shiftSites {used : Nat} {k : CharClass} (h : Shape.IsSound (.charClass k)) :
    Shape.IsSound (.charClass (shiftSites used k)) := by
  refine ⟨h.1, ?_⟩
  intro p hp
  obtain ⟨q, hq, rfl⟩ := List.mem_map.mp hp
  exact h.2 q hq

/-- A leaf is fresh, and so are the members of a class. -/
theorem fresh_leaf {used nodes : Nat} {shape : Shape} (start stop : Nat)
    (h : Lexer.IsSound nodes (.leaf shape)) :
    Fresh used (used + nodes) (leaf used ⟨used + nodes, start, stop⟩ shape).walk [] := by
  have plain : ∀ {shape : Shape}, 1 ≤ nodes → shape.IsSound →
      Fresh used (used + nodes) [.atom ⟨⟨used + nodes, start, stop⟩, shape⟩] [] := by
    intro shape hn hs
    exact Fresh.one hn hs rfl
  cases shape with
  | charClass k =>
    obtain ⟨n, rfl, hk⟩ := h
    exact (fresh_members hk).cons (isSound_shiftSites hk.sound) rfl
  | char c => exact plain h.1 h.2
  | dot => exact plain h.1 h.2
  | escape e => exact plain h.1 h.2
  | property p => exact plain h.1 h.2

/-- An element that is added keeps the invariant, if all its nodes are fresh. -/
theorem State.Inv.push {s : State} (h : s.Inv) {used : Nat} {n : Node}
    (fresh : Fresh s.used used n.walk []) : (s.push used n).Inv :=
  @State.Inv.grow s (s.push used n) h n.walk [] fresh (.of_eq (s.walk_push used n)) rfl
    (List.Perm.refl _)

/-- A group that opens changes no node, and an index it gets is new. -/
theorem State.Inv.opening {s : State} (h : s.Inv) {o : Opened} {captures pos : Nat}
    (outer : o.outer = s.level) (le : s.captures ≤ captures)
    (index : o.kind = .capture → o.index = s.captures + 1 ∧ captures = s.captures + 1) :
    State.Inv ⟨s.used, captures, Level.at pos, o :: s.opened⟩ := by
  have walk : State.walk ⟨s.used, captures, Level.at pos, o :: s.opened⟩ = s.walk :=
    State.walk_opening outer
  have old : ∀ i ∈ captureIndexes s.walk ++ openIndexes s.opened, i ≤ captures :=
    fun i hi => Nat.le_trans (h.counted i hi) le
  refine ⟨?_, ?_, ?_, ?_, ?_⟩ <;> rw [walk]
  · exact h.sound
  · exact h.distinct
  · exact h.numbered
  · by_cases hk : o.kind = .capture
    · have fresh : o.index ∉ captureIndexes s.walk ++ openIndexes s.opened := by
        intro hi
        have := h.counted _ hi
        have := (index hk).1
        omega
      have : openIndexes (o :: s.opened) = o.index :: openIndexes s.opened := by
        simp [openIndexes, hk]
      rw [this, List.perm_middle.nodup_iff]
      exact List.nodup_cons.mpr ⟨fresh, h.captures⟩
    · have : openIndexes (o :: s.opened) = openIndexes s.opened := by
        simp [openIndexes, hk]
      rw [this]
      exact h.captures
  · by_cases hk : o.kind = .capture
    · have : openIndexes (o :: s.opened) = o.index :: openIndexes s.opened := by
        simp [openIndexes, hk]
      rw [this]
      intro i hi
      rcases List.mem_cons.mp (List.perm_middle.mem_iff.mp hi) with rfl | hi
      · have := index hk
        simp only
        omega
      · exact old i hi
    · have : openIndexes (o :: s.opened) = openIndexes s.opened := by
        simp [openIndexes, hk]
      rw [this]
      exact old

/-- A group that closes takes the nodes of its level along. -/
theorem State.Inv.closing {s : State} (h : s.Inv) {o : Opened} {opened : List Opened}
    (ho : s.opened = o :: opened) (pos stop : Nat) :
    State.Inv
      { used := (s.level.finish s.used pos).2 + 1
        captures := s.captures
        level := { o.outer with
          elements := .group ⟨⟨(s.level.finish s.used pos).2 + 1, o.start, stop⟩, o.kind,
            o.index, o.name⟩ (s.level.finish s.used pos).1 :: o.outer.elements }
        opened := opened } := by
  obtain ⟨new, perm, fresh, -⟩ := fresh_finish s.level s.used pos
  have fresh := fresh.cons (n := .group ⟨⟨_, o.start, stop⟩, o.kind, o.index, o.name⟩
    (s.level.finish s.used pos).1) trivial rfl
  refine h.grow fresh (State.walk_closing ho perm _) rfl ?_
  rw [ho]
  by_cases hk : o.kind = .capture <;>
    simp [openIndexes, captureIndexes, Group.isCapture, hk]

/-- An alternative that ends becomes one node. -/
theorem State.Inv.bar {s : State} (h : s.Inv) (pos stop : Nat) :
    State.Inv
      { s with
        used := (s.level.finishAlternative s.used pos).2
        level := ⟨s.level.start, (s.level.finishAlternative s.used pos).1 ::
          s.level.alternatives, stop, []⟩ } := by
  obtain ⟨new, perm, fresh, -⟩ := fresh_finishAlternative s.level s.used pos
  exact h.grow fresh (State.walk_bar perm stop) rfl (List.Perm.refl _)

/-- A count wraps the last element. -/
theorem State.Inv.count {s : State} (h : s.Inv) {n : Node} {rest : List Node}
    (hn : s.level.elements = n :: rest) {q : Quantifier} {nodes : Nat} (hnodes : 1 ≤ nodes)
    (id : q.site.id = s.used + nodes) (ordered : q.count.IsOrdered) :
    State.Inv
      { s with
        used := s.used + nodes
        level := { s.level with elements := .quantifier q n :: rest } } := by
  exact h.grow (Fresh.one (n := .quantifier q n) hnodes ordered id)
    (State.walk_count hn q ▸ List.Perm.refl _) rfl (List.Perm.refl _)

/-- **One lexeme keeps the invariant.**  By cases on what the lexeme does: it adds fresh nodes, or
only moves those that are there. -/
theorem State.Inv.step {flags : Flags} {resolve : Bytes → Nat} {s s' : State} {l : Lexeme}
    (h : s.Inv) (sound : Lexer.IsSound l.nodes l.token)
    (hs : Parser.step flags resolve s l = .ok s') : s'.Inv := by
  cases steps_of_step hs with
  | leaf token =>
    rw [token] at sound
    exact h.push (fresh_leaf _ _ sound)
  | anchor token | reference token =>
    rw [token] at sound
    exact h.push (Fresh.one sound trivial rfl)
  | opening _ counted =>
    refine h.opening rfl ?_ ?_
    · rw [counted]
      split <;> omega
    · rintro rfl
      exact ⟨counted, counted⟩
  | closing _ ho => exact h.closing ho l.start l.stop
  | bar => exact h.bar l.start l.stop
  | count token hn =>
    rw [token] at sound
    exact h.count hn sound.1 rfl sound.2

/-! ## 6. All lexemes -/

theorem State.Inv.run {flags : Flags} {resolve : Bytes → Nat} :
    ∀ {ls : List Lexeme} {s s' : State}, s.Inv → (∀ l ∈ ls, Lexer.IsSound l.nodes l.token) →
      Parser.run flags resolve s ls = .ok s' → s'.Inv
  | [], s, s', h, _, hs => by
    obtain rfl := Except.ok.inj hs
    exact h
  | l :: ls, s, s', h, sound, hs => by
    obtain ⟨s₁, h₁, hs⟩ := run_cons.mp hs
    have hl := sound l List.mem_cons_self
    exact State.Inv.run (h.step hl h₁) (fun m hm => sound m (List.mem_cons_of_mem _ hm)) hs

end Parser

namespace Pattern

open Backtrack.Parser

/-- What the parser does when it succeeds. -/
theorem exists_lexemes_of_parse {source : Bytes} {flags : Flags} {p : Pattern}
    (h : parse source flags = .ok p) :
    ∃ (ls : List Lexeme) (s : State), Lexer.lexemes flags source = (ls, none) ∧
      run flags (indexOfName (captureNames ls)) State.initial ls = .ok s ∧ s.opened = [] ∧
      undefinedName? (captureNames ls) ls = none ∧
      p = ⟨source, flags, (s.level.finish s.used source.length).1, s.captures⟩ := by
  unfold parse at h
  cases hl : Lexer.lexemes flags source with
  | mk ls fault =>
    rw [hl] at h
    dsimp only at h
    split at h
    · cases h
    rename_i root captures hb
    split at h
    · cases h
    rename_i hn
    unfold build at hb
    split at hb
    · cases hb
    rename_i s hs
    split at hb
    · cases hb
    · cases hb
    rename_i ho
    obtain ⟨rfl, rfl⟩ := Prod.mk.inj (Except.ok.inj hb)
    exact ⟨ls, s, rfl, hs, ho, hn, (Except.ok.inj h).symm⟩

/-- **Every parsed pattern is well-formed.**  The invariant holds before the first lexeme and is
kept by each, and in the end it speaks of the root. -/
theorem isWellFormed_of_parse {source : Bytes} {flags : Flags} {p : Pattern}
    (h : parse source flags = .ok p) : p.IsWellFormed := by
  obtain ⟨ls, s, hls, hs, ho, -, rfl⟩ := exists_lexemes_of_parse h
  have sound : ∀ l ∈ (Lexer.lexemes flags source).1, Lexer.IsSound l.nodes l.token :=
    Lexer.isSound_of_mem_lexemes
  rw [hls] at sound
  have inv := State.inv_initial.run sound hs
  -- The last level is finished like any other, only that no group is left to close.
  obtain ⟨new, perm, fresh, -⟩ := fresh_finish s.level s.used source.length
  have walk : s.walk = Node.walkAll s.level.nodes := by simp [State.walk, ho]
  have last : State.Inv ⟨(s.level.finish s.used source.length).2, s.captures,
      ⟨0, [], 0, [(s.level.finish s.used source.length).1]⟩, []⟩ := by
    refine inv.grow fresh ?_ rfl ?_
    · rw [walk]
      simpa [State.walk, Level.nodes, Node.walkAll] using perm
    · simp [openIndexes, ho]
  have root : State.walk ⟨(s.level.finish s.used source.length).2, s.captures,
      ⟨0, [], 0, [(s.level.finish s.used source.length).1]⟩, []⟩ =
        (s.level.finish s.used source.length).1.walk := by
    simp [State.walk, Level.nodes, Node.walkAll]
  refine ⟨?_, ?_, ?_⟩ <;> rw [← root]
  · exact last.sound
  · exact last.distinct
  · exact (List.nodup_append.mp last.captures).1

end Pattern

end Backtrack
