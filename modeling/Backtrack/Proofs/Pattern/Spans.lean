/-
# Where the nodes of a tree start

A place in the source does not tell which node is meant: a quantifier starts where its body does,
and a sequence where its first element does.  It does tell a leaf, a reference or a quantifier from
others of its kind (`Pattern.eq_of_start_atom`, `Pattern.eq_of_start_reference`,
`Pattern.eq_of_start_quantifier`).

Two nodes of a tiled tree lie one in the other or apart (`Node.nested_or_apart`), and nodes that lie
apart do not start at the same byte if they have bytes at all.  Leaves and references have
(`Node.HasBytes`, kept by the parser), and nothing lies in them.  A quantifier has the bytes of its
count, and what lies in it starts later unless it is its body: what is repeated is a unit, so
another quantifier is behind the parenthesis of a group.

Members of classes are not looked at: they are no nodes of the index.
-/
import Backtrack.Proofs.Pattern.Ancestors
import Backtrack.Proofs.Pattern.Making

namespace Backtrack

namespace Node

variable {source : Bytes} {root : Node}

/-! ## 1. Parts of a node

Tiling says how parts abut.  What is needed of it here is weaker and the same for all kinds: they
lie in the node, one after the other. -/

/-- One of the nodes stops before the other one starts. -/
def Apart (n m : Node) : Prop := n.site.stop ≤ m.site.start ∨ m.site.stop ≤ n.site.start

/-- The nodes lie one after the other between two positions. -/
structure Lined (start stop : Nat) (ns : List Node) : Prop where
  within : ∀ n ∈ ns, start ≤ n.site.start ∧ n.site.stop ≤ stop
  apart : ns.Pairwise fun n m => n.site.stop ≤ m.site.start

theorem Lined.nil (start stop : Nat) : Lined start stop [] := ⟨by simp, List.Pairwise.nil⟩

/-- One more node, before the others. -/
theorem Lined.cons {start middle stop : Nat} {n : Node} {ns : List Node} (h : Lined middle stop ns)
    (before : start ≤ n.site.start) (ordered : n.site.start ≤ n.site.stop)
    (behind : n.site.stop ≤ middle) (le : middle ≤ stop) : Lined start stop (n :: ns) := by
  refine ⟨List.forall_mem_cons.mpr ⟨⟨before, by omega⟩, fun m hm => ?_⟩,
    List.pairwise_cons.mpr ⟨fun m hm => ?_, h.apart⟩⟩
  · have := h.within m hm
    omega
  · exact Nat.le_trans behind (h.within m hm).1

theorem Abut.lined {stop : Nat} : ∀ {start : Nat} {ns : List Node}, Abut stop start ns →
    (∀ n ∈ ns, n.site.start ≤ n.site.stop) → Lined start stop ns
  | _, [], _, _ => Lined.nil _ _
  | _, n :: _, ⟨first, rest⟩, ordered => by
    obtain ⟨own, later⟩ := List.forall_mem_cons.mp ordered
    exact (rest.lined later).cons (Nat.le_of_eq first.symm) own (Nat.le_refl _) (rest.le later)

theorem Barred.lined {stop : Nat} : ∀ {start : Nat} {ns : List Node}, Barred source stop start ns →
    (∀ n ∈ ns, n.site.start ≤ n.site.stop) → Lined start stop ns
  | _, [n], ⟨first, last⟩, ordered =>
    (Lined.nil stop stop).cons (Nat.le_of_eq first.symm) (ordered n List.mem_cons_self)
      (Nat.le_of_eq last) (Nat.le_refl _)
  | _, n :: m :: ns, ⟨first, _, rest⟩, ordered => by
    obtain ⟨own, later⟩ := List.forall_mem_cons.mp ordered
    exact (rest.lined later).cons (Nat.le_of_eq first.symm) own (Nat.le_succ _) (rest.le later)

/-- **The parts of a tiled node lie in it, one after the other.** -/
theorem lined_children (h : root.Tiled source)
    (ordered : ∀ n ∈ root.children, n.site.start ≤ n.site.stop) :
    Lined root.site.start root.site.stop root.children := by
  cases root with
  | group g body =>
    obtain ⟨-, before, -, after⟩ := h.parts
    exact (Lined.nil _ _).cons (Nat.le_of_lt before) (ordered body List.mem_cons_self)
      (after ▸ Nat.le_succ _) (Nat.le_refl _)
  | quantifier q body =>
    obtain ⟨start, stop⟩ := h.parts
    exact (Lined.nil _ _).cons (Nat.le_of_eq start.symm) (ordered body List.mem_cons_self)
      (Nat.le_of_lt stop) (Nat.le_refl _)
  | sequence s ns => exact h.parts.lined ordered
  | alternation s ns => exact h.parts.lined ordered
  | _ => exact Lined.nil _ _

/-! ## 2. Nodes of a tree

By induction over the tree, from its parts to all that is below them.  Two nodes below different
parts are apart as the parts are. -/

section Tiled

variable (tiled : ∀ n ∈ root.walk, n.Tiled source)

include tiled

theorem lined_of_tiled : Lined root.site.start root.site.stop root.children :=
  lined_children (tiled root root.mem_walk_self) fun n hn =>
    (tiled n (walk_subset_of_mem_children hn n.mem_walk_self)).ordered

theorem tiled_of_mem_children {c : Node} (hc : c ∈ root.children) :
    ∀ n ∈ c.walk, n.Tiled source :=
  fun n hn => tiled n (walk_subset_of_mem_children hc hn)

end Tiled

/-- The nodes of a tree lie in its root. -/
theorem Has.within {n : Node} (h : root.Has n) (tiled : ∀ n ∈ root.walk, n.Tiled source) :
    root.site.start ≤ n.site.start ∧ n.site.stop ≤ root.site.stop := by
  induction root using induction_children with
  | step root ih =>
    rcases h.root_or_child with rfl | ⟨c, hc, has⟩
    · exact ⟨Nat.le_refl _, Nat.le_refl _⟩
    · have outer := (lined_of_tiled tiled).within c hc
      have inner := ih c hc has (tiled_of_mem_children tiled hc)
      omega

/-- **Two nodes of a tiled tree lie one in the other or apart.**  The induction is over the tree,
from the parts of a node, which lie apart. -/
theorem nested_or_apart (tiled : ∀ n ∈ root.walk, n.Tiled source) {n m : Node} (hn : root.Has n)
    (hm : root.Has m) : n.Has m ∨ m.Has n ∨ n.Apart m := by
  induction root using induction_children with
  | step root ih =>
    rcases hn.root_or_child with rfl | ⟨c, hc, first⟩
    · exact .inl hm
    rcases hm.root_or_child with rfl | ⟨d, hd, second⟩
    · exact .inr (.inl hn)
    by_cases same : c = d
    · subst same
      exact ih c hc (tiled_of_mem_children tiled hc) first second
    · refine .inr (.inr ?_)
      have first := first.within (tiled_of_mem_children tiled hc)
      have second := second.within (tiled_of_mem_children tiled hd)
      have symmetric : Std.Symm Apart := ⟨fun _ _ => Or.symm⟩
      have apart : c.Apart d :=
        ((lined_of_tiled tiled).apart.imp (S := Apart) fun h => Or.inl h).forall hc hd same
      rcases apart with h | h
      · exact .inl (by omega)
      · exact .inr (by omega)

/-- Nothing but itself lies in a node without parts. -/
theorem Has.eq_of_leaf {n m : Node} (h : n.Has m) (leaf : n.children = []) : m = n := by
  rcases h.root_or_child with rfl | ⟨c, hc, -⟩
  · rfl
  · simp [leaf] at hc

/-- Nodes with bytes that lie apart do not start at the same byte. -/
theorem Apart.ne_start {n m : Node} (h : n.Apart m) (hn : n.site.start < n.site.stop)
    (hm : m.site.start < m.site.stop) : n.site.start ≠ m.site.start := by
  unfold Apart at h
  omega

/-- **A node without parts that has bytes is known by its start** among its like.  If two of them
lie one in the other they are the same, since nothing lies in them. -/
theorem eq_of_start (tiled : ∀ n ∈ root.walk, n.Tiled source) {n m : Node} (hn : root.Has n)
    (hm : root.Has m) (leaf : n.children = []) (leaf' : m.children = [])
    (bytes : n.site.start < n.site.stop) (bytes' : m.site.start < m.site.stop)
    (start : n.site.start = m.site.start) : n = m := by
  rcases nested_or_apart tiled hn hm with h | h | apart
  · exact (h.eq_of_leaf leaf).symm
  · exact h.eq_of_leaf leaf'
  · exact absurd start (apart.ne_start bytes bytes')

/-- What lies in a quantifier starts later, if it is another quantifier. -/
theorem Has.quantifier_or_lt {q r : Quantifier} {body inner : Node}
    (h : (quantifier q body).Has (quantifier r inner))
    (tiled : ∀ n ∈ (quantifier q body).walk, n.Tiled source) (unit : body.isUnit = true) :
    quantifier r inner = quantifier q body ∨ q.site.start < r.site.start := by
  rcases h.root_or_child with same | ⟨c, hc, has⟩
  · exact .inl same
  obtain rfl : c = body := List.mem_singleton.mp hc
  have below := tiled_of_mem_children tiled hc
  obtain ⟨start, -⟩ := (tiled _ (mem_walk_self _)).parts
  cases c with
  | group g b =>
    rcases has.root_or_child with same | ⟨d, hd, deep⟩
    · cases same
    obtain rfl : d = b := List.mem_singleton.mp hd
    obtain ⟨-, behind, -⟩ := (below _ (mem_walk_self _)).parts
    have within := (deep.within (tiled_of_mem_children below hd)).1
    refine .inr ?_
    rw [← start]
    exact Nat.lt_of_lt_of_le behind within
  | atom a => cases has.eq_of_leaf rfl
  | reference a => cases has.eq_of_leaf rfl
  | _ => cases unit

/-! ## 3. Quantifiers -/

/-- What a tree has stands somewhere. -/
theorem Has.exists_stands {flags : Flags} {n : Node} (h : root.Has n) {place : Place}
    (hs : root.stands flags place = true) : ∃ place, n.stands flags place = true := by
  have all : ∀ (place : Place) (ns : List Node), standAll flags place ns = true →
      ∀ m ∈ ns, m.stands flags place = true := by
    intro place ns
    induction ns with
    | nil => simp
    | cons m ms ih =>
      intro hs
      rw [standAll, Bool.and_eq_true] at hs
      exact List.forall_mem_cons.mpr ⟨hs.1, ih hs.2⟩
  obtain ⟨as, above⟩ := h
  induction above with
  | root => exact ⟨place, hs⟩
  | @child as n m _ hm ih =>
    obtain ⟨place, hs⟩ := ih
    cases n with
    | group g body | quantifier q body =>
      obtain rfl := List.mem_singleton.mp hm
      simp only [stands, Bool.and_eq_true] at hs
      exact ⟨_, hs.2⟩
    | sequence s ns | alternation s ns =>
      simp only [stands, Bool.and_eq_true] at hs
      exact ⟨_, all _ ns hs.2 m hm⟩
    | _ => cases hm

/-! ## 4. Bytes of leaves and references

Being tiled does not exclude that a node has no bytes, as sequences may have none.  That leaves
and references have some is known from their lexemes. -/

/-- A leaf or a reference has bytes. -/
def HasBytes : Node → Prop
  | atom a => a.site.start < a.site.stop
  | reference r => r.site.start < r.site.stop
  | _ => True

/-- The members of a class have bytes where it does. -/
theorem hasBytes_of_mem_atom {a : Atom} (own : a.site.start < a.site.stop)
    (parts : (atom a).PartsTiled source) : ∀ n ∈ (atom a).walk, n.HasBytes := by
  obtain ⟨site, shape⟩ := a
  cases shape with
  | charClass k =>
    rw [walk]
    refine List.forall_mem_cons.mpr ⟨own, fun n hn => ?_⟩
    rcases List.mem_append.mp hn with hn | hn
    · obtain ⟨e, he, rfl⟩ := List.mem_map.mp hn
      exact (parts.1.1 e.1 (List.mem_map_of_mem he)).2.1
    · obtain ⟨e, he, rfl⟩ := List.mem_map.mp hn
      exact (parts.2.1 e.1 (List.mem_map_of_mem he)).2.1
  | _ => exact List.forall_mem_singleton.mpr own

end Node

namespace Parser

open Lexer (InPlace Contiguous)

variable {flags : Flags} {resolve : Bytes → Nat} {source : Bytes} {s s' : State} {l : Lexeme}

theorem hasBytes_of_isJoint {n : Node} (h : n.isJoint = true) : n.HasBytes := by
  cases n with
  | atom | reference => cases h
  | _ => trivial

/-- **One lexeme becomes nodes that have bytes.** -/
theorem State.hasBytes_step (h : ∀ n ∈ s.walk, n.HasBytes) (hl : InPlace source l)
    (hs : Parser.step flags resolve s l = .ok s') : ∀ n ∈ s'.walk, n.HasBytes := by
  have grow : ∀ new : List Node, s'.walk.Perm (new ++ s.walk) → (∀ n ∈ new, n.HasBytes) →
      ∀ n ∈ s'.walk, n.HasBytes := fun new perm fresh n hn =>
    (List.mem_append.mp (perm.mem_iff.mp hn)).elim (fresh n) (h n)
  cases steps_of_step hs with
  | @leaf shape token =>
    have covers := covers_leaf hl token s.used (s.used + l.nodes)
    refine grow _ (.of_eq (s.walk_push _ _)) ?_
    obtain ⟨shape', ha, -⟩ := leaf_eq_atom s.used ⟨s.used + l.nodes, l.start, l.stop⟩ shape
    rw [ha] at covers ⊢
    exact Node.hasBytes_of_mem_atom hl.positive (covers.tiled _ (Node.mem_walk_self _)).parts
  | anchor token | reference token =>
    refine grow _ (.of_eq (s.walk_push _ _)) ?_
    rw [Node.walk, List.forall_mem_singleton]
    first | trivial | exact hl.positive
  | opening token => exact grow [] (.of_eq (State.walk_opening rfl)) (by simp)
  | closing token ho =>
    obtain ⟨new, perm, -, joints⟩ := fresh_finish s.level s.used l.start
    exact grow _ (State.walk_closing ho perm _)
      (List.forall_mem_cons.mpr ⟨trivial, fun n hn => hasBytes_of_isJoint (joints n hn)⟩)
  | bar token =>
    obtain ⟨new, perm, -, joints⟩ := fresh_finishAlternative s.level s.used l.start
    exact grow new (State.walk_bar perm l.stop) fun n hn => hasBytes_of_isJoint (joints n hn)
  | @count c n rest token hn =>
    exact grow [_] (.of_eq (State.walk_count hn ⟨⟨s.used + l.nodes, n.site.start, l.stop⟩, c⟩))
      (List.forall_mem_singleton.mpr trivial)

theorem State.hasBytes_run {stop : Nat} : ∀ {ls : List Lexeme} {pos : Nat} {s s' : State},
    (∀ n ∈ s.walk, n.HasBytes) → Contiguous source stop pos ls →
      Parser.run flags resolve s ls = .ok s' → ∀ n ∈ s'.walk, n.HasBytes
  | [], _, s, s', h, _, hs => by
    obtain rfl := Except.ok.inj hs
    exact h
  | l :: ls, _, s, s', h, hc, hs => by
    obtain ⟨rfl, place, rest⟩ := hc
    obtain ⟨s₁, h₁, hs⟩ := run_cons.mp hs
    exact hasBytes_run (hasBytes_step h place h₁) rest hs

end Parser

/-! ## 5. Parsed patterns -/

namespace Pattern

open Backtrack.Parser

variable {source : Bytes} {flags : Flags} {p : Pattern}

/-- The leaves and references of a parsed pattern have bytes. -/
theorem hasBytes_of_parse (h : parse source flags = .ok p) : ∀ n ∈ p.root.walk, n.HasBytes := by
  obtain ⟨ls, s, hls, hrun, ho, -, rfl⟩ := exists_lexemes_of_parse h
  have contiguous := Lexer.contiguous_lexemes (congrArg Prod.snd hls)
  rw [hls] at contiguous
  have held := State.hasBytes_run
    (by simp [State.initial, State.walk, Level.nodes, Level.at, Node.walkAll]) contiguous hrun
  obtain ⟨new, perm, -, joints⟩ := fresh_finish s.level s.used source.length
  have walk : s.walk = Node.walkAll s.level.nodes := by simp [State.walk, ho]
  intro n hn
  rcases List.mem_append.mp (perm.mem_iff.mp hn) with hn | hn
  · exact hasBytes_of_isJoint (joints n hn)
  · exact held n (walk ▸ hn)

/-- **No two leaves of a parsed pattern start at the same byte**, members of classes aside. -/
theorem eq_of_start_atom (h : parse source flags = .ok p) {a b : Atom} (ha : p.root.Has (.atom a))
    (hb : p.root.Has (.atom b)) (start : a.site.start = b.site.start) : a = b := by
  have bytes := hasBytes_of_parse h
  exact Node.atom.inj (Node.eq_of_start (covers_of_parse h).tiled ha hb rfl rfl
    (bytes _ ha.mem) (bytes _ hb.mem) start)

/-- **No two references of a parsed pattern start at the same byte.** -/
theorem eq_of_start_reference (h : parse source flags = .ok p) {r s : Reference}
    (hr : p.root.Has (.reference r)) (hs : p.root.Has (.reference s))
    (start : r.site.start = s.site.start) : r = s := by
  have bytes := hasBytes_of_parse h
  exact Node.reference.inj (Node.eq_of_start (covers_of_parse h).tiled hr hs rfl rfl
    (bytes _ hr.mem) (bytes _ hs.mem) start)

/-- **No two quantifiers of a parsed pattern start at the same byte.**  One that lies in another
one starts later, behind the parenthesis of a group. -/
theorem eq_of_start_quantifier (h : parse source flags = .ok p) {q r : Quantifier}
    {body inner : Node} (hq : p.root.Has (.quantifier q body))
    (hr : p.root.Has (.quantifier r inner)) (start : q.site.start = r.site.start) : q = r := by
  have tiled := (covers_of_parse h).tiled
  have below : ∀ {q body}, p.root.Has (.quantifier q body) →
      (∀ n ∈ (Node.quantifier q body).walk, n.Tiled source) ∧ body.isUnit = true ∧
        q.site.start < q.site.stop := by
    rintro q body ⟨as, above⟩
    obtain ⟨place, stands⟩ := Node.Has.exists_stands ⟨as, above⟩ (spelled_of_parse h).1.stands
    simp only [Node.stands, Bool.and_eq_true] at stands
    have inside : ∀ n ∈ (Node.quantifier q body).walk, n.Tiled source := fun n hn =>
      tiled n (above.below_root n hn)
    obtain ⟨first, last⟩ := (inside _ (Node.mem_walk_self _)).parts
    have ordered := (inside body (List.mem_cons_of_mem _ body.mem_walk_self)).ordered
    exact ⟨inside, stands.1.1, by omega⟩
  obtain ⟨inQ, unitQ, bytesQ⟩ := below hq
  obtain ⟨inR, unitR, bytesR⟩ := below hr
  rcases Node.nested_or_apart tiled hq hr with nested | nested | apart
  · rcases nested.quantifier_or_lt inQ unitQ with same | later
    · exact (Node.quantifier.inj same).1.symm
    · omega
  · rcases nested.quantifier_or_lt inR unitR with same | later
    · exact (Node.quantifier.inj same).1
    · omega
  · exact absurd start (apart.ne_start bytesQ bytesR)

end Pattern

end Backtrack
