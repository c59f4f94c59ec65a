/-
# How capture groups are numbered

Capture groups are counted twice: once beforehand, from the bytes alone, so that a numeric reference
can be told from an octal escape (`Lexer.countCaptures`), and once by the parser, which numbers
them as they open.  `Pattern.numbered_of_parse` says that the two agree on every source that is
accepted, and that the numbers follow the opening parentheses.

That the walk of a tree meets the groups in that order is a matter of where they stand: the parts of
a tiled node lie one after the other within it, so what a node holds opens within its bytes
(`Node.opens_walk`).
-/
import Backtrack.Proofs.Pattern.Suited
import Backtrack.Proofs.Pattern.Tiling

namespace Backtrack

/-! ## 1. Groups among nodes -/

/-- The groups among some nodes, of any kind. -/
def groupsIn (ns : List Node) : List Group :=
  ns.filterMap fun
    | .group g _ => some g
    | _ => none

theorem groupsIn_append (ns ms : List Node) : groupsIn (ns ++ ms) = groupsIn ns ++ groupsIn ms :=
  List.filterMap_append

theorem mem_groupsIn {g : Group} {ns : List Node} :
    g ∈ groupsIn ns ↔ ∃ body, .group g body ∈ ns := by
  rw [groupsIn, List.mem_filterMap]
  constructor
  · rintro ⟨n, hn, he⟩
    split at he
    · obtain rfl := Option.some.inj he
      exact ⟨_, hn⟩
    · cases he
  · rintro ⟨body, hb⟩
    exact ⟨_, hb, rfl⟩

theorem captureGroups_eq_filter (ns : List Node) :
    captureGroups ns = (groupsIn ns).filter (·.isCapture) := by
  rw [captureGroups, groupsIn, List.filter_filterMap]
  congr 1
  funext n
  cases n <;> simp [Option.filter]

theorem Node.groupsIn_atom (a : Atom) : groupsIn (atom a).walk = [] :=
  filterMap_walk_atom (fun _ => rfl) a

theorem Node.groupsIn_walkAll_cons (n : Node) (ns : List Node) :
    groupsIn (walkAll (n :: ns)) = groupsIn n.walk ++ groupsIn (walkAll ns) :=
  groupsIn_append _ _

/-! ## 2. Groups in the order in which they open -/

/-- The groups open between two positions, one after the other. -/
structure Opens (start stop : Nat) (gs : List Group) : Prop where
  inside : ∀ g ∈ gs, start ≤ g.site.start ∧ g.site.start < stop
  ordered : gs.Pairwise fun g h => g.site.start < h.site.start

theorem Opens.nil (start stop : Nat) : Opens start stop [] := ⟨by simp, List.Pairwise.nil⟩

theorem Opens.mono {start stop start' stop' : Nat} {gs : List Group} (h : Opens start stop gs)
    (hstart : start' ≤ start) (hstop : stop ≤ stop') : Opens start' stop' gs := by
  refine ⟨?_, h.ordered⟩
  intro g hg
  have := h.inside g hg
  omega

theorem Opens.append {start middle stop : Nat} {gs hs : List Group} (left : Opens start middle gs)
    (right : Opens middle stop hs) (hstart : start ≤ middle) (hstop : middle ≤ stop) :
    Opens start stop (gs ++ hs) := by
  refine ⟨?_, List.pairwise_append.mpr ⟨left.ordered, right.ordered, ?_⟩⟩
  · intro g hg
    rcases List.mem_append.mp hg with hg | hg
    · exact (left.mono (Nat.le_refl _) hstop).inside g hg
    · exact (right.mono hstart (Nat.le_refl _)).inside g hg
  · intro g hg h hh
    have := left.inside g hg
    have := right.inside h hh
    omega

namespace Node

variable {source : Bytes}

theorem Barred.le {stop : Nat} : ∀ {start : Nat} {ns : List Node}, Barred source stop start ns →
    (∀ n ∈ ns, n.site.start ≤ n.site.stop) → start ≤ stop
  | _, [n], ⟨first, last⟩, ordered => by
    have := ordered n List.mem_cons_self
    omega
  | _, n :: m :: ns, ⟨first, _, rest⟩, ordered => by
    have := ordered n List.mem_cons_self
    have := rest.le fun m hm => ordered m (List.mem_cons_of_mem _ hm)
    omega

mutual

/-- The groups of a tiled node open within its bytes, in the order of its walk. -/
theorem opens_walk : ∀ n : Node, (∀ m ∈ n.walk, m.Tiled source) →
    Opens n.site.start n.site.stop (groupsIn n.walk)
  | atom a, _ => by
    rw [groupsIn_atom]
    exact Opens.nil _ _
  | anchor s k, _ => Opens.nil s.start s.stop
  | reference r, _ => Opens.nil r.site.start r.site.stop
  | group g body, tiled => by
    rw [walk] at tiled
    obtain ⟨own, tiled⟩ := List.forall_mem_cons.mp tiled
    obtain ⟨-, before, -, after⟩ := own.parts
    have inner := opens_walk body tiled
    have ordered := (tiled body body.mem_walk_self).ordered
    have first : Opens g.site.start body.site.start [g] :=
      ⟨by simpa using before, List.pairwise_singleton _ _⟩
    exact (first.append inner (Nat.le_of_lt before) ordered).mono (Nat.le_refl _)
      (after ▸ Nat.le_succ _)
  | quantifier q body, tiled => by
    rw [walk] at tiled
    obtain ⟨own, tiled⟩ := List.forall_mem_cons.mp tiled
    obtain ⟨start, stop⟩ := own.parts
    exact (opens_walk body tiled).mono (Nat.le_of_eq start.symm) (Nat.le_of_lt stop)
  | sequence s ns, tiled => by
    rw [walk] at tiled
    obtain ⟨own, tiled⟩ := List.forall_mem_cons.mp tiled
    exact opens_walkAll_of_abut ns own.parts tiled
  | alternation s ns, tiled => by
    rw [walk] at tiled
    obtain ⟨own, tiled⟩ := List.forall_mem_cons.mp tiled
    exact opens_walkAll_of_barred ns own.parts tiled

theorem opens_walkAll_of_abut {start stop : Nat} : ∀ ns : List Node, Abut stop start ns →
    Parser.AllTiled source ns → Opens start stop (groupsIn (walkAll ns))
  | [], _, _ => Opens.nil start stop
  | n :: ns, ⟨first, rest⟩, tiled => by
    obtain ⟨own, tiled⟩ := Parser.allTiled_cons.mp tiled
    rw [groupsIn_walkAll_cons, ← first]
    exact (opens_walk n own).append (opens_walkAll_of_abut ns rest tiled)
      (own n n.mem_walk_self).ordered (rest.le tiled.ordered)

theorem opens_walkAll_of_barred {start stop : Nat} : ∀ ns : List Node,
    Barred source stop start ns → Parser.AllTiled source ns →
      Opens start stop (groupsIn (walkAll ns))
  | [n], ⟨first, last⟩, tiled => by
    obtain ⟨own, -⟩ := Parser.allTiled_cons.mp tiled
    rw [walkAll, walkAll, List.append_nil, ← first, ← last]
    exact opens_walk n own
  | n :: m :: ns, ⟨first, _, rest⟩, tiled => by
    obtain ⟨own, tiled⟩ := Parser.allTiled_cons.mp tiled
    have later := (opens_walkAll_of_barred (m :: ns) rest tiled).mono (Nat.le_succ _)
      (Nat.le_refl _)
    have := rest.le tiled.ordered
    rw [groupsIn_walkAll_cons, ← first]
    exact (opens_walk n own).append later (own n n.mem_walk_self).ordered (by omega)

end

end Node

namespace Pattern

/-- **No two groups of a parsed pattern start at the same byte.**  At most one lexeme starts at a
byte, and the group has the place of its opening. -/
theorem eq_of_start {source : Bytes} {flags : Flags} {p : Pattern}
    (h : parse source flags = .ok p) {g g' : Group} (hg : g ∈ groupsIn p.root.walk)
    (hg' : g' ∈ groupsIn p.root.walk) (start : g.site.start = g'.site.start) : g = g' := by
  have ordered := (Node.opens_walk p.root (covers_of_parse h).tiled).ordered
  have nodup : ((groupsIn p.root.walk).map (·.site.start)).Nodup :=
    List.pairwise_map.mpr (ordered.imp Nat.ne_of_lt)
  exact List.inj_on_of_nodup_map nodup hg hg' start

/-- **The groups that are counted beforehand are the groups of the tree**: there are as many, the
walk meets them in the order of their opening parentheses and with the numbers from one on, and no
two of them have the same name. -/
theorem numbered_of_parse {source : Bytes} {flags : Flags} {p : Pattern}
    (h : parse source flags = .ok p) :
    Lexer.countCaptures source = p.captures ∧
      (captureGroups p.root.walk).length = p.captures ∧
      (captureGroups p.root.walk).map (·.index) = List.range' 1 p.captures ∧
      (∀ g ∈ captureGroups p.root.walk, source[g.site.start]? = some Ascii.openParen) ∧
      (captureGroups p.root.walk).Pairwise (fun g g' => g.site.start < g'.site.start) ∧
      (captureGroups p.root.walk).Pairwise fun g g' => g.name = g'.name → g.name = [] := by
  obtain ⟨ls, follows⟩ := exists_follows_of_parse h
  obtain ⟨spelled, -⟩ := spelled_of_parse h
  have tiled := (covers_of_parse h).tiled
  have indexes : (captureGroups p.root.walk).map (·.index) = List.range' 1 p.captures := by
    rw [← captureIndexes_eq_map]
    exact follows.indexes
  have ordered : (captureGroups p.root.walk).Pairwise fun g g' => g.site.start < g'.site.start := by
    rw [captureGroups_eq_filter]
    exact (Node.opens_walk p.root tiled).ordered.filter _
  refine ⟨follows.countCaptures, ?_, indexes, ?_, ordered, ?_⟩
  · simpa using congrArg List.length indexes
  · intro g hg
    obtain ⟨-, body, hb⟩ := mem_captureGroups.mp hg
    exact (tiled _ hb).parts.1
  · -- Two groups of the same name would be one, and would not open one after the other.
    refine (List.Pairwise.and_mem.mp ordered).imp ?_
    rintro g g' ⟨hg, hg', before⟩ name
    refine Classical.byContradiction fun named => ?_
    obtain rfl := Revision.eq_of_name spelled hg hg' name (name ▸ named)
    exact Nat.lt_irrefl _ before

/-- In `(?<b>\((?:[(\](]|(c)))|(?<é>\1)` three of the parentheses capture; the others are escaped,
in a class, or open a group that does not. -/
theorem numbered_of_parse_of_class :
    ∃ p, parse (Bytes.ofString "(?<b>\\((?:[(\\](]|(c)))|(?<é>\\1)") {} = .ok p ∧ p.captures = 3 ∧
      Lexer.countCaptures (Bytes.ofString "(?<b>\\((?:[(\\](]|(c)))|(?<é>\\1)") = 3 ∧
      (captureGroups p.root.walk).map (·.site.start) = [0, 17, 23] ∧
      (captureGroups p.root.walk).map (·.index) = [1, 2, 3] ∧
      (captureGroups p.root.walk).Pairwise fun g g' => g.name = g'.name → g.name = [] := by
  let p : Pattern :=
    { source := Bytes.ofString "(?<b>\\((?:[(\\](]|(c)))|(?<é>\\1)"
      flags := {}
      root := .alternation ⟨11, 0, 32⟩
        [.group ⟨⟨8, 0, 22⟩, .capture, 1, [98]⟩ (.sequence ⟨7, 5, 21⟩
            [.atom ⟨⟨1, 5, 7⟩, .char 40⟩,
              .group ⟨⟨6, 7, 21⟩, .nonCapture, 0, []⟩ (.alternation ⟨5, 10, 20⟩
                [.atom ⟨⟨2, 10, 16⟩, .charClass ⟨false, [⟨40, 40⟩, ⟨93, 93⟩, ⟨40, 40⟩], [], []⟩⟩,
                  .group ⟨⟨4, 17, 20⟩, .capture, 2, []⟩ (.atom ⟨⟨3, 18, 19⟩, .char 99⟩)])]),
          .group ⟨⟨10, 23, 32⟩, .capture, 3, [195, 169]⟩ (.reference ⟨⟨9, 29, 31⟩, 1, []⟩)]
      captures := 3 }
  have parsed : parse (Bytes.ofString "(?<b>\\((?:[(\\](]|(c)))|(?<é>\\1)") {} = .ok p := by
    with_unfolding_all rfl
  obtain ⟨count, -, indexes, -, -, names⟩ := numbered_of_parse parsed
  exact ⟨p, parsed, rfl, count, by decide, indexes, names⟩

end Pattern

end Backtrack
