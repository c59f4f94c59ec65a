/-
# Which pairs of runs a search does not give up

The search decides about a pair of leaves with what it remembers of the pairs before it: a flag,
a history, the atomic groups each half has been in.  Here the same decision is stated about the
pairs themselves, all of them, with no memory: `Admits` says that a pair of sightings is not
given up, given the pairs before it.

`exists_proceed_iff_admits` is the link.  Work `Carries` a list of pairs if what it remembers is
what the list says, and such work proceeds exactly with the pairs that are admitted.
-/
import Backtrack.Proofs.Search.Steps

namespace Backtrack

/-! ## 1. Squares

A history is kept with the latest pair first, and a block is compared with the one before it from
the back.  Whether it ends in a square is said of the list in the order in which things
happened. -/

namespace History

variable {α : Type} [BEq α]

theorem squareFrom_iff {latest : List α} : ∀ {older : List α} {size : Nat},
    older = latest.drop size → (squareFrom latest size older = true ↔
      ∃ n, size ≤ n ∧ n < latest.length ∧ agree n latest (latest.drop n) = true)
  | [], size, h => by
    have : latest.length ≤ size := List.drop_eq_nil_iff.mp h.symm
    simp only [squareFrom, Bool.false_eq_true, false_iff, not_exists, not_and]
    omega
  | b :: older, size, h => by
    have next : older = latest.drop (size + 1) := by
      rw [← List.drop_drop, ← h]
      rfl
    have lt : size < latest.length := by
      have := congrArg List.length h
      simp only [List.length_cons, List.length_drop] at this
      omega
    rw [squareFrom, Bool.or_eq_true, squareFrom_iff next, h]
    constructor
    · rintro (ha | ⟨n, hn, ha⟩)
      · exact ⟨size, Nat.le_refl _, lt, ha⟩
      · exact ⟨n, by omega, ha⟩
    · rintro ⟨n, hn, hlt, ha⟩
      rcases Nat.eq_or_lt_of_le hn with rfl | hn
      · exact .inl ha
      · exact .inr ⟨n, hn, hlt, ha⟩

variable [LawfulBEq α]

theorem agree_iff : ∀ {n : Nat} {as bs : List α},
    agree n as bs = true ↔ n ≤ as.length ∧ n ≤ bs.length ∧ as.take n = bs.take n
  | 0, as, bs => by simp [agree]
  | n + 1, [], bs => by simp [agree]
  | n + 1, a :: as, [] => by simp [agree]
  | n + 1, a :: as, b :: bs => by
    simp only [agree, Bool.and_eq_true, beq_iff_eq, agree_iff, List.length_cons,
      Nat.add_le_add_iff_right, List.take_succ_cons, List.cons.injEq]
    constructor
    · rintro ⟨rfl, h1, h2, h3⟩
      exact ⟨h1, h2, rfl, h3⟩
    · rintro ⟨h1, h2, rfl, h3⟩
      exact ⟨rfl, h1, h2, h3⟩

/-- **A history ends in a square if its latest part is some block twice.**  The search for a block
goes through all sizes up to half of the history. -/
theorem endsInSquare_iff {latest : List α} :
    endsInSquare latest = true ↔ ∃ block older, block ≠ [] ∧ latest = block ++ block ++ older := by
  have start : latest.tail = latest.drop 1 := by simp
  rw [endsInSquare, squareFrom_iff start]
  constructor
  · rintro ⟨n, hn, hlt, ha⟩
    obtain ⟨-, h2, h3⟩ := agree_iff.mp ha
    refine ⟨latest.take n, (latest.drop n).drop n, ?_, ?_⟩
    · intro h
      have := congrArg List.length h
      simp only [List.length_take, List.length_nil] at this
      omega
    · calc latest = latest.take n ++ latest.drop n := (List.take_append_drop n latest).symm
        _ = latest.take n ++ ((latest.drop n).take n ++ (latest.drop n).drop n) := by
          rw [List.take_append_drop n (latest.drop n)]
        _ = latest.take n ++ latest.take n ++ (latest.drop n).drop n := by
          rw [← h3, List.append_assoc]
  · rintro ⟨block, older, hb, rfl⟩
    have pos := List.length_pos_iff.mpr hb
    refine ⟨block.length, pos, ?_, agree_iff.mpr ⟨?_, ?_, ?_⟩⟩
    · simp only [List.length_append]
      omega
    · simp only [List.length_append]
      omega
    · simp only [List.length_append, List.length_drop]
      omega
    · simp [List.append_assoc]

end History

/-! ## 2. Atomic groups

A half keeps which atomic groups it has been in, and its place says which are open.  The two
together tell how it stands to each group. -/

theorem Atomics.mem_openIn {atomic opened : List Nat} {g : Nat} :
    g ∈ openIn atomic opened ↔ g ∈ opened ∧ g ∈ atomic := by
  simp [openIn, List.mem_eraseDups, List.mem_filter]

theorem Atomics.mem_enter {a : Atomics} {atomic opened : List Nat} {g : Nat} :
    g ∈ (a.enter atomic opened).entered ↔ g ∈ a.entered ∨ g ∈ opened ∧ g ∈ atomic := by
  by_cases h : g ∈ a.entered <;> simp [enter, mem_openIn, h]

theorem lookup_map_const (v : Presence) (g : Nat) : ∀ l : List Nat,
    (l.map fun h => (h, v)).lookup g = if g ∈ l then some v else none
  | [] => by simp
  | h :: l => by
    rw [List.map_cons, List.lookup_cons, lookup_map_const v g l]
    by_cases hg : g = h
    · simp [hg]
    · have : (g == h) = false := by simpa using hg
      simp [this, hg]

namespace Atomics

variable {a : Atomics} {atomic opened : List Nat} {g : Nat}

/-- The groups a side stands in some way to. -/
theorem mem_presences (h : ∀ g ∈ a.entered, g ∈ atomic) {p : Presence} :
    (g, p) ∈ a.presences atomic opened ↔
      p = .present ∧ g ∈ openIn atomic opened ∨
        p = .wasPresent ∧ g ∈ a.entered ∧ g ∉ openIn atomic opened := by
  unfold presences
  dsimp only
  split
  · rename_i he
    obtain rfl := List.isEmpty_iff.mp he
    have none : g ∉ a.entered := fun hg => List.not_mem_nil (h g hg)
    simp [none, mem_openIn]
  · rw [List.mem_append, List.mem_map, List.mem_map]
    constructor
    · rintro (⟨h, hh, he⟩ | ⟨h, hh, he⟩)
      · obtain ⟨rfl, rfl⟩ := Prod.mk.inj he
        exact .inl ⟨rfl, hh⟩
      · obtain ⟨rfl, rfl⟩ := Prod.mk.inj he
        rw [List.mem_filter] at hh
        exact .inr ⟨rfl, hh.1, by simpa using hh.2⟩
    · rintro (⟨rfl, hg⟩ | ⟨rfl, hg, hn⟩)
      · exact .inl ⟨g, hg, rfl⟩
      · exact .inr ⟨g, List.mem_filter.mpr ⟨hg, by simpa using hn⟩, rfl⟩

/-- How a side stands to one group. -/
theorem lookup_presences (h : ∀ g ∈ a.entered, g ∈ atomic) :
    (a.presences atomic opened).lookup g =
      if g ∈ openIn atomic opened then some .present
      else if g ∈ a.entered then some .wasPresent
      else Option.none := by
  unfold presences
  dsimp only
  split
  · rename_i he
    obtain rfl := List.isEmpty_iff.mp he
    have none : g ∉ a.entered := fun hg => List.not_mem_nil (h g hg)
    simp [none, mem_openIn]
  · rw [List.lookup_append, lookup_map_const, lookup_map_const]
    by_cases hn : g ∈ openIn atomic opened <;> simp [hn, List.mem_filter]

theorem lookup_presences_eq_present (h : ∀ g ∈ a.entered, g ∈ atomic) :
    (a.presences atomic opened).lookup g = some .present ↔ g ∈ opened ∧ g ∈ atomic := by
  rw [lookup_presences h, ← mem_openIn]
  split
  · simp [*]
  · split <;> simp [*]

theorem lookup_presences_eq_wasPresent (h : ∀ g ∈ a.entered, g ∈ atomic) :
    (a.presences atomic opened).lookup g = some .wasPresent ↔ g ∈ a.entered ∧ g ∉ opened := by
  rw [lookup_presences h]
  split
  · rename_i hm
    simp [(mem_openIn.mp hm).1]
  · rename_i hm
    have closed : g ∈ a.entered → g ∉ opened := fun hg ho => hm (mem_openIn.mpr ⟨ho, h g hg⟩)
    split
    · rename_i hg
      simp [hg, closed hg]
    · simp [*]

/-- A side stands to each group in one way only. -/
theorem mem_presences_iff_lookup (h : ∀ g ∈ a.entered, g ∈ atomic) {p : Presence} :
    (g, p) ∈ a.presences atomic opened ↔ (a.presences atomic opened).lookup g = some p := by
  rw [mem_presences h, mem_openIn]
  cases p with
  | present => simp [lookup_presences_eq_present h]
  | wasPresent =>
    rw [lookup_presences_eq_wasPresent h]
    simp only [reduceCtorEq, false_and, true_and, false_or, not_and]
    refine and_congr_right fun hg => ⟨fun closed ho => closed ho (h g hg), fun closed ho => ?_⟩
    exact absurd ho closed

end Atomics

theorem Presences.isSome_sync_iff {l r : Presences} :
    (l.sync r).isSome = true ↔
      ∀ e ∈ l, ∀ q, r.lookup e.1 = some q → e.2.conflicts q = false := by
  unfold sync
  split
  · rename_i h
    obtain ⟨e, he, hq⟩ := List.any_eq_true.mp h
    obtain ⟨q, hq, hc⟩ := (Option.any_eq_true _ _).mp hq
    simp only [Option.isSome_none, Bool.false_eq_true, false_iff]
    intro all
    rw [all e he q hq] at hc
    simp at hc
  · rename_i h
    simp only [Option.isSome_some, true_iff]
    intro e he q hq
    refine Bool.eq_false_iff.mpr fun hc => h ?_
    exact List.any_eq_true.mpr ⟨e, he, (Option.any_eq_true _ _).mpr ⟨q, hq, hc⟩⟩

/-- **Two sides are in sync** unless one of them is inside of a group that the other one has left. -/
theorem Atomics.isSome_sync_presences {a b : Atomics} {atomic opened opened' : List Nat}
    (ha : ∀ g ∈ a.entered, g ∈ atomic) (hb : ∀ g ∈ b.entered, g ∈ atomic) :
    ((a.presences atomic opened).sync (b.presences atomic opened')).isSome = true ↔
      ∀ g ∈ atomic, (g ∈ opened → g ∈ b.entered → g ∈ opened') ∧
        (g ∈ opened' → g ∈ a.entered → g ∈ opened) := by
  rw [Presences.isSome_sync_iff]
  constructor
  · intro all g hg
    refine ⟨fun ho entered => ?_, fun ho entered => ?_⟩
    · refine Decidable.byContradiction fun closed => ?_
      have now := (mem_presences_iff_lookup ha).mpr
        ((lookup_presences_eq_present ha).mpr ⟨ho, hg⟩)
      have gone := (lookup_presences_eq_wasPresent hb).mpr ⟨entered, closed⟩
      simpa [Presence.conflicts] using all _ now _ gone
    · refine Decidable.byContradiction fun closed => ?_
      have gone := (mem_presences_iff_lookup ha).mpr
        ((lookup_presences_eq_wasPresent ha).mpr ⟨entered, closed⟩)
      have now := (lookup_presences_eq_present hb).mpr ⟨ho, hg⟩
      simpa [Presence.conflicts] using all _ gone _ now
  · rintro step ⟨g, p⟩ he q hq
    have hp := (mem_presences_iff_lookup ha).mp he
    cases p with
    | present =>
      obtain ⟨ho, hg⟩ := (lookup_presences_eq_present ha).mp hp
      cases q with
      | present => rfl
      | wasPresent =>
        obtain ⟨entered, closed⟩ := (lookup_presences_eq_wasPresent hb).mp hq
        exact absurd ((step g hg).1 ho entered) closed
    | wasPresent =>
      obtain ⟨entered, closed⟩ := (lookup_presences_eq_wasPresent ha).mp hp
      cases q with
      | present =>
        obtain ⟨ho, hg⟩ := (lookup_presences_eq_present hb).mp hq
        exact absurd ((step g hg).2 ho entered) closed
      | wasPresent => rfl

namespace Search

open Resolver

/-! ## 3. Pairs of sightings

A pair is admitted or not by the pairs before it, of which it may take all.  The history goes back
to the last firm pair, and the atomic groups to the first one. -/

/-- Two consuming events, one of each run. -/
abbrev Pair := Sighting × Sighting

namespace Pair

/-- The sides of the pair are the same. -/
def Same (m : Pair) : Prop := (side m.1).same (side m.2) = true

/-- Neither side is in an optional iteration. -/
def isFirm (m : Pair) : Bool :=
  (side m.1).optionalQuantifiers.isEmpty && (side m.2).optionalQuantifiers.isEmpty

/-- The keys of the sides. -/
def keys (m : Pair) : Side.Key × Side.Key := ((side m.1).key, (side m.2).key)

end Pair

/-- The pairs from the last firm one on, all of them if none is firm. -/
def recent : List Pair → List Pair
  | [] => []
  | m :: ms => if ms.any Pair.isFirm then recent ms else m :: ms

theorem recent_append (ms : List Pair) (m : Pair) :
    recent (ms ++ [m]) = if m.isFirm then [m] else recent ms ++ [m] := by
  induction ms with
  | nil => simp [recent]
  | cons n ms ih =>
    rw [List.cons_append, recent, recent, ih, List.any_append]
    cases hm : m.isFirm <;> cases ha : ms.any Pair.isFirm <;> simp [hm]

/-- The two sides agree on the atomic groups: neither of them is inside of one that the other
has been in before and is in no more. -/
def InStep (atomic : List Nat) (before : List Pair) (m : Pair) : Prop :=
  ∀ g ∈ atomic,
    (g ∈ Frames.openGroups m.1.frames → (∃ b ∈ before, g ∈ Frames.openGroups b.2.frames) →
      g ∈ Frames.openGroups m.2.frames) ∧
    (g ∈ Frames.openGroups m.2.frames → (∃ b ∈ before, g ∈ Frames.openGroups b.1.frames) →
      g ∈ Frames.openGroups m.1.frames)

/-- **A pair is not given up**, given the pairs before it. -/
structure Admits (x : Context) (before : List Pair) (m : Pair) : Prop where
  starts : m.1.starts = m.2.starts
  lookarounds : Frames.lookarounds m.1.frames = Frames.lookarounds m.2.frames
  /-- As long as the sides are the same, no quantifier is in an optional iteration on both. -/
  optional : (∀ b ∈ before, b.Same) →
    ∀ q ∈ (side m.1).optionalQuantifiers, q ∉ (side m.2).optionalQuantifiers
  /-- Once they differ, the match cannot end here on both sides. -/
  unbounded : ¬ (∀ b ∈ before ++ [m], b.Same) →
    ¬ (m.1.rest.endsUnbounded x.subject = true ∧ m.2.rest.endsUnbounded x.subject = true)
  /-- Where they first differ, one loop does not just hand over to the next. -/
  loops : (∀ b ∈ before, b.Same) → ¬ m.Same → consecutiveLoops (side m.1) (side m.2) = false
  /-- The keys since the last firm pair do not end in some block twice. -/
  history : ∀ older block, (recent (before ++ [m])).map Pair.keys = older ++ block ++ block →
    block = []
  shared : ∃ g, x.shared m.1.atom m.2.atom = .ok g ∧ g.isEmpty = false
  atomics : InStep x.atomic before m

/-- No pair is given up, given the ones before it. -/
def Admissible (x : Context) (ms : List Pair) : Prop :=
  ∀ before m after, ms = before ++ m :: after → Admits x before m

/-- The trail of some pairs: what they share, and their sides. -/
def IsTrailOf (x : Context) (t : Trail) (ms : List Pair) : Prop :=
  t.entries.map (fun e => (Except.ok e.shared, e.left, e.right)) =
    ms.map fun m => (x.shared m.1.atom m.2.atom, side m.1, side m.2)

/-! ## 4. What work remembers -/

/-- A half remembers the atomic groups it has been in before. -/
def Remembers (atomic : List Nat) (a : Atomics) (half : Pair → Sighting) (before : List Pair) :
    Prop :=
  ∀ g, g ∈ a.entered ↔ g ∈ atomic ∧ ∃ b ∈ before, g ∈ Frames.openGroups (half b).frames

/-- What work remembers is what the pairs before it say. -/
structure Carries (x : Context) (w : Work) (before : List Pair) : Prop where
  left : Remembers x.atomic w.left.seen Prod.fst before
  right : Remembers x.atomic w.right.seen Prod.snd before
  trail : IsTrailOf x w.trail before
  history : w.history = ((recent before).map Pair.keys).reverse
  equal : w.equal = true ↔ ∀ b ∈ before, b.Same

theorem carries_initial (x : Context) (r : Resolver) : Carries x (Work.initial r) [] where
  left := by simp [Remembers, Work.initial, Atomics.none]
  right := by simp [Remembers, Work.initial, Atomics.none]
  trail := by simp [IsTrailOf, Work.initial, Trail.empty, Trail.entries]
  history := by simp [Work.initial, recent]
  equal := by simp [Work.initial]

/-! ## 5. The link

The conditions of `Admits` are those of a step, one by one and in the order in which they are
tried, with what is remembered replaced by what it stands for. -/

theorem sharesQuantifier_eq_false_iff {qs rs : List Quantifier} :
    sharesQuantifier qs rs = false ↔ ∀ q ∈ qs, q ∉ rs := by
  simp [sharesQuantifier]

theorem Remembers.after {atomic : List Nat} {a : Atomics} {half : Pair → Sighting}
    {before : List Pair} (h : Remembers atomic a half before) (m : Pair) :
    Remembers atomic (a.enter atomic (Frames.openGroups (half m).frames)) half
      (before ++ [m]) := by
  intro g
  rw [Atomics.mem_enter, h g]
  simp only [List.mem_append, List.mem_singleton]
  constructor
  · rintro (⟨hg, t, ht, ho⟩ | ⟨ho, hg⟩)
    · exact ⟨hg, t, .inl ht, ho⟩
    · exact ⟨hg, m, .inr rfl, ho⟩
  · rintro ⟨hg, t, ht | rfl, ho⟩
    · exact .inl ⟨hg, t, ht, ho⟩
    · exact .inr ⟨ho, hg⟩

section Link

variable {x : Context} {w : Work} {before : List Pair} {l r : Candidate}

/-- The presences of two leaves are in sync if the leaves are in step. -/
theorem isSome_sync_presences_iff (h : Carries x w before) (hl : l.seen = w.left.seen)
    (hr : r.seen = w.right.seen) :
    ((l.presences x).sync (r.presences x)).isSome = true ↔
      InStep x.atomic before (l.sighting, r.sighting) := by
  have left : ∀ g, g ∈ l.seen.entered ↔ g ∈ x.atomic ∧
      ∃ b ∈ before, g ∈ Frames.openGroups b.1.frames := by
    rw [hl]
    exact h.left
  have right : ∀ g, g ∈ r.seen.entered ↔ g ∈ x.atomic ∧
      ∃ b ∈ before, g ∈ Frames.openGroups b.2.frames := by
    rw [hr]
    exact h.right
  refine (Atomics.isSome_sync_presences (fun g hg => ((left g).mp hg).1)
    fun g hg => ((right g).mp hg).1).trans (forall₂_congr fun g hg => ?_)
  rw [left g, right g, and_iff_right hg, and_iff_right hg]
  rfl

/-- A pair is worth following if it satisfies the first five conditions. -/
theorem isPointless_eq_false_iff (h : Carries x w before) :
    isPointless x w l r = false ↔
      l.starts = r.starts ∧
      Frames.lookarounds l.frames = Frames.lookarounds r.frames ∧
      ((∀ b ∈ before, b.Same) →
        ∀ q ∈ l.side.optionalQuantifiers, q ∉ r.side.optionalQuantifiers) ∧
      (¬ (∀ b ∈ before ++ [(l.sighting, r.sighting)], b.Same) →
        ¬ (l.rest.endsUnbounded x.subject = true ∧ r.rest.endsUnbounded x.subject = true)) ∧
      ((∀ b ∈ before, b.Same) → ¬ Pair.Same (l.sighting, r.sighting) →
        consecutiveLoops l.side r.side = false) := by
  have last : (∀ b ∈ before ++ [(l.sighting, r.sighting)], b.Same) ↔
      (∀ b ∈ before, b.Same) ∧ l.side.same r.side = true := by
    simp only [List.mem_append, List.mem_singleton, or_imp, forall_and, forall_eq]
    rfl
  have same : Pair.Same (l.sighting, r.sighting) ↔ l.side.same r.side = true := Iff.rfl
  rw [last, same, ← h.equal, ← sharesQuantifier_eq_false_iff]
  unfold isPointless
  cases w.equal <;> cases l.side.same r.side <;>
    cases sharesQuantifier l.side.optionalQuantifiers r.side.optionalQuantifiers <;>
    simp [and_assoc]

theorem historyAfter_carries (h : Carries x w before) :
    historyAfter w.history l.side r.side =
      ((recent (before ++ [(l.sighting, r.sighting)])).map Pair.keys).reverse := by
  have firm : Pair.isFirm (l.sighting, r.sighting) =
      (l.side.optionalQuantifiers.isEmpty && r.side.optionalQuantifiers.isEmpty) := rfl
  have keys : Pair.keys (l.sighting, r.sighting) = (l.side.key, r.side.key) := rfl
  rw [recent_append, historyAfter, h.history, ← firm]
  cases Pair.isFirm (l.sighting, r.sighting) <;> simp [keys]

theorem endsInSquare_carries (h : Carries x w before) :
    History.endsInSquare (historyAfter w.history l.side r.side) = false ↔
      ∀ older block, (recent (before ++ [(l.sighting, r.sighting)])).map Pair.keys =
        older ++ block ++ block → block = [] := by
  rw [historyAfter_carries h, ← Bool.not_eq_true, History.endsInSquare_iff]
  constructor
  · intro none older block hk
    refine Decidable.byContradiction fun hb => none ⟨block.reverse, older.reverse, ?_, ?_⟩
    · simpa using hb
    · simp [hk]
  · rintro all ⟨block, older, hb, hk⟩
    refine hb (List.reverse_eq_nil_iff.mp (all older.reverse block.reverse ?_))
    rw [← List.reverse_reverse (List.map _ _), hk]
    simp

/-- **Work that carries some pairs proceeds exactly with the pairs they admit.**  Each condition
of the step is one of `Admits`, with what the work remembers put in. -/
theorem exists_proceed_iff_admits (h : Carries x w before) (hl : l.seen = w.left.seen)
    (hr : r.seen = w.right.seen) :
    (∃ w', compare x w l r = .ok (.proceed w')) ↔ Admits x before (l.sighting, r.sighting) := by
  simp only [compare_eq_proceed_iff, isPointless_eq_false_iff h, endsInSquare_carries h,
    isSome_sync_presences_iff h hl hr]
  constructor
  · rintro ⟨w', ⟨h1, h2, h3, h4, h5⟩, h6, h7, g, hg, he, -⟩
    exact ⟨h1, h2, h3, h4, h5, h6, ⟨g, hg, he⟩, h7⟩
  · rintro ⟨h1, h2, h3, h4, h5, h6, ⟨g, hg, he⟩, h7⟩
    exact ⟨_, ⟨h1, h2, h3, h4, h5⟩, h6, h7, g, hg, he, rfl⟩

/-- Work that proceeds with a pair carries it from then on. -/
theorem Carries.proceed {w' : Work} (h : Carries x w before) (hl : l.seen = w.left.seen)
    (hr : r.seen = w.right.seen) (hc : compare x w l r = .ok (.proceed w')) :
    Carries x w' (before ++ [(l.sighting, r.sighting)]) ∧
      w'.left.position = l.rest ∧ w'.left.starts = l.starts ∧
      w'.right.position = r.rest ∧ w'.right.starts = r.starts := by
  obtain ⟨-, -, -, shared, hs, -, rfl⟩ := compare_eq_proceed_iff.mp hc
  refine ⟨⟨?_, ?_, ?_, ?_, ?_⟩, rfl, rfl, rfl, rfl⟩
  · have := h.left.after (l.sighting, r.sighting)
    rwa [← hl] at this
  · have := h.right.after (l.sighting, r.sighting)
    rwa [← hr] at this
  · have trail := h.trail
    rw [IsTrailOf, Trail.entries] at trail
    rw [IsTrailOf, Trail.push, Trail.entries, List.reverse_cons, List.map_append, trail]
    simp [hs, Candidate.sighting, side, Candidate.side]
  · exact historyAfter_carries h
  · simp only [List.mem_append, List.mem_singleton, or_imp, forall_and, forall_eq,
      Bool.and_eq_true, h.equal]
    rfl

end Link

end Search

end Backtrack
