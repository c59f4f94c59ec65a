/-
# What a resolver remembers

A resolver is a stream with a memory: what capture groups hold, how much has been consumed, and
the last reference that stood for nothing.  `Memory.absorb` is what one event of the stream does
to the memory, and which characters it makes the resolver consume.  `Memory.exists_path` and
`Memory.exists_absorbs` join the two again: events that can be absorbed one after the other make a
path of the resolver, and every path is made of such events.

That is so along paths that take the first way where the resolver has two
(`Resolver.faithful`): a reference to a group without a record stands for nothing, and the group
is never matched anew.

The rest of this module is about the records.  `Captures.held_recordIn` says what a record adds to
every group, `Capture.isStale_eq_false_iff` when a record is still good.
-/
import Backtrack.Proofs.Derivation.Origin
import Backtrack.Proofs.Derivation.Traversal
import Backtrack.Proofs.Pattern.Trees

namespace Backtrack

/-! ## 1. Groups of a plain tree

A tree without lookarounds and without end anchors is called plain.  Its walks have no branches
that never come back, and they end at the end of the pattern only. -/

theorem mem_captureIndexes {ns : List Node} {i : Nat} :
    i ∈ captureIndexes ns ↔ ∃ g body, .group g body ∈ ns ∧ g.isCapture = true ∧ g.index = i := by
  unfold captureIndexes
  rw [List.mem_filterMap]
  constructor
  · rintro ⟨n, hn, h⟩
    split at h
    · rename_i g body
      split at h
      · rename_i hg
        exact ⟨g, body, hn, hg, Option.some.inj h⟩
      · simp at h
    · simp at h
  · rintro ⟨g, body, hn, hg, rfl⟩
    exact ⟨_, hn, by simp [hg]⟩

/-- Every capture group is found. -/
theorem Index.exists_group? {root : Node} {i : Nat} (h : i ∈ captureIndexes root.walk) :
    ∃ g body, (Index.ofNode root).group? i = some (g, body) := by
  obtain ⟨g, body, hm, hg, rfl⟩ := mem_captureIndexes.mp h
  obtain ⟨p, hp, hn⟩ := Node.exists_placed (by simp) root [] hm
  cases hf : (Index.ofNode root).group? g.index with
  | some r => exact ⟨r.1, r.2, rfl⟩
  | none =>
    have := List.findSome?_eq_none_iff.mp hf p hp
    simp [hn, hg] at this

/-- Whether the node is neither a lookaround nor an end anchor. -/
def Node.isPlain : Node → Bool
  | .group g _ => !g.isLookaround
  | .anchor _ k => k != .stop
  | _ => true

/-- There are no lookarounds and no end anchors among some nodes. -/
abbrev Plain (ns : List Node) : Prop := ∀ n ∈ ns, n.isPlain = true

theorem Plain.isLookaround {ns : List Node} (h : Plain ns) {g : Group} {body : Node}
    (hm : .group g body ∈ ns) : g.isLookaround = false := by
  simpa [Node.isPlain] using h _ hm

theorem Index.lookarounds_eq_nil {root : Node} (plain : Plain root.walk) (id : Nat) :
    (Index.ofNode root).lookarounds id = [] := by
  unfold lookarounds
  rw [List.reverse_eq_nil_iff, List.filterMap_eq_nil_iff]
  intro m hm
  unfold enclosing at hm
  cases hf : (Index.ofNode root).find? id with
  | none => simp [hf] at hm
  | some p =>
    rw [hf] at hm
    have mem := Node.mem_walk_of_mem_enclosing root (List.mem_of_find?_eq_some hf) hm
    cases m with
    | group g body => simp [plain.isLookaround (mem.resolve_left (by simp)).1]
    | _ => rfl

/-! ## 2. Records

The records are an association list, and more than one group may be recorded by one event: every
group that is open where the character is consumed.  What a lookup gives after that is said once
and for all groups (`held_recordIn`). -/

namespace Frames

/-- The numbers of the capture groups that are open, innermost first. -/
def opened (fs : Frames) : List Nat :=
  fs.filterMap fun
    | .group g => if g.isCapture then some g.index else none
    | .iteration _ => none

/-- The quantifiers around, innermost first. -/
def quantifiers (fs : Frames) : List Quantifier := fs.iterations.map (·.quantifier)

@[simp] theorem iterations_iteration (i : Iteration) (fs : Frames) :
    iterations (.iteration i :: fs) = i :: iterations fs := rfl

@[simp] theorem quantifiers_iteration (i : Iteration) (fs : Frames) :
    quantifiers (.iteration i :: fs) = i.quantifier :: quantifiers fs := rfl

theorem opened_capture {g : Group} (hg : g.isCapture = true) (fs : Frames) :
    opened (.group g :: fs) = g.index :: opened fs := by
  simp [opened, hg]

theorem opened_of_not_capture {g : Group} (hg : g.isCapture = false) (fs : Frames) :
    opened (.group g :: fs) = opened fs := by
  simp [opened, hg]

theorem isOpen_iff {fs : Frames} {i : Nat} : fs.isOpen i = true ↔ i ∈ fs.opened := by
  unfold isOpen opened
  rw [List.any_eq_true, List.mem_filterMap]
  refine exists_congr fun f => and_congr_right fun _ => ?_
  cases f with
  | iteration i => simp
  | group g =>
    cases hg : g.isCapture <;> simp

/-- The iterations around an open group, and whether one of those inside of it is of a quantifier
without an upper bound. -/
def enclosed (index : Nat) (unbounded : Bool) : Frames → Option (Bool × List Iteration)
  | [] => none
  | .iteration i :: outer => enclosed index (unbounded || i.quantifier.count.isUnbounded) outer
  | .group g :: outer =>
    if g.isCapture && g.index == index then some (unbounded, iterations outer)
    else enclosed index unbounded outer

theorem enclosed_of_not_mem {index : Nat} : ∀ {fs : Frames} (unbounded : Bool),
    index ∉ fs.opened → enclosed index unbounded fs = none
  | [], _, _ => rfl
  | .iteration i :: outer, unbounded, h =>
    (enclosed_of_not_mem _ h : enclosed index _ outer = none)
  | .group g :: outer, unbounded, h => by
    rw [enclosed]
    cases hg : g.isCapture with
    | false =>
      rw [opened_of_not_capture hg] at h
      simpa using enclosed_of_not_mem unbounded h
    | true =>
      rw [opened_capture hg, List.mem_cons, not_or] at h
      rw [if_neg (by simpa using Ne.symm h.1)]
      exact enclosed_of_not_mem unbounded h.2

theorem enclosed_eq_map {i : Nat} : ∀ (fs : Frames) (unbounded : Bool),
    fs.enclosed i unbounded = (fs.enclosed i false).map fun r => (unbounded || r.1, r.2)
  | [], _ => rfl
  | .iteration k :: outer, unbounded => by
    rw [enclosed, enclosed, enclosed_eq_map outer, enclosed_eq_map outer (false || _)]
    cases enclosed i false outer <;> simp [Bool.or_assoc]
  | .group g :: outer, unbounded => by
    rw [enclosed, enclosed]
    split
    · simp
    · exact enclosed_eq_map outer unbounded

theorem mem_opened_of_enclosed {i : Nat} {b : Bool} {its : List Iteration} {fs : Frames}
    {unbounded : Bool} (h : fs.enclosed i unbounded = some (b, its)) : i ∈ fs.opened := by
  refine Decidable.byContradiction ?_
  intro hi
  rw [enclosed_of_not_mem unbounded hi] at h
  simp at h

/-- The iterations around an open group are among the current ones. -/
theorem iterations_of_enclosed {i : Nat} {b : Bool} {its : List Iteration} :
    ∀ {fs : Frames} {unbounded : Bool}, fs.enclosed i unbounded = some (b, its) →
      its <:+ fs.iterations
  | [], _, h => by simp [enclosed] at h
  | .iteration k :: outer, unbounded, h =>
    (iterations_of_enclosed h : its <:+ iterations outer).trans (List.suffix_cons k _)
  | .group g :: outer, unbounded, h => by
    rw [enclosed] at h
    split at h
    · obtain ⟨-, rfl⟩ := Prod.mk.inj (Option.some.inj h)
      exact List.suffix_rfl
    · exact (iterations_of_enclosed h : its <:+ iterations outer)

end Frames

namespace Captures

variable {cs : Captures} {i j : Nat}

/-- What a group holds; nothing, if there is no record. -/
def held (cs : Captures) (i : Nat) : Capture := (cs.get? i).getD ⟨[], false, []⟩

theorem get?_filter_of_forall {p : Nat × Capture → Bool} (h : ∀ e ∈ cs, e.1 = i → p e = true) :
    get? (cs.filter p) i = cs.get? i := by
  unfold get?
  induction cs with
  | nil => rfl
  | cons e cs ih =>
    obtain ⟨he, hcs⟩ := List.forall_mem_cons.mp h
    obtain ⟨k, c⟩ := e
    rw [List.filter_cons, List.lookup_cons]
    by_cases hk : i = k
    · simp [he hk.symm, hk]
    · rw [beq_false_of_ne hk]
      split
      · simp only [List.lookup_cons, beq_false_of_ne hk]
        exact ih hcs
      · exact ih hcs

theorem get?_eq_none (h : ∀ e ∈ cs, e.1 ≠ i) : cs.get? i = none := by
  unfold get?
  induction cs with
  | nil => rfl
  | cons e cs ih =>
    obtain ⟨he, hcs⟩ := List.forall_mem_cons.mp h
    obtain ⟨k, c⟩ := e
    rw [List.lookup_cons, beq_false_of_ne (Ne.symm he)]
    exact ih hcs

theorem held_eq_nil (h : ∀ e ∈ cs, e.1 ≠ i) : cs.held i = ⟨[], false, []⟩ := by
  rw [held, get?_eq_none h]
  rfl

theorem held_set (c : Capture) : (cs.set i c).held j = if j = i then c else cs.held j := by
  unfold held set get?
  by_cases hj : j = i
  · simp [hj]
  · rw [List.lookup_cons, beq_false_of_ne hj, if_neg hj]
    have kept : ∀ e ∈ cs, e.1 = j → (e.1 != i) = true := by
      intro e _ he
      simpa [he] using hj
    exact congrArg (·.getD ⟨[], false, []⟩) (get?_filter_of_forall kept)

theorem extend_eq (outer : Frames) (entry : Replay) (infinite : Bool) :
    cs.extend i outer entry infinite = cs.set i ⟨(cs.held i).entries ++ [entry],
      (cs.held i).infinite || infinite, Frames.iterations outer⟩ := by
  unfold extend held
  cases cs.get? i <;> simp

/-- **What a record adds to each group.**  Groups that are open get the entry at their end, and
the others keep what they hold. -/
theorem held_recordIn {entry : Replay} : ∀ (fs : Frames) (unbounded : Bool) (cs : Captures),
    fs.opened.Nodup → (recordIn entry unbounded fs cs).held i =
      match fs.enclosed i unbounded with
      | none => cs.held i
      | some (u, its) => ⟨(cs.held i).entries ++ [entry], (cs.held i).infinite || u, its⟩
  | [], _, _, _ => rfl
  | .iteration k :: outer, unbounded, cs, h => held_recordIn outer _ cs h
  | .group g :: outer, unbounded, cs, h => by
    rw [recordIn, Frames.enclosed]
    cases hg : g.isCapture with
    | false =>
      rw [Frames.opened_of_not_capture hg] at h
      simpa using held_recordIn outer unbounded cs h
    | true =>
      rw [Frames.opened_capture hg, List.nodup_cons] at h
      simp only [if_true, Bool.true_and, beq_iff_eq]
      rw [held_recordIn outer unbounded _ h.2, extend_eq]
      by_cases hi : g.index = i
      · subst hi
        rw [if_pos rfl, Frames.enclosed_of_not_mem _ h.1, held_set, if_pos rfl]
      · rw [if_neg hi, held_set, if_neg (Ne.symm hi)]

/-- A record is an old one, or one of an open group. -/
theorem mem_recordIn {entry : Replay} {e : Nat × Capture} : ∀ (fs : Frames) (unbounded : Bool)
    (cs : Captures), fs.opened.Nodup → e ∈ recordIn entry unbounded fs cs →
      e ∈ cs ∨ ∃ u, fs.enclosed e.1 unbounded = some (u, e.2.iterations)
  | [], _, _, _, he => .inl he
  | .iteration k :: outer, unbounded, cs, h, he => mem_recordIn outer _ cs h he
  | .group g :: outer, unbounded, cs, h, he => by
    rw [recordIn] at he
    rw [Frames.enclosed]
    cases hg : g.isCapture with
    | false =>
      rw [Frames.opened_of_not_capture hg] at h
      rw [hg] at he
      simpa using mem_recordIn outer unbounded cs h he
    | true =>
      rw [Frames.opened_capture hg, List.nodup_cons] at h
      simp only [hg, if_true] at he
      rcases mem_recordIn outer unbounded _ h.2 he with he | ⟨u, hu⟩
      · rw [extend_eq, set, List.mem_cons] at he
        rcases he with rfl | he
        · exact .inr ⟨unbounded, by simp⟩
        · exact .inl (List.mem_filter.mp he).1
      · refine .inr ⟨u, ?_⟩
        rw [if_neg, hu]
        intro hi
        have hi : g.index = e.1 := by simpa using hi
        rw [Frames.enclosed_of_not_mem _ (hi ▸ h.1)] at hu
        simp at hu

end Captures

/-! ## 3. Stale records

A record keeps the iterations around its group from when it was made.  It is stale as soon as one
of those quantifiers is in another iteration, and this is tested by comparing numbers along the
frames.  The quantifiers around a place are distinct, so the test can be said without the order of
frames. -/

theorem currentIteration?_of_mem {its : List Iteration} {it : Iteration}
    (distinct : (its.map (·.quantifier)).Nodup) (h : it ∈ its) :
    currentIteration? its it.quantifier = some it.index := by
  obtain ⟨us, vs, rfl⟩ := List.append_of_mem h
  rw [List.map_append, List.map_cons, List.nodup_append, List.nodup_cons] at distinct
  have before : us.filter (·.quantifier == it.quantifier) = [] := by
    refine List.filter_eq_nil_iff.mpr ?_
    intro u hu
    simpa using distinct.2.2 _ (List.mem_map_of_mem hu) _ List.mem_cons_self
  have behind : vs.filter (·.quantifier == it.quantifier) = [] := by
    refine List.filter_eq_nil_iff.mpr fun v hv hq => distinct.2.1.1 ?_
    rw [← beq_iff_eq.mp hq]
    exact List.mem_map_of_mem hv
  rw [currentIteration?, List.filter_append, List.filter_cons, before, behind]
  simp

theorem exists_of_currentIteration? {its : List Iteration} {q : Quantifier} {k : Nat}
    (h : currentIteration? its q = some k) : ∃ it ∈ its, it.quantifier = q ∧ it.index = k := by
  obtain ⟨it, hl, rfl⟩ := Option.map_eq_some_iff.mp h
  obtain ⟨hm, hq⟩ := List.mem_filter.mp (List.mem_of_getLast? hl)
  exact ⟨it, hm, beq_iff_eq.mp hq, rfl⟩

/-- **A record is good as long as no quantifier around the group is in another iteration.**  A
quantifier that is around the group and not around the place at hand does not count. -/
theorem Capture.isStale_eq_false_iff {c : Capture} {its : List Iteration}
    (distinct : (its.map (·.quantifier)).Nodup) :
    c.isStale its = false ↔
      ∀ k ∈ c.iterations, ∀ it ∈ its, it.quantifier = k.quantifier → it.index = k.index := by
  rw [isStale, List.any_eq_false]
  refine forall_congr' fun k => imp_congr_right fun _ => ?_
  constructor
  · intro h it hit hq
    have := currentIteration?_of_mem distinct hit
    rw [hq] at this
    simpa [this] using h
  · intro h hs
    obtain ⟨i, hi, hne⟩ := (Option.any_eq_true _ _).mp hs
    obtain ⟨it, hit, hq, rfl⟩ := exists_of_currentIteration? hi
    simp [h it hit hq] at hne

/-! ## 4. Memory

`absorb` is what a resolver does with one event, taken out of `Resolver.next` and freed from
streams, feeds and branches.  With it a path of the resolver comes in two parts that can be
thought about one at a time: the events, which the tree decides, and what they do to the memory,
which the events alone decide. -/

/-- What a resolver remembers besides its stream. -/
structure Memory where
  captures : Captures
  consumed : Nat
  lastEmpty : Option (Reference × Nat)
deriving Repr

namespace Memory

/-- At the start of a pattern. -/
def initial : Memory := ⟨[], 0, none⟩

/-- Drops what is stale inside of some frames. -/
def enter (m : Memory) (fs : Frames) : Memory := { m with captures := m.captures.invalidate fs }

/-- Consumes one character and records it. -/
def consume (m : Memory) (fs : Frames) (entry : Replay) : Memory :=
  { m with
    captures := (m.captures.invalidate fs).record fs entry
    consumed := m.consumed + 1 }

/-- Consumes recorded characters one after the other. -/
def replay (m : Memory) (fs : Frames) : List Replay → Memory
  | [] => m
  | entry :: rest => (m.consume fs entry).replay fs rest

/-- Passes over a reference that stands for nothing, unless it has come around again. -/
def pass (m : Memory) (fs : Frames) (r : Reference) : Option Memory :=
  let repeated := !(Frames.iterations fs).isEmpty
  if repeated && m.lastEmpty = some (r, m.consumed) then none
  else some { m with lastEmpty := if repeated then some (r, m.consumed) else m.lastEmpty }

/-- What an event of the stream makes the resolver consume, and what it remembers then. -/
def absorb (x : Subject) (m : Memory) : Event Unit → Option (List Atom × Memory)
  | .consume fs a via => some ([a], (m.enter fs).consume fs ⟨a, via⟩)
  | .refer fs r =>
    match x.resolve (m.enter fs).captures fs r with
    | .error _ => none
    | .ok (.replay first rest) =>
      some ((first :: rest).map (·.atom), (m.enter fs).replay fs (first :: rest))
    | .ok _ => ((m.enter fs).pass fs r).map fun m' => ([], m')
  | .abort _ => none
  | .done => none
  | e => some ([], m.enter e.frames)

/-- The events can be absorbed one after the other. -/
inductive Absorbs (x : Subject) : Memory → List (Event Unit) → List Atom → Memory → Prop
  | nil (m : Memory) : Absorbs x m [] [] m
  | cons {m m₁ m₂ : Memory} {e : Event Unit} {es : List (Event Unit)} {w w' : List Atom}
    (h : m.absorb x e = some (w, m₁)) (rest : Absorbs x m₁ es w' m₂) :
    Absorbs x m (e :: es) (w ++ w') m₂

variable {x : Subject} {m m' : Memory}

theorem Absorbs.append {m₁ m₂ : Memory} {es es' : List (Event Unit)} {w w' : List Atom}
    (h : Absorbs x m es w m₁) (h' : Absorbs x m₁ es' w' m₂) :
    Absorbs x m (es ++ es') (w ++ w') m₂ := by
  induction h with
  | nil m => exact h'
  | cons h _ ih =>
    rw [List.append_assoc]
    exact .cons h (ih h')

theorem Absorbs.single {e : Event Unit} {w : List Atom} (h : m.absorb x e = some (w, m')) :
    Absorbs x m [e] w m' := by
  simpa using Absorbs.cons h (.nil m')

/-! ## 5. Paths of a resolver

First from events to paths.  What a reference stands for is pending until it has been consumed,
and the stream goes on only then, so `exists_path_pending` empties it first. -/

end Memory

/-- Whether events come from the pattern itself, and not from a group that is matched anew. -/
def Feed.isPlain : Feed → Bool
  | .plain _ => true
  | .rematch _ _ _ => false

/-- The next event, as long as no group is matched anew. -/
def Resolver.faithful (x : Subject) (r : Resolver) : Option (Event Resolver × Resolver) :=
  if r.feed.isPlain then r.step x else none

theorem Resolver.faithful_eq_some {x : Subject} {r : Resolver} {e : Event Resolver × Resolver}
    (h : r.feed.isPlain = true) : r.faithful x = some e ↔ r.next x = .ok e := by
  rw [faithful, if_pos h, step_eq_some]

theorem Resolver.step_of_faithful {x : Subject} {r : Resolver} {e : Event Resolver × Resolver}
    (h : r.faithful x = some e) : r.step x = some e := by
  unfold faithful at h
  split at h
  · exact h
  · simp at h

namespace Memory

variable {x : Subject} {m m' : Memory}

/-- A resolver with this memory, at a position of the stream. -/
def resolver (m : Memory) (s : Stream) (fs : Frames) : Resolver :=
  ⟨.plain s, m.captures, [], fs, m.consumed, m.lastEmpty⟩

variable {s t : Stream} {fs : Frames}

theorem faithful_congr {fs' : Frames}
    (h : (m.resolver s fs).next x = (m'.resolver t fs').next x) :
    (m.resolver s fs).faithful x = (m'.resolver t fs').faithful x := by
  rw [Resolver.faithful, Resolver.step, h]
  rfl

theorem next_feed {e : Event Stream} (h : s.next x.multiline = (e, t)) :
    (Feed.plain s).next x.multiline = (e.mapBranch .plain, .plain t) := by
  rw [Feed.next, h]

/-- Other events than references reach the resolver as they are. -/
theorem next_resolver {e : Event Stream} (fs₀ : Frames) (h : s.next x.multiline = (e, t))
    (he : ∀ fs r, e ≠ .refer fs r) {w : List Atom} (ok : m.absorb x e.plain = some (w, m')) :
    (m.resolver s fs₀).next x = .ok (e.mapBranch (m'.resolver · fs₀), m'.resolver t fs₀) ∧
      letters [e.plain] = w.map .atom := by
  fun_cases Resolver.next x (m.resolver s fs₀)
  case case1 hp => simp [resolver] at hp
  all_goals
    rename Feed.next _ _ = _ => hn
    obtain ⟨hm, rfl⟩ := Prod.mk.inj ((next_feed h).symm.trans hn)
    cases e <;> cases hm
  all_goals try exact absurd rfl (he _ _)
  case case7 | case8 => simp [absorb, Event.mapBranch] at ok
  all_goals
    simp only [absorb, Event.mapBranch, Option.some.injEq, Prod.mk.injEq] at ok
    obtain ⟨rfl, rfl⟩ := ok
    exact ⟨rfl, rfl⟩

/-- What becomes of a reference: recorded characters, the first at once and the others pending,
or nothing. -/
theorem next_of_refer {r : Reference} (fs₀ : Frames) (h : s.next x.multiline = (.refer fs r, t))
    {w : List Atom} (ok : m.absorb x (.refer fs r) = some (w, m')) :
    (∃ first rest, w = (first :: rest).map (·.atom) ∧
      m' = (m.enter fs).replay fs (first :: rest) ∧ (m.resolver s fs₀).next x =
        .ok (.consume fs first.atom first.via,
          { ((m.enter fs).consume fs first).resolver t fs with pending := rest })) ∨
    w = [] ∧ ((∃ b, b.feed.isPlain = false ∧
        (m.resolver s fs₀).next x = .ok (.split fs b, m'.resolver t fs₀)) ∨
      (m.resolver s fs₀).next x = (m'.resolver t fs₀).next x) := by
  fun_cases Resolver.next x (m.resolver s fs₀)
  case case1 hp => simp [resolver] at hp
  all_goals
    rename Feed.next _ _ = _ => hn
    obtain ⟨hm, rfl⟩ := Prod.mk.inj ((next_feed h).symm.trans hn)
    cases hm
  all_goals
    rename x.resolve _ _ _ = _ => hr
    replace hr : x.resolve (m.enter fs).captures fs r = _ := hr
    simp only [absorb, hr] at ok
  case case9 => simp at ok
  case case10 =>
    obtain ⟨rfl, rfl⟩ := ok
    exact .inl ⟨_, _, rfl, rfl, rfl⟩
  case case11 | case13 =>
    rename (_ && _) = true => again
    have given_up : (m.enter fs).pass fs r = none := if_pos again
    simp [given_up] at ok
  all_goals
    rename ¬(_ && _) = true => go
    have passed : (m.enter fs).pass fs r = some _ := if_neg go
    rw [passed] at ok
    obtain ⟨rfl, rfl⟩ := Prod.mk.inj (Option.some.inj ok)
  case case12 => exact .inr ⟨rfl, .inl ⟨_, rfl, rfl⟩⟩
  case case14 => exact .inr ⟨rfl, .inr rfl⟩

/-- A reference that cannot be absorbed cannot be followed, or has come around again. -/
theorem next_of_refer_eq_none {r : Reference} {e : Event Resolver} {r' : Resolver} (fs₀ : Frames)
    (h : s.next x.multiline = (.refer fs r, t)) (stuck : m.absorb x (.refer fs r) = none)
    (next : (m.resolver s fs₀).next x = .ok (e, r')) : e = .abort fs := by
  revert next
  fun_cases Resolver.next x (m.resolver s fs₀)
  case case1 hp => simp [resolver] at hp
  all_goals
    rename Feed.next _ _ = _ => hn
    obtain ⟨hm, rfl⟩ := Prod.mk.inj ((next_feed h).symm.trans hn)
    cases hm
  all_goals intro next
  case case9 => simp at next
  case case11 | case13 => exact (Prod.mk.inj (Except.ok.inj next)).1.symm
  all_goals
    rename x.resolve _ _ _ = _ => hr
    replace hr : x.resolve (m.enter fs).captures fs r = _ := hr
    simp only [absorb, hr, reduceCtorEq, Option.map_eq_none_iff] at stuck
  all_goals
    rename ¬(_ && _) = true => go
    have passed : (m.enter fs).pass fs r = some _ := if_neg go
    simp [passed] at stuck

/-- Where an event cannot be absorbed, the walk is given up. -/
theorem next_of_absorb_eq_none {e₀ : Event Stream} {e : Event Resolver} {r' : Resolver}
    (fs₀ : Frames) (h : s.next x.multiline = (e₀, t)) (stuck : m.absorb x e₀.plain = none)
    (next : (m.resolver s fs₀).next x = .ok (e, r')) :
    e.isTerminal = true ∧ ∀ fs b, e ≠ .stop fs b := by
  cases e₀ with
  | refer fs r =>
    obtain rfl := next_of_refer_eq_none fs₀ h stuck next
    exact ⟨rfl, by simp⟩
  | abort fs | done =>
    revert next
    fun_cases Resolver.next x (m.resolver s fs₀)
    case case1 hp => simp [resolver] at hp
    all_goals
      rename Feed.next _ _ = _ => hn
      obtain ⟨hm, rfl⟩ := Prod.mk.inj ((next_feed h).symm.trans hn)
      cases hm
    intro next
    obtain ⟨rfl, -⟩ := Prod.mk.inj (Except.ok.inj next)
    exact ⟨rfl, by simp⟩
  | _ => simp [absorb, Event.mapBranch] at stuck

/-- What is pending comes first. -/
theorem faithful_pending (m : Memory) (s : Stream) (fs : Frames) (entry : Replay)
    (rest : List Replay) :
    Resolver.faithful x { m.resolver s fs with pending := entry :: rest } =
      some (.consume fs entry.atom entry.via,
        { (m.consume fs entry).resolver s fs with pending := rest }) := by
  rw [Resolver.faithful_eq_some rfl, Resolver.next]
  rfl

/-- What is pending is consumed before anything else. -/
theorem exists_path_pending {es : List (Event Unit)} : ∀ (pending : List Replay) (m : Memory),
    Path (Resolver.faithful x) ((m.replay fs pending).resolver t fs) es →
    ∃ es', Path (Resolver.faithful x) { m.resolver t fs with pending := pending } es' ∧
      letters es' = pending.map (.atom ·.atom) ++ letters es
  | [], m, hp => ⟨es, hp, rfl⟩
  | entry :: rest, m, hp => by
    obtain ⟨es', hp', hl⟩ := exists_path_pending rest (m.consume fs entry) hp
    refine ⟨_, .cons (.onward (faithful_pending m t fs entry rest) rfl) hp', ?_⟩
    rw [letters_cons, hl]
    rfl

/-- **Events that can be absorbed make a path of the resolver.**  The induction is on the path of
the stream; each of its events is turned into the steps of the resolver that absorb it. -/
theorem exists_path {es : List (Event Unit)} (hp : Path (Stream.step x.multiline) s es) :
    ∀ {m m' : Memory} {w : List Atom} (fs₀ : Frames), Absorbs x m es w m' →
      ∃ es', Path (Resolver.faithful x) (m.resolver s fs₀) es' ∧ letters es' = w.map .atom := by
  induction hp with
  | @stop s t fs b hn =>
    intro m m' w fs₀ h
    cases h with
    | cons ok rest =>
      cases rest
      obtain ⟨next, hl⟩ := next_resolver (e := .stop fs b) fs₀ (Option.some.inj hn) (by simp) ok
      refine ⟨_, .stop ((Resolver.faithful_eq_some rfl).mpr next), ?_⟩
      rw [List.append_nil]
      exact hl
  | @cons s t e es hs hp ih =>
    intro m m' w fs₀ h
    cases h with
    | @cons _ m₁ _ _ _ w₁ w₂ ok rest =>
      obtain ⟨t', hn⟩ : ∃ t', s.next x.multiline = (e, t') := by
        cases hs with
        | onward hn _ => exact ⟨_, Option.some.inj hn⟩
        | aside hn => exact ⟨_, Option.some.inj hn⟩
      by_cases he : ∃ fs r, e = .refer fs r
      · obtain ⟨fs, r, rfl⟩ := he
        obtain rfl : t' = t := by
          cases hs with
          | onward hn' _ => exact (Prod.mk.inj (hn.symm.trans (Option.some.inj hn'))).2
        rcases next_of_refer fs₀ hn ok with
          ⟨first, others, rfl, rfl, next⟩ | ⟨rfl, ⟨b, -, next⟩ | next⟩
        · obtain ⟨es', hp', hl⟩ := ih fs rest
          obtain ⟨es'', hp'', hl'⟩ := exists_path_pending others
            ((m.enter fs).consume fs first) hp'
          refine ⟨_, .cons (.onward ((Resolver.faithful_eq_some rfl).mpr next) rfl) hp'', ?_⟩
          rw [letters_cons, hl', hl]
          simp [letters, Event.letter?, Event.mapBranch, Function.comp_def]
        · obtain ⟨es', hp', hl⟩ := ih fs₀ rest
          have split := (Resolver.faithful_eq_some (x := x) rfl).mpr next
          exact ⟨_, .cons (e := .split fs b) (.onward split rfl) hp', hl⟩
        · obtain ⟨es', hp', hl⟩ := ih fs₀ rest
          exact ⟨es', hp'.congr (faithful_congr next).symm, hl⟩
      · obtain ⟨next, hl⟩ := next_resolver fs₀ hn (by simpa using he) ok
        obtain ⟨es', hp', hl'⟩ := ih fs₀ rest
        have step : Step (Resolver.faithful x) (m.resolver s fs₀)
            (e.mapBranch (m₁.resolver · fs₀)) (m₁.resolver t fs₀) := by
          cases hs with
          | onward hn' ht =>
            obtain ⟨-, rfl⟩ := Prod.mk.inj (hn.symm.trans (Option.some.inj hn'))
            exact .onward ((Resolver.faithful_eq_some rfl).mpr next) (by simpa using ht)
          | aside => exact .aside ((Resolver.faithful_eq_some rfl).mpr next)
        refine ⟨_, .cons step hp', ?_⟩
        rw [letters_cons, hl', List.map_append, ← hl]
        cases e <;> rfl

/-! Now the other way round.  A path of the resolver is taken apart event by event of the stream.
What it goes on with is shorter, except after a reference that stands for nothing, which leaves no
trace in the path; but then the stream has less to do. -/

/-- How a path goes on after one event of the stream, which can be absorbed. -/
inductive GoesOn (x : Subject) (m : Memory) (s : Stream) (es : List (Event Unit)) : Prop
  | stop {fs : Frames} {b : Bool} {t : Stream} {w : List Atom} {m' : Memory}
    (here : Stream.step x.multiline s = some (.stop fs b, t))
    (ok : m.absorb x (.stop fs b) = some (w, m')) (hl : letters es = w.map .atom)
  | step {e : Event Stream} {t : Stream} {w : List Atom} {fs : Frames} {es' : List (Event Unit)}
    (m' : Memory) (pending : List Replay) (step : Step (Stream.step x.multiline) s e t)
    (ok : m.absorb x e.plain = some (w, m'.replay fs pending))
    (later : Path (Resolver.faithful x) { m'.resolver t fs with pending := pending } es')
    (hl : ∀ ls, letters es' = pending.map (.atom ·.atom) ++ ls → letters es = w.map .atom ++ ls)
    (less : es'.length < es.length ∨ es'.length = es.length ∧ t.weight < s.weight)

variable {es : List (Event Unit)} {w : List Atom}

/-- What a path goes on with after a reference. -/
theorem goesOn_of_refer {fs' : Frames} {r : Reference} (hs : s.next x.multiline = (.refer fs' r, t))
    (ok : m.absorb x (.refer fs' r) = some (w, m'))
    (hp : Path (Resolver.faithful x) (m.resolver s fs) es) : GoesOn x m s es := by
  have step : Step (Stream.step x.multiline) s (.refer fs' r) t := .onward (congrArg some hs) rfl
  rcases next_of_refer fs hs ok with ⟨first, rest, rfl, rfl, next⟩ | ⟨rfl, ⟨b, anew, next⟩ | next⟩
  · -- The first recorded character is consumed, and the others are pending.
    obtain ⟨es', rfl, later⟩ :=
      (path_iff_of_next ((Resolver.faithful_eq_some rfl).mpr next) rfl (by simp)).mp hp
    refine .step ((m.enter fs').consume fs' first) rest step ok later (fun ls hl => ?_)
      (.inl (Nat.lt_succ_self _))
    rw [letters_cons, hl]
    simp [letters, Event.letter?, Event.mapBranch, Function.comp_def]
  · obtain ⟨es', rfl, later | later⟩ :=
      (path_iff_of_split ((Resolver.faithful_eq_some rfl).mpr next)).mp hp
    · exact .step m' [] step ok later (fun ls hl => hl) (.inl (Nat.lt_succ_self _))
    · obtain ⟨_, _, hb⟩ := later.exists_next
      simp [Resolver.faithful, anew] at hb
  · have less := @Stream.weight_next_lt x.multiline s
    rw [hs] at less
    exact .step m' [] step ok (hp.congr (faithful_congr next)) (fun ls hl => hl)
      (.inr ⟨rfl, less rfl⟩)

/-- What a path goes on with after another event. -/
theorem goesOn_of_next {e : Event Stream} (hs : s.next x.multiline = (e, t))
    (unmet : ∀ fs r, e ≠ .refer fs r) (ok : m.absorb x e.plain = some (w, m'))
    (hp : Path (Resolver.faithful x) (m.resolver s fs) es) : GoesOn x m s es := by
  obtain ⟨next, letter⟩ := next_resolver fs hs unmet ok
  have hf := (Resolver.faithful_eq_some (x := x) rfl).mpr next
  have here : Stream.step x.multiline s = some (e, t) := congrArg some hs
  -- Whichever way the walk goes on, the rest of it is a path again.
  have onward : ∀ {t' es'}, Step (Stream.step x.multiline) s e t' → es = e.plain :: es' →
      Path (Resolver.faithful x) (m'.resolver t' fs) es' → GoesOn x m s es := by
    rintro t' es' step rfl later
    refine .step m' [] step ok later (fun ls hl => ?_) (.inl (Nat.lt_succ_self _))
    rw [letters_cons, letter, hl]
    rfl
  cases e with
  | stop =>
    rw [(path_iff_of_stop hf).mp hp]
    exact .stop here ok letter
  | split =>
    obtain ⟨es', hes, later | later⟩ := (path_iff_of_split hf).mp hp
    · exact onward (.onward here rfl) hes later
    · exact onward (.aside here) hes later
  | refer => exact absurd rfl (unmet _ _)
  | abort | done => simp [absorb, Event.mapBranch] at ok
  | consume | skip | start =>
    obtain ⟨es', hes, later⟩ := (path_iff_of_next hf rfl (by simp [Event.mapBranch])).mp hp
    exact onward (.onward here rfl) hes later

/-- **A path of the resolver goes on** after an event that can be absorbed. -/
theorem goesOn_of_path (hp : Path (Resolver.faithful x) (m.resolver s fs) es) :
    GoesOn x m s es := by
  obtain ⟨e', r', hf⟩ := hp.exists_next
  have next := (Resolver.faithful_eq_some rfl).mp hf
  cases hs : s.next x.multiline with
  | mk e t =>
    cases ok : m.absorb x e.plain with
    | none =>
      obtain ⟨terminal, going⟩ := next_of_absorb_eq_none fs hs ok next
      exact absurd hp (not_path_of_terminal hf terminal going)
    | some a =>
      by_cases he : ∃ fs r, e = .refer fs r
      · obtain ⟨fs', r, rfl⟩ := he
        exact goesOn_of_refer hs ok hp
      · exact goesOn_of_next hs (by simpa using he) ok hp

/-- **Every path along which no group is matched anew is one of absorbed events.**  The induction
is on the length of the path and on how much the stream has left to do, in this order.  Only a
reference that stands for nothing leaves the length as it is, and it takes a task off the
stream. -/
theorem exists_absorbs : ∀ {es' : List (Event Unit)} (pending : List Replay) {s : Stream}
    {m : Memory} {fs : Frames},
    Path (Resolver.faithful x) { m.resolver s fs with pending := pending } es' →
    ∃ es w m', Path (Stream.step x.multiline) s es ∧ Absorbs x (m.replay fs pending) es w m' ∧
      letters es' = pending.map (.atom ·.atom) ++ w.map .atom
  | es', entry :: rest, s, m, fs, hp => by
    obtain ⟨es'', hes, later⟩ :=
      (path_iff_of_next (faithful_pending m s fs entry rest) rfl (by simp)).mp hp
    have shorter : es''.length < es'.length := by simp [hes]
    obtain ⟨es, w, m', path, absorbs, hl⟩ := exists_absorbs rest later
    refine ⟨es, w, m', path, absorbs, ?_⟩
    rw [hes, letters_cons, hl]
    rfl
  | es', [], s, m, fs, hp => by
    cases goesOn_of_path hp with
    | stop here ok hl => exact ⟨_, _, _, .stop here, .single ok, hl⟩
    | step m' pending step ok later hl less =>
      obtain ⟨es, w, m₁, path, absorbs, hl'⟩ := exists_absorbs pending later
      refine ⟨_, _, m₁, .cons step path, .cons ok absorbs, ?_⟩
      rw [hl _ hl', List.map_append]
      rfl
termination_by es' _ s => (es'.length, s.weight)
decreasing_by
  · exact .left _ _ shorter
  · exact Prod.lex_def.mpr less

end Memory

/-! ## 6. What a reference stands for

The memory decides what becomes of a reference, and here it is said by what the group holds, as
derivations do. -/

section Resolve

variable {root : Node} {cs : Captures} {fs : Frames} {r : Reference}

/-- A reference to a group that is open or holds nothing is not replayed. -/
theorem resolve_of_nil (multiline : Bool) (plain : Plain root.walk)
    (h : r.index ∈ fs.opened ∨ (cs.held r.index).entries = []) :
    ∃ res, Subject.resolve ⟨Index.ofNode root, multiline⟩ cs fs r = .ok res ∧
      ∀ first rest, res ≠ .replay first rest := by
  unfold Subject.resolve
  split
  · exact ⟨_, rfl, by simp⟩
  · rename_i closed
    have empty : (cs.held r.index).entries = [] :=
      h.resolve_left fun h => closed (Frames.isOpen_iff.mpr h)
    split
    · exact ⟨_, rfl, by simp⟩
    · rename_i g body _
      rw [Captures.held] at empty
      simp only [Index.lookarounds_eq_nil plain, empty, List.filter_nil, List.any_nil,
        List.isEmpty_nil, List.map_nil]
      refine ⟨_, rfl, ?_⟩
      intro first rest
      split <;> simp

/-- A reference to a group that holds something is replayed, character by character, or cannot be
followed. -/
theorem resolve_of_cons (multiline : Bool) (plain : Plain root.walk)
    (closed : r.index ∉ fs.opened) (known : r.index ∈ captureIndexes root.walk)
    {first : Replay} {rest : List Replay} (h : (cs.held r.index).entries = first :: rest) :
    Subject.resolve ⟨Index.ofNode root, multiline⟩ cs fs r =
      if (cs.held r.index).infinite then .error ⟨r, .unbounded⟩
      else .ok (.replay ⟨first.atom, first.via ++ [r]⟩
        (rest.map fun e => ⟨e.atom, e.via ++ [r]⟩)) := by
  obtain ⟨g, body, hg⟩ := Index.exists_group? known
  have hopen : fs.isOpen r.index = false := by
    simpa using fun h => closed (Frames.isOpen_iff.mp h)
  rw [Captures.held] at h ⊢
  simp only [Subject.resolve, hopen, hg, Index.lookarounds_eq_nil plain, h]
  rfl

/-- What is open and what has been recorded may keep a body from being matched again, but does
not change the body. -/
theorem Subject.resolve_rematch {x : Subject} {body : Node}
    (h : x.resolve cs fs r = .ok (.rematch body)) :
    r.index ∉ fs.opened ∧ x.resolve [] [] r = .ok (.rematch body) ∧
      ∃ g, x.index.group? r.index = some (g, body) := by
  unfold resolve at h
  split at h
  · simp at h
  rename_i closed
  refine ⟨fun hm => closed (Frames.isOpen_iff.mpr hm), ?_⟩
  unfold resolve
  rw [if_neg (by simp [Frames.isOpen])]
  split at h
  · simp at h
  rename_i g body' hg
  rw [hg]
  dsimp only at h ⊢
  split at h
  · simp at h
  rename_i positive
  rw [if_neg positive]
  split at h
  · simp at h
  rename_i inside
  rw [if_neg inside]
  split at h
  · split at h
    · rename_i unset
      obtain rfl : body' = body := by simpa using h
      simp [Captures.get?, unset]
    · simp at h
  · split at h <;> simp at h

end Resolve

end Backtrack
