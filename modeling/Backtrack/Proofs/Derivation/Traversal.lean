/-
# The paths of a stream, node by node

A stream works on a list of tasks, and what a node does is spread over many steps: the tasks it
leaves behind are mixed with those of the nodes around it.  `Node.Traverses` says the same thing
by recursion on the tree: these are the events of one way through this node, and the walk goes on
behind it or has ended inside.

`path_of_traverses` and `traverses_of_path` show that the two agree, for any tasks behind the
node and any number of characters consumed before it: a path through a stream is a way through
its first node followed by a path through the rest.

Lookarounds have ways of their own, on branches that never come back.  They are left aside here,
and a path that takes one is told by the frames of its events.
-/
import Backtrack.Proofs.Derivation.Runs
import Backtrack.Proofs.Derivation.Unfolding

namespace Backtrack

/-! ## 1. What can be read off events

A quantifier is left early when an iteration has met no leaf and no reference, which the stream
tells by a counter.  A way through a body has no counter.  It has its events, so what the counter
would have shown is read off them: `letters` are the events it counts. -/

/-- The leaf or the reference an event is about. -/
def Event.letter? {κ : Type} : Event κ → Option Node
  | .consume _ a _ => some (.atom a)
  | .refer _ r => some (.reference r)
  | _ => none

/-- The leaves and references some events are about, in order. -/
def letters (es : List (Event Unit)) : List Node := es.filterMap Event.letter?

@[simp] theorem letters_nil : letters [] = [] := rfl

@[simp] theorem letters_append (es fs : List (Event Unit)) :
    letters (es ++ fs) = letters es ++ letters fs := List.filterMap_append

theorem letters_cons (e : Event Unit) (es : List (Event Unit)) :
    letters (e :: es) = letters [e] ++ letters es := letters_append [e] es

@[simp] theorem letters_skip (fs : Frames) (es : List (Event Unit)) :
    letters (.skip fs :: es) = letters es := rfl

@[simp] theorem letters_start (fs : Frames) (es : List (Event Unit)) :
    letters (.start fs :: es) = letters es := rfl

@[simp] theorem letters_split (fs : Frames) (b : Unit) (es : List (Event Unit)) :
    letters (.split fs b :: es) = letters es := rfl

@[simp] theorem letters_stop (fs : Frames) (b : Bool) (es : List (Event Unit)) :
    letters (.stop fs b :: es) = letters es := rfl

/-- No event is inside of a lookaround. -/
def Outside (es : List (Event Unit)) : Prop := ∀ e ∈ es, Frames.lookarounds e.frames = []

theorem outside_append {es fs : List (Event Unit)} :
    Outside (es ++ fs) ↔ Outside es ∧ Outside fs := List.forall_mem_append

theorem outside_cons {e : Event Unit} {es : List (Event Unit)} :
    Outside (e :: es) ↔ Frames.lookarounds e.frames = [] ∧ Outside es := List.forall_mem_cons

/-! ## 2. Ways through a node

The ways are given by recursion on the tree, and the rounds of a quantifier by an inductive
relation over the ways through its body.  The relation counts idle iterations as the stream does,
for the number of iterations a stream can do depends on it. -/

/-- The split at which an iteration that is not needed is offered. -/
def offer (q : Quantifier) (fs : Frames) (i : Nat) : List (Event Unit) :=
  if i < q.count.min then [] else [.split fs ()]

/-- The ways through what is left of a quantifier before iteration `i`, after `idle` iterations
running that consumed nothing; `B` are the ways through the body. -/
inductive Rounds (q : Quantifier) (fs : Frames) (B : Frames → List (Event Unit) → Bool → Prop) :
    Nat → Nat → List (Event Unit) → Bool → Prop
  /-- There are no more iterations. -/
  | exhausted {i idle : Nat} (h : q.count.isExhausted i = true) : Rounds q fs B i idle [] false
  /-- No more iterations are needed. -/
  | leave {i idle : Nat} (h : q.count.isExhausted i = false) (hm : q.count.min ≤ i) :
    Rounds q fs B i idle [.split fs ()] false
  /-- The walk ends in this iteration. -/
  | ends {i idle : Nat} {es : List (Event Unit)} (h : q.count.isExhausted i = false)
    (hb : B (Stream.iterationFrame q i :: fs) es true) :
    Rounds q fs B i idle (offer q fs i ++ .skip (Stream.iterationFrame q i :: fs) :: es) true
  /-- This iteration consumes nothing, and the one before did not either. -/
  | idles {i idle : Nat} {es : List (Event Unit)} (h : q.count.isExhausted i = false)
    (hb : B (Stream.iterationFrame q i :: fs) es false) (quiet : letters es = [])
    (hi : 1 ≤ idle) :
    Rounds q fs B i idle (offer q fs i ++ .skip (Stream.iterationFrame q i :: fs) :: es) false
  /-- After this iteration comes the next. -/
  | next {i idle idle' : Nat} {es es' : List (Event Unit)} {ended : Bool}
    (h : q.count.isExhausted i = false) (hb : B (Stream.iterationFrame q i :: fs) es false)
    (hi : idle' = if letters es = [] then idle + 1 else 0) (lt : idle' < 2)
    (rest : Rounds q fs B (i + 1) idle' es' ended) :
    Rounds q fs B i idle
      (offer q fs i ++ .skip (Stream.iterationFrame q i :: fs) :: (es ++ es')) ended

namespace Node

mutual

/-- The events of one way through a node; the flag tells whether the walk ends inside. -/
def Traverses (multiline : Bool) : Node → Frames → List (Event Unit) → Bool → Prop
  | atom a, fs, es, ended => es = [.consume fs a []] ∧ ended = false
  | reference r, fs, es, ended => es = [.refer fs r] ∧ ended = false
  | anchor _ k, fs, es, ended =>
    match k, multiline with
    | .start, false => es = [.start fs] ∧ ended = false
    | .stop, false => es = [.stop fs true] ∧ ended = true
    | _, _ => es = [.skip fs] ∧ ended = false
  | group g body, fs, es, ended =>
    if g.isLookaround then es = [.split fs ()] ∧ ended = false
    else body.Traverses multiline (.group g :: fs) es ended
  | quantifier q body, fs, es, ended =>
    ∃ es', es = .skip fs :: es' ∧ Rounds q fs (body.Traverses multiline) 0 0 es' ended
  | sequence _ ns, fs, es, ended => TraversesAll multiline ns fs es ended
  | alternation _ ns, fs, es, ended => TraversesOne multiline ns fs es ended

/-- The ways through several nodes, one after the other. -/
def TraversesAll (multiline : Bool) : List Node → Frames → List (Event Unit) → Bool → Prop
  | [], _, es, ended => es = [] ∧ ended = false
  | n :: ns, fs, es, ended =>
    (ended = true ∧ n.Traverses multiline fs es true) ∨
      ∃ es₁ es₂, es = es₁ ++ es₂ ∧ n.Traverses multiline fs es₁ false ∧
        TraversesAll multiline ns fs es₂ ended

/-- The ways through one of several nodes. -/
def TraversesOne (multiline : Bool) : List Node → Frames → List (Event Unit) → Bool → Prop
  | [], _, es, ended => es = [] ∧ ended = false
  | [n], fs, es, ended => n.Traverses multiline fs es ended
  | n :: m :: ns, fs, es, ended =>
    ∃ es', es = .split fs () :: es' ∧
      (n.Traverses multiline fs es' ended ∨ TraversesOne multiline (m :: ns) fs es' ended)

end

end Node

/-! ## 3. Paths, task by task

One equation for each kind of task.  The two directions below both rest on these, and none of them
looks at `nextFrom` again. -/

namespace Stream

/-- The next event of a stream; there always is one. -/
def step (multiline : Bool) (s : Stream) : Option (Event Stream × Stream) :=
  some (s.next multiline)

variable {multiline : Bool} {c : Nat} {rest : List Task} {fs : Frames} {es : List (Event Unit)}

/-- Paths of a stream, given by what is left to do. -/
abbrev PathFrom (multiline : Bool) (c : Nat) (todo : List Task) (es : List (Event Unit)) : Prop :=
  Path (step multiline) ⟨todo, c⟩ es

theorem path_congr {todo todo' : List Task}
    (h : nextFrom multiline c todo = nextFrom multiline c todo') :
    PathFrom multiline c todo es ↔ PathFrom multiline c todo' es :=
  ⟨.congr (congrArg some h), .congr (congrArg some h.symm)⟩

-- The proofs below evaluate one step of a stream.
attribute [local simp] nextFrom

theorem path_atom {a : Atom} : PathFrom multiline c (.visit (.atom a) fs :: rest) es ↔
    ∃ es', es = .consume fs a [] :: es' ∧ PathFrom multiline (c + 1) rest es' :=
  path_iff_of_next (e := .consume fs a []) (by simp [step, next]) rfl (by simp)

theorem path_reference {r : Reference} :
    PathFrom multiline c (.visit (.reference r) fs :: rest) es ↔
      ∃ es', es = .refer fs r :: es' ∧ PathFrom multiline (c + 1) rest es' :=
  path_iff_of_next (e := .refer fs r) (by simp [step, next]) rfl (by simp)

theorem path_anchor {s : Site} {k : Anchor} :
    PathFrom multiline c (.visit (.anchor s k) fs :: rest) es ↔
      match k, multiline with
      | .start, false => ∃ es', es = .start fs :: es' ∧ PathFrom multiline c rest es'
      | .stop, false => es = [.stop fs true]
      | _, _ => ∃ es', es = .skip fs :: es' ∧ PathFrom multiline c rest es' := by
  split
  · exact path_iff_of_next (e := .start fs) (by simp [step, next]) rfl (by simp)
  · exact path_iff_of_stop (t := ended) (by simp [step, next])
  · refine path_iff_of_next (e := .skip fs) ?_ rfl (by simp)
    rw [step, next, nextFrom] <;> assumption

theorem path_group {g : Group} {body : Node} (hg : g.isLookaround = false) :
    PathFrom multiline c (.visit (.group g body) fs :: rest) es ↔
      PathFrom multiline c (.visit body (.group g :: fs) :: rest) es := by
  refine path_congr ?_
  rw [nextFrom]
  simp [hg]

theorem path_lookaround {g : Group} {body : Node} (hg : g.isLookaround = true) :
    PathFrom multiline c (.visit (.group g body) fs :: rest) es ↔
      ∃ es', es = .split fs () :: es' ∧ (PathFrom multiline c rest es' ∨
        PathFrom multiline c [.visit body (.group g :: fs), .finish (.group g :: fs)] es') := by
  refine path_iff_of_split ?_
  rw [step, next, nextFrom]
  simp [hg]

theorem path_quantifier {q : Quantifier} {body : Node} :
    PathFrom multiline c (.visit (.quantifier q body) fs :: rest) es ↔
      ∃ es', es = .skip fs :: es' ∧ PathFrom multiline c (.iterate q body fs 0 0 :: rest) es' :=
  path_iff_of_next (e := .skip fs) (by simp [step, next]) rfl (by simp)

theorem path_sequence {s : Site} {ns : List Node} :
    PathFrom multiline c (.visit (.sequence s ns) fs :: rest) es ↔
      PathFrom multiline c (Task.visits ns fs ++ rest) es :=
  path_congr (by simp)

theorem path_alternation {s : Site} {ns : List Node} :
    PathFrom multiline c (.visit (.alternation s ns) fs :: rest) es ↔
      PathFrom multiline c (.choose ns fs :: rest) es :=
  path_congr (by simp)

theorem path_choose_nil : PathFrom multiline c (.choose [] fs :: rest) es ↔
    PathFrom multiline c rest es :=
  path_congr (by simp)

theorem path_choose_one {n : Node} : PathFrom multiline c (.choose [n] fs :: rest) es ↔
    PathFrom multiline c (.visit n fs :: rest) es :=
  path_congr (by simp)

theorem path_choose {n m : Node} {ns : List Node} :
    PathFrom multiline c (.choose (n :: m :: ns) fs :: rest) es ↔
      ∃ es', es = .split fs () :: es' ∧
        (PathFrom multiline c (.choose (m :: ns) fs :: rest) es' ∨
          PathFrom multiline c (.visit n fs :: rest) es') :=
  path_iff_of_split (by simp [step, next])

section Quantifiers

variable {q : Quantifier} {body : Node} {i idle : Nat}

theorem path_exhausted (h : q.count.isExhausted i = true) :
    PathFrom multiline c (.iterate q body fs i idle :: rest) es ↔
      PathFrom multiline c rest es := by
  refine path_congr ?_
  rw [nextFrom]
  simp [h]

/-- An iteration that is not needed is offered first. -/
theorem path_iterate (h : q.count.isExhausted i = false) :
    PathFrom multiline c (.iterate q body fs i idle :: rest) es ↔
      (∃ es', es = offer q fs i ++ es' ∧
        PathFrom multiline c (.enter q body fs i idle :: rest) es') ∨
      (q.count.min ≤ i ∧ ∃ es', es = .split fs () :: es' ∧ PathFrom multiline c rest es') := by
  by_cases hm : i < q.count.min
  · have : PathFrom multiline c (.iterate q body fs i idle :: rest) es ↔
        PathFrom multiline c (.enter q body fs i idle :: rest) es := by
      refine path_congr ?_
      rw [nextFrom]
      simp [h, hm]
    rw [this, offer, if_pos hm]
    simp [Nat.not_le.mpr hm]
  · have : PathFrom multiline c (.iterate q body fs i idle :: rest) es ↔
        ∃ es', es = .split fs () :: es' ∧ (PathFrom multiline c rest es' ∨
          PathFrom multiline c (.enter q body fs i idle :: rest) es') := by
      refine path_iff_of_split ?_
      rw [step, next, nextFrom]
      simp [h, hm]
    rw [this, offer, if_neg hm]
    constructor
    · rintro ⟨es', rfl, hp | hp⟩
      · exact .inr ⟨Nat.le_of_not_lt hm, es', rfl, hp⟩
      · exact .inl ⟨es', rfl, hp⟩
    · rintro (⟨es', rfl, hp⟩ | ⟨-, es', rfl, hp⟩)
      · exact ⟨es', rfl, .inr hp⟩
      · exact ⟨es', rfl, .inl hp⟩

theorem path_enter : PathFrom multiline c (.enter q body fs i idle :: rest) es ↔
    ∃ es', es = .skip (iterationFrame q i :: fs) :: es' ∧
      PathFrom multiline c
        (.visit body (iterationFrame q i :: fs) :: .leave q body fs i c idle :: rest) es' :=
  path_iff_of_next (e := .skip (iterationFrame q i :: fs)) (by simp [step, next]) rfl
    (by simp)

theorem path_leave {mark : Nat} (hm : mark ≤ c) {idle' : Nat}
    (hi : idle' = if c - mark = 0 then idle + 1 else 0) :
    PathFrom multiline c (.leave q body fs i mark idle :: rest) es ↔
      if 2 ≤ idle' then PathFrom multiline c rest es
      else PathFrom multiline c (.iterate q body fs (i + 1) idle' :: rest) es := by
  have same : (if c = mark then idle + 1 else 0) = idle' := by
    rw [hi]
    by_cases h : c = mark
    · simp [h]
    · rw [if_neg h, if_neg (by omega)]
  split
  · rename_i h
    refine path_congr ?_
    conv => lhs; rw [nextFrom, same, if_pos h]
  · rename_i h
    refine path_congr ?_
    conv => lhs; rw [nextFrom, same, if_neg h]

end Quantifiers

theorem path_finish : PathFrom multiline c (.finish fs :: rest) es ↔ es = [.stop fs false] :=
  path_iff_of_stop (t := ended) (by simp [step, next])

/-! ## 4. From ways to paths

By recursion on the tree, for any tasks behind the node and with the number of characters consumed
so far as a parameter.  A way may end the walk, and then the tasks behind the node do not matter;
`Continues` says both cases at once, so that ways can be put together without asking whether the
first one has ended. -/

/-- All events after a node was met: those of a way through it, and then those of a path through
the rest, unless the walk has ended. -/
inductive Continues (multiline : Bool) (c : Nat) (rest : List Task) :
    List (Event Unit) → Bool → List (Event Unit) → Prop
  | ended (es : List (Event Unit)) : Continues multiline c rest es true es
  | onward {es es' : List (Event Unit)}
    (h : PathFrom multiline (c + (letters es).length) rest es') :
    Continues multiline c rest es false (es ++ es')

theorem continues_nil {ended : Bool} {full : List (Event Unit)} (h : ended = false) :
    Continues multiline c rest [] ended full ↔ PathFrom multiline c rest full := by
  constructor
  · rintro (_ | hp)
    · simp at h
    · exact hp
  · intro hp
    rw [h]
    exact @Continues.onward multiline c rest [] full hp

theorem continues_append {es₁ es₂ full : List (Event Unit)} {ended : Bool} :
    Continues multiline c rest (es₁ ++ es₂) ended full ↔
      ∃ full', full = es₁ ++ full' ∧
        Continues multiline (c + (letters es₁).length) rest es₂ ended full' := by
  have count : c + (letters (es₁ ++ es₂)).length =
      c + (letters es₁).length + (letters es₂).length := by
    rw [letters_append, List.length_append, Nat.add_assoc]
  constructor
  · intro h
    cases h with
    | ended => exact ⟨es₂, rfl, .ended es₂⟩
    | onward hp => exact ⟨_, List.append_assoc .., .onward (count ▸ hp)⟩
  · rintro ⟨full', rfl, h⟩
    cases h with
    | ended => exact .ended _
    | onward hp =>
      rw [← List.append_assoc]
      exact .onward (count ▸ hp)

theorem continues_cons {e : Event Unit} {es full : List (Event Unit)} {ended : Bool} :
    Continues multiline c rest (e :: es) ended full ↔
      ∃ full', full = e :: full' ∧
        Continues multiline (c + (letters [e]).length) rest es ended full' :=
  (continues_append : Continues multiline c rest ([e] ++ es) ended full ↔ _)

/-- The offer of an iteration consumes nothing. -/
@[simp] theorem letters_offer (q : Quantifier) (fs : Frames) (i : Nat) :
    letters (offer q fs i) = [] := by
  unfold offer
  split <;> rfl

/-- The ways through a body are paths. -/
def Follows (multiline : Bool) (body : Node) : Prop :=
  ∀ ⦃fs : Frames⦄ ⦃es full : List (Event Unit)⦄ ⦃ended : Bool⦄ ⦃c : Nat⦄ ⦃rest : List Task⦄,
    body.Traverses multiline fs es ended → Continues multiline c rest es ended full →
      PathFrom multiline c (.visit body fs :: rest) full

theorem path_of_rounds {q : Quantifier} {body : Node} (follows : Follows multiline body)
    {i idle : Nat} {ended : Bool} (h : Rounds q fs (body.Traverses multiline) i idle es ended) :
    ∀ {c : Nat} {full : List (Event Unit)}, Continues multiline c rest es ended full →
      PathFrom multiline c (.iterate q body fs i idle :: rest) full := by
  induction h with
  | exhausted h =>
    intro c full hc
    exact (path_exhausted h).mpr ((continues_nil rfl).mp hc)
  | leave h hm =>
    intro c full hc
    rw [continues_cons] at hc
    obtain ⟨full', rfl, hc⟩ := hc
    exact (path_iterate h).mpr (.inr ⟨hm, full', rfl, (continues_nil rfl).mp hc⟩)
  | ends h hb =>
    intro c full hc
    rw [continues_append] at hc
    obtain ⟨full', rfl, hc⟩ := hc
    rw [continues_cons] at hc
    obtain ⟨full', rfl, hc⟩ := hc
    refine (path_iterate h).mpr (.inl ⟨_, rfl, path_enter.mpr ⟨full', rfl, follows hb ?_⟩⟩)
    cases hc
    exact .ended _
  | @idles i idle es h hb quiet hi =>
    intro c full hc
    rw [continues_append] at hc
    obtain ⟨full', rfl, hc⟩ := hc
    rw [continues_cons] at hc
    obtain ⟨full', rfl, hc⟩ := hc
    refine (path_iterate h).mpr (.inl ⟨_, rfl, path_enter.mpr ⟨full', rfl, follows hb ?_⟩⟩)
    cases hc with
    | onward hp =>
      simp only [letters_offer, quiet, letters_skip, letters_nil, List.length_nil,
        Nat.add_zero] at hp
      refine .onward ((path_leave (by omega) rfl).mpr ?_)
      simp only [quiet, List.length_nil, Nat.add_zero, Nat.sub_self, if_true]
      rw [if_pos (by omega)]
      exact hp
  | @next i idle idle' es es' ended h hb hi lt _ ih =>
    intro c full hc
    rw [continues_append] at hc
    obtain ⟨full', rfl, hc⟩ := hc
    rw [continues_cons] at hc
    obtain ⟨full', rfl, hc⟩ := hc
    rw [continues_append] at hc
    obtain ⟨full', rfl, hc⟩ := hc
    simp only [letters_offer, letters_skip, letters_nil, List.length_nil, Nat.add_zero] at hc
    refine (path_iterate h).mpr (.inl ⟨_, rfl, path_enter.mpr ⟨_, rfl, follows hb ?_⟩⟩)
    refine .onward ((path_leave (by omega) rfl).mpr ?_)
    have idle_eq : (if c + (letters es).length - c = 0 then idle + 1 else 0) = idle' := by
      rw [hi]
      simp [List.length_eq_zero_iff]
    rw [idle_eq, if_neg (by omega)]
    exact ih hc

mutual

/-- **Ways through a node are paths.**  The induction is on the tree; for a quantifier it is on
the rounds, with the hypothesis for the body (`Follows`) at every round. -/
theorem path_of_traverses : ∀ n : Node, Follows multiline n
  | .atom a => by
    rintro fs es full ended c rest ⟨rfl, rfl⟩ hc
    rw [continues_cons] at hc
    obtain ⟨full', rfl, hc⟩ := hc
    exact path_atom.mpr ⟨full', rfl, (continues_nil rfl).mp hc⟩
  | .reference r => by
    rintro fs es full ended c rest ⟨rfl, rfl⟩ hc
    rw [continues_cons] at hc
    obtain ⟨full', rfl, hc⟩ := hc
    exact path_reference.mpr ⟨full', rfl, (continues_nil rfl).mp hc⟩
  | .anchor s k => by
    intro fs es full ended c rest h hc
    unfold Node.Traverses at h
    rw [path_anchor]
    split at h
    · obtain ⟨rfl, rfl⟩ := h
      rw [continues_cons] at hc
      obtain ⟨full', rfl, hc⟩ := hc
      exact ⟨full', rfl, (continues_nil rfl).mp hc⟩
    · obtain ⟨rfl, rfl⟩ := h
      cases hc
      rfl
    · obtain ⟨rfl, rfl⟩ := h
      rw [continues_cons] at hc
      obtain ⟨full', rfl, hc⟩ := hc
      exact ⟨full', rfl, (continues_nil rfl).mp hc⟩
  | .group g body => by
    intro fs es full ended c rest h hc
    rw [Node.Traverses] at h
    split at h
    · rename_i hg
      obtain ⟨rfl, rfl⟩ := h
      rw [continues_cons] at hc
      obtain ⟨full', rfl, hc⟩ := hc
      exact (path_lookaround hg).mpr ⟨full', rfl, .inl ((continues_nil rfl).mp hc)⟩
    · rename_i hg
      exact (path_group (by simpa using hg)).mpr (path_of_traverses body h hc)
  | .quantifier q body => by
    rintro fs es full ended c rest ⟨es', rfl, h⟩ hc
    rw [continues_cons] at hc
    obtain ⟨full', rfl, hc⟩ := hc
    exact path_quantifier.mpr ⟨full', rfl, path_of_rounds (path_of_traverses body) h hc⟩
  | .sequence s ns => by
    intro fs es full ended c rest h hc
    exact path_sequence.mpr (path_of_traversesAll ns h hc)
  | .alternation s ns => by
    intro fs es full ended c rest h hc
    exact path_alternation.mpr (path_of_traversesOne ns h hc)

theorem path_of_traversesAll : ∀ (ns : List Node) {fs : Frames} {es full : List (Event Unit)}
    {ended : Bool} {c : Nat} {rest : List Task}, Node.TraversesAll multiline ns fs es ended →
      Continues multiline c rest es ended full →
      PathFrom multiline c (Task.visits ns fs ++ rest) full
  | [], fs, es, full, ended, c, rest, h, hc => by
    obtain ⟨rfl, rfl⟩ := h
    exact (continues_nil rfl).mp hc
  | n :: ns, fs, es, full, ended, c, rest, h, hc => by
    rcases h with ⟨rfl, h⟩ | ⟨es₁, es₂, rfl, h₁, h₂⟩
    · cases hc
      exact path_of_traverses n h (.ended _)
    · rw [continues_append] at hc
      obtain ⟨full', rfl, hc⟩ := hc
      exact path_of_traverses n h₁ (.onward (path_of_traversesAll ns h₂ hc))

theorem path_of_traversesOne : ∀ (ns : List Node) {fs : Frames} {es full : List (Event Unit)}
    {ended : Bool} {c : Nat} {rest : List Task}, Node.TraversesOne multiline ns fs es ended →
      Continues multiline c rest es ended full →
      PathFrom multiline c (.choose ns fs :: rest) full
  | [], fs, es, full, ended, c, rest, h, hc => by
    obtain ⟨rfl, rfl⟩ := h
    exact path_choose_nil.mpr ((continues_nil rfl).mp hc)
  | [n], fs, es, full, ended, c, rest, h, hc => path_choose_one.mpr (path_of_traverses n h hc)
  | n :: m :: ns, fs, es, full, ended, c, rest, h, hc => by
    obtain ⟨es', rfl, h⟩ := h
    rw [continues_cons] at hc
    obtain ⟨full', rfl, hc⟩ := hc
    refine path_choose.mpr ⟨full', rfl, ?_⟩
    rcases h with h | h
    · exact .inr (path_of_traverses n h hc)
    · exact .inl (path_of_traversesOne (m :: ns) h hc)

end

/-! ## 5. From paths to ways

A path that takes the branch of a lookaround never leaves it: all its events are inside.  So the
events of a path tell whether it has taken one. -/

/-- What encloses a task encloses all that the task leaves behind. -/
theorem Task.lasting_encloses (f : Frame) : Lasting fun t => f ∈ t.frames := by
  intro _ t u unfolds h
  cases unfolds with
  | inside | finish | body => exact List.mem_cons_of_mem _ h
  | _ => exact h

/-- What encloses all tasks encloses the next event. -/
theorem mem_frames_nextFrom (multiline : Bool) (c : Nat) {todo : List Task} {f : Frame}
    (h : ∀ t ∈ todo, f ∈ t.frames) :
    (nextFrom multiline c todo).1 = .done ∨ f ∈ (nextFrom multiline c todo).1.frames := by
  refine (shows_nextFrom multiline c (Task.lasting_encloses f) h).place.imp_right ?_
  rintro ⟨t, ht, place⟩
  exact place ▸ ht

/-- A path of tasks inside of a lookaround is inside of it. -/
theorem not_outside_of_path {multiline : Bool} {c : Nat} {todo : List Task} {g : Group}
    {es : List (Event Unit)} (hg : g.isLookaround = true) (h : ∀ t ∈ todo, .group g ∈ t.frames)
    (hp : PathFrom multiline c todo es) : ¬ Outside es := by
  have inside : ∀ {e : Event Stream} {t : Stream}, nextFrom multiline c todo = (e, t) →
      e ≠ .done → Frames.lookarounds e.plain.frames ≠ [] := by
    intro e t hn hd
    have mem : .group g ∈ e.frames := by
      have := mem_frames_nextFrom multiline c h
      rw [hn] at this
      exact this.resolve_left hd
    have plain : e.plain.frames = e.frames := by cases e <;> rfl
    rw [plain]
    unfold Frames.lookarounds
    intro hnil
    have := List.filterMap_eq_nil_iff.mp (List.reverse_eq_nil_iff.mp hnil) _ mem
    simp [hg] at this
  intro outside
  cases hp with
  | stop hn => exact inside (Option.some.inj hn) (by simp) (outside_cons.mp outside).1
  | @cons _ t e _ hs rest =>
    cases hs with
    | onward hn ht =>
      refine inside (Option.some.inj hn) ?_ (outside_cons.mp outside).1
      rintro rfl
      simp [Event.isTerminal] at ht
    | aside hn => exact inside (Option.some.inj hn) (by simp) (outside_cons.mp outside).1

/-- The paths through a body are ways through it, as long as they stay outside of lookarounds. -/
def Divides (multiline : Bool) (body : Node) : Prop :=
  ∀ ⦃fs : Frames⦄ ⦃full : List (Event Unit)⦄ ⦃c : Nat⦄ ⦃rest : List Task⦄, Outside full →
    PathFrom multiline c (.visit body fs :: rest) full →
      ∃ es ended, body.Traverses multiline fs es ended ∧
        Continues multiline c rest es ended full

theorem rounds_of_path {multiline : Bool} {q : Quantifier} {body : Node} {fs : Frames}
    {rest : List Task} (divides : Divides multiline body) :
    ∀ (n : Nat) {i idle c : Nat} {full : List (Event Unit)}, full.length ≤ n → Outside full →
      PathFrom multiline c (.iterate q body fs i idle :: rest) full →
      ∃ es ended, Rounds q fs (body.Traverses multiline) i idle es ended ∧
        Continues multiline c rest es ended full := by
  -- Each iteration begins with an event of its own, so what is left of the path gets shorter.
  intro n
  induction n with
  | zero =>
    intro i idle c full hn _ hp
    obtain rfl := List.length_eq_zero_iff.mp (Nat.le_zero.mp hn)
    cases hp
  | succ n ih =>
    intro i idle c full hn outside hp
    cases hx : q.count.isExhausted i with
    | true =>
      exact ⟨[], false, .exhausted hx, (continues_nil rfl).mpr ((path_exhausted hx).mp hp)⟩
    | false =>
      rw [path_iterate hx] at hp
      rcases hp with ⟨full', rfl, hp⟩ | ⟨hm, full', rfl, hp⟩
      · rw [path_enter] at hp
        obtain ⟨full', rfl, hp⟩ := hp
        have outside' := (outside_cons.mp (outside_append.mp outside).2).2
        obtain ⟨es, ended, hb, hc⟩ := divides outside' hp
        cases hc with
        | ended => exact ⟨_, true, .ends hx hb, .ended _⟩
        | @onward es' later =>
          have idle_eq : (if c + (letters es).length - c = 0 then idle + 1 else 0) =
              if letters es = [] then idle + 1 else 0 := by
            simp [List.length_eq_zero_iff]
          rw [path_leave (by omega) rfl, idle_eq] at later
          by_cases hi : 2 ≤ if letters es = [] then idle + 1 else 0
          · rw [if_pos hi] at later
            have quiet : letters es = [] := by
              refine Decidable.byContradiction ?_
              intro h
              rw [if_neg h] at hi
              omega
            rw [if_pos quiet] at hi
            refine ⟨_, false, .idles hx hb quiet (by omega), continues_append.mpr ⟨_, rfl, ?_⟩⟩
            refine continues_cons.mpr ⟨_, rfl, .onward ?_⟩
            simpa [quiet] using later
          · rw [if_neg hi] at later
            have shorter : es'.length ≤ n := by
              simp only [List.length_append, List.length_cons] at hn
              omega
            obtain ⟨es₂, ended, hr, hc⟩ := ih shorter (outside_append.mp outside').2 later
            refine ⟨_, ended, .next hx hb rfl (by omega) hr, continues_append.mpr ⟨_, rfl, ?_⟩⟩
            refine continues_cons.mpr ⟨_, rfl, continues_append.mpr ⟨_, rfl, ?_⟩⟩
            simpa using hc
      · refine ⟨_, false, .leave hx hm, continues_cons.mpr ⟨full', rfl, ?_⟩⟩
        exact (continues_nil rfl).mpr hp

mutual

/-- **Paths that stay outside of lookarounds are ways through the tree.**  The induction is on the
tree again, and for a quantifier on the length of the path, as each iteration begins with an event
of its own. -/
theorem traverses_of_path {multiline : Bool} : ∀ n : Node, Divides multiline n
  | .atom a => by
    intro fs full c rest _ hp
    rw [path_atom] at hp
    obtain ⟨full', rfl, hp⟩ := hp
    exact ⟨_, false, ⟨rfl, rfl⟩, continues_cons.mpr ⟨full', rfl, (continues_nil rfl).mpr hp⟩⟩
  | .reference r => by
    intro fs full c rest _ hp
    rw [path_reference] at hp
    obtain ⟨full', rfl, hp⟩ := hp
    exact ⟨_, false, ⟨rfl, rfl⟩, continues_cons.mpr ⟨full', rfl, (continues_nil rfl).mpr hp⟩⟩
  | .anchor s k => by
    intro fs full c rest _ hp
    rw [path_anchor] at hp
    unfold Node.Traverses
    split at hp
    · obtain ⟨full', rfl, hp⟩ := hp
      exact ⟨_, false, ⟨rfl, rfl⟩, continues_cons.mpr ⟨full', rfl, (continues_nil rfl).mpr hp⟩⟩
    · obtain rfl := hp
      exact ⟨_, true, ⟨rfl, rfl⟩, .ended _⟩
    · obtain ⟨full', rfl, hp⟩ := hp
      exact ⟨_, false, ⟨rfl, rfl⟩, continues_cons.mpr ⟨full', rfl, (continues_nil rfl).mpr hp⟩⟩
  | .group g body => by
    intro fs full c rest outside hp
    cases hg : g.isLookaround with
    | true =>
      obtain ⟨full', rfl, hp | hp⟩ := (path_lookaround hg).mp hp
      · refine ⟨_, false, ?_, continues_cons.mpr ⟨full', rfl, (continues_nil rfl).mpr hp⟩⟩
        simp [Node.Traverses, hg]
      · refine absurd (outside_cons.mp outside).2 (not_outside_of_path hg ?_ hp)
        simp [Task.frames]
    | false =>
      obtain ⟨es, ended, h, hc⟩ := traverses_of_path body outside ((path_group hg).mp hp)
      refine ⟨es, ended, ?_, hc⟩
      simpa [Node.Traverses, hg] using h
  | .quantifier q body => by
    intro fs full c rest outside hp
    rw [path_quantifier] at hp
    obtain ⟨full', rfl, hp⟩ := hp
    obtain ⟨es, ended, h, hc⟩ :=
      rounds_of_path (traverses_of_path body) _ (Nat.le_refl _) (outside_cons.mp outside).2 hp
    exact ⟨_, ended, ⟨es, rfl, h⟩, continues_cons.mpr ⟨full', rfl, hc⟩⟩
  | .sequence s ns => by
    intro fs full c rest outside hp
    exact traversesAll_of_path ns outside (path_sequence.mp hp)
  | .alternation s ns => by
    intro fs full c rest outside hp
    exact traversesOne_of_path ns outside (path_alternation.mp hp)

theorem traversesAll_of_path {multiline : Bool} : ∀ (ns : List Node) {fs : Frames}
    {full : List (Event Unit)} {c : Nat} {rest : List Task}, Outside full →
      PathFrom multiline c (Task.visits ns fs ++ rest) full →
      ∃ es ended, Node.TraversesAll multiline ns fs es ended ∧
        Continues multiline c rest es ended full
  | [], fs, full, c, rest, _, hp =>
    ⟨[], false, ⟨rfl, rfl⟩, (continues_nil rfl).mpr hp⟩
  | n :: ns, fs, full, c, rest, outside, hp => by
    obtain ⟨es₁, ended, h₁, hc⟩ := traverses_of_path n outside hp
    cases hc with
    | ended => exact ⟨_, true, .inl ⟨rfl, h₁⟩, .ended _⟩
    | onward hrest =>
      obtain ⟨es₂, ended, h₂, hc⟩ := traversesAll_of_path ns (outside_append.mp outside).2 hrest
      exact ⟨_, ended, .inr ⟨es₁, es₂, rfl, h₁, h₂⟩, continues_append.mpr ⟨_, rfl, hc⟩⟩

theorem traversesOne_of_path {multiline : Bool} : ∀ (ns : List Node) {fs : Frames}
    {full : List (Event Unit)} {c : Nat} {rest : List Task}, Outside full →
      PathFrom multiline c (.choose ns fs :: rest) full →
      ∃ es ended, Node.TraversesOne multiline ns fs es ended ∧
        Continues multiline c rest es ended full
  | [], fs, full, c, rest, _, hp =>
    ⟨[], false, ⟨rfl, rfl⟩, (continues_nil rfl).mpr (path_choose_nil.mp hp)⟩
  | [n], fs, full, c, rest, outside, hp => traverses_of_path n outside (path_choose_one.mp hp)
  | n :: m :: ns, fs, full, c, rest, outside, hp => by
    obtain ⟨full', rfl, hp | hp⟩ := path_choose.mp hp
    · obtain ⟨es, ended, h, hc⟩ := traversesOne_of_path (m :: ns) (outside_cons.mp outside).2 hp
      exact ⟨_, ended, ⟨es, rfl, .inr h⟩, continues_cons.mpr ⟨full', rfl, hc⟩⟩
    · obtain ⟨es, ended, h, hc⟩ := traverses_of_path n (outside_cons.mp outside).2 hp
      exact ⟨_, ended, ⟨es, rfl, .inl h⟩, continues_cons.mpr ⟨full', rfl, hc⟩⟩

end

/-! ## 6. The paths of a whole tree

The first direction gives a path for any way, and for the second one the path has to stay outside
of lookarounds.  So it remains to see that ways do. -/

theorem lookarounds_cons_group {g : Group} (hg : g.isLookaround = false) (fs : Frames) :
    Frames.lookarounds (.group g :: fs) = Frames.lookarounds fs := by
  simp [Frames.lookarounds, hg]

theorem outside_single {e : Event Unit} (h : Frames.lookarounds e.frames = []) : Outside [e] :=
  outside_cons.mpr ⟨h, by simp [Outside]⟩

theorem outside_of_rounds {q : Quantifier} {fs : Frames}
    {B : Frames → List (Event Unit) → Bool → Prop} (hfs : Frames.lookarounds fs = [])
    (hB : ∀ {fs es ended}, Frames.lookarounds fs = [] → B fs es ended → Outside es)
    {i idle : Nat} {es : List (Event Unit)} {ended : Bool} (h : Rounds q fs B i idle es ended) :
    Outside es := by
  have offered : ∀ {i : Nat} {es : List (Event Unit)}, Outside es →
      Outside (offer q fs i ++ .skip (iterationFrame q i :: fs) :: es) := by
    intro i es hes
    refine outside_append.mpr ⟨?_, outside_cons.mpr ⟨hfs, hes⟩⟩
    unfold offer
    split
    · simp [Outside]
    · exact outside_single hfs
  have body : ∀ {i : Nat} {es : List (Event Unit)} {ended : Bool},
      B (iterationFrame q i :: fs) es ended → Outside es :=
    fun {i} _ _ hb => hB (show Frames.lookarounds (iterationFrame q i :: fs) = [] from hfs) hb
  induction h with
  | exhausted => simp [Outside]
  | leave => exact outside_single hfs
  | ends _ hb => exact offered (body hb)
  | idles _ hb => exact offered (body hb)
  | next _ hb _ _ _ ih => exact offered (outside_append.mpr ⟨body hb, ih⟩)

mutual

/-- Ways through a node do not lead into lookarounds. -/
theorem outside_of_traverses {multiline : Bool} : ∀ (n : Node) {fs : Frames}
    {es : List (Event Unit)} {ended : Bool}, Frames.lookarounds fs = [] →
      n.Traverses multiline fs es ended → Outside es
  | .atom a, fs, es, ended, hfs, h => by
    obtain ⟨rfl, -⟩ := h
    exact outside_single hfs
  | .reference r, fs, es, ended, hfs, h => by
    obtain ⟨rfl, -⟩ := h
    exact outside_single hfs
  | .anchor s k, fs, es, ended, hfs, h => by
    unfold Node.Traverses at h
    split at h <;> obtain ⟨rfl, -⟩ := h <;> exact outside_single hfs
  | .group g body, fs, es, ended, hfs, h => by
    rw [Node.Traverses] at h
    split at h
    · obtain ⟨rfl, -⟩ := h
      exact outside_single hfs
    · rename_i hg
      exact outside_of_traverses body
        ((lookarounds_cons_group (by simpa using hg) fs).trans hfs) h
  | .quantifier q body, fs, es, ended, hfs, h => by
    obtain ⟨es', rfl, h⟩ := h
    exact outside_cons.mpr ⟨hfs, outside_of_rounds hfs (outside_of_traverses body) h⟩
  | .sequence s ns, fs, es, ended, hfs, h => outside_of_traversesAll ns hfs h
  | .alternation s ns, fs, es, ended, hfs, h => outside_of_traversesOne ns hfs h

theorem outside_of_traversesAll {multiline : Bool} : ∀ (ns : List Node) {fs : Frames}
    {es : List (Event Unit)} {ended : Bool}, Frames.lookarounds fs = [] →
      Node.TraversesAll multiline ns fs es ended → Outside es
  | [], fs, es, ended, _, h => by
    obtain ⟨rfl, -⟩ := h
    simp [Outside]
  | n :: ns, fs, es, ended, hfs, h => by
    rcases h with ⟨-, h⟩ | ⟨es₁, es₂, rfl, h₁, h₂⟩
    · exact outside_of_traverses n hfs h
    · exact outside_append.mpr
        ⟨outside_of_traverses n hfs h₁, outside_of_traversesAll ns hfs h₂⟩

theorem outside_of_traversesOne {multiline : Bool} : ∀ (ns : List Node) {fs : Frames}
    {es : List (Event Unit)} {ended : Bool}, Frames.lookarounds fs = [] →
      Node.TraversesOne multiline ns fs es ended → Outside es
  | [], fs, es, ended, _, h => by
    obtain ⟨rfl, -⟩ := h
    simp [Outside]
  | [n], fs, es, ended, hfs, h => outside_of_traverses n hfs h
  | n :: m :: ns, fs, es, ended, hfs, h => by
    obtain ⟨es', rfl, h⟩ := h
    refine outside_cons.mpr ⟨hfs, ?_⟩
    rcases h with h | h
    · exact outside_of_traverses n hfs h
    · exact outside_of_traversesOne (m :: ns) hfs h

end

/-- **The paths of a tree outside of its lookarounds are the ways through it**, with the end of
the pattern after those that have not ended before.  It is put together from the two directions,
with nothing waiting behind the tree but its end. -/
theorem path_ofNode_iff {multiline : Bool} {root : Node} {full : List (Event Unit)} :
    Path (step multiline) (ofNode root) full ∧ Outside full ↔
      ∃ es ended, root.Traverses multiline [] es ended ∧
        full = if ended then es else es ++ [.stop [] false] := by
  constructor
  · rintro ⟨hp, outside⟩
    obtain ⟨es, ended, h, hc⟩ := traverses_of_path root outside hp
    cases hc with
    | ended => exact ⟨_, true, h, rfl⟩
    | onward last =>
      obtain rfl := path_finish.mp last
      exact ⟨_, false, h, rfl⟩
  · rintro ⟨es, ended, h, rfl⟩
    have outside := outside_of_traverses root rfl h
    cases ended with
    | true => exact ⟨path_of_traverses root h (.ended _), outside⟩
    | false =>
      refine ⟨path_of_traverses root h (.onward (path_finish.mpr rfl)), ?_⟩
      exact outside_append.mpr ⟨outside, outside_single rfl⟩

end Stream

end Backtrack
