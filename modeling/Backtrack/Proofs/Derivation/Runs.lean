/-
# Runs

A run follows a walk event by event.  At a split it may go on with what follows the event or
with the branch; nothing else is left to choose, so a run is a sequence of choices together
with the events they lead to.  Each event of a run is kept with what follows it.

Streams and resolvers both are walked this way, and `Run` is about either: all it asks for is a
function that gives the next event, or nothing where the walk cannot be followed.

What a resolver does in one step where its feed gives an event is said by `next_of_feed`,
`next_of_nothing`, `next_of_rematch` and `next_of_repeats`.

`sightings` reads off a run of a resolver what a search gets to see of it: the characters it
consumes, and how often it has required the start of the input up to each of them.
-/
import Backtrack.Derivation.Resolver

namespace Backtrack

variable {σ : Type}

/-! ## 1. Steps and runs

All that a run depends on is the function for the next event, so the lemmas here are stated for
any such function and serve streams and resolvers alike.  A path is a run up to the event that
ends it.  It keeps no places, as two walks that go through different places may well come by the
same events. -/

/-- One step of a run: an event, and the place the run goes on from. -/
inductive Step (next : σ → Option (Event σ × σ)) : σ → Event σ → σ → Prop
  | onward {s t : σ} {e : Event σ} (h : next s = some (e, t)) (he : e.isTerminal = false) :
    Step next s e t
  | aside {s t b : σ} {fs : Frames} (h : next s = some (.split fs b, t)) :
    Step next s (.split fs b) b

/-- A run from one place to another. -/
inductive Run (next : σ → Option (Event σ × σ)) : σ → List (Event σ × σ) → σ → Prop
  | nil (s : σ) : Run next s [] s
  | cons {s t u : σ} {e : Event σ} {es : List (Event σ × σ)} (h : Step next s e t)
    (rest : Run next t es u) : Run next s ((e, t) :: es) u

variable {next : σ → Option (Event σ × σ)}

theorem Run.append {s t u : σ} {es fs : List (Event σ × σ)} (h : Run next s es t)
    (h' : Run next t fs u) : Run next s (es ++ fs) u := by
  induction h with
  | nil s => exact h'
  | cons step _ ih => exact .cons step (ih h')

theorem Run.single {s t : σ} {e : Event σ} (h : Step next s e t) : Run next s [(e, t)] t :=
  .cons h (.nil t)

/-- What every step preserves holds along the whole run. -/
theorem Run.invariant {P : σ → Prop} {Q : Event σ → Prop}
    (step : ∀ {s e t}, P s → Step next s e t → Q e ∧ P t) {s t : σ} {es : List (Event σ × σ)}
    (h : Run next s es t) (hs : P s) : (∀ e ∈ es, Q e.1 ∧ P e.2) ∧ P t := by
  induction h with
  | nil s => exact ⟨by simp, hs⟩
  | cons h _ ih =>
    obtain ⟨he, ht⟩ := step hs h
    refine ⟨?_, (ih ht).2⟩
    rintro e (_ | ⟨_, hm⟩)
    · exact ⟨he, ht⟩
    · exact (ih ht).1 e hm

/-- Places with the same next event have the same steps. -/
theorem Step.congr {s s' t : σ} {e : Event σ} (h : next s = next s') (hs : Step next s e t) :
    Step next s' e t := by
  cases hs with
  | onward hn he => exact .onward (h ▸ hn) he
  | aside hn => exact .aside (h ▸ hn)

/-- An event without its branch. -/
abbrev Event.plain (e : Event σ) : Event Unit := e.mapBranch fun _ => ()

/-- The events of a run up to the one that ends the walk. -/
inductive Path (next : σ → Option (Event σ × σ)) : σ → List (Event Unit) → Prop
  | stop {s t : σ} {fs : Frames} {b : Bool} (h : next s = some (.stop fs b, t)) :
    Path next s [.stop fs b]
  | cons {s t : σ} {e : Event σ} {es : List (Event Unit)} (h : Step next s e t)
    (rest : Path next t es) : Path next s (e.plain :: es)

/-- Places with the same next event have the same paths. -/
theorem Path.congr {s s' : σ} {es : List (Event Unit)} (h : next s = next s')
    (hp : Path next s es) : Path next s' es := by
  cases hp with
  | stop hn => exact .stop (h ▸ hn)
  | cons hs rest => exact .cons (hs.congr h) rest

/-- A path goes wherever there are more next events. -/
theorem Path.mono {next' : σ → Option (Event σ × σ)}
    (sub : ∀ {s e}, next s = some e → next' s = some e) {s : σ} {es : List (Event Unit)}
    (hp : Path next s es) : Path next' s es := by
  induction hp with
  | stop hn => exact .stop (sub hn)
  | cons hs _ ih =>
    cases hs with
    | onward hn he => exact .cons (.onward (sub hn) he) ih
    | aside hn => exact .cons (.aside (sub hn)) ih

theorem Path.exists_next {s : σ} {es : List (Event Unit)} (hp : Path next s es) :
    ∃ e t, next s = some (e, t) := by
  cases hp with
  | stop hn => exact ⟨_, _, hn⟩
  | cons hs _ =>
    cases hs with
    | onward hn _ => exact ⟨_, _, hn⟩
    | aside hn => exact ⟨_, _, hn⟩

/-- The paths from a place, by its next event. -/
theorem path_iff_of_next {s t : σ} {e : Event σ} {es : List (Event Unit)}
    (h : next s = some (e, t)) (he : e.isTerminal = false) (hb : ∀ fs b, e ≠ .split fs b) :
    Path next s es ↔ ∃ es', es = e.plain :: es' ∧ Path next t es' := by
  constructor
  · intro hp
    cases hp with
    | stop hn =>
      obtain ⟨rfl, -⟩ := Prod.mk.inj (Option.some.inj (h.symm.trans hn))
      simp [Event.isTerminal] at he
    | cons hs rest =>
      cases hs with
      | onward hn _ =>
        obtain ⟨rfl, rfl⟩ := Prod.mk.inj (Option.some.inj (h.symm.trans hn))
        exact ⟨_, rfl, rest⟩
      | aside hn =>
        obtain ⟨rfl, -⟩ := Prod.mk.inj (Option.some.inj (h.symm.trans hn))
        exact absurd rfl (hb _ _)
  · rintro ⟨es', rfl, rest⟩
    exact .cons (.onward h he) rest

theorem path_iff_of_split {s t b : σ} {fs : Frames} {es : List (Event Unit)}
    (h : next s = some (.split fs b, t)) :
    Path next s es ↔ ∃ es', es = .split fs () :: es' ∧ (Path next t es' ∨ Path next b es') := by
  constructor
  · intro hp
    cases hp with
    | stop hn => simp [h] at hn
    | cons hs rest =>
      cases hs with
      | onward hn _ =>
        obtain ⟨rfl, rfl⟩ := Prod.mk.inj (Option.some.inj (h.symm.trans hn))
        exact ⟨_, rfl, .inl rest⟩
      | aside hn =>
        obtain ⟨he, rfl⟩ := Prod.mk.inj (Option.some.inj (h.symm.trans hn))
        obtain ⟨rfl, rfl⟩ := Event.split.inj he
        exact ⟨_, rfl, .inr rest⟩
  · rintro ⟨es', rfl, rest | rest⟩
    · exact .cons (e := .split fs b) (.onward h rfl) rest
    · exact .cons (.aside h) rest

theorem path_iff_of_stop {s t : σ} {fs : Frames} {b : Bool} {es : List (Event Unit)}
    (h : next s = some (.stop fs b, t)) : Path next s es ↔ es = [.stop fs b] := by
  constructor
  · intro hp
    cases hp with
    | stop hn =>
      obtain ⟨he, -⟩ := Prod.mk.inj (Option.some.inj (h.symm.trans hn))
      obtain ⟨rfl, rfl⟩ := Event.stop.inj he
      rfl
    | cons hs rest =>
      cases hs with
      | onward hn ht =>
        obtain ⟨rfl, -⟩ := Prod.mk.inj (Option.some.inj (h.symm.trans hn))
        simp [Event.isTerminal] at ht
      | aside hn => simp [h] at hn
  · rintro rfl
    exact .stop h

/-- No path goes on from where a walk is given up. -/
theorem not_path_of_terminal {s t : σ} {e : Event σ} {es : List (Event Unit)}
    (h : next s = some (e, t)) (he : e.isTerminal = true) (hs : ∀ fs b, e ≠ .stop fs b) :
    ¬ Path next s es := by
  intro hp
  cases hp with
  | stop hn =>
    obtain ⟨rfl, -⟩ := Prod.mk.inj (Option.some.inj (h.symm.trans hn))
    exact hs _ _ rfl
  | cons step _ =>
    cases step with
    | onward hn ht =>
      obtain ⟨rfl, -⟩ := Prod.mk.inj (Option.some.inj (h.symm.trans hn))
      simp [he] at ht
    | aside hn =>
      obtain ⟨rfl, -⟩ := Prod.mk.inj (Option.some.inj (h.symm.trans hn))
      simp [Event.isTerminal] at he

/-- The run that makes these choices, one for each event; at a split `true` takes the branch. -/
def follow (next : σ → Option (Event σ × σ)) : List Bool → σ → Option (List (Event σ × σ) × σ)
  | [], s => some ([], s)
  | choice :: choices, s =>
    match next s with
    | none => none
    | some (.split fs b, t) =>
      let t := if choice then b else t
      (follow next choices t).map fun r => ((.split fs b, t) :: r.1, r.2)
    | some (e, t) =>
      if e.isTerminal then none else (follow next choices t).map fun r => ((e, t) :: r.1, r.2)

/-- **Choices that can be followed make a run.**  A concrete run is given by its choices, and that
they can be followed is checked by evaluation. -/
theorem run_of_follow : ∀ {choices : List Bool} {s t : σ} {es : List (Event σ × σ)},
    follow next choices s = some (es, t) → Run next s es t
  | [], s, t, es, h => by
    obtain ⟨rfl, rfl⟩ := Prod.mk.inj (Option.some.inj h)
    exact .nil s
  | choice :: choices, s, t, es, h => by
    unfold follow at h
    split at h
    · simp at h
    · rename_i fs b u hn
      obtain ⟨⟨es', t'⟩, hf, he⟩ := Option.map_eq_some_iff.mp h
      obtain ⟨rfl, rfl⟩ := Prod.mk.inj he
      cases choice with
      | true => exact .cons (.aside hn) (run_of_follow hf)
      | false => exact .cons (.onward hn rfl) (run_of_follow hf)
    · rename_i e u _ hn
      split at h
      · simp at h
      · rename_i hterm
        obtain ⟨⟨es', t'⟩, hf, he⟩ := Option.map_eq_some_iff.mp h
        obtain ⟨rfl, rfl⟩ := Prod.mk.inj he
        exact .cons (.onward hn (by simpa using hterm)) (run_of_follow hf)

/-- What an event consumes. -/
def Event.consumed? : Event σ → Option Replay
  | .consume _ a via => some ⟨a, via⟩
  | _ => none

theorem Event.consumed?_eq_none {e : Event σ} :
    e.consumed? = none ↔ ∀ fs a via, e ≠ .consume fs a via := by
  cases e <;> simp [consumed?]

/-! ## 2. Runs of a resolver

`Resolver.next` looks at what is pending, then at the feed, and goes on by itself where a
reference stands for nothing.  Every invariant of a resolver would have to follow it through all
this, so it is followed once: `Advances` lists what can come of a step, and `advances_of_next`
says that nothing else does.  The `next_of_…` lemmas are the other direction, for those who build
a run. -/

namespace Resolver

/-- The next event, if the walk can be followed. -/
def step (x : Subject) (r : Resolver) : Option (Event Resolver × Resolver) := (r.next x).toOption

theorem step_eq_some {x : Subject} {r : Resolver} {e : Event Resolver × Resolver} :
    r.step x = some e ↔ r.next x = .ok e := by
  unfold step
  cases r.next x <;> simp [Except.toOption]

/-- What follows an event of the feed inside of some frames. -/
def moved (r : Resolver) (g : Feed) (fs : Frames) : Resolver :=
  { r with feed := g, captures := r.captures.invalidate fs }

/-- What follows a reference that stands for nothing. -/
def pass (r : Resolver) (g : Feed) (fs : Frames) (ref : Reference) : Resolver :=
  { r with
    feed := g
    captures := r.captures.invalidate fs
    lastEmpty := if !(Frames.iterations fs).isEmpty then some (ref, r.consumed) else r.lastEmpty }

/-- Whether a reference inside of `fs` has come around again, with nothing consumed since. -/
def comesAround (r : Resolver) (fs : Frames) (ref : Reference) : Bool :=
  !(Frames.iterations fs).isEmpty && r.lastEmpty = some (ref, r.consumed)

/-- **How a resolver comes to its next event.**  What is still to be repeated comes first.  Else the
feed gives an event, which is handed on, or it comes to a reference.  What that stands for is
repeated, or matched again on a branch, or it is nothing, and the walk goes on. -/
inductive Advances (x : Subject) : Resolver → Event Resolver → Resolver → Prop
  | resume {r : Resolver} {entry : Replay} {rest : List Replay}
    (waits : r.pending = entry :: rest) :
    Advances x r (.consume r.pendingFrames entry.atom entry.via)
      (consume { r with pending := rest } r.pendingFrames entry).2
  | consume {r : Resolver} {g : Feed} {fs : Frames} {a : Atom} {via : List Reference}
    (hp : r.pending = []) (hf : r.feed.next x.multiline = (.consume fs a via, g)) :
    Advances x r (.consume fs a via) ((r.moved g fs).consume fs ⟨a, via⟩).2
  | split {r : Resolver} {g branch : Feed} {fs : Frames} (hp : r.pending = [])
    (hf : r.feed.next x.multiline = (.split fs branch, g)) :
    Advances x r (.split fs (r.moved branch fs)) (r.moved g fs)
  | start {r : Resolver} {g : Feed} {fs : Frames} (hp : r.pending = [])
    (hf : r.feed.next x.multiline = (.start fs, g)) : Advances x r (.start fs) (r.moved g fs)
  | skip {r : Resolver} {g : Feed} {fs : Frames} (hp : r.pending = [])
    (hf : r.feed.next x.multiline = (.skip fs, g)) : Advances x r (.skip fs) (r.moved g fs)
  | stop {r : Resolver} {g : Feed} {fs : Frames} {bounded : Bool} (hp : r.pending = [])
    (hf : r.feed.next x.multiline = (.stop fs bounded, g)) :
    Advances x r (.stop fs bounded) (r.moved g fs)
  | abort {r : Resolver} {g : Feed} {fs : Frames} (hp : r.pending = [])
    (hf : r.feed.next x.multiline = (.abort fs, g)) : Advances x r (.abort fs) (r.moved g fs)
  | done {r : Resolver} {g : Feed} (hp : r.pending = [])
    (hf : r.feed.next x.multiline = (.done, g)) : Advances x r .done (r.moved g [])
  | replay {r : Resolver} {g : Feed} {fs : Frames} {ref : Reference} {first : Replay}
    {rest : List Replay} (hp : r.pending = []) (hf : r.feed.next x.multiline = (.refer fs ref, g))
    (hr : x.resolve (r.captures.invalidate fs) fs ref = .ok (.replay first rest)) :
    Advances x r (.consume fs first.atom first.via)
      (Resolver.consume { r.moved g fs with pending := rest, pendingFrames := fs } fs first).2
  /-- A reference that has come around again, with nothing consumed since. -/
  | around {r : Resolver} {g : Feed} {fs : Frames} {ref : Reference} (hp : r.pending = [])
    (hf : r.feed.next x.multiline = (.refer fs ref, g)) (around : r.comesAround fs ref = true) :
    Advances x r (.abort fs) ended
  | rematch {r : Resolver} {g : Feed} {fs : Frames} {ref : Reference} {body : Node}
    (hp : r.pending = []) (hf : r.feed.next x.multiline = (.refer fs ref, g))
    (hr : x.resolve (r.captures.invalidate fs) fs ref = .ok (.rematch body))
    (fresh : r.comesAround fs ref = false) :
    Advances x r (.split fs (r.pass (.rematch (Stream.ofBody body fs) ref g) fs ref))
      (r.pass g fs ref)
  | nothing {r r' : Resolver} {e : Event Resolver} {g : Feed} {fs : Frames} {ref : Reference}
    (hp : r.pending = []) (hf : r.feed.next x.multiline = (.refer fs ref, g))
    (hr : x.resolve (r.captures.invalidate fs) fs ref = .ok .nothing)
    (fresh : r.comesAround fs ref = false) (later : Advances x (r.pass g fs ref) e r') :
    Advances x r e r'

/-- **A resolver comes to its next event in one of these ways.**  An invariant of resolvers is
proved by cases on how the resolver advances; the induction over references that are passed over
is part of `Advances` already. -/
theorem advances_of_next {x : Subject} {r r' : Resolver} {e : Event Resolver}
    (h : r.next x = .ok (e, r')) : Advances x r e r' := by
  fun_induction next x r with
  | case9 => cases h
  | case14 r hp g fs ref hf _ fresh _ _ _ hr ih =>
    exact .nothing hp hf hr (Bool.eq_false_iff.mpr fresh) (ih h)
  | case1 r entry rest waits =>
    obtain ⟨rfl, rfl⟩ := Prod.mk.inj (Except.ok.inj h)
    exact .resume waits
  | case2 r hp g fs a via hf =>
    obtain ⟨rfl, rfl⟩ := Prod.mk.inj (Except.ok.inj h)
    exact .consume hp hf
  | case3 r hp g fs branch hf =>
    obtain ⟨rfl, rfl⟩ := Prod.mk.inj (Except.ok.inj h)
    exact .split hp hf
  | case4 r hp g fs hf =>
    obtain ⟨rfl, rfl⟩ := Prod.mk.inj (Except.ok.inj h)
    exact .start hp hf
  | case5 r hp g fs b hf =>
    obtain ⟨rfl, rfl⟩ := Prod.mk.inj (Except.ok.inj h)
    exact .stop hp hf
  | case6 r hp g fs hf =>
    obtain ⟨rfl, rfl⟩ := Prod.mk.inj (Except.ok.inj h)
    exact .skip hp hf
  | case7 r hp g fs hf =>
    obtain ⟨rfl, rfl⟩ := Prod.mk.inj (Except.ok.inj h)
    exact .abort hp hf
  | case8 r hp g hf =>
    obtain ⟨rfl, rfl⟩ := Prod.mk.inj (Except.ok.inj h)
    exact .done hp hf
  | case10 r hp g fs ref hf first rest _ _ hr =>
    obtain ⟨rfl, rfl⟩ := Prod.mk.inj (Except.ok.inj h)
    exact .replay hp hf hr
  | case11 r hp g fs ref hf _ body around | case13 r hp g fs ref hf _ around =>
    obtain ⟨rfl, rfl⟩ := Prod.mk.inj (Except.ok.inj h)
    exact .around hp hf around
  | case12 r hp g fs ref hf _ body fresh _ _ _ hr =>
    obtain ⟨rfl, rfl⟩ := Prod.mk.inj (Except.ok.inj h)
    exact .rematch hp hf hr (Bool.eq_false_iff.mpr fresh)

/-- No reference is left unresolved. -/
theorem next_ne_refer {x : Subject} {r r' : Resolver} {e : Event Resolver}
    (h : r.next x = .ok (e, r')) : ∀ fs ref, e ≠ .refer fs ref := by
  intro fs ref
  replace h := advances_of_next h
  induction h with
  | nothing _ _ _ _ _ ih => exact ih
  | _ => simp

section Steps

variable {x : Subject} {r : Resolver} {g : Feed} {fs : Frames} {ref : Reference}

/-- Events that neither consume nor are about a reference reach the resolver as they are. -/
theorem next_of_feed {e : Event Feed} (hp : r.pending = [])
    (h : r.feed.next x.multiline = (e, g)) (hc : ∀ fs a via, e ≠ .consume fs a via)
    (hr : ∀ fs ref, e ≠ .refer fs ref) :
    r.next x = .ok
      (e.mapBranch fun b => { r with feed := b, captures := r.captures.invalidate e.frames },
        { r with feed := g, captures := r.captures.invalidate e.frames }) := by
  fun_cases next x r
  case case1 hp' => simp [hp] at hp'
  all_goals
    rename Feed.next _ _ = _ => hn
    obtain ⟨rfl, rfl⟩ := Prod.mk.inj (hn.symm.trans h)
  case case2 => exact absurd rfl (hc _ _ _)
  case case3 | case4 | case5 | case6 | case7 | case8 => rfl
  all_goals exact absurd rfl (hr _ _)

/-- A character that the feed consumes is recorded. -/
theorem next_of_consume {a : Atom} {via : List Reference} (hp : r.pending = [])
    (h : r.feed.next x.multiline = (.consume fs a via, g)) :
    r.next x = .ok
      ({ r with feed := g, captures := r.captures.invalidate fs }.consume fs ⟨a, via⟩) := by
  fun_cases next x r
  case case1 hp' => simp [hp] at hp'
  all_goals
    rename Feed.next _ _ = _ => hn
    obtain ⟨he, rfl⟩ := Prod.mk.inj (hn.symm.trans h)
    cases he
  rfl

/-- At the start of a feed. -/
def ofFeed (f : Feed) : Resolver := ⟨f, [], [], [], 0, none⟩

/-- A reference that stands for nothing is passed over, unless it has come around again. -/
theorem next_of_nothing (hp : r.pending = []) (h : r.feed.next x.multiline = (.refer fs ref, g))
    (hr : x.resolve (r.captures.invalidate fs) fs ref = .ok .nothing)
    (fresh : r.comesAround fs ref = false) :
    r.next x = (r.pass g fs ref).next x := by
  fun_cases next x r
  case case1 hp' => simp [hp] at hp'
  all_goals
    rename Feed.next _ _ = _ => hn
    obtain ⟨he, rfl⟩ := Prod.mk.inj (hn.symm.trans h)
    cases he
  all_goals
    rename x.resolve _ _ _ = _ => hr'
    cases hr.symm.trans hr'
  case case13 =>
    rename (_ && _) = true => stale
    exact absurd (fresh.symm.trans stale) Bool.false_ne_true
  case case14 => rfl

/-- A body is matched again on a branch, unless the reference has come around again. -/
theorem next_of_rematch {body : Node} (hp : r.pending = [])
    (h : r.feed.next x.multiline = (.refer fs ref, g))
    (hr : x.resolve (r.captures.invalidate fs) fs ref = .ok (.rematch body))
    (fresh : r.comesAround fs ref = false) :
    r.next x = .ok (.split fs (r.pass (.rematch (Stream.ofBody body fs) ref g) fs ref),
      r.pass g fs ref) := by
  fun_cases next x r
  case case1 hp' => simp [hp] at hp'
  all_goals
    rename Feed.next _ _ = _ => hn
    obtain ⟨he, rfl⟩ := Prod.mk.inj (hn.symm.trans h)
    cases he
  all_goals
    rename x.resolve _ _ _ = _ => hr'
    cases hr.symm.trans hr'
  case case11 =>
    rename (_ && _) = true => stale
    exact absurd (fresh.symm.trans stale) Bool.false_ne_true
  case case12 => rfl

/-- **What a resolver is about to repeat**, and for which reference. -/
inductive Repeats (x : Subject) : Resolver → Frames → Reference → Replay → List Replay → Prop
  | here {r : Resolver} {g : Feed} {fs : Frames} {ref : Reference} {first : Replay}
    {rest : List Replay} (hp : r.pending = []) (h : r.feed.next x.multiline = (.refer fs ref, g))
    (hr : x.resolve (r.captures.invalidate fs) fs ref = .ok (.replay first rest)) :
    Repeats x r fs ref first rest
  /-- A reference that stands for nothing is passed over. -/
  | later {r : Resolver} {g : Feed} {fs fs' : Frames} {ref ref' : Reference} {first : Replay}
    {rest : List Replay} (hp : r.pending = []) (h : r.feed.next x.multiline = (.refer fs ref, g))
    (nothing : x.resolve (r.captures.invalidate fs) fs ref = .ok .nothing)
    (fresh : r.comesAround fs ref = false)
    (next : Repeats x (r.pass g fs ref) fs' ref' first rest) : Repeats x r fs' ref' first rest

/-- The first of what is repeated comes next, and the others are still to be repeated. -/
theorem next_of_repeats {first : Replay} {rest : List Replay} (h : Repeats x r fs ref first rest) :
    ∃ r', r.next x = .ok (.consume fs first.atom first.via, r') ∧ r'.pending = rest ∧
      r'.pendingFrames = fs := by
  induction h with
  | here hp hf hr =>
    rename_i r g fs ref first rest
    fun_cases next x r
    case case1 hp' => simp [hp] at hp'
    all_goals
      rename Feed.next _ _ = _ => hn
      obtain ⟨he, rfl⟩ := Prod.mk.inj (hn.symm.trans hf)
      cases he
    all_goals
      rename x.resolve _ _ _ = _ => hr'
      cases hr.symm.trans hr'
    exact ⟨_, rfl, rfl, rfl⟩
  | later hp hf nothing fresh _ ih => rwa [next_of_nothing hp hf nothing fresh]

end Steps

/-- A run of a resolver: each event with what follows it. -/
abbrev Trace := List (Event Resolver × Resolver)

/-- What a run consumes. -/
def entries (es : Trace) : List Replay := es.filterMap (·.1.consumed?)

theorem entries_concat (es : Trace) (e : Event Resolver × Resolver) :
    entries (es ++ [e]) = entries es ++ e.1.consumed?.toList := by
  rw [entries, List.filterMap_append]
  cases h : e.1.consumed? <;> simp [h, entries]

theorem entries_eq_nil {es : Trace} :
    entries es = [] ↔ ∀ e ∈ es, ∀ fs a via, e.1 ≠ .consume fs a via := by
  simp only [entries, List.filterMap_eq_nil_iff, Event.consumed?_eq_none]

/-- A character a run consumes: where, how often the start of the input was required before it,
and what follows. -/
structure Sighting where
  frames : Frames
  atom : Atom
  via : List Reference
  starts : Nat
  rest : Resolver
deriving Repr

/-- The characters a run consumes, if the start of the input was required `starts` times before
the run. -/
def sightings (starts : Nat) : Trace → List Sighting
  | [] => []
  | (.consume fs a via, r) :: es => ⟨fs, a, via, starts, r⟩ :: sightings starts es
  | (.start _, _) :: es => sightings (starts + 1) es
  | _ :: es => sightings starts es

/-- What is still to be repeated is consumed, one after another. -/
theorem exists_run_of_pending (x : Subject) : ∀ {es : List Replay} {r : Resolver},
    r.pending = es → ∃ ts t, Run (step x) r ts t ∧ t.pending = [] ∧
      ts.map (·.1.plain) = es.map fun e => .consume r.pendingFrames e.atom e.via
  | [], r, hp => ⟨[], r, .nil r, hp, rfl⟩
  | e :: es, r, hp => by
    have hn : r.next x = .ok (consume { r with pending := es } r.pendingFrames e) := by
      rw [next, hp]
    obtain ⟨ts, t, run, none, events⟩ := exists_run_of_pending x (r :=
      (consume { r with pending := es } r.pendingFrames e).2) rfl
    exact ⟨_, t, .cons (.onward (step_eq_some.mpr hn) rfl) run, none, congrArg _ events⟩

/-- **What is to be repeated is consumed**, inside of the frames of the reference.  Nothing can
come in between, as what is pending comes before the feed. -/
theorem exists_run_of_repeats {x : Subject} {r : Resolver} {fs : Frames} {ref : Reference}
    {first : Replay} {rest : List Replay} (h : Repeats x r fs ref first rest) :
    ∃ ts t, Run (step x) r ts t ∧ t.pending = [] ∧
      ts.map (·.1.plain) = (first :: rest).map fun e => .consume fs e.atom e.via := by
  obtain ⟨r', hn, rfl, rfl⟩ := next_of_repeats h
  obtain ⟨ts, t, run, none, events⟩ := exists_run_of_pending x (r := r') rfl
  exact ⟨_, t, .cons (.onward (step_eq_some.mpr hn) rfl) run, none, congrArg _ events⟩

/-- How often a run requires the start of the input. -/
def startsIn : Trace → Nat
  | [] => 0
  | (.start _, _) :: es => startsIn es + 1
  | _ :: es => startsIn es

theorem sightings_append (es fs : Trace) (starts : Nat) :
    sightings starts (es ++ fs) = sightings starts es ++ sightings (starts + startsIn es) fs := by
  fun_induction sightings starts es with
  | case1 => rfl
  | case2 starts _ _ _ _ es ih => simp only [List.cons_append, sightings, startsIn, ih]
  | case3 starts _ _ es ih =>
    simp only [List.cons_append, sightings, startsIn, ih]
    rw [Nat.add_assoc, Nat.add_comm 1]
  | case4 starts e es hc hs ih =>
    obtain ⟨e, r⟩ := e
    cases e with
    | consume fs a via => exact absurd rfl (hc fs a via r)
    | start fs => exact absurd rfl (hs fs r)
    | _ => simp only [List.cons_append, sightings, startsIn, ih]

theorem startsIn_append (es fs : Trace) :
    startsIn (es ++ fs) = startsIn es + startsIn fs := by
  fun_induction startsIn es with
  | case1 => simp
  | case2 _ _ es ih =>
    simp only [List.cons_append, startsIn, ih]
    omega
  | case3 e es hs ih =>
    obtain ⟨e, r⟩ := e
    cases e with
    | start fs => exact absurd rfl (hs fs r)
    | _ => simp only [List.cons_append, startsIn, ih]

/-- Whether the events of a run only let it pass. -/
def Silent (es : Trace) : Prop := ∀ e ∈ es, passes e.1 = true

theorem sightings_of_silent {es : Trace} (h : Silent es) (starts : Nat) :
    sightings starts es = [] := by
  fun_induction sightings starts es with
  | case1 => rfl
  | case2 => simp [Silent, passes] at h
  | case3 _ _ _ _ ih => exact ih fun e he => h e (List.mem_cons_of_mem _ he)
  | case4 _ _ _ _ _ ih => exact ih fun e he => h e (List.mem_cons_of_mem _ he)

/-- Some run leads from one place to another with these sightings; the numbers say how often the
start of the input has been required at either place. -/
def Leads (x : Subject) (r : Resolver) (starts : Nat) (ss : List Sighting) (r' : Resolver)
    (starts' : Nat) : Prop :=
  ∃ es, Run (step x) r es r' ∧ sightings starts es = ss ∧ starts + startsIn es = starts'

theorem Leads.refl (x : Subject) (r : Resolver) (starts : Nat) : Leads x r starts [] r starts :=
  ⟨[], .nil r, rfl, rfl⟩

theorem Leads.trans {x : Subject} {r s t : Resolver} {l m n : Nat} {ss ts : List Sighting}
    (h : Leads x r l ss s m) (h' : Leads x s m ts t n) : Leads x r l (ss ++ ts) t n := by
  obtain ⟨es, run, rfl, rfl⟩ := h
  obtain ⟨fs, run', rfl, rfl⟩ := h'
  refine ⟨es ++ fs, run.append run', sightings_append es fs l, ?_⟩
  rw [startsIn_append, Nat.add_assoc]

/-- **What `fetch` skips is a run that consumes nothing.**  So what a search sees of a run is not
changed by what `fetch` leaves out. -/
theorem run_of_fetch {x : Subject} {starts n : Nat} {r r' : Resolver} {e : Event Resolver}
    (h : r.fetch x starts = .ok (n, e, r')) :
    ∃ es t, Run (step x) r es t ∧ Silent es ∧ n = starts + startsIn es ∧
      t.next x = .ok (e, r') ∧ passes e = false := by
  fun_induction fetch x starts r with
  | case1 => simp at h
  | case2 starts r fs r₁ hn ih =>
    obtain ⟨es, t, run, silent, rfl, ht⟩ := ih h
    refine ⟨(.skip fs, r₁) :: es, t, .cons (.onward (step_eq_some.mpr hn) rfl) run, ?_, rfl, ht⟩
    exact List.forall_mem_cons.mpr ⟨rfl, silent⟩
  | case3 starts r fs r₁ hn ih =>
    obtain ⟨es, t, run, silent, rfl, ht⟩ := ih h
    refine ⟨(.start fs, r₁) :: es, t, .cons (.onward (step_eq_some.mpr hn) rfl) run, ?_, ?_, ht⟩
    · exact List.forall_mem_cons.mpr ⟨rfl, silent⟩
    · rw [startsIn]
      omega
  | case4 starts r e₁ r₁ hskip hstart hn =>
    obtain ⟨rfl, rfl, rfl⟩ : starts = n ∧ e₁ = e ∧ r₁ = r' := by simpa using h
    refine ⟨[], r, .nil r, by simp [Silent], rfl, hn, ?_⟩
    cases e₁ with
    | skip fs => exact absurd rfl (hskip fs)
    | start fs => exact absurd rfl (hstart fs)
    | _ => rfl

end Resolver

end Backtrack
