/-
# Resolvers of patterns without references

Where a pattern has no references, a resolver adds nothing to its stream.  Both have the same
events along the same choices, for as long as one likes: `eventAt_ofPattern`.  A walk that has
ended goes on as well, with nothing left of it, and so do walks into lookarounds.

The resolver still records what the groups match and drops what is stale.  So its places are
related to those of the stream by the feed alone (`Resolver.Follows`), and the relation says
nothing about the records.  That it is kept by every step is `Resolver.isBisimulation_follows`.
-/
import Backtrack.Proofs.Derivation.Origin
import Backtrack.Proofs.Derivation.Traversal
import Backtrack.Pattern.Downgrade

namespace Backtrack

deriving instance DecidableEq for Event

/-! ## 1. Walks side by side

A bisimulation is enough for events along given choices, however many, since the next event and
what follows it are functions of the place. -/

section Walks

variable {σ τ : Type}

/-- Where a walk goes on after an event; `choice` tells whether into the branch of a split. -/
def onward (choice : Bool) : Event σ × σ → σ
  | (.split _ branch, s) => if choice then branch else s
  | (_, s) => s

/-- Event number `n` of the walk that makes these choices, one for each event.  Nothing ends the
count: after the last event of a walk come those of what is left of it. -/
def eventAt (next : σ → Option (Event σ × σ)) : Nat → (Nat → Bool) → σ → Option (Event Unit)
  | 0, _, s => (next s).map (·.1.plain)
  | n + 1, choose, s =>
    (next s).bind fun r => eventAt next n (fun k => choose (k + 1)) (onward (choose 0) r)

/-- Related places have the same next event, and what follows it is related, on either way. -/
def IsBisimulation (next : σ → Option (Event σ × σ)) (next' : τ → Option (Event τ × τ))
    (R : σ → τ → Prop) : Prop :=
  ∀ {s t}, R s t → ∃ r r', next s = some r ∧ next' t = some r' ∧ r'.1.plain = r.1.plain ∧
    ∀ choice, R (onward choice r) (onward choice r')

/-- **Walks from related places have the same events**, whatever the choices.  The induction is on
the number of the event. -/
theorem IsBisimulation.eventAt {next : σ → Option (Event σ × σ)}
    {next' : τ → Option (Event τ × τ)} {R : σ → τ → Prop} (h : IsBisimulation next next' R) :
    ∀ (n : Nat) (choose : Nat → Bool) {s : σ} {t : τ}, R s t →
      ∃ e, eventAt next n choose s = some e ∧ eventAt next' n choose t = some e
  | 0, choose, s, t, hst => by
    obtain ⟨r, r', hs, ht, he, -⟩ := h hst
    refine ⟨r.1.plain, ?_, ?_⟩
    · rw [Backtrack.eventAt, hs, Option.map_some]
    · rw [Backtrack.eventAt, ht, Option.map_some, he]
  | n + 1, choose, s, t, hst => by
    obtain ⟨r, r', hs, ht, -, related⟩ := h hst
    obtain ⟨e, hs', ht'⟩ := h.eventAt n (fun k => choose (k + 1)) (related (choose 0))
    refine ⟨e, ?_, ?_⟩
    · rw [Backtrack.eventAt, hs, Option.bind_some, hs']
    · rw [Backtrack.eventAt, ht, Option.bind_some, ht']

end Walks

/-! ## 2. Characters of streams -/

/-- A stream repeats nothing. -/
theorem Stream.via_nextFrom {multiline : Bool} {consumed : Nat} {todo : List Task} {fs : Frames}
    {a : Atom} {via : List Reference}
    (h : (nextFrom multiline consumed todo).1 = .consume fs a via) : via = [] := by
  induction todo using nextFrom_induction multiline consumed with
  | done step =>
    rw [step] at h
    cases h
  | becomes _ step ih =>
    rw [step] at h
    exact ih h
  | meets task step =>
    rw [step] at h
    cases task <;> cases h
    rfl
  | gives task step | ends task step =>
    rw [step] at h
    cases task <;> cases h
  | splits _ step | looks _ step =>
    rw [step] at h
    cases h

theorem Stream.via_eventAt {multiline : Bool} {fs : Frames} {a : Atom} {via : List Reference} :
    ∀ (n : Nat) {choose : Nat → Bool} {s : Stream},
      eventAt (step multiline) n choose s = some (.consume fs a via) → via = []
  | 0, _, _, h => via_nextFrom (Event.mapBranch_eq_consume.mp (Option.some.inj h))
  | n + 1, _, _, h => via_eventAt n h

/-! ## 3. Resolvers

Without references nothing is ever pending, and no event of the stream is kept back.  The records
change at every character, so they are left out of the relation. -/

namespace Resolver

variable {root : Node} {x : Subject}

/-- The resolver has nothing to do but to go on with the stream, which is one of the tree. -/
structure Follows (root : Node) (s : Stream) (r : Resolver) : Prop where
  feed : r.feed = .plain s
  pending : r.pending = []
  source : ∀ t ∈ s.todo, t.From root

/-- **One step of a resolver is one step of its stream** where there are no references, whatever
has been recorded.  The records differ from step to step, but nothing reads them without a
reference. -/
theorem isBisimulation_follows (h : Downgrade.references root = []) :
    IsBisimulation (Stream.step x.multiline) (step x) (Follows root) := by
  rintro s r ⟨hfeed, hp, source⟩
  have shows := Stream.shows_nextFrom x.multiline s.consumed (Task.lasting_from root) source
  change Shows _ _ (s.next x.multiline) at shows
  obtain ⟨⟨e, t⟩, hn⟩ : ∃ e, s.next x.multiline = e := ⟨_, rfl⟩
  rw [hn] at shows
  have hf : r.feed.next x.multiline = (e.mapBranch .plain, .plain t) := by
    rw [hfeed, Feed.next, hn]
  have hs : Stream.step x.multiline s = some (e, t) := congrArg some hn
  cases e with
  | refer fs ref =>
    have hr : ref ∈ Downgrade.references root :=
      Downgrade.mem_references.mpr (Node.Below.mem (shows.refer rfl))
    rw [h] at hr
    cases hr
  | consume fs a via =>
    refine ⟨_, _, hs, step_eq_some.mpr (next_of_consume hp hf), rfl, fun choice => ?_⟩
    exact ⟨rfl, hp, shows.onward⟩
  | split fs branch =>
    have next := next_of_feed hp hf (by simp [Event.mapBranch]) (by simp [Event.mapBranch])
    refine ⟨_, _, hs, step_eq_some.mpr next, rfl, fun choice => ?_⟩
    cases choice with
    | false => exact ⟨rfl, hp, shows.onward⟩
    | true => exact ⟨rfl, hp, shows.aside rfl⟩
  | start | stop | skip | abort | done =>
    have next := next_of_feed hp hf (by simp [Event.mapBranch]) (by simp [Event.mapBranch])
    refine ⟨_, _, hs, step_eq_some.mpr next, rfl, fun choice => ?_⟩
    exact ⟨rfl, hp, shows.onward⟩

/-- **A resolver of a pattern without references has the events of its stream**, along any choices
and however far it goes.  It repeats nothing, and it always can go on. -/
theorem eventAt_ofPattern {p : Pattern} (h : Downgrade.references p.root = [])
    (choose : Nat → Bool) (n : Nat) :
    ∃ e, eventAt (Stream.step p.flags.multiline) n choose (Stream.ofNode p.root) = some e ∧
      eventAt (step (Subject.ofPattern p)) n choose (ofPattern p) = some e ∧
      ∀ fs a via, e = .consume fs a via → via = [] := by
  have start : Follows p.root (Stream.ofNode p.root) (ofPattern p) :=
    ⟨rfl, rfl, (from_ofPattern p).feed⟩
  obtain ⟨e, hs, hr⟩ := IsBisimulation.eventAt (isBisimulation_follows h) n choose start
  refine ⟨e, hs, hr, ?_⟩
  rintro fs a via rfl
  exact Stream.via_eventAt n hs

/-- In `(?:(a)|b)*(?=c)` the group matches a second time, in the next iteration. -/
theorem eventAt_ofPattern_in_loop : ∃ p fs a,
    Pattern.parse (Bytes.ofString "(?:(a)|b)*(?=c)") {} = .ok p ∧
      Downgrade.references p.root = [] ∧
      eventAt (Stream.step p.flags.multiline) 8 (fun _ => true) (Stream.ofNode p.root) =
        some (.consume fs a []) ∧
      eventAt (step (Subject.ofPattern p)) 8 (fun _ => true) (ofPattern p) =
        some (.consume fs a []) := by
  let q : Quantifier := ⟨⟨6, 0, 10⟩, ⟨0, none, false⟩⟩
  let outer : Group := ⟨⟨5, 0, 9⟩, .nonCapture, 0, []⟩
  let inner : Group := ⟨⟨2, 3, 6⟩, .capture, 1, []⟩
  let a : Atom := ⟨⟨1, 4, 5⟩, .char 97⟩
  let p : Pattern :=
    { source := Bytes.ofString "(?:(a)|b)*(?=c)"
      flags := {}
      root := .sequence ⟨9, 0, 15⟩ [.quantifier q (.group outer (.alternation ⟨4, 3, 8⟩
          [.group inner (.atom a), .atom ⟨⟨3, 7, 8⟩, .char 98⟩])),
        .group ⟨⟨8, 10, 15⟩, .lookahead, 0, []⟩ (.atom ⟨⟨7, 13, 14⟩, .char 99⟩)]
      captures := 1 }
  have parsed : Pattern.parse (Bytes.ofString "(?:(a)|b)*(?=c)") {} = .ok p := by
    with_unfolding_all rfl
  have none : Downgrade.references p.root = [] := by decide
  have event : eventAt (Stream.step p.flags.multiline) 8 (fun _ => true) (Stream.ofNode p.root) =
      some (.consume [.group inner, .group outer, Stream.iterationFrame q 1] a []) := by
    decide +kernel
  obtain ⟨e, hs, hr, -⟩ := eventAt_ofPattern none (fun _ => true) 8
  rw [event] at hs
  obtain rfl := Option.some.inj hs
  exact ⟨p, _, a, parsed, none, event, hr⟩

end Resolver

end Backtrack
