/-
# Derivations with references

A derivation of a pattern chooses alternatives and numbers of iterations.  `Node.Derives` tells
what it matches, where a reference stands for what its group matched last: nothing if the group
is unset, still open around the reference, or was reset since a quantifier around it has moved on
to another iteration.

Along a derivation two things *happen*: a leaf is consumed, or a reference inside of a quantifier
is passed over because it stands for nothing.  The second leaves no trace in the word that is
matched, and yet it decides whether a resolver comes through: it gives up where the same
reference is passed over twice running (`Stutters`).

A stream for its part leaves a quantifier after two iterations running in which nothing happens.
`Passes` are the iterations it can do.  Other derivations have to be rearranged first
(`Node.exists_passing`): what happens in an iteration does not depend on the ones before, since
each starts from the same contents, so idle iterations can be moved.  Only the last one has to
stay where it is, for what its groups hold.  So the iterations have to be `Spread`, and that is all
there is to it: what a stream can do is spread (`Node.spreads_of_passing`).
-/
import Backtrack.Proofs.Derivation.Words

namespace Backtrack

/-! ## 1. What happens, and what groups hold

Contents are a function, as no derivation cares in which order groups were set.  A match also
keeps whether it ran through a quantifier without an upper bound, since a resolver refuses to
repeat such a match. -/

/-- One step of a derivation. -/
inductive Happening where
  | consumed (a : Atom)
  /-- A reference inside of a quantifier stands for nothing. -/
  | passed (r : Reference)
deriving Repr, DecidableEq

/-- The leaves consumed on the way. -/
def word (τ : List Happening) : List Atom :=
  τ.filterMap fun
    | .consumed a => some a
    | .passed _ => none

@[simp] theorem word_nil : word [] = [] := rfl

@[simp] theorem word_append (τ τ' : List Happening) : word (τ ++ τ') = word τ ++ word τ' :=
  List.filterMap_append

@[simp] theorem word_map_consumed (w : List Atom) : word (w.map .consumed) = w := by
  induction w with
  | nil => rfl
  | cons a w ih => exact congrArg (a :: ·) ih

/-- The same reference is passed over twice running. -/
def Stutters (τ : List Happening) : Prop := ∃ r, [.passed r, .passed r] <:+: τ

/-- What a group has matched, and whether the match ran through a quantifier without an upper
bound. -/
structure Match where
  word : List Atom
  unbounded : Bool
deriving Repr, DecidableEq

/-- The match of a group that is unset. -/
def Match.none : Match := ⟨[], false⟩

/-- What groups hold, by their numbers. -/
abbrev Contents := Nat → Match

namespace Contents

/-- No group is set. -/
def empty : Contents := fun _ => .none

/-- Changes what one group holds. -/
def set (E : Contents) (index : Nat) (m : Match) : Contents :=
  fun i => if i = index then m else E i

/-- Forgets what the groups among some nodes hold. -/
def reset (E : Contents) (ns : List Node) : Contents :=
  fun i => if i ∈ captureIndexes ns then .none else E i

/-- The leaves a reference stands for, inside of the groups `opened`. -/
def recalled (E : Contents) (opened : List Nat) (r : Reference) : List Atom :=
  if r.index ∈ opened then [] else (E r.index).word

end Contents

/-! ## 2. Derivations

The relation is by recursion on the tree, with the iterations of a quantifier as a relation of
their own.  Which iterations are allowed is a parameter: with `Counted` they are those of the
language, with `Passing` those of a stream, and what does not depend on it is proved once for
both. -/

/-- Iterations one after the other, each with the groups of the body reset.  `D` are the
derivations of the body. -/
inductive Iterated (D : Contents → List Happening → Bool → Contents → Prop)
    (reset : Contents → Contents) : List (List Happening) → Contents → Bool → Contents → Prop
  | none (E : Contents) : Iterated D reset [] E false E
  | more {E E₁ E₂ : Contents} {τ : List Happening} {τs : List (List Happening)} {u v : Bool}
    (h : D (reset E) τ u E₁) (rest : Iterated D reset τs E₁ v E₂) :
    Iterated D reset (τ :: τs) E (u || v) E₂

namespace Node

variable (allows : Quantifier → Node → List (List Happening) → Prop)

mutual

/-- **The derivations of a node** inside of the groups `opened`, and inside of a quantifier if
`repeated`: from contents `E`, with what happens in `τ`, to contents `E'`.  The flag tells whether
something was consumed inside of a quantifier without an upper bound.  What may happen in the
iterations of a quantifier is left to `allows`; lookarounds are not told from other groups. -/
def Derives : Node → (opened : List Nat) → (repeated : Bool) → (E : Contents) →
    (τ : List Happening) → (unbounded : Bool) → (E' : Contents) → Prop
  | atom a, _, _, E, τ, unbounded, E' => τ = [.consumed a] ∧ unbounded = false ∧ E' = E
  | anchor _ _, _, _, E, τ, unbounded, E' => τ = [] ∧ unbounded = false ∧ E' = E
  | reference r, opened, repeated, E, τ, unbounded, E' =>
    τ = (if E.recalled opened r = [] then if repeated then [.passed r] else []
      else (E.recalled opened r).map .consumed) ∧
    (E.recalled opened r ≠ [] → (E r.index).unbounded = false) ∧ unbounded = false ∧ E' = E
  | group g body, opened, repeated, E, τ, unbounded, E' =>
    if g.isCapture then
      ∃ E₁, body.Derives (g.index :: opened) repeated E τ unbounded E₁ ∧
        E' = E₁.set g.index ⟨word τ, unbounded⟩
    else body.Derives opened repeated E τ unbounded E'
  | quantifier q body, opened, _, E, τ, unbounded, E' =>
    ∃ τs v, allows q body τs ∧
      Iterated (body.Derives opened true) (·.reset body.walk) τs E v E' ∧
      τ = τs.flatten ∧ unbounded = (v || q.count.isUnbounded && !(word τ).isEmpty)
  | sequence _ ns, opened, repeated, E, τ, unbounded, E' =>
    DerivesAll ns opened repeated E τ unbounded E'
  | alternation _ ns, opened, repeated, E, τ, unbounded, E' =>
    DerivesOne ns opened repeated E τ unbounded E'

/-- The derivations of several nodes one after the other. -/
def DerivesAll : List Node → (opened : List Nat) → (repeated : Bool) → (E : Contents) →
    (τ : List Happening) → (unbounded : Bool) → (E' : Contents) → Prop
  | [], _, _, E, τ, unbounded, E' => τ = [] ∧ unbounded = false ∧ E' = E
  | n :: ns, opened, repeated, E, τ, unbounded, E' =>
    ∃ τ₁ τ₂ u₁ u₂ E₁, n.Derives opened repeated E τ₁ u₁ E₁ ∧
      DerivesAll ns opened repeated E₁ τ₂ u₂ E' ∧ τ = τ₁ ++ τ₂ ∧ unbounded = (u₁ || u₂)

/-- The derivations of one of several nodes. -/
def DerivesOne : List Node → (opened : List Nat) → (repeated : Bool) → (E : Contents) →
    (τ : List Happening) → (unbounded : Bool) → (E' : Contents) → Prop
  | [], _, _, _, _, _, _ => False
  | n :: ns, opened, repeated, E, τ, unbounded, E' =>
    n.Derives opened repeated E τ unbounded E' ∨
      DerivesOne ns opened repeated E τ unbounded E'

end

variable {allows} {g : Group} {body : Node} {opened : List Nat} {repeated : Bool}
  {E E' : Contents} {τ : List Happening} {u : Bool}

theorem derives_capture (hg : g.isCapture = true)
    (h : body.Derives allows (g.index :: opened) repeated E τ u E') :
    (group g body).Derives allows opened repeated E τ u (E'.set g.index ⟨word τ, u⟩) := by
  rw [Derives, if_pos hg]
  exact ⟨E', h, rfl⟩

theorem derives_group (hg : g.isCapture = false)
    (h : body.Derives allows opened repeated E τ u E') :
    (group g body).Derives allows opened repeated E τ u E' := by
  rwa [Derives, if_neg (by simp [hg])]

end Node

/-! ## 3. What a derivation leaves alone

These two facts are used wherever the order of iterations is changed: an iteration does not touch
groups outside of its body, and an idle one has no effect on whether a match is unbounded. -/

namespace Contents

variable {E F : Contents} {ns : List Node} {i : Nat}

theorem set_of_ne {index : Nat} {m : Match} (h : i ≠ index) : E.set index m i = E i := if_neg h

theorem reset_of_mem (h : i ∈ captureIndexes ns) : E.reset ns i = .none := if_pos h

theorem reset_of_not_mem (h : i ∉ captureIndexes ns) : E.reset ns i = E i := if_neg h

/-- Contents that differ in the groups among some nodes only are the same after a reset. -/
theorem reset_congr (h : ∀ i, i ∉ captureIndexes ns → E i = F i) : E.reset ns = F.reset ns := by
  funext i
  by_cases hi : i ∈ captureIndexes ns
  · rw [reset_of_mem hi, reset_of_mem hi]
  · rw [reset_of_not_mem hi, reset_of_not_mem hi, h i hi]

end Contents

theorem captureIndexes_capture {g : Group} (hg : g.isCapture = true) (body : Node)
    (ns : List Node) : captureIndexes (.group g body :: ns) = g.index :: captureIndexes ns := by
  simp [captureIndexes, hg]

theorem captureIndexes_of_not_capture {n : Node}
    (h : ∀ g body, n = .group g body → g.isCapture = false) (ns : List Node) :
    captureIndexes (n :: ns) = captureIndexes ns := by
  cases n with
  | group g body => simp [captureIndexes, h g body rfl]
  | _ => rfl

/-- Iterations leave alone what every one of them leaves alone. -/
theorem eq_of_iterated {D : Contents → List Happening → Bool → Contents → Prop}
    {reset : Contents → Contents} {i : Nat} (reset_eq : ∀ E, reset E i = E i)
    (frame : ∀ {E τ u E'}, D E τ u E' → E' i = E i) {τs : List (List Happening)}
    {E E' : Contents} {v : Bool} (h : Iterated D reset τs E v E') : E' i = E i := by
  induction h with
  | none => rfl
  | more h _ ih => rw [ih, frame h, reset_eq]

namespace Node

variable {allows : Quantifier → Node → List (List Happening) → Prop} {i : Nat}

mutual

/-- **A derivation changes only what the groups of the node hold.**  The induction is on the tree,
and for a quantifier on its iterations. -/
theorem eq_of_derives : ∀ (n : Node), i ∉ captureIndexes n.walk → ∀ {opened : List Nat}
    {repeated : Bool} {E E' : Contents} {τ : List Happening} {u : Bool},
      n.Derives allows opened repeated E τ u E' → E' i = E i
  | atom a, _, _, _, E, E', _, _, h => by
    obtain ⟨-, -, rfl⟩ := h
    rfl
  | anchor s k, _, _, _, E, E', _, _, h => by
    obtain ⟨-, -, rfl⟩ := h
    rfl
  | reference r, _, _, _, E, E', _, _, h => by
    obtain ⟨-, -, -, rfl⟩ := h
    rfl
  | group g body, hi, opened, repeated, E, E', _, _, h => by
    rw [Derives] at h
    rw [walk] at hi
    split at h
    · rename_i hg
      rw [captureIndexes_capture hg, List.mem_cons, not_or] at hi
      obtain ⟨E₁, h, rfl⟩ := h
      rw [Contents.set_of_ne hi.1]
      exact eq_of_derives body hi.2 h
    · rename_i hg
      rw [captureIndexes_of_not_capture (by simp_all)] at hi
      exact eq_of_derives body hi h
  | quantifier q body, hi, opened, repeated, E, E', _, _, h => by
    obtain ⟨τs, v, -, h, -, -⟩ := h
    rw [walk, captureIndexes_of_not_capture (by simp)] at hi
    exact eq_of_iterated (fun E => Contents.reset_of_not_mem hi) (eq_of_derives body hi) h
  | sequence s ns, hi, opened, repeated, E, E', _, _, h => by
    rw [walk, captureIndexes_of_not_capture (by simp)] at hi
    exact eq_of_derivesAll ns hi h
  | alternation s ns, hi, opened, repeated, E, E', _, _, h => by
    rw [walk, captureIndexes_of_not_capture (by simp)] at hi
    exact eq_of_derivesOne ns hi h

theorem eq_of_derivesAll : ∀ (ns : List Node), i ∉ captureIndexes (walkAll ns) →
    ∀ {opened : List Nat} {repeated : Bool} {E E' : Contents} {τ : List Happening} {u : Bool},
      DerivesAll allows ns opened repeated E τ u E' → E' i = E i
  | [], _, _, _, E, E', _, _, h => by
    obtain ⟨-, -, rfl⟩ := h
    rfl
  | n :: ns, hi, opened, repeated, E, E', _, _, h => by
    rw [walkAll, captureIndexes_append, List.mem_append, not_or] at hi
    obtain ⟨_, _, _, _, E₁, h₁, h₂, -, -⟩ := h
    rw [eq_of_derivesAll ns hi.2 h₂, eq_of_derives n hi.1 h₁]

theorem eq_of_derivesOne : ∀ (ns : List Node), i ∉ captureIndexes (walkAll ns) →
    ∀ {opened : List Nat} {repeated : Bool} {E E' : Contents} {τ : List Happening} {u : Bool},
      DerivesOne allows ns opened repeated E τ u E' → E' i = E i
  | [], _, _, _, E, E', _, _, h => h.elim
  | n :: ns, hi, opened, repeated, E, E', _, _, h => by
    rw [walkAll, captureIndexes_append, List.mem_append, not_or] at hi
    rcases h with h | h
    · exact eq_of_derives n hi.1 h
    · exact eq_of_derivesOne ns hi.2 h

end

/-- Iterations in which nothing is consumed run through no quantifier. -/
theorem unbounded_of_iterated {D : Contents → List Happening → Bool → Contents → Prop}
    {reset : Contents → Contents} (quiet : ∀ {E τ u E'}, D E τ u E' → word τ = [] → u = false)
    {τs : List (List Happening)} {E E' : Contents} {v : Bool} (h : Iterated D reset τs E v E')
    (hw : word τs.flatten = []) : v = false := by
  induction h with
  | none => rfl
  | more h _ ih =>
    rw [List.flatten_cons, word_append, List.append_eq_nil_iff] at hw
    rw [quiet h hw.1, ih hw.2, Bool.or_false]

mutual

/-- A derivation that consumes nothing runs through no quantifier. -/
theorem unbounded_of_derives : ∀ (n : Node) {opened : List Nat} {repeated : Bool}
    {E E' : Contents} {τ : List Happening} {u : Bool},
      n.Derives allows opened repeated E τ u E' → word τ = [] → u = false
  | atom a, _, _, _, _, _, _, h, _ => h.2.1
  | anchor s k, _, _, _, _, _, _, h, _ => h.2.1
  | reference r, _, _, _, _, _, _, h, _ => h.2.2.1
  | group g body, _, _, _, _, _, _, h, hw => by
    rw [Derives] at h
    split at h
    · obtain ⟨E₁, h, -⟩ := h
      exact unbounded_of_derives body h hw
    · exact unbounded_of_derives body h hw
  | quantifier q body, _, _, _, _, _, _, h, hw => by
    obtain ⟨τs, v, -, h, rfl, rfl⟩ := h
    rw [unbounded_of_iterated (unbounded_of_derives body) h hw, hw]
    simp
  | sequence s ns, _, _, _, _, _, _, h, hw => unbounded_of_derivesAll ns h hw
  | alternation s ns, _, _, _, _, _, _, h, hw => unbounded_of_derivesOne ns h hw

theorem unbounded_of_derivesAll : ∀ (ns : List Node) {opened : List Nat} {repeated : Bool}
    {E E' : Contents} {τ : List Happening} {u : Bool},
      DerivesAll allows ns opened repeated E τ u E' → word τ = [] → u = false
  | [], _, _, _, _, _, _, h, _ => h.2.1
  | n :: ns, _, _, _, _, _, _, h, hw => by
    obtain ⟨τ₁, τ₂, u₁, u₂, E₁, h₁, h₂, rfl, rfl⟩ := h
    rw [word_append, List.append_eq_nil_iff] at hw
    rw [unbounded_of_derives n h₁ hw.1, unbounded_of_derivesAll ns h₂ hw.2, Bool.or_false]

theorem unbounded_of_derivesOne : ∀ (ns : List Node) {opened : List Nat} {repeated : Bool}
    {E E' : Contents} {τ : List Happening} {u : Bool},
      DerivesOne allows ns opened repeated E τ u E' → word τ = [] → u = false
  | [], _, _, _, _, _, _, h, _ => h.elim
  | n :: ns, _, _, _, _, _, _, h, hw => by
    rcases h with h | h
    · exact unbounded_of_derives n h hw
    · exact unbounded_of_derivesOne ns h hw

end

end Node

/-! ## 4. Iterations a stream can do

`Passes` repeats the counter of the stream: two iterations running in which nothing happens end
the quantifier.  A list of outcomes is easier to rearrange than a chain of contents, and
`iterated_iff` makes the one of the other, since all iterations start from the same contents. -/

/-- What happens in the iterations of a quantifier that a stream can do, from iteration `i` on
and after `idle` iterations running in which nothing happened. -/
inductive Passes (q : Quantifier) : Nat → Nat → List (List Happening) → Prop
  /-- No more iterations are needed. -/
  | leave {i idle : Nat} (h : q.count.min ≤ i) : Passes q i idle []
  /-- Nothing happens in this iteration, and in the one before nothing happened either. -/
  | idles {i idle : Nat} (h : q.count.isExhausted i = false) (hi : 1 ≤ idle) : Passes q i idle [[]]
  /-- After this iteration comes the next. -/
  | next {i idle idle' : Nat} {τ : List Happening} {τs : List (List Happening)}
    (h : q.count.isExhausted i = false) (hi : idle' = if τ = [] then idle + 1 else 0)
    (lt : idle' < 2) (rest : Passes q (i + 1) idle' τs) : Passes q i idle (τ :: τs)

/-- One iteration: what happens in it, whether something was consumed inside of a quantifier
without an upper bound, and what groups hold after it. -/
structure Iterated.Outcome where
  happenings : List Happening
  unbounded : Bool
  after : Contents

/-- **All iterations start from the same contents**, since the groups of the body are reset and no
others change.  So a sequence of iterations is a list of outcomes.  This is what allows them to be
put in another order at all. -/
theorem iterated_iff {D : Contents → List Happening → Bool → Contents → Prop}
    {reset : Contents → Contents} (frame : ∀ {E τ u E'}, D (reset E) τ u E' → reset E' = reset E)
    {τs : List (List Happening)} {E E' : Contents} {v : Bool} :
    Iterated D reset τs E v E' ↔ ∃ ts : List Iterated.Outcome, τs = ts.map (·.happenings) ∧
      v = ts.any (·.unbounded) ∧ E' = (ts.getLast?.map (·.after)).getD E ∧
      ∀ t ∈ ts, D (reset E) t.happenings t.unbounded t.after := by
  constructor
  · intro h
    induction h with
    | none E => exact ⟨[], rfl, rfl, rfl, by simp⟩
    | @more E E₁ E₂ τ τs u v h _ ih =>
      obtain ⟨ts, rfl, rfl, rfl, all⟩ := ih
      rw [frame h] at all
      refine ⟨⟨τ, u, E₁⟩ :: ts, rfl, rfl, ?_, List.forall_mem_cons.mpr ⟨h, all⟩⟩
      rw [List.getLast?_cons]
      cases ts.getLast? <;> rfl
  · rintro ⟨ts, rfl, rfl, rfl, all⟩
    induction ts generalizing E with
    | nil => exact .none E
    | cons t ts ih =>
      obtain ⟨ht, all⟩ := List.forall_mem_cons.mp all
      have last : ((t :: ts).getLast?.map (·.after)).getD E =
          (ts.getLast?.map (·.after)).getD t.after := by
        rw [List.getLast?_cons]
        cases ts.getLast? <;> rfl
      rw [last]
      exact .more ht (ih (by rwa [frame ht]))

/-! ## 5. Moving idle iterations

The number of iterations matters only as far as the minimum goes.  Either idle iterations are put
off to the end, where two of them are enough for any minimum, or they are put one by one before
busy ones, where they never come twice running.  The first changes which iteration is the last, so
it will do only if that one is idle itself or if no reference asks what its groups hold. -/

/-- What the iterations of a quantifier have to look like if the order of those in which nothing
happens matters: the last one is one of them, or there are enough others to have one before each
of them.  Nothing is asked if the order does not matter (`loose`). -/
def Spread (loose : Prop) (q : Quantifier) (τs : List (List Happening)) : Prop :=
  loose ∨ τs.getLast? = some [] ∨ q.count.min ≤ 2 * (τs.filter (!·.isEmpty)).length

namespace Iterated.Outcome

/-- Whether something happens. -/
def isBusy (t : Outcome) : Bool := !t.happenings.isEmpty

/-- One iteration before each of the first `k`. -/
def pad (t : Outcome) : Nat → List Outcome → List Outcome
  | 0, bs => bs
  | _ + 1, [] => []
  | k + 1, b :: bs => t :: b :: pad t k bs

variable {q : Quantifier} {t : Outcome} {ts bs : List Outcome}

theorem happenings_of_not_busy (h : t.isBusy = false) : t.happenings = [] := by
  simpa [isBusy] using h

theorem happenings_ne_nil (h : t.isBusy = true) : t.happenings ≠ [] := by
  simpa [isBusy] using h

/-- Iterations in which something happens come first. -/
theorem passes_append : ∀ {bs : List Outcome} {i : Nat} {τs : List (List Happening)},
    (∀ b ∈ bs, b.isBusy = true) →
    (∀ most, q.count.max = some most → i + bs.length ≤ most) →
    Passes q (i + bs.length) 0 τs → Passes q i 0 (bs.map (·.happenings) ++ τs)
  | [], _, _, _, _, h => h
  | b :: bs, i, τs, busy, fits, h => by
    have shift : i + (b :: bs).length = i + 1 + bs.length := by
      rw [List.length_cons]
      omega
    rw [shift] at fits h
    refine .next (Count.isExhausted_of_lt fits (by omega)) ?_ (by omega)
      (passes_append (fun b hb => busy b (List.mem_cons_of_mem _ hb)) fits h)
    rw [if_neg (happenings_ne_nil (busy b List.mem_cons_self))]

/-- Single idle iterations in between do no harm. -/
theorem passes_pad (ht : t.happenings = []) : ∀ {k : Nat} {bs : List Outcome} {i : Nat},
    (∀ b ∈ bs, b.isBusy = true) → k ≤ bs.length →
    (∀ most, q.count.max = some most → i + k + bs.length ≤ most) →
    q.count.min ≤ i + k + bs.length → Passes q i 0 ((pad t k bs).map (·.happenings))
  | 0, bs, i, busy, _, fits, needs => by
    have alone : Passes q i 0 (bs.map (·.happenings) ++ []) :=
      passes_append busy fits (.leave needs)
    rwa [List.append_nil] at alone
  | k + 1, b :: bs, i, busy, le, fits, needs => by
    have shift : i + (k + 1) + (b :: bs).length = i + 1 + 1 + k + bs.length := by
      rw [List.length_cons]
      omega
    rw [shift] at fits needs
    have later : Passes q (i + 1 + 1) 0 ((pad t k bs).map (·.happenings)) :=
      passes_pad ht (fun b hb => busy b (List.mem_cons_of_mem _ hb)) (Nat.le_of_succ_le_succ le)
        fits needs
    have first : Passes q (i + 1) 1 (b.happenings :: (pad t k bs).map (·.happenings)) := by
      refine .next (Count.isExhausted_of_lt fits (by omega)) ?_ (by omega) later
      rw [if_neg (happenings_ne_nil (busy b List.mem_cons_self))]
    exact .next (Count.isExhausted_of_lt fits (by omega)) (by rw [if_pos ht]) (by omega) first

/-- Idle iterations can all be put off to the end, and there two of them are enough. -/
theorem exists_passes_append (ht : t.happenings = []) (busy : ∀ b ∈ bs, b.isBusy = true)
    (fits : ∀ most, q.count.max = some most → bs.length + 1 ≤ most)
    (ordered : ∀ most, q.count.max = some most → q.count.min ≤ most) :
    ∃ rest, (rest = [t] ∨ rest = [t, t]) ∧ Passes q 0 0 ((bs ++ rest).map (·.happenings)) := by
  have first : ∀ {τs : List (List Happening)}, Passes q (bs.length + 1) 1 τs →
      Passes q 0 0 (bs.map (·.happenings) ++ t.happenings :: τs) := by
    intro τs h
    refine passes_append busy ?_ ?_
    · intro most hm
      have := fits most hm
      omega
    · rw [Nat.zero_add]
      exact .next (Count.isExhausted_of_lt fits (by omega)) (by rw [if_pos ht]) (by omega) h
  by_cases hm : q.count.min ≤ bs.length + 1
  · exact ⟨[t], .inl rfl, by simpa using first (.leave hm)⟩
  · refine ⟨[t, t], .inr rfl, ?_⟩
    have := first (.idles (Count.isExhausted_of_lt ordered (by omega)) (Nat.le_refl 1))
    simpa [ht] using this

theorem pad_eq_or_mem {b : Outcome} : ∀ {k : Nat} {bs : List Outcome}, b ∈ pad t k bs →
    b = t ∨ b ∈ bs
  | 0, _, h => .inr (by rwa [pad] at h)
  | _ + 1, [], h => .inr h
  | k + 1, c :: bs, h => by
    rw [pad, List.mem_cons, List.mem_cons] at h
    rcases h with rfl | rfl | h
    · exact .inl rfl
    · exact .inr List.mem_cons_self
    · exact (pad_eq_or_mem h).imp_right (List.mem_cons_of_mem _)

theorem filter_pad (ht : t.isBusy = false) : ∀ (k : Nat) (bs : List Outcome),
    (pad t k bs).filter isBusy = bs.filter isBusy
  | 0, _ => by rw [pad]
  | _ + 1, [] => rfl
  | k + 1, b :: bs => by
    rw [pad, List.filter_cons, List.filter_cons, List.filter_cons, filter_pad ht k bs]
    simp [ht]

theorem getLast?_pad : ∀ (k : Nat) (bs : List Outcome), (pad t k bs).getLast? = bs.getLast?
  | 0, _ => by rw [pad]
  | _ + 1, [] => rfl
  | k + 1, b :: bs => by
    rw [pad, List.getLast?_cons_cons, List.getLast?_cons, List.getLast?_cons, getLast?_pad k bs]

end Iterated.Outcome

open Iterated (Outcome)

/-- `rs` are iterations out of `ts`, in an order that a stream can do: the busy ones are the same,
and so is the last one, if that matters. -/
structure Rearranged (loose : Prop) (q : Quantifier) (ts rs : List Outcome) : Prop where
  mem : ∀ t ∈ rs, t ∈ ts
  passes : Passes q 0 0 (rs.map (·.happenings))
  busy : rs.filter (·.isBusy) = ts.filter (·.isBusy)
  last : loose ∨ rs.getLast? = ts.getLast?

section Rearranged

variable {q : Quantifier} {ts rs : List Outcome} {loose : Prop}

/-- What happens altogether is what happens in the busy iterations. -/
theorem flatten_filter_isBusy (ts : List Outcome) :
    ((ts.filter (·.isBusy)).map (·.happenings)).flatten = (ts.map (·.happenings)).flatten := by
  induction ts with
  | nil => rfl
  | cons t ts ih =>
    cases ht : t.isBusy with
    | true => simp [ht, ih]
    | false => simp [ht, ih, Outcome.happenings_of_not_busy ht]

theorem any_filter_isBusy (quiet : ∀ t ∈ ts, t.isBusy = false → t.unbounded = false) :
    (ts.filter (·.isBusy)).any (·.unbounded) = ts.any (·.unbounded) := by
  induction ts with
  | nil => rfl
  | cons t ts ih =>
    have later := ih fun t ht => quiet t (List.mem_cons_of_mem _ ht)
    cases ht : t.isBusy with
    | true => simp [ht, later]
    | false => simp [ht, later, quiet t List.mem_cons_self ht]

theorem length_filter_isBusy_lt {t : Outcome} (ht : t ∈ ts) (idle : t.isBusy = false) :
    (ts.filter (·.isBusy)).length < ts.length :=
  List.length_filter_lt_length_iff_exists.mpr ⟨t, ht, by simp [idle]⟩

/-- All idle iterations are put off to the end. -/
theorem exists_rearranged_of_idle (allowed : q.count.Allows ts.length) {t : Outcome} (ht : t ∈ ts)
    (idle : t.isBusy = false) (last : loose ∨ ts.getLast? = some t) :
    ∃ rs, Rearranged loose q ts rs := by
  obtain ⟨needs, fits⟩ := allowed
  have fewer := length_filter_isBusy_lt ht idle
  have busy : ∀ b ∈ ts.filter (·.isBusy), b.isBusy = true := fun b hb => (List.mem_filter.mp hb).2
  obtain ⟨rest, hr, passes⟩ := Outcome.exists_passes_append
    (Outcome.happenings_of_not_busy idle) busy
    (fun most hm => Nat.le_trans fewer (fits most hm))
    (fun most hm => Nat.le_trans needs (fits most hm))
  have same : ∀ b ∈ rest, b = t := by rcases hr with rfl | rfl <;> simp
  refine ⟨ts.filter (·.isBusy) ++ rest, ?_, passes, ?_, last.imp_right ?_⟩
  · intro b hb
    rcases List.mem_append.mp hb with hb | hb
    · exact (List.mem_filter.mp hb).1
    · rwa [same b hb]
  · have none : rest.filter (·.isBusy) = [] :=
      List.filter_eq_nil_iff.mpr fun b hb => by simp [same b hb, idle]
    simp [none]
  · intro last
    rw [last]
    rcases hr with rfl | rfl <;> simp

/-- As many idle iterations as are needed are put before the first busy ones. -/
theorem exists_rearranged_of_busy (allowed : q.count.Allows ts.length)
    (last : ∀ t ∈ ts.getLast?, t.isBusy = true)
    (enough : q.count.min ≤ 2 * (ts.filter (·.isBusy)).length) :
    ∃ rs, Rearranged loose q ts rs := by
  obtain ⟨needs, fits⟩ := allowed
  have busy : ∀ b ∈ ts.filter (·.isBusy), b.isBusy = true := fun b hb => (List.mem_filter.mp hb).2
  have ends : (ts.filter (·.isBusy)).getLast? = ts.getLast? := by
    cases hl : ts.getLast? with
    | none => simp [List.getLast?_eq_none_iff.mp hl]
    | some t =>
      obtain ⟨us, rfl⟩ := List.getLast?_eq_some_iff.mp hl
      simp [last t hl]
  by_cases all : ∀ t ∈ ts, t.isBusy = true
  · rw [List.filter_eq_self.mpr all] at busy
    refine ⟨ts, fun t ht => ht, ?_, rfl, .inr rfl⟩
    have alone : Passes q 0 0 (ts.map (·.happenings) ++ []) :=
      Outcome.passes_append busy (by simpa using fits) (.leave (by omega))
    rwa [List.append_nil] at alone
  · -- Some iteration is idle, and copies of it serve for all.
    obtain ⟨t, ht, idle⟩ : ∃ t ∈ ts, t.isBusy = false := by simpa using all
    have fewer := length_filter_isBusy_lt ht idle
    let k := q.count.min - (ts.filter (·.isBusy)).length
    refine ⟨Outcome.pad t k (ts.filter (·.isBusy)), ?_, ?_, ?_, .inr ?_⟩
    · intro b hb
      rcases Outcome.pad_eq_or_mem hb with rfl | hb
      · exact ht
      · exact (List.mem_filter.mp hb).1
    · refine Outcome.passes_pad (Outcome.happenings_of_not_busy idle) busy (by omega) ?_ (by omega)
      intro most hm
      have := fits most hm
      omega
    · rw [Outcome.filter_pad idle]
      simp
    · rw [Outcome.getLast?_pad, ends]

/-- **Iterations that are spread can be rearranged.**  If the last one is idle, or if its groups
do not matter, the idle ones are put off to the end; else there are enough busy ones. -/
theorem exists_rearranged (allowed : q.count.Allows ts.length)
    (spread : Spread loose q (ts.map (·.happenings))) : ∃ rs, Rearranged loose q ts rs := by
  by_cases last : ∀ t ∈ ts.getLast?, t.isBusy = true
  · rcases spread with hl | hl | enough
    · by_cases all : ∃ t ∈ ts, t.isBusy = false
      · obtain ⟨t, ht, idle⟩ := all
        exact exists_rearranged_of_idle allowed ht idle (.inl hl)
      · have all : ts.filter (·.isBusy) = ts := List.filter_eq_self.mpr (by simpa using all)
        refine exists_rearranged_of_busy allowed last ?_
        rw [all]
        have := allowed.1
        omega
    · rw [List.getLast?_map] at hl
      obtain ⟨t, ht, idle⟩ := Option.map_eq_some_iff.mp hl
      exact absurd idle (Outcome.happenings_ne_nil (last t ht))
    · refine exists_rearranged_of_busy allowed last ?_
      rw [List.filter_map, List.length_map] at enough
      exact enough
  · obtain ⟨t, ht, idle⟩ : ∃ t ∈ ts.getLast?, t.isBusy = false := by simpa using last
    exact exists_rearranged_of_idle allowed (List.mem_of_getLast? ht) idle (.inr ht)

theorem Rearranged.flatten_eq (h : Rearranged loose q ts rs) :
    (rs.map (·.happenings)).flatten = (ts.map (·.happenings)).flatten := by
  rw [← flatten_filter_isBusy rs, ← flatten_filter_isBusy ts, h.busy]

theorem Rearranged.any_eq (h : Rearranged loose q ts rs)
    (quiet : ∀ t ∈ ts, t.isBusy = false → t.unbounded = false) :
    rs.any (·.unbounded) = ts.any (·.unbounded) := by
  rw [← any_filter_isBusy quiet, ← any_filter_isBusy fun t ht => quiet t (h.mem t ht), h.busy]

end Rearranged

/-! ## 6. Rearranging a derivation

What a group of a body holds may change, so contents are compared only in the groups that someone
else refers to (`Agree`).  Whether a reference is outside of a body depends on where the body
stands in the tree; `Stands` keeps the other nodes along the way down. -/

/-- Contents that are the same for every group some nodes refer to. -/
def Agree (ns : List Node) (E F : Contents) : Prop := ∀ r, .reference r ∈ ns → E r.index = F r.index

theorem Agree.mono {ns ms : List Node} {E F : Contents} (h : Agree ns E F)
    (sub : ∀ n ∈ ms, n ∈ ns) : Agree ms E F := fun r hr => h r (sub _ hr)

theorem Agree.left {ns ms : List Node} {E F : Contents} (h : Agree (ns ++ ms) E F) :
    Agree ns E F := h.mono fun _ => List.mem_append_left _

/-- Without one of the nodes. -/
theorem Agree.skip {ns ms : List Node} {n : Node} {E F : Contents}
    (h : Agree (ns ++ n :: ms) E F) : Agree (ns ++ ms) E F := by
  refine h.mono ?_
  intro m hm
  rcases List.mem_append.mp hm with hm | hm
  · exact List.mem_append_left _ hm
  · exact List.mem_append_right _ (List.mem_cons_of_mem _ hm)

/-- Where some nodes stand in a tree; the others are nodes of the tree as well. -/
structure Stands (root : Node) (others ns : List Node) : Prop where
  mem : ∀ n ∈ ns, n ∈ root.walk
  distinct : ns.Nodup
  others : ∀ n ∈ others, n ∈ root.walk ∧ n ∉ ns

namespace Stands

variable {root n : Node} {others ns ms : List Node}

theorem tail (h : Stands root others (n :: ns)) : Stands root others ns :=
  ⟨fun m hm => h.mem m (List.mem_cons_of_mem _ hm), (List.nodup_cons.mp h.distinct).2,
    fun m hm => ⟨(h.others m hm).1, fun hn => (h.others m hm).2 (List.mem_cons_of_mem _ hn)⟩⟩

theorem right (h : Stands root others (ns ++ ms)) : Stands root others ms :=
  ⟨fun m hm => h.mem m (List.mem_append_right _ hm), (List.nodup_append.mp h.distinct).2.1,
    fun m hm => ⟨(h.others m hm).1, fun hn => (h.others m hm).2 (List.mem_append_right _ hn)⟩⟩

theorem left (h : Stands root others (ns ++ ms)) : Stands root others ns :=
  ⟨fun m hm => h.mem m (List.mem_append_left _ hm), (List.nodup_append.mp h.distinct).1,
    fun m hm => ⟨(h.others m hm).1, fun hn => (h.others m hm).2 (List.mem_append_left _ hn)⟩⟩

/-- To the nodes in front, those behind are others. -/
theorem front (h : Stands root others (ns ++ ms)) : Stands root (others ++ ms) ns := by
  refine ⟨h.left.mem, h.left.distinct, ?_⟩
  intro m hm
  rcases List.mem_append.mp hm with hm | hm
  · exact h.left.others m hm
  · exact ⟨h.right.mem m hm, fun hn => (List.nodup_append.mp h.distinct).2.2 m hn m hm rfl⟩

end Stands

namespace Node

/-- No reference outside of a body is to one of its groups. -/
def Loose (root body : Node) : Prop :=
  ∀ r, .reference r ∈ root.walk → r.index ∈ captureIndexes body.walk → .reference r ∈ body.walk

/-- As many iterations as a quantifier allows. -/
def Counted (q : Quantifier) (_ : Node) (τs : List (List Happening)) : Prop :=
  q.count.Allows τs.length

/-- As many iterations as a quantifier allows, spread if some group of the body is referred to
from outside. -/
def Spreads (root : Node) (q : Quantifier) (body : Node) (τs : List (List Happening)) : Prop :=
  Counted q body τs ∧ Spread (root.Loose body) q τs

/-- Iterations that a stream can do. -/
abbrev Passing (q : Quantifier) (_ : Node) (τs : List (List Happening)) : Prop := Passes q 0 0 τs

variable {root : Node}

/-- The groups of a body are the same after a reset, and no others change in an iteration. -/
theorem reset_of_derives {allows : Quantifier → Node → List (List Happening) → Prop} {body : Node}
    {opened : List Nat} {repeated : Bool} {E E' : Contents} {τ : List Happening} {u : Bool}
    (h : body.Derives allows opened repeated (E.reset body.walk) τ u E') :
    E'.reset body.walk = E.reset body.walk := by
  refine Contents.reset_congr ?_
  intro i hi
  rw [eq_of_derives body hi h, Contents.reset_of_not_mem hi]

/-- What `exists_passing` says of one body. -/
def Transfers (root body : Node) : Prop :=
  ∀ ⦃others : List Node⦄, Stands root others body.walk →
    ∀ ⦃opened : List Nat⦄ ⦃repeated : Bool⦄ ⦃E E' F : Contents⦄ ⦃τ : List Happening⦄ ⦃u : Bool⦄,
      body.Derives root.Spreads opened repeated E τ u E' → Agree (others ++ body.walk) E F →
      ∃ F', Agree others E' F' ∧ body.Derives Passing opened repeated F τ u F'

theorem exists_passing_quantifier {q : Quantifier} {body : Node} (ih : Transfers root body) :
    Transfers root (.quantifier q body) := by
  intro others stands opened repeated E E' F τ u h agree
  have frame := fun i (hi : i ∉ captureIndexes body.walk) => eq_of_derives (.quantifier q body)
    (by rwa [walk, captureIndexes_of_not_capture (by simp)]) h
  obtain ⟨τs, v, ⟨allowed, spread⟩, it, rfl, rfl⟩ := h
  obtain ⟨ts, rfl, rfl, rfl, all⟩ := (iterated_iff reset_of_derives).mp it
  rw [Counted, List.length_map] at allowed
  obtain ⟨rs, hr⟩ := exists_rearranged allowed spread
  have agree_reset : Agree (others ++ body.walk) (E.reset body.walk) (F.reset body.walk) := by
    intro r hr
    by_cases hi : r.index ∈ captureIndexes body.walk
    · rw [Contents.reset_of_mem hi, Contents.reset_of_mem hi]
    · rw [Contents.reset_of_not_mem hi, Contents.reset_of_not_mem hi]
      exact agree.skip r hr
  -- Each iteration has a counterpart that starts from the other contents.
  have counterpart : ∀ t, ∃ F', t ∈ ts → Agree others t.after F' ∧
      body.Derives Passing opened true (F.reset body.walk) t.happenings t.unbounded F' := by
    intro t
    by_cases ht : t ∈ ts
    · obtain ⟨F', hF⟩ := ih stands.tail (all t ht) agree_reset
      exact ⟨F', fun _ => hF⟩
    · exact ⟨E, fun h => absurd h ht⟩
  obtain ⟨after, hafter⟩ := Classical.skolem.mp counterpart
  let us : List Outcome := rs.map fun t => ⟨t.happenings, t.unbounded, after t⟩
  have happenings : us.map (·.happenings) = rs.map (·.happenings) := by
    simp [us, List.map_map, Function.comp_def]
  have unbounded : us.any (·.unbounded) = rs.any (·.unbounded) := by
    simp [us, List.any_map, Function.comp_def]
  have quiet : ∀ t ∈ ts, t.isBusy = false → t.unbounded = false := by
    intro t ht idle
    refine unbounded_of_derives body (all t ht) ?_
    rw [Outcome.happenings_of_not_busy idle, word_nil]
  have again : Iterated (body.Derives Passing opened true) (·.reset body.walk)
      (rs.map (·.happenings)) F (ts.any (·.unbounded))
      ((us.getLast?.map (·.after)).getD F) := by
    refine (iterated_iff reset_of_derives).mpr ⟨us, happenings.symm, ?_, rfl, ?_⟩
    · rw [unbounded, hr.any_eq quiet]
    · intro t ht
      obtain ⟨t', ht', rfl⟩ := List.mem_map.mp ht
      exact (hafter t' (hr.mem t' ht')).2
  refine ⟨_, ?_, _, _, hr.passes, again, hr.flatten_eq.symm, rfl⟩
  rcases hr.last with loose | last
  · -- No group of the body matters from here on.
    intro r hm
    have hi : r.index ∉ captureIndexes body.walk := by
      intro hi
      have := stands.others _ hm
      exact this.2 (List.mem_cons_of_mem _ (loose r this.1 hi))
    rw [frame _ hi, agree.left r hm]
    exact (eq_of_iterated (fun E => Contents.reset_of_not_mem hi) (eq_of_derives body hi)
      again).symm
  · rw [List.getLast?_map, last]
    cases hl : ts.getLast? with
    | none => exact agree.left
    | some t => exact (hafter t (List.mem_of_getLast? hl)).1

mutual

/-- **A derivation that is spread can be rearranged into one that a stream can do**, with the same
happenings and the same contents for all that is referred to later on.  The induction is on the
tree.  A quantifier puts its iterations in another order, and what happens in each of them is
rearranged by the hypothesis for the body. -/
theorem exists_passing : ∀ n : Node, Transfers root n
  | atom a => by
    intro others _ _ _ E E' F τ u h agree
    obtain ⟨rfl, rfl, rfl⟩ := h
    exact ⟨F, agree.left, rfl, rfl, rfl⟩
  | anchor s k => by
    intro others _ _ _ E E' F τ u h agree
    obtain ⟨rfl, rfl, rfl⟩ := h
    exact ⟨F, agree.left, rfl, rfl, rfl⟩
  | reference r => by
    intro others _ opened _ E E' F τ u h agree
    obtain ⟨rfl, bounded, rfl, rfl⟩ := h
    have same : E' r.index = F r.index := agree r (by simp [walk])
    have recalled : E'.recalled opened r = F.recalled opened r := by
      rw [Contents.recalled, Contents.recalled, same]
    rw [recalled, same] at bounded
    refine ⟨F, agree.left, ?_, bounded, rfl, rfl⟩
    rw [recalled]
  | group g body => by
    intro others stands opened _ E E' F τ u h agree
    rw [Derives] at h
    split at h
    · rename_i hg
      obtain ⟨E₁, h, rfl⟩ := h
      obtain ⟨F₁, agree₁, h⟩ := exists_passing body stands.tail h agree.skip
      refine ⟨F₁.set g.index ⟨word τ, u⟩, ?_, derives_capture hg h⟩
      intro r hr
      unfold Contents.set
      rw [agree₁ r hr]
    · rename_i hg
      obtain ⟨F', agree', h⟩ := exists_passing body stands.tail h agree.skip
      exact ⟨F', agree', derives_group (by simpa using hg) h⟩
  | quantifier q body => exists_passing_quantifier (exists_passing body)
  | sequence s ns => by
    intro others stands _ _ E E' F τ u h agree
    exact exists_passingAll ns stands.tail h agree.skip
  | alternation s ns => by
    intro others stands _ _ E E' F τ u h agree
    exact exists_passingOne ns stands.tail h agree.skip

theorem exists_passingAll : ∀ (ns : List Node) {others : List Node},
    Stands root others (walkAll ns) → ∀ {opened : List Nat} {repeated : Bool} {E E' F : Contents}
      {τ : List Happening} {u : Bool}, DerivesAll root.Spreads ns opened repeated E τ u E' →
      Agree (others ++ walkAll ns) E F →
      ∃ F', Agree others E' F' ∧ DerivesAll Passing ns opened repeated F τ u F'
  | [], others, _, _, _, E, E', F, _, _, h, agree => by
    obtain ⟨rfl, rfl, rfl⟩ := h
    exact ⟨F, agree.left, rfl, rfl, rfl⟩
  | n :: ns, others, stands, _, _, E, E', F, _, _, h, agree => by
    obtain ⟨τ₁, τ₂, u₁, u₂, E₁, h₁, h₂, rfl, rfl⟩ := h
    rw [walkAll] at stands agree
    obtain ⟨F₁, agree₁, h₁⟩ := exists_passing n stands.front h₁
      (agree.mono (by grind))
    obtain ⟨F', agree', h₂⟩ := exists_passingAll ns stands.right h₂ agree₁
    exact ⟨F', agree', _, _, _, _, F₁, h₁, h₂, rfl, rfl⟩

theorem exists_passingOne : ∀ (ns : List Node) {others : List Node},
    Stands root others (walkAll ns) → ∀ {opened : List Nat} {repeated : Bool} {E E' F : Contents}
      {τ : List Happening} {u : Bool}, DerivesOne root.Spreads ns opened repeated E τ u E' →
      Agree (others ++ walkAll ns) E F →
      ∃ F', Agree others E' F' ∧ DerivesOne Passing ns opened repeated F τ u F'
  | [], _, _, _, _, _, _, _, _, _, h, _ => h.elim
  | n :: ns, others, stands, _, _, E, E', F, _, _, h, agree => by
    rw [walkAll] at stands agree
    rcases h with h | h
    · obtain ⟨F', agree', h⟩ := exists_passing n stands.left h
        (agree.mono (by grind))
      exact ⟨F', agree', .inl h⟩
    · obtain ⟨F', agree', h⟩ := exists_passingOne ns stands.right h
        (agree.mono (by grind))
      exact ⟨F', agree', .inr h⟩

end

end Node

/-! ## 7. Derivations that a stream can do are spread

The other direction, so that nothing is lost by asking for spread iterations.  A stream leaves a
quantifier before the minimum if two iterations in a row were idle, and then the derivation it
does has too few of them.  The last one is idle, so it can be repeated until there are enough. -/

/-- No more iterations are done than there may be. -/
theorem Passes.length_le {q : Quantifier} {i idle : Nat} {τs : List (List Happening)}
    (h : Passes q i idle τs) (hi : ∀ most, q.count.max = some most → i ≤ most) :
    ∀ most, q.count.max = some most → i + τs.length ≤ most := by
  induction h with
  | leave => exact hi
  | idles h => exact Count.lt_of_isExhausted h
  | next h _ _ _ ih =>
    intro most hm
    have := ih (Count.lt_of_isExhausted h) most hm
    rw [List.length_cons]
    omega

/-- Iterations that a stream can do end with an idle one, or with enough busy ones among them. -/
theorem Passes.getLast?_or_le {q : Quantifier} {i idle : Nat} {τs : List (List Happening)}
    (h : Passes q i idle τs) (hi : idle ≤ 1) :
    τs.getLast? = some [] ∨ q.count.min ≤ i + τs.length ∧
      (τs = [] ∨ τs.length + idle ≤ 2 * (τs.filter (!·.isEmpty)).length) := by
  induction h with
  | leave h => exact .inr ⟨h, .inl rfl⟩
  | idles => exact .inl rfl
  | @next i idle idle' τ τs h hi' lt _ ih =>
    rw [List.getLast?_cons, List.length_cons]
    by_cases hτ : τ = []
    · rw [if_pos hτ] at hi'
      rw [List.filter_cons_of_neg (by simp [hτ])]
      rcases ih (by omega) with last | ⟨needs, rfl | enough⟩
      · exact .inl (by simp [last])
      · exact .inl (by simp [hτ])
      · exact .inr ⟨by omega, .inr (by omega)⟩
    · rw [if_neg hτ] at hi'
      rw [List.filter_cons_of_pos (by simp [hτ]), List.length_cons]
      rcases ih (by omega) with last | ⟨needs, rfl | enough⟩
      · exact .inl (by simp [last])
      · exact .inr ⟨needs, .inr (by simp only [List.length_nil, List.filter_nil]; omega)⟩
      · exact .inr ⟨by omega, .inr (by omega)⟩

/-- **Iterations that a stream can do are spread**, once the last one has been repeated until
there are as many as are needed.  If there are too few of them, the stream has left the quantifier
because of the last two, so the last one is idle. -/
theorem Passes.exists_spread {q : Quantifier} {τs : List (List Happening)}
    (ordered : q.count.IsOrdered) (h : Passes q 0 0 τs) (loose : Prop) :
    ∃ k, q.count.Allows (τs ++ List.replicate k []).length ∧
      Spread loose q (τs ++ List.replicate k []) ∧ (k = 0 ∨ τs.getLast? = some []) := by
  have fits := h.length_le (by simp)
  rw [Nat.zero_add] at fits
  rcases h.getLast?_or_le (Nat.zero_le 1) with last | ⟨needs, enough⟩
  · refine ⟨q.count.min - τs.length, ⟨?_, ?_⟩, .inr (.inl ?_), .inr last⟩
    · rw [List.length_append, List.length_replicate]
      omega
    · intro most hm
      have := fits most hm
      have := ordered most hm
      rw [List.length_append, List.length_replicate]
      omega
    · rw [List.getLast?_append, List.getLast?_replicate, last]
      split <;> rfl
  · rw [Nat.zero_add] at needs
    refine ⟨0, ?_, .inr (.inr ?_), .inl rfl⟩
    · rw [List.replicate_zero, List.append_nil]
      exact ⟨needs, fits⟩
    · rw [List.replicate_zero, List.append_nil]
      rcases enough with rfl | enough
      · simpa using needs
      · omega

/-- The last iteration can be repeated, if nothing happens in it. -/
theorem Iterated.replicate {D : Contents → List Happening → Bool → Contents → Prop}
    {reset : Contents → Contents} (frame : ∀ {E τ u E'}, D (reset E) τ u E' → reset E' = reset E)
    {τs : List (List Happening)} {E E' : Contents} {v : Bool} {k : Nat}
    (h : Iterated D reset τs E v E') (hk : k = 0 ∨ τs.getLast? = some []) :
    Iterated D reset (τs ++ List.replicate k []) E v E' := by
  rcases hk with rfl | last
  · simpa using h
  obtain ⟨ts, rfl, rfl, rfl, all⟩ := (iterated_iff frame).mp h
  rw [List.getLast?_map] at last
  obtain ⟨t, ht, idle⟩ := Option.map_eq_some_iff.mp last
  have mem := List.mem_of_getLast? ht
  refine (iterated_iff frame).mpr ⟨ts ++ List.replicate k t, ?_, ?_, ?_, ?_⟩
  · rw [List.map_append, List.map_replicate, idle]
  · rw [List.any_append, List.any_replicate]
    cases hu : t.unbounded with
    | false => split <;> simp
    | true => rw [List.any_eq_true.mpr ⟨t, mem, hu⟩, Bool.true_or]
  · rw [List.getLast?_append, List.getLast?_replicate, ht]
    split <;> rfl
  · intro t' ht'
    rcases List.mem_append.mp ht' with ht' | ht'
    · exact all t' ht'
    · rw [List.eq_of_mem_replicate ht']
      exact all t mem

theorem Iterated.mono {D D' : Contents → List Happening → Bool → Contents → Prop}
    {reset : Contents → Contents} (sub : ∀ {E τ u E'}, D E τ u E' → D' E τ u E')
    {τs : List (List Happening)} {E E' : Contents} {v : Bool} (h : Iterated D reset τs E v E') :
    Iterated D' reset τs E v E' := by
  induction h with
  | none E => exact .none E
  | more h _ ih => exact .more (sub h) ih

namespace Node

variable {root : Node}

mutual

/-- **A derivation that a stream can do is spread**, up to iterations in which nothing happens. -/
theorem spreads_of_passing : ∀ n : Node, (∀ m ∈ n.walk, m.IsSound) → ∀ {opened : List Nat}
    {repeated : Bool} {E E' : Contents} {τ : List Happening} {u : Bool},
      n.Derives Passing opened repeated E τ u E' → n.Derives root.Spreads opened repeated E τ u E'
  | atom a, _, _, _, _, _, _, _, h => h
  | anchor s k, _, _, _, _, _, _, _, h => h
  | reference r, _, _, _, _, _, _, _, h => h
  | group g body, sound, _, _, _, _, _, _, h => by
    have inner : ∀ m ∈ body.walk, m.IsSound := fun m hm => sound m (by simp [walk, hm])
    rw [Derives] at h ⊢
    split
    · rename_i hg
      rw [if_pos hg] at h
      obtain ⟨E₁, h, rfl⟩ := h
      exact ⟨E₁, spreads_of_passing body inner h, rfl⟩
    · rename_i hg
      rw [if_neg hg] at h
      exact spreads_of_passing body inner h
  | quantifier q body, sound, opened, _, _, _, _, _, h => by
    have inner : ∀ m ∈ body.walk, m.IsSound := fun m hm => sound m (by simp [walk, hm])
    have ordered : q.count.IsOrdered := sound (.quantifier q body) (by simp [walk])
    obtain ⟨τs, v, passes, h, rfl, rfl⟩ := h
    obtain ⟨k, allowed, spread, hk⟩ := passes.exists_spread ordered (root.Loose body)
    refine ⟨_, v, ⟨allowed, spread⟩, ?_, ?_, rfl⟩
    · exact (h.mono (spreads_of_passing body inner)).replicate reset_of_derives hk
    · simp
  | sequence s ns, sound, _, _, _, _, _, _, h =>
    spreadsAll_of_passing ns (fun m hm => sound m (by simp [walk, hm])) h
  | alternation s ns, sound, _, _, _, _, _, _, h =>
    spreadsOne_of_passing ns (fun m hm => sound m (by simp [walk, hm])) h

theorem spreadsAll_of_passing : ∀ ns : List Node, (∀ m ∈ walkAll ns, m.IsSound) →
    ∀ {opened : List Nat} {repeated : Bool} {E E' : Contents} {τ : List Happening} {u : Bool},
      DerivesAll Passing ns opened repeated E τ u E' →
      DerivesAll root.Spreads ns opened repeated E τ u E'
  | [], _, _, _, _, _, _, _, h => h
  | n :: ns, sound, _, _, _, _, _, _, h => by
    obtain ⟨τ₁, τ₂, u₁, u₂, E₁, h₁, h₂, rfl, rfl⟩ := h
    exact ⟨τ₁, τ₂, u₁, u₂, E₁,
      spreads_of_passing n (fun m hm => sound m (by simp [walkAll, hm])) h₁,
      spreadsAll_of_passing ns (fun m hm => sound m (by simp [walkAll, hm])) h₂, rfl, rfl⟩

theorem spreadsOne_of_passing : ∀ ns : List Node, (∀ m ∈ walkAll ns, m.IsSound) →
    ∀ {opened : List Nat} {repeated : Bool} {E E' : Contents} {τ : List Happening} {u : Bool},
      DerivesOne Passing ns opened repeated E τ u E' →
      DerivesOne root.Spreads ns opened repeated E τ u E'
  | [], _, _, _, _, _, _, _, h => h
  | n :: ns, sound, _, _, _, _, _, _, h => by
    rcases h with h | h
    · exact .inl (spreads_of_passing n (fun m hm => sound m (by simp [walkAll, hm])) h)
    · exact .inr (spreadsOne_of_passing ns (fun m hm => sound m (by simp [walkAll, hm])) h)

end

end Node

end Backtrack
