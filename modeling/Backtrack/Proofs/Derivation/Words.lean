/-
# The words of a tree

A tree spells words over its leaves and references, and it spells them the way one expects: a
sequence one after the other, an alternation one of several, a quantifier as often as its count
allows.  Only the end of the input is special, since nothing comes after it: a word that has
ended takes nothing that follows.

A stream has its own idea of a quantifier.  It leaves one after two iterations running that
consumed nothing, even if more are needed, and so it walks in ways that a count does not allow
and misses others that it does.  That changes nothing about the words.

* Nothing is invented (`Node.spells_of_traverses`): a quantifier that was left early could have
  gone on doing nothing until its count was met (`exists_repeats`).
* Nothing is lost (`Node.exists_traverses`): iterations that spell nothing can be put off to the
  end, and there two of them are enough (`exists_dense`, `exists_rounds`).
-/
import Backtrack.Proofs.Derivation.Traversal
import Backtrack.Proofs.Pattern.Trees

namespace Backtrack

/-! ## 1. Words

The words are those of the language with references as letters of their own.  They are given with
a flag for the end of the input, as an element behind it adds nothing. -/

/-- The words of `k` words of `S` one after the other.  After a word that has ended, nothing more
is spelled. -/
inductive Repeats (S : List Node → Bool → Prop) : Nat → List Node → Bool → Prop
  | none : Repeats S 0 [] false
  | ends {k : Nat} {w : List Node} (h : S w true) : Repeats S (k + 1) w true
  | more {k : Nat} {w₁ w₂ : List Node} {ended : Bool} (h : S w₁ false)
    (rest : Repeats S k w₂ ended) : Repeats S (k + 1) (w₁ ++ w₂) ended

/-- Whether a count allows `k` repetitions. -/
def Count.Allows (c : Count) (k : Nat) : Prop := c.min ≤ k ∧ ∀ most, c.max = some most → k ≤ most

namespace Node

mutual

/-- **The words of a node**, and whether the end of the input has ended them. -/
def Spells (multiline : Bool) : Node → List Node → Bool → Prop
  | atom a, w, ended => w = [.atom a] ∧ ended = false
  | reference r, w, ended => w = [.reference r] ∧ ended = false
  | anchor _ k, w, ended => w = [] ∧ ended = (k == .stop && !multiline)
  | group g body, w, ended =>
    if g.isLookaround then w = [] ∧ ended = false else body.Spells multiline w ended
  | quantifier q body, w, ended =>
    ∃ k, q.count.Allows k ∧ Repeats (body.Spells multiline) k w ended
  | sequence _ ns, w, ended => SpellsAll multiline ns w ended
  | alternation _ ns, w, ended => SpellsOne multiline ns w ended

/-- The words of several nodes one after the other. -/
def SpellsAll (multiline : Bool) : List Node → List Node → Bool → Prop
  | [], w, ended => w = [] ∧ ended = false
  | n :: ns, w, ended =>
    (ended = true ∧ n.Spells multiline w true) ∨
      ∃ w₁ w₂, w = w₁ ++ w₂ ∧ n.Spells multiline w₁ false ∧ SpellsAll multiline ns w₂ ended

/-- The words of one of several nodes. -/
def SpellsOne (multiline : Bool) : List Node → List Node → Bool → Prop
  | [], _, _ => False
  | n :: ns, w, ended => n.Spells multiline w ended ∨ SpellsOne multiline ns w ended

end

end Node

/-! ## 2. Nothing is invented

The only ways that a count does not allow are those that leave a quantifier early.  The last
iterations of such a way spell nothing, so they can be repeated as often as the count asks for. -/

section Repeats

variable {S : List Node → Bool → Prop} {q : Quantifier} {fs : Frames}
  {B : Frames → List (Event Unit) → Bool → Prop}

/-- What spells nothing can be repeated at will. -/
theorem repeats_nil (h : S [] false) : ∀ k, Repeats S k [] false
  | 0 => .none
  | k + 1 => by simpa using Repeats.more h (repeats_nil h k)

theorem Count.lt_of_isExhausted {c : Count} {i : Nat} (h : c.isExhausted i = false) :
    ∀ most, c.max = some most → i < most := by
  intro most hm
  simpa [Count.isExhausted, hm] using h

theorem Count.exists_of_isExhausted {c : Count} {i : Nat} (h : c.isExhausted i = true) :
    ∃ most, c.max = some most ∧ most ≤ i := by
  cases hm : c.max with
  | none => simp [Count.isExhausted, hm] at h
  | some most => exact ⟨most, rfl, by simpa [Count.isExhausted, hm] using h⟩

theorem Count.isExhausted_of_lt {c : Count} {i k : Nat}
    (hk : ∀ most, c.max = some most → k ≤ most) (h : i < k) : c.isExhausted i = false := by
  cases hm : c.max with
  | none => simp [Count.isExhausted, hm]
  | some most =>
    have := hk most hm
    simp only [Count.isExhausted, hm, Option.any_some, decide_eq_false_iff_not]
    omega

/-- **A quantifier that is left early could have gone on.**  What is spelled from iteration `i`
on is spelled by as many more repetitions as the count allows. -/
theorem exists_repeats (ordered : q.count.IsOrdered)
    (spells : ∀ {fs es ended}, B fs es ended → S (letters es) ended) {i idle : Nat}
    {es : List (Event Unit)} {ended : Bool} (h : Rounds q fs B i idle es ended)
    (hi : ∀ most, q.count.max = some most → i ≤ most) :
    ∃ k, q.count.Allows (i + k) ∧ Repeats S k (letters es) ended := by
  induction h with
  | @exhausted i _ h =>
    obtain ⟨most, hm, hle⟩ := Count.exists_of_isExhausted h
    have := ordered most hm
    refine ⟨0, ⟨by omega, ?_⟩, .none⟩
    intro m hm'
    obtain rfl := Option.some.inj (hm.symm.trans hm')
    exact hi most hm
  | leave h hm => exact ⟨0, ⟨hm, hi⟩, .none⟩
  | @ends i _ es h hb =>
    refine ⟨q.count.min - (i + 1) + 1, ⟨by omega, ?_⟩, ?_⟩
    · intro most hm
      have := Count.lt_of_isExhausted h most hm
      have := ordered most hm
      omega
    · simpa using Repeats.ends (S := S) (spells hb)
  | @idles i _ es h hb quiet _ =>
    have hs := spells hb
    rw [quiet] at hs
    refine ⟨q.count.min - (i + 1) + 1, ⟨by omega, ?_⟩, ?_⟩
    · intro most hm
      have := Count.lt_of_isExhausted h most hm
      have := ordered most hm
      omega
    · simpa [quiet] using repeats_nil hs _
  | @next i _ _ es es' ended h hb _ _ _ ih =>
    obtain ⟨k, hk, hr⟩ := ih fun most hm => Count.lt_of_isExhausted h most hm
    refine ⟨k + 1, by rwa [Nat.add_right_comm] at hk, ?_⟩
    simpa using Repeats.more (spells hb) hr

/-! ## 3. Nothing is lost

The other way round, some of the repetitions a count asks for may spell nothing, and they may come
anywhere.  The stream cannot do three of them in a row, so they are left out (`Dense`), and two of
them come at the end if more are needed. -/

/-- The same word without the repetitions that spell nothing. -/
inductive Dense (S : List Node → Bool → Prop) : Nat → List Node → Bool → Prop
  | none : Dense S 0 [] false
  | ends {w : List Node} (h : S w true) : Dense S 1 w true
  | more {j : Nat} {w₁ w₂ : List Node} {ended : Bool} (hw : w₁ ≠ []) (h : S w₁ false)
    (rest : Dense S j w₂ ended) : Dense S (j + 1) (w₁ ++ w₂) ended

/-- Repetitions that spell nothing can be left out; if there were any, one can be had. -/
theorem exists_dense {k : Nat} {w : List Node} {ended : Bool} (h : Repeats S k w ended) :
    ∃ j, j ≤ k ∧ Dense S j w ended ∧ (ended = false → j < k → S [] false) := by
  induction h with
  | none => exact ⟨0, Nat.le_refl 0, .none, fun _ h => absurd h (Nat.lt_irrefl 0)⟩
  | ends h => exact ⟨1, by omega, .ends h, by simp⟩
  | @more k w₁ w₂ ended h _ ih =>
    obtain ⟨j, hj, dense, pad⟩ := ih
    by_cases hw : w₁ = []
    · subst hw
      exact ⟨j, by omega, dense, fun _ _ => h⟩
    · exact ⟨j + 1, by omega, .more hw h dense, fun he hlt => pad he (by omega)⟩

/-- A quantifier that needs more iterations is left after two that spell nothing. -/
theorem exists_rounds_nil
    (ways : ∀ {w ended}, S w ended → ∀ fs, ∃ es, B fs es ended ∧ letters es = w) {i : Nat}
    (pad : i < q.count.min → S [] false) :
    ∃ es, Rounds q fs B i 0 es false ∧ letters es = [] := by
  cases hx : q.count.isExhausted i with
  | true => exact ⟨[], .exhausted hx, rfl⟩
  | false =>
    by_cases hm : q.count.min ≤ i
    · exact ⟨_, .leave hx hm, rfl⟩
    · have empty := ways (pad (by omega))
      obtain ⟨es, hb, quiet⟩ := empty (Stream.iterationFrame q i :: fs)
      -- One iteration that spells nothing; after it the quantifier may be done.
      suffices h : ∃ es', Rounds q fs B (i + 1) 1 es' false ∧ letters es' = [] by
        obtain ⟨es', hr, quiet'⟩ := h
        exact ⟨_, .next hx hb (by rw [if_pos quiet]) (by omega) hr, by simp [quiet, quiet']⟩
      cases hx' : q.count.isExhausted (i + 1) with
      | true => exact ⟨[], .exhausted hx', rfl⟩
      | false =>
        by_cases hm' : q.count.min ≤ i + 1
        · exact ⟨_, .leave hx' hm', rfl⟩
        · obtain ⟨es', hb', quiet'⟩ := empty (Stream.iterationFrame q (i + 1) :: fs)
          exact ⟨_, .idles hx' hb' quiet' (Nat.le_refl 1), by simp [quiet']⟩

/-- **The iterations that spell something come first**, and there is a way through them.  Those
that spell nothing are needed for the count only, and the stream stops counting after two of
them. -/
theorem exists_rounds
    (ways : ∀ {w ended}, S w ended → ∀ fs, ∃ es, B fs es ended ∧ letters es = w) {j : Nat}
    {w : List Node} {ended : Bool} (h : Dense S j w ended) :
    ∀ {i : Nat}, (∀ most, q.count.max = some most → i + j ≤ most) →
      (ended = false → i + j < q.count.min → S [] false) →
      ∃ es, Rounds q fs B i 0 es ended ∧ letters es = w := by
  induction h with
  | none =>
    intro i _ pad
    exact exists_rounds_nil (B := B) ways (pad rfl)
  | ends h =>
    intro i hle _
    obtain ⟨es, hb, rfl⟩ := ways h (Stream.iterationFrame q i :: fs)
    exact ⟨_, .ends (Count.isExhausted_of_lt hle (by omega)) hb, by simp⟩
  | @more j w₁ w₂ ended hw h _ ih =>
    intro i hle pad
    obtain ⟨es, hb, rfl⟩ := ways h (Stream.iterationFrame q i :: fs)
    have fits : ∀ most, q.count.max = some most → i + 1 + j ≤ most := by
      intro most hm
      have := hle most hm
      omega
    obtain ⟨es', hr, rfl⟩ := ih fits (fun he hlt => pad he (by omega))
    have opened := Count.isExhausted_of_lt hle (i := i) (by omega)
    exact ⟨_, .next opened hb (by rw [if_neg hw]) (by omega) hr, by simp⟩

end Repeats

/-! ## 4. Ways and words

Both directions go by recursion on the tree, and only quantifiers have anything to rearrange. -/

namespace Node

variable {multiline : Bool}

mutual

/-- **Every way through a sound node spells one of its words.**  The tree is sound, so that counts
can be met and alternatives are there. -/
theorem spells_of_traverses : ∀ (n : Node), (∀ m ∈ n.walk, m.IsSound) → ∀ {fs : Frames}
    {es : List (Event Unit)} {ended : Bool}, n.Traverses multiline fs es ended →
      n.Spells multiline (letters es) ended
  | atom a, _, fs, es, ended, h => by
    obtain ⟨rfl, rfl⟩ := h
    exact ⟨rfl, rfl⟩
  | reference r, _, fs, es, ended, h => by
    obtain ⟨rfl, rfl⟩ := h
    exact ⟨rfl, rfl⟩
  | anchor s k, _, fs, es, ended, h => by
    unfold Traverses at h
    split at h
    · obtain ⟨rfl, rfl⟩ := h
      exact ⟨rfl, rfl⟩
    · obtain ⟨rfl, rfl⟩ := h
      exact ⟨rfl, rfl⟩
    · rename_i hstart hstop
      obtain ⟨rfl, rfl⟩ := h
      refine ⟨rfl, ?_⟩
      cases k <;> cases multiline <;> simp_all
  | group g body, sound, fs, es, ended, h => by
    rw [Traverses] at h
    rw [Spells]
    split at h
    · rename_i hg
      obtain ⟨rfl, rfl⟩ := h
      rw [if_pos hg]
      exact ⟨rfl, rfl⟩
    · rename_i hg
      rw [if_neg hg]
      exact spells_of_traverses body (fun m hm => sound m (by simp [walk, hm])) h
  | quantifier q body, sound, fs, es, ended, h => by
    obtain ⟨es', rfl, h⟩ := h
    have ordered : q.count.IsOrdered := sound (.quantifier q body) (by simp [walk])
    obtain ⟨k, hk, hr⟩ := exists_repeats ordered
      (spells_of_traverses body fun m hm => sound m (by simp [walk, hm])) h (by omega)
    rw [Nat.zero_add] at hk
    exact ⟨k, hk, hr⟩
  | sequence s ns, sound, fs, es, ended, h =>
    spellsAll_of_traverses ns (fun m hm => sound m (by simp [walk, hm])) h
  | alternation s ns, sound, fs, es, ended, h => by
    have nonempty : ns ≠ [] := sound (.alternation s ns) (by simp [walk])
    exact spellsOne_of_traverses ns nonempty (fun m hm => sound m (by simp [walk, hm])) h

theorem spellsAll_of_traverses : ∀ (ns : List Node), (∀ m ∈ walkAll ns, m.IsSound) →
    ∀ {fs : Frames} {es : List (Event Unit)} {ended : Bool},
      TraversesAll multiline ns fs es ended → SpellsAll multiline ns (letters es) ended
  | [], _, fs, es, ended, h => by
    obtain ⟨rfl, rfl⟩ := h
    exact ⟨rfl, rfl⟩
  | n :: ns, sound, fs, es, ended, h => by
    have first : ∀ m ∈ n.walk, m.IsSound := fun m hm => sound m (by simp [walkAll, hm])
    have others : ∀ m ∈ walkAll ns, m.IsSound := fun m hm => sound m (by simp [walkAll, hm])
    rcases h with ⟨rfl, h⟩ | ⟨es₁, es₂, rfl, h₁, h₂⟩
    · exact .inl ⟨rfl, spells_of_traverses n first h⟩
    · exact .inr ⟨_, _, letters_append es₁ es₂, spells_of_traverses n first h₁,
        spellsAll_of_traverses ns others h₂⟩

theorem spellsOne_of_traverses : ∀ (ns : List Node), ns ≠ [] → (∀ m ∈ walkAll ns, m.IsSound) →
    ∀ {fs : Frames} {es : List (Event Unit)} {ended : Bool},
      TraversesOne multiline ns fs es ended → SpellsOne multiline ns (letters es) ended
  | [], hne, _, fs, es, ended, h => absurd rfl hne
  | [n], _, sound, fs, es, ended, h =>
    .inl (spells_of_traverses n (fun m hm => sound m (by simp [walkAll, hm])) h)
  | n :: m :: ns, _, sound, fs, es, ended, h => by
    obtain ⟨es', rfl, h⟩ := h
    rw [letters_split]
    rcases h with h | h
    · exact .inl (spells_of_traverses n (fun k hk => sound k (by simp [walkAll, hk])) h)
    · refine .inr (spellsOne_of_traverses (m :: ns) (by simp) (fun k hk => sound k ?_) h)
      rw [walkAll]
      exact List.mem_append_right _ hk

end

mutual

/-- **There is a way through a node for each of its words**, inside of any frames.  Which frames
there are makes no difference to what is spelled. -/
theorem exists_traverses : ∀ (n : Node) {w : List Node} {ended : Bool},
    n.Spells multiline w ended → ∀ fs : Frames,
      ∃ es, n.Traverses multiline fs es ended ∧ letters es = w
  | atom a, w, ended, h, fs => by
    obtain ⟨rfl, rfl⟩ := h
    exact ⟨_, ⟨rfl, rfl⟩, rfl⟩
  | reference r, w, ended, h, fs => by
    obtain ⟨rfl, rfl⟩ := h
    exact ⟨_, ⟨rfl, rfl⟩, rfl⟩
  | anchor s k, w, ended, h, fs => by
    obtain ⟨rfl, rfl⟩ := h
    cases k <;> cases multiline <;> exact ⟨_, ⟨rfl, rfl⟩, rfl⟩
  | group g body, w, ended, h, fs => by
    rw [Spells] at h
    cases hg : g.isLookaround with
    | true =>
      rw [if_pos hg] at h
      obtain ⟨rfl, rfl⟩ := h
      exact ⟨[.split fs ()], by simp [Traverses, hg], rfl⟩
    | false =>
      rw [if_neg (by simp [hg])] at h
      obtain ⟨es, ht, rfl⟩ := exists_traverses body h (.group g :: fs)
      exact ⟨es, by simpa [Traverses, hg] using ht, rfl⟩
  | quantifier q body, w, ended, h, fs => by
    obtain ⟨k, ⟨hmin, hmax⟩, h⟩ := h
    obtain ⟨j, hj, dense, pad⟩ := exists_dense h
    have fits : ∀ most, q.count.max = some most → 0 + j ≤ most := by
      intro most hm
      have := hmax most hm
      omega
    have rounds : ∃ es, Rounds q fs (body.Traverses multiline) 0 0 es ended ∧ letters es = w :=
      exists_rounds (S := body.Spells multiline) (B := body.Traverses multiline)
        (exists_traverses body) dense fits (fun he hlt => pad he (by omega))
    obtain ⟨es, hr, rfl⟩ := rounds
    exact ⟨_, ⟨es, rfl, hr⟩, rfl⟩
  | sequence s ns, w, ended, h, fs => exists_traversesAll ns h fs
  | alternation s ns, w, ended, h, fs => exists_traversesOne ns h fs

theorem exists_traversesAll : ∀ (ns : List Node) {w : List Node} {ended : Bool},
    SpellsAll multiline ns w ended → ∀ fs : Frames,
      ∃ es, TraversesAll multiline ns fs es ended ∧ letters es = w
  | [], w, ended, h, fs => by
    obtain ⟨rfl, rfl⟩ := h
    exact ⟨_, ⟨rfl, rfl⟩, rfl⟩
  | n :: ns, w, ended, h, fs => by
    rcases h with ⟨rfl, h⟩ | ⟨w₁, w₂, rfl, h₁, h₂⟩
    · obtain ⟨es, ht, rfl⟩ := exists_traverses n h fs
      exact ⟨es, .inl ⟨rfl, ht⟩, rfl⟩
    · obtain ⟨es₁, ht₁, rfl⟩ := exists_traverses n h₁ fs
      obtain ⟨es₂, ht₂, rfl⟩ := exists_traversesAll ns h₂ fs
      exact ⟨_, .inr ⟨es₁, es₂, rfl, ht₁, ht₂⟩, letters_append es₁ es₂⟩

theorem exists_traversesOne : ∀ (ns : List Node) {w : List Node} {ended : Bool},
    SpellsOne multiline ns w ended → ∀ fs : Frames,
      ∃ es, TraversesOne multiline ns fs es ended ∧ letters es = w
  | [], w, ended, h, fs => h.elim
  | [n], w, ended, h, fs => exists_traverses n (h.resolve_right fun h => h) fs
  | n :: m :: ns, w, ended, h, fs => by
    rcases h with h | h
    · obtain ⟨es, ht, rfl⟩ := exists_traverses n h fs
      exact ⟨_, ⟨es, rfl, .inl ht⟩, rfl⟩
    · obtain ⟨es, ht, rfl⟩ := exists_traversesOne (m :: ns) h fs
      exact ⟨_, ⟨es, rfl, .inr ht⟩, rfl⟩

end

end Node

/-! ## 5. The words of a stream -/

/-- **A stream walks the words of its tree.**  For a parsed pattern, with or without multiline:
the leaves and references along the paths that stay outside of lookarounds and end are exactly
the words of the tree. -/
theorem exists_path_iff_spells {source : Bytes} {flags : Flags} {p : Pattern}
    (parsed : Pattern.parse source flags = .ok p) (multiline : Bool) (w : List Node) :
    (∃ es, Path (Stream.step multiline) (Stream.ofNode p.root) es ∧
      (∀ e ∈ es, Frames.lookarounds e.frames = []) ∧ letters es = w) ↔
    ∃ ended, p.root.Spells multiline w ended := by
  have sound := (Pattern.isWellFormed_of_parse parsed).sound
  constructor
  · rintro ⟨full, hp, outside, rfl⟩
    obtain ⟨es, ended, h, rfl⟩ := Stream.path_ofNode_iff.mp ⟨hp, outside⟩
    refine ⟨ended, ?_⟩
    have same : letters (if ended then es else es ++ [.stop [] false]) = letters es := by
      cases ended <;> simp
    rw [same]
    exact Node.spells_of_traverses p.root sound h
  · rintro ⟨ended, h⟩
    obtain ⟨es, ht, rfl⟩ := Node.exists_traverses p.root h []
    obtain ⟨hp, outside⟩ := Stream.path_ofNode_iff.mpr ⟨es, ended, ht, rfl⟩
    refine ⟨_, hp, outside, ?_⟩
    cases ended <;> simp

/-- In `(?:|a){3}` a stream leaves the quantifier after two iterations that spell nothing.
There is a path for the word that three of them spell all the same. -/
theorem exists_path_of_three_empty :
    ∃ p, Pattern.parse (Bytes.ofString "(?:|a)\x7b3\x7d") {} = .ok p ∧
      p.root.Spells false [] false ∧
      ∃ es, Path (Stream.step false) (Stream.ofNode p.root) es ∧
        (∀ e ∈ es, Frames.lookarounds e.frames = []) ∧ letters es = [] := by
  let p : Pattern :=
    { source := Bytes.ofString "(?:|a)\x7b3\x7d"
      flags := {}
      root := .quantifier ⟨⟨5, 0, 9⟩, ⟨3, some 3, false⟩⟩
        (.group ⟨⟨4, 0, 6⟩, .nonCapture, 0, []⟩
          (.alternation ⟨3, 3, 5⟩ [.sequence ⟨1, 3, 3⟩ [], .atom ⟨⟨2, 4, 5⟩, .char 97⟩]))
      captures := 0 }
  have parsed : Pattern.parse (Bytes.ofString "(?:|a)\x7b3\x7d") {} = .ok p := by
    with_unfolding_all rfl
  have spells : p.root.Spells false [] false :=
    ⟨3, ⟨Nat.le_refl 3, by simp⟩, repeats_nil (.inl ⟨rfl, rfl⟩) 3⟩
  exact ⟨p, parsed, spells, (exists_path_iff_spells parsed false []).mpr ⟨false, spells⟩⟩

end Backtrack
