/-
# Reading goes forward and stays inside

Every function of the reader by offsets ends in one of two ways (`Descent.Within`): with an offset
that is further on but not beyond the end of the source, or with a fault at an offset of the source or
its end.  No byte is asked for where there is none.

What is read by itself takes a byte at least (`Descent.member_within`, `Descent.bracket_within`,
`Descent.escape_within`).  From that it follows for what is read in parts: the calls that `choices`
and `sequence` nest in each other are at offsets that only grow, so there are never more than twice
the bytes left, and the number of calls they are given does not run out
(`Descent.nested_within`).
-/
import Backtrack.Proofs.Pattern.Atoms

namespace Backtrack

namespace Descent

/-! ## 1. Two ways to end

A fault has to be inside as well, so each function has a bound on its offset in either case.
Reading one thing after the other composes, as the second starts where the first ended. -/

section Within

variable {α β : Type} {s : Bytes} {P P' : α → Prop} {Q : β → Prop}

/-- What is read is as `P` says, or there is a fault in the source or at its end. -/
def Within (s : Bytes) (P : α → Prop) : Reads α → Prop
  | .ok a => P a
  | .error (.fault j _) => j ≤ s.length
  | .error _ => False

theorem Within.mono {r : Reads α} (h : Within s P r) (le : ∀ a, P a → P' a) : Within s P' r := by
  rcases r with (_ | _ | _) | a
  · exact h
  · exact h
  · exact h
  · exact le a h

/-- Reading on from what was read. -/
theorem Within.bind {r : Reads α} {f : α → Reads β} (h : Within s P r)
    (next : ∀ a, P a → Within s Q (f a)) : Within s Q (r >>= f) := by
  rcases r with (_ | _ | _) | a
  · exact h
  · exact h
  · exact h
  · exact next a h

theorem Within.map {r : Reads α} {f : α → β} (h : Within s P r) (next : ∀ a, P a → Q (f a)) :
    Within s Q (r.map f) := by
  rcases r with (_ | _ | _) | a
  · exact h
  · exact h
  · exact h
  · exact next a h

/-- What is found at a place in the source. -/
theorem exists_left {i : Nat} (h : i < s.length) : ∃ b rest, Left s i (b :: rest) := by
  cases left : s.drop i with
  | nil => exact absurd (List.drop_eq_nil_iff.mp left) (by omega)
  | cons b rest => exact ⟨b, rest, by omega, left⟩

theorem exists_left_two {i : Nat} (h : i + 1 < s.length) :
    ∃ x e rest, Left s i (x :: e :: rest) := by
  obtain ⟨x, rest, left⟩ := exists_left (Nat.lt_of_succ_lt h)
  have length := left.length
  cases rest with
  | nil =>
    rw [List.length_singleton] at length
    omega
  | cons e more => exact ⟨x, e, more, left⟩

theorem left_drop {i : Nat} (h : i ≤ s.length) : Left s i (s.drop i) := ⟨h, rfl⟩

end Within

/-! ## 2. What is read by itself

The functions agree with those of the reader of lexemes, whose widths are known.  So what is to be
shown here is that no width goes beyond what is left. -/

section Units

variable {flags : Flags} {total : Nat} {s rest : Bytes} {st : State} {i : Nat} {b : UInt8}

theorem within_located {α : Type} {read : Except Lexer.Fault (α × Nat)}
    (h : Left s i (b :: rest)) (ok : ∀ r, read = .ok r → 1 ≤ r.2 ∧ r.2 ≤ rest.length + 1)
    (bad : ∀ f, read = .error f → f.offset ≤ rest.length + 1) :
    Within s (fun r => i < r.2 ∧ r.2 ≤ s.length) (located i read) := by
  have length := h.length_cons
  cases read with
  | ok r =>
    have := ok r rfl
    exact ⟨by dsimp only; omega, by dsimp only; omega⟩
  | error f =>
    have := bad f rfl
    show i + f.offset ≤ s.length
    omega

theorem member_within (unicode : Bool) (h : i < s.length) :
    Within s (fun r => i < r.2 ∧ r.2 ≤ s.length) (member unicode s i) := by
  obtain ⟨b, rest, left⟩ := exists_left h
  rw [member_eq left]
  exact within_located left (fun r => Lexer.width_of_member) fun f => Lexer.offset_of_member

theorem classEscape_within (h : i + 1 < s.length) :
    Within s (fun _ => True) (classEscape s i) := by
  obtain ⟨x, e, rest, left⟩ := exists_left_two h
  rw [classEscape_eq left]
  trivial

theorem property_within (unicode : Bool) (h : i + 1 < s.length) :
    Within s (fun r => ∀ p ∈ r, i < p.2 ∧ p.2 ≤ s.length) (property unicode s i) := by
  obtain ⟨x, e, rest, left⟩ := exists_left_two h
  rw [property_eq left]
  rcases read : Lexer.property? unicode e rest with _ | r
  · exact fun p hp => absurd hp (Option.not_mem_none p)
  · have inside : Within s (fun p => i < p.2 ∧ p.2 ≤ s.length) (located i r) := by
      refine within_located left (fun p hp => ?_) fun f hf => ?_
      · rw [hp] at read
        exact Lexer.width_of_readsProperty (Lexer.readsProperty_of_property? read)
      · rw [hf] at read
        exact Lexer.offset_of_property? read
    exact inside.map fun p hp q hq => Option.some.inj hq ▸ hp

/-- A backslash that nothing follows escapes the end of the source. -/
theorem charEscape_last (unicode : Bool) (h : i + 1 = s.length) :
    charEscape unicode s i = .ok (Lexer.controlValue Utf8.replacement, i + 1) := by
  have char : charAt s (i + 1) = .ok (Utf8.replacement, 0) := by
    rw [charAt, suffix, if_pos (Nat.le_of_eq h), h, List.drop_length]
    rfl
  unfold charEscape
  rw [char]
  cases unicode <;> rfl

theorem charEscape_within (unicode : Bool) (h : i < s.length) :
    Within s (fun r => i < r.2 ∧ r.2 ≤ s.length) (charEscape unicode s i) := by
  rcases Nat.lt_or_eq_of_le (Nat.succ_le_of_lt h) with lt | last
  · obtain ⟨x, e, rest, left⟩ := exists_left_two lt
    have length := left.length
    rw [List.length_cons, List.length_cons] at length
    rw [charEscape_eq left]
    cases read : Lexer.charEscape unicode e rest with
    | ok r =>
      have := Lexer.width_of_readsChar (Lexer.readsChar_of_charEscape read)
      exact ⟨by dsimp only; omega, by dsimp only; omega⟩
    | error cause => exact Nat.le_of_lt h
  · rw [charEscape_last unicode last]
    exact ⟨Nat.lt_succ_self i, Nat.succ_le_of_lt h⟩

theorem bracket_within (unicode : Bool) (used : Nat) (h : i < s.length) :
    Within s (fun r => i < r.2.2 ∧ r.2.2 ≤ s.length) (bracket unicode s used i) := by
  obtain ⟨b, rest, left⟩ := exists_left h
  have length := left.length_cons
  rw [bracket_eq used left]
  cases read : Lexer.charClass unicode i rest with
  | ok r =>
    obtain ⟨after, before, -⟩ := Lexer.extent_of_charClass read
    exact ⟨after, by dsimp only; omega⟩
  | error f =>
    have := (Lexer.offset_of_charClass read).2
    show f.offset ≤ s.length
    omega

theorem opening_within (names : List Bytes) (h : i < s.length) :
    Within s (fun r => i < r.2.2 ∧ r.2.2 ≤ s.length) (opening s names i) := by
  obtain ⟨b, rest, left⟩ := exists_left h
  have length := left.length_cons
  rw [opening_eq names left]
  cases read : Lexer.opening names rest with
  | ok r =>
    obtain ⟨kind, name, w⟩ := r
    have := Lexer.width_of_opening (Lexer.readsOpening_of_opening read)
    exact ⟨by dsimp only; omega, by dsimp only; omega⟩
  | error f =>
    have := Lexer.offset_of_opening read
    show i + f.offset ≤ s.length
    omega

theorem quantifier_within (h : i ≤ s.length) :
    Within s (fun r => ∀ q ∈ r, 1 ≤ q.2 ∧ i + q.2 ≤ s.length) (quantifier s i) := by
  have left := left_drop h
  cases rest : s.drop i with
  | nil =>
    rw [quantifier_end (rest ▸ left)]
    exact fun q hq => absurd hq (Option.not_mem_none q)
  | cons b more =>
    rw [rest] at left
    have length := left.length_cons
    rw [quantifier_eq left]
    rcases read : Lexer.count? b more with cause | _ | ⟨c, w⟩
    · exact h
    · exact fun q hq => absurd hq (Option.not_mem_none q)
    · have width := Lexer.width_of_count? read
      intro q hq
      obtain rfl := Option.some.inj hq
      exact ⟨width.1, by dsimp only; omega⟩

end Units

/-! ## 3. Elements

A group holds a body, and reading the body is a parameter: all that is asked of it is that it may
start anywhere behind the parenthesis. -/

section Elements

variable {flags : Flags} {total : Nat} {s rest : Bytes} {st : State} {i : Nat} {b : UInt8}

/-- A node takes the bytes from `i` up to the next offset, which is further on. -/
structure Spans (s : Bytes) (i : Nat) (r : Node × Nat × State) : Prop where
  lt : i < r.2.1
  le : r.2.1 ≤ s.length
  start : r.1.site.start = i
  stop : r.1.site.stop = r.2.1

/-- The tokens that are elements by themselves. -/
inductive IsElement : Token → Prop
  | leaf (shape : Shape) : IsElement (.leaf shape)
  | anchor (k : Anchor) : IsElement (.anchor k)
  | number (n : Nat) : IsElement (.reference n [])
  | name (name : Bytes) : IsElement (.reference 0 name)

theorem isElement_of_escape {r : Lexer.Reading} (h : Lexer.escape flags total rest = .ok r) :
    IsElement r.token := by
  cases rest with
  | nil => cases h
  | cons e more => cases Lexer.readsEscape_of_escape h <;> constructor

theorem isElement_of_fresh {names : List Bytes} {r : Lexer.Reading}
    (h : Lexer.fresh flags total names i b rest = .ok r)
    (single : b ≠ Ascii.openParen ∧ b ≠ Ascii.closeParen ∧ b ≠ Ascii.pipe) :
    IsElement r.token := by
  cases Lexer.readsLexeme_of_fresh .nothing h with
  | opening => exact absurd rfl single.1
  | closing => exact absurd rfl single.2.1
  | bar => exact absurd rfl single.2.2
  | escape _ he => cases he <;> constructor
  | charClass | dot | start | stop | char => constructor

theorem within_placed {read : Except Lexer.Fault Lexer.Reading} (h : Left s i (b :: rest))
    (ok : ∀ r, read = .ok r → (1 ≤ r.width ∧ r.width ≤ rest.length + 1) ∧ IsElement r.token)
    (bad : ∀ f, read = .error f → f.offset ≤ rest.length + 1) :
    Within s (Spans s i) (placed st i read) := by
  have length := h.length_cons
  cases read with
  | ok r =>
    obtain ⟨⟨positive, bounded⟩, element⟩ := ok r rfl
    obtain ⟨token, nodes, width⟩ := r
    dsimp only at positive bounded element
    cases element with
    | leaf shape =>
      have site : (Parser.leaf st.used ⟨st.used + nodes, i, i + width⟩ shape).site =
          ⟨st.used + nodes, i, i + width⟩ := by
        cases shape <;> rfl
      exact ⟨by dsimp only; omega, by dsimp only; omega, congrArg Site.start site,
        congrArg Site.stop site⟩
    | anchor | number | name => exact ⟨by dsimp only; omega, by dsimp only; omega, rfl, rfl⟩
  | error f =>
    have := bad f rfl
    show i + f.offset ≤ s.length
    omega

theorem escape_within (h : i < s.length) :
    Within s (Spans s i) (escape flags total s st i) := by
  obtain ⟨b, rest, left⟩ := exists_left h
  rw [escape_eq left]
  refine within_placed left (fun r hr => ⟨?_, isElement_of_escape hr⟩) fun f =>
    Lexer.offset_of_escape
  cases rest with
  | nil => cases hr
  | cons e more =>
    have fits : Lexer.Fits i Ascii.backslash (e :: more) r :=
      Lexer.fits_of_readsEscape (Lexer.readsEscape_of_escape hr)
    exact ⟨fits.positive, fits.bounded⟩

variable {choices : Nat → State → Reads (Node × Nat × State)}

/-- A body can be read from anywhere after `i`. -/
def ReadsAfter (s : Bytes) (i : Nat) (choices : Nat → State → Reads (Node × Nat × State)) : Prop :=
  ∀ j st, i < j → j ≤ s.length →
    Within s (fun r => j ≤ r.2.1 ∧ r.2.1 ≤ s.length) (choices j st)

theorem group_within (h : i < s.length) (inner : ReadsAfter s i choices) :
    Within s (Spans s i) (group s choices st i) := by
  unfold group
  refine (opening_within _ h).bind fun o ho => ?_
  refine (inner _ _ ho.1 ho.2).bind fun body hbody => ?_
  split
  · exact hbody.2
  · exact ⟨by dsimp only; omega, by dsimp only; omega, rfl, rfl⟩

theorem atom_within (h : i < s.length) (inner : ReadsAfter s i choices) :
    Within s (Spans s i) (atom flags total s choices st i) := by
  obtain ⟨b, rest, left⟩ := exists_left h
  have length := left.length_cons
  by_cases paren : b = Ascii.openParen
  · unfold atom
    rw [left.byteAt, ok_bind, paren]
    exact group_within h inner
  by_cases ending : b = Ascii.closeParen ∨ b = Ascii.pipe
  · have width := Utf8.width_decode b rest
    have char : atom flags total s choices st i =
        .ok (st.leaf i (i + (Utf8.decode b rest).2) (.char (Utf8.decode b rest).1)) := by
      unfold atom
      rw [left.byteAt, ok_bind, left.charAt_cons]
      rcases ending with rfl | rfl <;> rfl
    rw [char]
    exact ⟨by simp only [State.leaf]; omega, by simp only [State.leaf]; omega, rfl, rfl⟩
  · rw [not_or] at ending
    rw [atom_eq [] left ⟨paren, ending⟩]
    refine within_placed left (fun r hr => ⟨?_, isElement_of_fresh hr ⟨paren, ending⟩⟩) fun f =>
      Lexer.offset_of_fresh
    have read : Lexer.lexeme flags total [] i .nothing b rest = .ok r := hr
    have fits := Lexer.fits_of_lexeme read
    exact ⟨fits.positive, fits.bounded⟩

theorem term_within (h : i < s.length) (inner : ReadsAfter s i choices) :
    Within s (fun r => i < r.2.1 ∧ r.2.1 ≤ s.length) (term flags total s choices st i) := by
  unfold term
  refine (atom_within h inner).bind fun a ha => ?_
  refine (quantifier_within ha.le).bind fun q hq => ?_
  rcases q with _ | ⟨c, w⟩
  · exact ⟨ha.lt, ha.le⟩
  · have count := hq _ rfl
    have le := ha.le
    have start := ha.start
    have stop := ha.stop
    have lt := ha.lt
    dsimp only at count ⊢
    split
    · rename_i site k anchor
      rw [anchor] at start stop
      have inside : site.start ≤ site.stop ∧ site.stop ≤ s.length := by
        simp only [Node.site] at start stop
        omega
      rw [slice, if_pos inside, ok_bind]
      exact le
    · split
      · exact ⟨by dsimp only; omega, by dsimp only; omega⟩
      · exact le

end Elements

/-! ## 4. What is nested

The induction is on the calls that are left, together with a bound for how many are needed at an
offset.  One call goes on at the same offset, and it is followed by one that takes a byte. -/

section Nested

variable (flags : Flags) (total : Nat) (s : Bytes)

theorem ends_cons {i : Nat} {b : UInt8} {rest : Bytes} (h : Left s i (b :: rest)) :
    ends s i = .ok (b == Ascii.pipe || b == Ascii.closeParen) := by
  have length := h.length_cons
  rw [ends, if_pos (by omega), h.byteAt, map_ok]

theorem ends_nil : ends s s.length = .ok true := by
  rw [ends, if_neg (Nat.lt_irrefl _)]

/-- A byte is only there before the end. -/
theorem isAt_within {j : Nat} (c : UInt8) (h : j ≤ s.length) :
    Within s (fun found => found = true → j < s.length) (isAt s j c) := by
  rw [isAt_eq (left_drop h)]
  intro found
  refine Nat.lt_of_le_of_ne h fun eq => ?_
  rw [eq, List.drop_length] at found
  cases found

/-- With `n` calls `choices` reads from wherever so many are enough. -/
def ChoicesAdvance (n : Nat) : Prop :=
  ∀ start i before st, i ≤ s.length → 2 * (s.length - i) + 2 ≤ n →
    Within s (fun r => i ≤ r.2.1 ∧ r.2.1 ≤ s.length) (choices flags total s n start i before st)

/-- With `n` calls `sequence` does. -/
def SequenceAdvances (n : Nat) : Prop :=
  ∀ start i before st, i ≤ s.length → 2 * (s.length - i) + 1 ≤ n →
    Within s (fun r => i ≤ r.2.1 ∧ r.2.1 ≤ s.length) (sequence flags total s n start i before st)

variable {flags total s} {n : Nat}

/-- A body has calls enough. -/
theorem ChoicesAdvance.readsAfter (h : ChoicesAdvance flags total s n) {i : Nat}
    (calls : 2 * (s.length - i) ≤ n) :
    ReadsAfter s i fun j st => choices flags total s n j j [] st :=
  fun j st after le => h j j [] st le (by omega)

/-- An alternative starts where the level does or after a bar. -/
theorem choices_within (sequence_ih : SequenceAdvances flags total s n)
    (choices_ih : ChoicesAdvance flags total s n) : ChoicesAdvance flags total s (n + 1) := by
  intro start i before st le calls
  unfold choices
  refine (sequence_ih i i [] st le (by omega)).bind fun last hlast => ?_
  refine (isAt_within s _ hlast.2).bind fun bar hbar => ?_
  split
  · have lt := hbar ‹_›
    exact (choices_ih start (last.2.1 + 1) _ _ (by omega) (by omega)).mono fun r hr =>
      ⟨by omega, hr.2⟩
  · cases before with
    | nil => exact hlast
    | cons => exact hlast

/-- An alternative ends, or a term takes a byte at least. -/
theorem sequence_within (sequence_ih : SequenceAdvances flags total s n)
    (choices_ih : ChoicesAdvance flags total s n) : SequenceAdvances flags total s (n + 1) := by
  intro start i before st le calls
  unfold sequence
  rcases Nat.lt_or_eq_of_le le with lt | rfl
  · obtain ⟨b, rest, left⟩ := exists_left lt
    rw [ends_cons s left, ok_bind]
    split
    · split
      · exact ⟨Nat.le_refl _, le⟩
      · exact ⟨Nat.le_refl _, le⟩
    · have inner := choices_ih.readsAfter (i := i) (by omega)
      refine (term_within lt inner).bind fun t ht => ?_
      exact (sequence_ih start t.2.1 _ _ ht.2 (by omega)).mono fun r hr => ⟨by omega, hr.2⟩
  · rw [ends_nil, ok_bind, if_pos rfl]
    split
    · exact ⟨Nat.le_refl _, le⟩
    · exact ⟨Nat.le_refl _, le⟩

/-- **The calls are enough for what is left**: `choices` calls `sequence` at the same offset, and
every other call is further on.  The induction is on the calls, for both functions at once. -/
theorem nested_within (n : Nat) :
    ChoicesAdvance flags total s n ∧ SequenceAdvances flags total s n := by
  induction n with
  | zero =>
    constructor
    · intro start i before st _ calls
      omega
    · intro start i before st _ calls
      omega
  | succ n ih => exact ⟨choices_within ih.2 ih.1, sequence_within ih.2 ih.1⟩

end Nested

end Descent

end Backtrack
