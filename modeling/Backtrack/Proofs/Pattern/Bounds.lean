/-
# Bounds

How often an element is repeated is written `+`, `*`, `?`, or between braces in one of the three
forms `{m}`, `{m,}` and `{m,n}` (`Braced`).  `WritesBounds` says what each of them stands for.

* `Lexer.bounds?_eq_some` and `Lexer.count?_eq_some`: exactly this is read, so that what is known of
  counts that are read is known case by case of `WritesBounds`.
* `Lexer.braces?_eq` and `Lexer.braces?_of_none`: what becomes of a form, and of what is none.  Only
  numbers that cannot be represented or are out of order are a fault.
-/
import Backtrack.Proofs.Text.Readback

namespace Backtrack

/-! ## 1. The three forms

The forms are data and not only a predicate on texts, so that it can be said which numbers a text
has and which of them is too large. -/

/-- The digits of the three forms `{m}`, `{m,}` and `{m,n}`. -/
inductive Braced where
  | exactly (m : Bytes)
  | atLeast (m : Bytes)
  | between (m n : Bytes)

namespace Braced

/-- What stands between the braces. -/
def inner : Braced → Bytes
  | exactly m => m
  | atLeast m => m ++ [Ascii.comma]
  | between m n => m ++ Ascii.comma :: n

/-- How a form is written. -/
def text (k : Braced) : Bytes := Ascii.openBrace :: (k.inner ++ [Ascii.closeBrace])

/-- Digits are what the numbers are made of. -/
def IsDecimal : Braced → Prop
  | exactly m => Ascii.isDecimal m = true
  | atLeast m => Ascii.isDecimal m = true
  | between m n => Ascii.isDecimal m = true ∧ Ascii.isDecimal n = true

/-- The numbers can be represented, and are in order. -/
def Fits : Braced → Prop
  | exactly m => Ascii.decimalValue m < numberLimit
  | atLeast m => Ascii.decimalValue m < numberLimit
  | between m n =>
    Ascii.decimalValue m < numberLimit ∧ Ascii.decimalValue n < numberLimit ∧
      Ascii.decimalValue m ≤ Ascii.decimalValue n

/-- The least number of repetitions. -/
def least : Braced → Nat
  | exactly m => Ascii.decimalValue m
  | atLeast m => Ascii.decimalValue m
  | between m _ => Ascii.decimalValue m

/-- The greatest number of repetitions, if there is one. -/
def most : Braced → Option Nat
  | exactly m => Lexer.bound (Ascii.decimalValue m)
  | atLeast _ => none
  | between _ n => Lexer.bound (Ascii.decimalValue n)

/-- The count that a form is, lazy if a question mark comes after it. -/
def count (k : Braced) (after : Bytes) : Count :=
  ⟨k.least, k.most, after.head? = some Ascii.question⟩

/-- The width of a form from its opening brace on, with the question mark of a lazy one. -/
def width (k : Braced) (after : Bytes) : Nat :=
  k.inner.length + if after.head? = some Ascii.question then 3 else 2

/-- The text after an opening brace starts with the form, and goes on with `after`. -/
structure Starts (k : Braced) (text after : Bytes) : Prop where
  decimal : k.IsDecimal
  text_eq : text = k.inner ++ Ascii.closeBrace :: after

/-- The text after an opening brace starts with none of the forms. -/
def NoneStarts (text : Bytes) : Prop := ∀ k after, ¬ Starts k text after

/-- The text starts with a number that is too large, a comma and whatever comes before the closing
brace. -/
def IsOverlong (text : Bytes) : Prop :=
  ∃ m more after, Ascii.isDecimal m = true ∧ numberLimit ≤ Ascii.decimalValue m ∧
    text = m ++ Ascii.comma :: (more ++ Ascii.closeBrace :: after)

end Braced

theorem Ascii.isDigit_of_isDecimal {s : Bytes} (h : isDecimal s = true) {b : UInt8} (hb : b ∈ s) :
    isDigit b = true := by
  rw [isDecimal, Bool.and_eq_true] at h
  exact List.all_eq_true.mp h.2 b hb

theorem Ascii.not_mem_of_isDecimal {s : Bytes} (h : isDecimal s = true) {b : UInt8}
    (hb : isDigit b = false) : b ∉ s := by
  intro hm
  rw [isDigit_of_isDecimal h hm] at hb
  cases hb

theorem number?_of_lt {s : Bytes} (h : Ascii.decimalValue s < numberLimit) :
    number? s = some (Ascii.decimalValue s) :=
  if_pos h

theorem number?_of_not_lt {s : Bytes} (h : ¬ Ascii.decimalValue s < numberLimit) :
    number? s = none :=
  if_neg h

theorem number?_eq_some {s : Bytes} {n : Nat} :
    number? s = some n ↔ Ascii.decimalValue s = n ∧ n < numberLimit := by
  by_cases h : Ascii.decimalValue s < numberLimit
  · rw [number?_of_lt h, Option.some.injEq]
    exact ⟨fun value => ⟨value, value ▸ h⟩, And.left⟩
  · rw [number?_of_not_lt h]
    refine iff_of_false (by simp) ?_
    rintro ⟨rfl, fits⟩
    exact h fits

/-- There are digits and commas between the braces. -/
theorem Braced.of_mem_inner {k : Braced} (h : k.IsDecimal) {b : UInt8} (hb : b ∈ k.inner) :
    Ascii.isDigit b = true ∨ b = Ascii.comma := by
  cases k with
  | exactly m => exact .inl (Ascii.isDigit_of_isDecimal h hb)
  | atLeast m =>
    rcases List.mem_append.mp hb with hb | hb
    · exact .inl (Ascii.isDigit_of_isDecimal h hb)
    · exact .inr (List.mem_singleton.mp hb)
  | between m n =>
    rcases List.mem_append.mp hb with hb | hb
    · exact .inl (Ascii.isDigit_of_isDecimal h.1 hb)
    · rcases List.mem_cons.mp hb with hb | hb
      · exact .inr hb
      · exact .inl (Ascii.isDigit_of_isDecimal h.2 hb)

theorem Braced.closeBrace_not_mem {k : Braced} (h : k.IsDecimal) :
    Ascii.closeBrace ∉ k.inner := by
  intro hm
  rcases of_mem_inner h hm with hd | hc
  · exact absurd hd (by decide)
  · exact absurd hc (by decide)

theorem Lexer.bound_eq_some {n m : Nat} : bound n = some m ↔ n + 1 ≠ numberLimit ∧ n = m := by
  unfold bound
  split <;> simp [*]

theorem Braced.least_lt {k : Braced} (h : k.Fits) : k.least < numberLimit := by
  cases k with
  | exactly m => exact h
  | atLeast m => exact h
  | between m n => exact h.1

theorem Braced.of_most_eq_some {k : Braced} (h : k.Fits) {n : Nat} (hn : k.most = some n) :
    k.least ≤ n ∧ n + 1 < numberLimit := by
  cases k with
  | exactly m =>
    obtain ⟨apart, rfl⟩ := Lexer.bound_eq_some.mp hn
    exact ⟨Nat.le_refl _, Nat.lt_of_le_of_ne h apart⟩
  | atLeast m => cases hn
  | between m n' =>
    obtain ⟨apart, rfl⟩ := Lexer.bound_eq_some.mp hn
    exact ⟨h.2.2, Nat.lt_of_le_of_ne h.2.1 apart⟩

/-- A text without a closing brace starts with no form. -/
theorem Braced.noneStarts_of_not_mem {text : Bytes} (h : Ascii.closeBrace ∉ text) :
    NoneStarts text := by
  rintro k after ⟨-, rfl⟩
  simp at h

theorem Braced.not_isOverlong_of_not_mem {text : Bytes} (h : Ascii.closeBrace ∉ text) :
    ¬ IsOverlong text := by
  rintro ⟨m, more, after, -, -, rfl⟩
  simp at h

namespace Lexer

/-! ## 2. What is between the braces

The reader cuts at the closing brace and then at a comma.  Digits hold neither of them, so the
cuts are where the form has them. -/

section Braces

variable {k : Braced} {text after : Bytes}

theorem comma_not_mem {m : Bytes} (h : Ascii.isDecimal m = true) : Ascii.comma ∉ m :=
  Ascii.not_mem_of_isDecimal h (by decide)

/-- The form with two numbers is at fault if one of them is too large, or if they are out of order. -/
theorem braces?_between {m n : Bytes} (hm : Ascii.isDecimal m = true)
    (hn : Ascii.isDecimal n = true) (after : Bytes) :
    let k := Braced.between m n
    (k.Fits → braces? (k.inner ++ Ascii.closeBrace :: after) =
      .ok (some (k.least, k.most, k.inner.length + 2))) ∧
    (¬ k.Fits → ∃ cause, braces? (k.inner ++ Ascii.closeBrace :: after) = .error cause) := by
  intro k
  unfold braces?
  rw [Ascii.cut?_append (Braced.closeBrace_not_mem (k := k) ⟨hm, hn⟩)]
  dsimp only
  rw [Braced.inner, Ascii.cut?_append (comma_not_mem hm)]
  simp only [Option.map_some, Option.getD_some, hm, Bool.not_true, Bool.false_eq_true, if_false]
  cases n with
  | nil => cases hn
  | cons d n =>
    simp only [hn, Bool.not_true, Bool.false_eq_true, if_false]
    constructor
    · rintro ⟨hm, hn, ordered⟩
      rw [number?_of_lt hm, number?_of_lt hn]
      simp only [if_neg (Nat.not_lt.mpr ordered)]
      rfl
    · intro fits
      by_cases hm : Ascii.decimalValue m < numberLimit
      · rw [number?_of_lt hm]
        by_cases hn : Ascii.decimalValue (d :: n) < numberLimit
        · have disorder : Ascii.decimalValue (d :: n) < Ascii.decimalValue m :=
            Nat.lt_of_not_le fun ordered => fits ⟨hm, hn, ordered⟩
          rw [number?_of_lt hn]
          simp only [if_pos disorder]
          exact ⟨_, rfl⟩
        · rw [number?_of_not_lt hn]
          exact ⟨_, rfl⟩
      · rw [number?_of_not_lt hm]
        exact ⟨_, rfl⟩

/-- What a form says, as far as its numbers can be represented. -/
theorem braces?_eq (h : k.Starts text after) :
    (k.Fits → braces? text = .ok (some (k.least, k.most, k.inner.length + 2))) ∧
      (¬ k.Fits → ∃ cause, braces? text = .error cause) := by
  obtain ⟨decimal, rfl⟩ := h
  cases k with
  | exactly m =>
    unfold braces?
    rw [Ascii.cut?_append (Braced.closeBrace_not_mem decimal)]
    dsimp only
    have decimal : Ascii.isDecimal m = true := decimal
    rw [Braced.inner, Ascii.cut?_eq_none (comma_not_mem decimal)]
    simp only [Option.map_none, Option.getD_none, decimal, Bool.not_true, Bool.false_eq_true,
      if_false]
    constructor
    · intro fits
      rw [number?_of_lt fits]
      rfl
    · intro fits
      rw [number?_of_not_lt fits]
      exact ⟨_, rfl⟩
  | atLeast m =>
    unfold braces?
    rw [Ascii.cut?_append (Braced.closeBrace_not_mem decimal)]
    dsimp only
    have decimal : Ascii.isDecimal m = true := decimal
    rw [Braced.inner, Ascii.cut?_append (comma_not_mem decimal)]
    simp only [Option.map_some, Option.getD_some, decimal, Bool.not_true, Bool.false_eq_true,
      if_false]
    constructor
    · intro fits
      rw [number?_of_lt fits]
      rfl
    · intro fits
      rw [number?_of_not_lt fits]
      exact ⟨_, rfl⟩
  | between m n => exact braces?_between decimal.1 decimal.2 after

/-- What is no form has no bounds, but a number that is too large may be a fault all the same. -/
theorem braces?_of_none (h : Braced.NoneStarts text) :
    braces? text = .ok none ∨ Braced.IsOverlong text ∧ ∃ cause, braces? text = .error cause := by
  unfold braces?
  split
  · exact .inl rfl
  rename_i inner after hcut
  obtain rfl := Ascii.cut?_eq_some hcut
  dsimp only
  cases hc : Ascii.cut? Ascii.comma inner with
  | none =>
    simp only [Option.map_none, Option.getD_none]
    split
    · exact .inl rfl
    · rename_i decimal
      have decimal : Ascii.isDecimal inner = true := by simpa using decimal
      exact absurd ⟨decimal, rfl⟩ (h (.exactly inner) after)
  | some parts =>
    obtain ⟨m, more⟩ := parts
    obtain rfl := Ascii.cut?_eq_some hc
    simp only [Option.map_some, Option.getD_some]
    split
    · exact .inl rfl
    rename_i decimal
    have decimal : Ascii.isDecimal m = true := by simpa using decimal
    split
    · rename_i large
      refine .inr ⟨⟨m, more, after, decimal, ?_, by simp⟩, _, rfl⟩
      exact Nat.le_of_not_lt fun hm => by simp [number?_of_lt hm] at large
    · split
      · rename_i he
        cases he
      · rename_i he
        obtain rfl := Option.some.inj he
        exact absurd ⟨decimal, rfl⟩ (h (.atLeast m) after)
      · rename_i he
        obtain rfl := Option.some.inj he
        split
        · exact .inl rfl
        · rename_i hn
          have hn : Ascii.isDecimal more = true := by simpa using hn
          exact absurd ⟨⟨decimal, hn⟩, rfl⟩ (h (.between m more) after)

end Braces

/-! ## 3. What is written, and what is read

The two directions are put together as an equivalence, so that what follows from bounds having
been read can be had from their being written. -/

/-- The bytes `b :: rest` start with bounds, of the given width. -/
inductive WritesBounds : UInt8 → Bytes → Nat → Option Nat → Nat → Prop
  | plus (rest : Bytes) : WritesBounds Ascii.plus rest 1 none 1
  | star (rest : Bytes) : WritesBounds Ascii.star rest 0 none 1
  | question (rest : Bytes) : WritesBounds Ascii.question rest 0 (some 1) 1
  | braces {k : Braced} {rest after : Bytes} (starts : k.Starts rest after) (fits : k.Fits) :
    WritesBounds Ascii.openBrace rest k.least k.most (k.inner.length + 2)

section Written

variable {b : UInt8} {rest : Bytes} {m w : Nat} {n : Option Nat}

/-- What is read between braces is one of the forms. -/
theorem exists_starts_of_braces? (h : braces? rest = .ok (some (m, n, w))) :
    ∃ k after, Braced.Starts k rest after ∧ k.Fits ∧ m = k.least ∧ n = k.most ∧
      w = k.inner.length + 2 := by
  by_cases forms : Braced.NoneStarts rest
  · rcases braces?_of_none forms with none | ⟨-, cause, fault⟩
    · cases none.symm.trans h
    · cases fault.symm.trans h
  · simp only [Braced.NoneStarts, not_forall, not_not] at forms
    obtain ⟨k, after, starts⟩ := forms
    by_cases fits : k.Fits
    · cases ((braces?_eq starts).1 fits).symm.trans h
      exact ⟨k, after, starts, fits, rfl, rfl, rfl⟩
    · obtain ⟨cause, fault⟩ := (braces?_eq starts).2 fits
      cases fault.symm.trans h

/-- **Bounds are read exactly where they are written.**  From left to right the reader is followed
through its cuts; from right to left each form is read. -/
theorem bounds?_eq_some : bounds? b rest = .ok (some (m, n, w)) ↔ WritesBounds b rest m n w := by
  constructor
  · intro h
    unfold bounds? at h
    split at h
    · cases h
      exact .plus rest
    · cases h
      exact .star rest
    · cases h
      exact .question rest
    · obtain ⟨k, after, starts, fits, rfl, rfl, rfl⟩ := exists_starts_of_braces? h
      exact .braces starts fits
    · cases h
  · intro h
    cases h with
    | plus => rfl
    | star => rfl
    | question => rfl
    | braces starts fits => exact (braces?_eq starts).1 fits

/-- **A count is read exactly where bounds are written**, and it is lazy if a question mark comes
after them. -/
theorem count?_eq_some {c : Count} :
    count? b rest = .ok (some (c, w)) ↔
      ∃ v, WritesBounds b rest c.min c.max v ∧
        (c.lazy = true ↔ (rest.drop (v - 1)).head? = some Ascii.question) ∧
        w = v + c.lazy.toNat := by
  unfold count?
  constructor
  · intro h
    split at h
    · cases h
    · cases h
    · rename_i hb
      split at h
      · rename_i lazy
        cases h
        exact ⟨_, bounds?_eq_some.mp hb, iff_of_true rfl lazy, rfl⟩
      · rename_i lazy
        cases h
        exact ⟨_, bounds?_eq_some.mp hb, iff_of_false Bool.false_ne_true lazy, rfl⟩
  · rintro ⟨v, written, lazy, rfl⟩
    obtain ⟨min, max, _ | _⟩ := c
    · rw [bounds?_eq_some.mpr written]
      simp only [if_neg fun question => Bool.false_ne_true (lazy.mpr question)]
      rfl
    · rw [bounds?_eq_some.mpr written]
      simp only [if_pos (lazy.mp rfl)]
      rfl

end Written

namespace WritesBounds

variable {b : UInt8} {rest : Bytes} {m w : Nat} {n : Option Nat}

theorem least_lt (h : WritesBounds b rest m n w) : m < numberLimit := by
  cases h with
  | plus => decide
  | star => decide
  | question => decide
  | braces _ fits => exact Braced.least_lt fits

/-- A greatest number of repetitions is at least the least one, and not the largest number. -/
theorem most (h : WritesBounds b rest m n w) {most : Nat} (hn : n = some most) :
    m ≤ most ∧ most + 1 < numberLimit := by
  cases h with
  | plus => cases hn
  | star => cases hn
  | question =>
    obtain rfl := Option.some.inj hn
    decide
  | braces _ fits => exact Braced.of_most_eq_some fits hn

theorem width (h : WritesBounds b rest m n w) : 1 ≤ w ∧ w ≤ rest.length + 1 := by
  cases h with
  | plus => simp
  | star => simp
  | question => simp
  | braces starts =>
    rw [starts.text_eq, List.length_append, List.length_cons]
    omega

end WritesBounds

/-- A form that is written can be read, whatever follows. -/
theorem writesBounds_text {k : Braced} (decimal : k.IsDecimal) (fits : k.Fits) {after rest : Bytes}
    {b : UInt8} (h : k.text ++ after = b :: rest) :
    WritesBounds b rest k.least k.most k.text.length := by
  rw [Braced.text, List.cons_append, List.append_assoc, List.singleton_append] at h
  obtain ⟨rfl, rfl⟩ := List.cons.inj h
  rw [Braced.text, List.length_cons, List.length_append, List.length_singleton]
  exact .braces ⟨decimal, rfl⟩ fits

end Lexer

end Backtrack
