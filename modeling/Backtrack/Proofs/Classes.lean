/-
# What a class accepts

A class is written as ranges, class escapes and property escapes in any order, each of the escapes
plain or negated, and the class itself may be negated.  Its requirement is summed up part by part
in a form that changes on the way: properties stay names as long as no sign differs and are written
out as sets from then on, and the sum is negated last.

`CharClass.Mentions` says what a class is about without any of that: the families of escapes by
their characters, a property by its table, a negated escape as what its plain form leaves out.
`Pattern.requirement_of_parse` says that the requirement of a class of a parsed pattern exists and
accepts exactly what is written.  Folding is taken as it is (`CodePoint.Set.fold`): which variants
it adds, and that it passes over wide ranges, is not looked into here.
-/
import Backtrack.Proofs.Pattern.Trees

namespace Backtrack

open CodePoint (Range Bounded Covers)

/-! ## 1. What is written

The meaning of a class is given by its text, without sums of requirements and without the order in
which parts are added up. -/

/-- The characters of a family of class escapes. -/
def EscapeKind.Holds : EscapeKind → Int → Prop
  | .digit, c => 0x30 ≤ c ∧ c ≤ 0x39
  | .word, c =>
    (0x61 ≤ c ∧ c ≤ 0x7A) ∨ (0x41 ≤ c ∧ c ≤ 0x5A) ∨ (0x30 ≤ c ∧ c ≤ 0x39) ∨ c = 0x5F
  | .space, c =>
    (0x09 ≤ c ∧ c ≤ 0x0D) ∨ c = 0x20 ∨ c = 0xA0 ∨ c = 0x1680 ∨ (0x2000 ≤ c ∧ c ≤ 0x200A) ∨
      c = 0x2028 ∨ c = 0x2029 ∨ c = 0x202F ∨ c = 0x205F ∨ c = 0x3000 ∨ c = 0xFEFF

/-- A class escape accepts the characters of its family, or all others. -/
def ClassEscape.Accepts (e : ClassEscape) (c : Int) : Prop := e.negated = true ↔ ¬ e.kind.Holds c

/-- A property escape accepts the characters in the table of its name, or all others. -/
def PropertyEscape.Accepts (p : PropertyEscape) (c : Int) : Prop :=
  p.negated = true ↔ ¬ ∃ t, Unicode.lookup? p.name = some t ∧ t.contains c = true

/-- A character lies in one of the ranges, folded when case is ignored, or one of the escapes or
properties accepts it. -/
def CharClass.Mentions (k : CharClass) (ignoreCase : Bool) (c : Int) : Prop :=
  (if ignoreCase then (CodePoint.Set.ofRanges k.ranges).fold.contains c = true
    else Covers k.ranges c) ∨
  (∃ e ∈ k.escapes, e.2.Accepts c) ∨ ∃ p ∈ k.properties, p.2.Accepts c

/-! ## 2. The parts

Each part has a requirement, and its sign may be in the requirement or in a category of it. -/

/-- A sign turns an answer around if it is set. -/
theorem bne_iff {b sign : Bool} {P : Prop} (h : b = true ↔ P) :
    (b != sign) = true ↔ (sign = true ↔ ¬ P) := by
  rw [← h]
  cases b <;> cases sign <;> simp

theorem CodePoint.Set.contains_ofRanges_iff {rs : List Range} (h : Bounded rs) (c : Int) :
    (ofRanges rs).contains c = true ↔ Covers rs c := by
  rw [(proper_ofRanges h).contains_iff, covers_ofRanges h]

/-- A class escape is kept as the ranges of its family and a sign. -/
theorem Requirement.contains_signed {rs : List Range} (h : Bounded rs) {P : Prop} {c : Int}
    (family : Covers rs c ↔ P) (negated : Bool) :
    contains ⟨negated, CodePoint.Set.ofRanges rs, []⟩ c = true ↔ (negated = true ↔ ¬ P) := by
  rw [contains_ofSet]
  exact bne_iff ((CodePoint.Set.contains_ofRanges_iff h c).trans family)

theorem ClassEscape.contains_requirement (e : ClassEscape) (c : Int) :
    e.requirement.contains c = true ↔ e.Accepts c := by
  obtain ⟨kind, negated⟩ := e
  have single : ∀ a : Int, a ≤ c ∧ c ≤ a ↔ c = a := fun a => by omega
  cases kind with
  | digit =>
    refine Requirement.contains_signed (by simp [Bounded]) ?_ negated
    simp [EscapeKind.Holds]
  | word =>
    refine Requirement.contains_signed (by simp [Bounded]) ?_ negated
    simp only [CodePoint.covers_cons, CodePoint.covers_nil, EscapeKind.Holds, or_false, single]
  | space =>
    have separators : 0x2028 ≤ c ∧ c ≤ 0x2029 ↔ c = 0x2028 ∨ c = 0x2029 := by omega
    refine Requirement.contains_signed (by simp [Bounded]) ?_ negated
    simp only [CodePoint.covers_cons, CodePoint.covers_nil, EscapeKind.Holds, or_false, single,
      separators, or_assoc]

theorem PropertyEscape.contains_requirement (p : PropertyEscape) (c : Int) :
    p.requirement.contains c = true ↔ p.Accepts c := by
  have named : (CodePoint.Set.empty.contains c || [(⟨p.name, p.negated⟩ : Category)].any
      (·.contains c)) = (((Unicode.lookup? p.name).any fun t => t.contains c) != p.negated) := by
    simp [Category.contains]
  rw [requirement, Requirement.contains, named, Bool.bne_false]
  refine bne_iff ?_
  rw [Option.any_eq_true]

/-! ## 3. Classes

The parts are added up and the sum is negated, if the class is.  Folding is done on the ranges
before anything is added. -/

instance (e : ClassEscape) (c : Int) : Decidable (e.Accepts c) :=
  decidable_of_iff _ (e.contains_requirement c)

instance (p : PropertyEscape) (c : Int) : Decidable (p.Accepts c) :=
  decidable_of_iff _ (p.contains_requirement c)

instance (rs : List Range) (c : Int) : Decidable (Covers rs c) :=
  inferInstanceAs (Decidable (∃ r ∈ rs, r.lo ≤ c ∧ c ≤ r.hi))

instance (k : CharClass) (ignoreCase : Bool) (c : Int) : Decidable (k.Mentions ignoreCase c) :=
  inferInstanceAs (Decidable ((if ignoreCase then _ else _) ∨ _ ∨ _))

/-- The parts of a class add up to what it is about. -/
theorem CharClass.mentions_iff {k : CharClass} (bounded : Bounded k.ranges) (ignoreCase : Bool)
    (c : Int) :
    ((if ignoreCase then (CodePoint.Set.ofRanges k.ranges).fold
        else CodePoint.Set.ofRanges k.ranges).contains c ||
      (k.escapes.any (·.2.requirement.contains c) ||
        k.properties.any (·.2.requirement.contains c))) = true ↔ k.Mentions ignoreCase c := by
  have written : (if ignoreCase then (CodePoint.Set.ofRanges k.ranges).fold
      else CodePoint.Set.ofRanges k.ranges).contains c = true ↔
        if ignoreCase then (CodePoint.Set.ofRanges k.ranges).fold.contains c = true
          else Covers k.ranges c := by
    cases ignoreCase with
    | true => rfl
    | false => exact CodePoint.Set.contains_ofRanges_iff bounded c
  simp only [Bool.or_eq_true, written, List.any_eq_true, ClassEscape.contains_requirement,
    PropertyEscape.contains_requirement, Mentions]

/-- **Classes mean what is written.**  Whatever flags a parsed pattern is compiled with, each of its
leaves has a requirement and each name of a property has a table.  A character satisfies the
requirement of a class exactly if being negated differs from being about the character. -/
theorem Pattern.requirement_of_parse {source : Bytes} {flags : Flags} {p : Pattern}
    (h : Pattern.parse source flags = .ok p) (compiled : Flags) :
    ∀ a : Atom, Node.atom a ∈ p.root.walk →
      (∀ q, a.shape = .property q → ∃ t, Unicode.lookup? q.name = some t) ∧
      ∃ g, a.requirement compiled = .ok g ∧ ∀ k, a.shape = .charClass k →
        (∀ q ∈ k.properties, ∃ t, Unicode.lookup? q.2.name = some t) ∧
        ∀ c : Int, 0 ≤ c → c ≤ 0x10FFFF →
          (g.contains c = true ↔ (k.negated = true ↔ ¬ k.Mentions compiled.ignoreCase c)) := by
  rintro ⟨site, shape⟩ ha
  have sound : shape.IsSound := (isWellFormed_of_parse h).sound _ ha
  refine ⟨?_, ?_⟩
  · rintro q rfl
    exact Option.isSome_iff_exists.mp sound
  · cases shape with
    | charClass k =>
      obtain ⟨bounded, known⟩ := sound
      obtain ⟨g, hg, -, sum⟩ := k.exists_requirement bounded known compiled.ignoreCase
      refine ⟨g, hg, ?_⟩
      rintro k ⟨⟩
      refine ⟨fun q hq => Option.isSome_iff_exists.mp (known q hq), ?_⟩
      intro c low high
      rw [sum c low high]
      exact bne_iff (k.mentions_iff bounded compiled.ignoreCase c)
    | _ =>
      obtain ⟨g, hg, -⟩ := Shape.exists_requirement sound compiled
      exact ⟨g, hg, by rintro k ⟨⟩⟩

/-- With case ignored `[^\Wk\P{Lu}]` accepts the upper case word characters other than `K`. -/
theorem Pattern.requirement_of_parse_of_signs :
    let flags : Flags := { ignoreCase := true, unicode := true }
    ∃ p a g, Pattern.parse (Bytes.ofString "[^\\Wk\\P\x7bLu\x7d]") flags = .ok p ∧
      Node.atom a ∈ p.root.walk ∧ a.requirement flags = .ok g ∧ g.contains 0x41 = true ∧
      g.contains 0x4B = false ∧ g.contains 0x61 = false := by
  let k : CharClass :=
    ⟨true, [⟨0x6B, 0x6B⟩], [(⟨1, 2, 4⟩, ⟨.word, true⟩)], [(⟨2, 5, 11⟩, ⟨"Lu", true⟩)]⟩
  let flags : Flags := { ignoreCase := true, unicode := true }
  let p : Pattern :=
    { source := Bytes.ofString "[^\\Wk\\P\x7bLu\x7d]"
      flags := flags
      root := .atom ⟨⟨3, 0, 12⟩, .charClass k⟩
      captures := 0 }
  have parsed : Pattern.parse (Bytes.ofString "[^\\Wk\\P\x7bLu\x7d]") flags = .ok p := by
    with_unfolding_all rfl
  have walked : Node.atom ⟨⟨3, 0, 12⟩, .charClass k⟩ ∈ p.root.walk := List.mem_cons_self
  obtain ⟨-, g, hg, means⟩ := requirement_of_parse parsed flags _ walked
  obtain ⟨-, means⟩ := means k rfl
  have rejects : ∀ c : Int, 0 ≤ c → c ≤ 0x10FFFF → k.Mentions true c → g.contains c = false := by
    intro c low high mentioned
    rw [← Bool.not_eq_true, means c low high]
    exact fun h => h.mp rfl mentioned
  refine ⟨p, _, g, parsed, walked, hg, ?_, ?_, ?_⟩
  · exact (means 0x41 (by decide) (by decide)).mpr (by decide +kernel)
  · exact rejects 0x4B (by decide) (by decide) (by decide +kernel)
  · exact rejects 0x61 (by decide) (by decide) (by decide +kernel)

end Backtrack
