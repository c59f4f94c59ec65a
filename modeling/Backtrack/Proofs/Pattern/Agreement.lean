/-
# Two readers of one language

`Descent.follows_nested` compares the two readers at the start of the source.  What is left is the
end: references by name get the groups that have their names.  The reader of lexemes knows all names
before it builds a tree, so that it builds with the groups; the reader by offsets puts them in at the
end.  That this is the same is shown of every step of building (`Parser.step_targeting`).

With that the two give the same pattern or the same fault (`Descent.parse_eq`), and what is known of
calls of the one holds for parsing: it always advances and stays in bounds
(`Descent.parse_advances`).
-/
import Backtrack.Proofs.Pattern.Following

namespace Backtrack

/-! ## 1. Names get their groups

The one tree has the numbers of groups while it is built, and the other one gets them when it is
done.  A name has its group as soon as all names are known, and building never looks at a
number. -/

section Targeting

theorem Node.targetingAll_eq_map (f : Bytes → Nat) (ns : List Node) :
    targetingAll f ns = ns.map (·.targeting f) := by
  induction ns with
  | nil => rfl
  | cons n ns ih => rw [targetingAll, ih, List.map_cons]

theorem Node.site_targeting (f : Bytes → Nat) (n : Node) : (n.targeting f).site = n.site := by
  cases n with
  | reference r =>
    rw [targeting]
    split <;> rfl
  | _ => rfl

mutual

/-- Only names matter that are written. -/
theorem Node.targeting_congr {f g : Bytes → Nat} (h : ∀ name ≠ [], f name = g name) :
    ∀ n : Node, n.targeting f = n.targeting g
  | .atom _ => rfl
  | .anchor _ _ => rfl
  | .reference r => by
    rw [targeting, targeting]
    split
    · rfl
    · rename_i some
      rw [h r.name (by simpa using some)]
  | .group _ body => by rw [targeting, targeting, targeting_congr h body]
  | .quantifier _ body => by rw [targeting, targeting, targeting_congr h body]
  | .sequence _ ns => by rw [targeting, targeting, targetingAll_congr h ns]
  | .alternation _ ns => by rw [targeting, targeting, targetingAll_congr h ns]

theorem Node.targetingAll_congr {f g : Bytes → Nat} (h : ∀ name ≠ [], f name = g name) :
    ∀ ns : List Node, targetingAll f ns = targetingAll g ns
  | [] => rfl
  | n :: ns => by rw [targetingAll, targetingAll, targeting_congr h n, targetingAll_congr h ns]

end

namespace Parser

variable (f : Bytes → Nat)

def Level.targeting (l : Level) : Level :=
  { l with
    alternatives := l.alternatives.map (·.targeting f)
    elements := l.elements.map (·.targeting f) }

def Opened.targeting (o : Opened) : Opened := { o with outer := o.outer.targeting f }

def State.targeting (t : State) : State :=
  { t with level := t.level.targeting f, opened := t.opened.map (·.targeting f) }

theorem finishAlternative_targeting (l : Level) (used pos : Nat) :
    (l.targeting f).finishAlternative used pos =
      ((l.finishAlternative used pos).1.targeting f, (l.finishAlternative used pos).2) := by
  obtain ⟨start, alternatives, current, elements⟩ := l
  rcases elements with _ | ⟨n, _ | ⟨m, ns⟩⟩
  · rfl
  · rfl
  · simp [Level.targeting, Level.finishAlternative, Node.targeting, Node.targetingAll_eq_map]

theorem finish_targeting (l : Level) (used pos : Nat) :
    (l.targeting f).finish used pos =
      ((l.finish used pos).1.targeting f, (l.finish used pos).2) := by
  unfold Level.finish
  rw [finishAlternative_targeting]
  obtain ⟨start, alternatives, current, elements⟩ := l
  cases alternatives with
  | nil => rfl
  | cons n ns => simp [Level.targeting, Node.targeting, Node.targetingAll_eq_map]

theorem isRepeatable_targeting (flags : Flags) (n : Node) :
    isRepeatable flags (n.targeting f) = isRepeatable flags n := by
  cases n <;> rfl

theorem step_targeting (flags : Flags) (t : State) (l : Lexeme) :
    step flags f (t.targeting f) l = (step flags (fun _ => 0) t l).map (·.targeting f) := by
  obtain ⟨start, stop, nodes, token⟩ := l
  obtain ⟨used, captures, level, opened⟩ := t
  cases token with
  | leaf shape => cases shape <;> rfl
  | anchor | opening => rfl
  | reference index name => cases name <;> rfl
  | closing =>
    cases opened with
    | nil => rfl
    | cons o opened =>
      simp only [step, State.targeting, Opened.targeting, List.map_cons, finish_targeting]
      rfl
  | bar =>
    simp only [step, State.targeting, finishAlternative_targeting]
    rfl
  | count c =>
    obtain ⟨first, alternatives, current, elements⟩ := level
    cases elements with
    | nil => rfl
    | cons n ns =>
      simp only [step, State.targeting, Level.targeting, List.map_cons, isRepeatable_targeting,
        Node.site_targeting]
      split <;> rfl

theorem run_targeting (flags : Flags) (ls : List Lexeme) (t : State) :
    run flags f (t.targeting f) ls = (run flags (fun _ => 0) t ls).map (·.targeting f) := by
  induction ls generalizing t with
  | nil => rfl
  | cons l ls ih =>
    rw [run, run, step_targeting]
    cases step flags (fun _ => 0) t l with
    | error e => rfl
    | ok t' => exact ih t'

end Parser

end Targeting

namespace Descent

open Backtrack.Parser (captureNames indexOfName undefinedName?)

/-! ## 2. The whole source

The places of both readers are brought together at the start, and `follows_nested` takes them to
the end.  There both look for a group that is open and for a name that has none, and they find the
same one. -/

section Whole

variable (flags : Flags) (s : Bytes)

/-- The place before the first lexeme. -/
def Place.start : Place := ⟨0, .nothing, [], .initial⟩

theorem agrees_start : Agrees Place.start State.initial :=
  ⟨rfl, rfl, rfl, fun _ _ => rfl, rfl⟩

/-- What is made of the lexemes and the tree at the end of a source: names get their groups. -/
def conclude (ls : List Lexeme) (t : Parser.State) : Except SyntaxError Pattern :=
  match undefinedName? (captureNames ls) ls with
  | some f => .error ⟨s, f.offset, f.cause⟩
  | none =>
    .ok ⟨s, flags,
      (t.level.finish t.used s.length).1.targeting (indexOfName (captureNames ls)), t.captures⟩

/-- What parsing gives is what comes of the source at its start, once the names have their
groups. -/
theorem parse_eq_rest :
    Pattern.parse s flags =
      match rest flags (Lexer.countCaptures s) s Place.start with
      | .error f => .error ⟨s, f.offset, f.cause⟩
      | .ok r => conclude flags s r.1 r.2 := by
  unfold Pattern.parse Lexer.lexemes rest
  simp only [Place.start, Place.names, List.foldl_nil, List.drop_zero, List.nil_append]
  rcases Lexer.scan flags (Lexer.countCaptures s) 0 [] .nothing s with ⟨ls, fault⟩
  unfold Parser.build
  dsimp only
  have named : Parser.run flags (indexOfName (captureNames ls)) Parser.State.initial ls = _ :=
    Parser.run_targeting (indexOfName (captureNames ls)) flags ls Parser.State.initial
  rw [named]
  cases Parser.run flags (fun _ => 0) Parser.State.initial ls with
  | error e => rfl
  | ok t =>
    obtain ⟨used, captures, level, opened⟩ := t
    cases fault with
    | some e => rfl
    | none =>
      cases opened with
      | cons => rfl
      | nil =>
        simp only [Except.map, Parser.State.targeting, List.map_nil, Parser.finish_targeting]
        rfl

/-- The lexemes that can be undefined names are the ones that mention something. -/
theorem undefinedName_eq_find (names : List Bytes) (ls : List Lexeme) :
    undefinedName? names ls =
      ((ls.filterMap mention).find? fun m => !(m.2.isEmpty || names.contains m.2)).map
        fun m => ⟨m.1, .undefinedName m.2⟩ := by
  unfold undefinedName?
  induction ls with
  | nil => rfl
  | cons l ls ih =>
    obtain ⟨start, stop, nodes, token⟩ := l
    rw [List.findSome?_cons, List.filterMap_cons]
    cases token with
    | reference index name =>
      simp only [mention, List.find?_cons]
      by_cases known : name.isEmpty || names.contains name
      · simp only [known, if_pos, Bool.not_true]
        exact ih
      · simp only [known, Bool.not_false]
        rfl
    | _ => exact ih

/-- A name without a group is one without a number. -/
theorem lookup_isNone {p : Place} {st : State} (h : Agrees p st) (name : Bytes) :
    (!name.isEmpty && (st.names.lookup name).isNone) =
      !(name.isEmpty || (captureNames p.done).contains name) := by
  cases name with
  | nil => rfl
  | cons b l =>
    rw [h.lookup _ (List.cons_ne_nil _ _), lookup, Option.isNone_map, Bool.eq_iff_iff]
    simp [List.idxOf?_eq_none_iff]

theorem undefinedName_eq {p : Place} {st : State} (h : Agrees p st) :
    undefinedName? (captureNames p.done) p.done =
      (st.references.find? fun r => !r.name.isEmpty && (st.names.lookup r.name).isNone).map
        fun r => ⟨r.site.start, .undefinedName r.name⟩ := by
  rw [undefinedName_eq_find, ← h.references, List.find?_map, Option.map_map]
  simp only [lookup_isNone h]
  rfl

/-- A name gets the number of its group. -/
theorem indexOfName_eq {p : Place} {st : State} (h : Agrees p st) {name : Bytes} (hn : name ≠ []) :
    (st.names.lookup name).getD 0 = indexOfName (captureNames p.done) name := by
  rw [h.lookup name hn, lookup, indexOfName]
  cases (captureNames p.done).idxOf? name <;> rfl

/-- What parsing gives, to a reader by offsets. -/
def outcome (r : Except SyntaxError Pattern) : Reads Pattern :=
  r.mapError fun e => .fault e.offset e.cause

/-- Both readers end alike once all has been read. -/
theorem conclude_eq {p : Place} {st : State} {n : Node} (h : Agrees p st)
    (finished : (p.tree.level.finish p.tree.used s.length).1 = n) :
    outcome (conclude flags s p.done p.tree) =
      match st.references.find? fun r => !r.name.isEmpty && (st.names.lookup r.name).isNone with
      | some r => fault r.site.start (.undefinedName r.name)
      | none =>
        pure ⟨s, flags, n.targeting fun name => (st.names.lookup name).getD 0, st.captures⟩ := by
  unfold conclude
  rw [undefinedName_eq h]
  cases st.references.find? fun r => !r.name.isEmpty && (st.names.lookup r.name).isNone with
  | some r => rfl
  | none =>
    simp only [Option.map_none]
    rw [Node.targeting_congr fun name => indexOfName_eq h, finished, h.captures]
    rfl

/-- **Reading by offsets gives what parsing gives**: the same pattern or the same fault.  What
comes of the source at its start is the same for both, and names get their groups in the end or
before. -/
theorem parse_eq : parse s flags = outcome (Pattern.parse s flags) := by
  have calls : 2 * (s.length - 0) + 2 ≤ enough s := Nat.le_refl _
  have advance : ChoicesAdvance flags (Lexer.countCaptures s) s (enough s) :=
    (nested_within (enough s)).1
  have within := advance 0 0 [] .initial (Nat.zero_le _) calls
  have follows : Follows flags (Lexer.countCaptures s) s Place.start
      (Closes flags (Lexer.countCaptures s) s Place.start)
      (choices flags (Lexer.countCaptures s) s (enough s) 0 Place.start.pos [] .initial) :=
    (follows_nested (enough s)).1 Place.start .initial 0 [] agrees_start rfl
      (settled_of_nothing rfl) (Nat.zero_le _) rfl
  unfold parse
  rw [countCaptures_eq, ok_bind, parse_eq_rest]
  rcases read : choices flags (Lexer.countCaptures s) s (enough s) 0 0 [] .initial with
    (⟨j, cause⟩ | _ | _) | r
  · rw [show Place.start.pos = 0 from rfl, read] at follows
    rw [show rest _ _ _ _ = _ from follows]
    rfl
  · rw [read] at within
    exact within.elim
  · rw [read] at within
    exact within.elim
  · rw [show Place.start.pos = 0 from rfl, read] at follows
    obtain ⟨q, same, closes⟩ := follows
    rw [same, ok_bind, ← closes.pos]
    rcases Nat.lt_or_eq_of_le closes.le with lt | eq
    · obtain ⟨b, l, left⟩ := exists_left lt
      obtain rfl := closes.ended b l left
      have read := closes.settled _ _ left
      have stuck : Parser.step flags (fun _ => 0) q.tree (q.lexeme ⟨.closing, 0, 1⟩) =
          .error ⟨q.pos, .unmatchedParen⟩ := by
        unfold Parser.step
        simp only [Place.lexeme, closes.opened]
        rfl
      rw [if_pos lt, rest_stuck left read stuck]
      rfl
    · rw [if_neg (by omega), rest_end eq, closes.opened]
      have finished := closes.finished
      rw [eq] at finished
      exact (conclude_eq flags s closes.agrees (congrArg Prod.fst finished)).symm

end Whole

/-! ## 3. Every call goes forward

What holds of parsing as a whole has been shown of each call, at any offset and for any state.  It
is put into one statement, so that none of the functions is left out. -/

section Forward

variable {α : Type}

/-- What is read takes something, and it does not go beyond the end. -/
def Ahead (s : Bytes) (i : Nat) (stop : α → Nat) : Reads α → Prop :=
  Within s fun r => i < stop r ∧ stop r ≤ s.length

/-- What is read may be nothing, and it does not go beyond the end. -/
def NotBehind (s : Bytes) (i : Nat) (stop : α → Nat) : Reads α → Prop :=
  Within s fun r => i ≤ stop r ∧ stop r ≤ s.length

variable (flags : Flags) (s : Bytes)

/-- **Reading a source goes forward and stays inside.**  A call at an offset of the source, whatever
has been read before it, finds a fault or gives an offset further on (`Ahead`), or at least as far on
where nothing may have been read (`NotBehind`).  `classEscape` and `property` look at the letter after
a backslash, which who calls them has seen to be there.  With `n` calls left for what is nested, as
many as the bytes that are left ask for, none is missing. -/
structure Forward : Prop where
  member : ∀ i < s.length, Ahead s i (·.2) (member flags.unicode s i)
  bracket : ∀ i < s.length, ∀ used, Ahead s i (·.2.2) (bracket flags.unicode s used i)
  opening : ∀ i < s.length, ∀ names, Ahead s i (·.2.2) (opening s names i)
  classEscape : ∀ i, i + 1 < s.length → Within s (fun _ => True) (classEscape s i)
  property : ∀ i, i + 1 < s.length →
    Within s (fun r => ∀ p ∈ r, i < p.2 ∧ p.2 ≤ s.length) (property flags.unicode s i)
  charEscape : ∀ i < s.length, Ahead s i (·.2) (charEscape flags.unicode s i)
  escape : ∀ i < s.length, ∀ total st, Ahead s i (·.2.1) (escape flags total s st i)
  quantifier : ∀ i ≤ s.length,
    Within s (fun r => ∀ q ∈ r, i < i + q.2 ∧ i + q.2 ≤ s.length) (quantifier s i)
  group : ∀ i < s.length, ∀ total st n, 2 * (s.length - i) ≤ n →
    Ahead s i (·.2.1) (group s (fun j st => choices flags total s n j j [] st) st i)
  atom : ∀ i < s.length, ∀ total st n, 2 * (s.length - i) ≤ n →
    Ahead s i (·.2.1) (atom flags total s (fun j st => choices flags total s n j j [] st) st i)
  term : ∀ i < s.length, ∀ total st n, 2 * (s.length - i) ≤ n →
    Ahead s i (·.2.1) (term flags total s (fun j st => choices flags total s n j j [] st) st i)
  sequence : ∀ i ≤ s.length, ∀ total start before st n, 2 * (s.length - i) + 1 ≤ n →
    NotBehind s i (·.2.1) (sequence flags total s n start i before st)
  choices : ∀ i ≤ s.length, ∀ total start before st n, 2 * (s.length - i) + 2 ≤ n →
    NotBehind s i (·.2.1) (choices flags total s n start i before st)
  countCaptures : countCaptures s = .ok (Lexer.countCaptures s)
  parse : Within s (fun _ => True) (parse s flags)

/-- Parsing ends with a pattern or with a fault that has its place in the source. -/
theorem parse_within : Within s (fun _ => True) (parse s flags) := by
  rw [parse_eq]
  cases read : Pattern.parse s flags with
  | ok p => trivial
  | error e => exact Pattern.offset_of_parse read

/-- **Parsing always advances and stays in bounds**: the reader by offsets goes forward with every
call, it gives what `Pattern.parse` gives, and every error has its place in the source. -/
theorem parse_advances :
    Forward flags s ∧ parse s flags = outcome (Pattern.parse s flags) ∧
      ∀ e, Pattern.parse s flags = .error e → e.offset ≤ s.length := by
  refine ⟨?_, parse_eq flags s, fun e => Pattern.offset_of_parse⟩
  have spans {i : Nat} {r : Node × Nat × State} (h : Spans s i r) : i < r.2.1 ∧ r.2.1 ≤ s.length :=
    ⟨h.lt, h.le⟩
  exact {
    member := fun i h => member_within flags.unicode h
    bracket := fun i h used => bracket_within flags.unicode used h
    opening := fun i h names => opening_within names h
    classEscape := fun i h => classEscape_within h
    property := fun i h => property_within flags.unicode h
    charEscape := fun i h => charEscape_within flags.unicode h
    escape := fun i h total st => (escape_within h).mono fun _ => spans
    quantifier := fun i h => (quantifier_within h).mono fun r hr q hq =>
      ⟨Nat.lt_add_of_pos_right (hr q hq).1, (hr q hq).2⟩
    group := fun i h total st n calls =>
      (group_within h ((nested_within n).1.readsAfter calls)).mono fun _ => spans
    atom := fun i h total st n calls =>
      (atom_within h ((nested_within n).1.readsAfter calls)).mono fun _ => spans
    term := fun i h total st n calls => term_within h ((nested_within n).1.readsAfter calls)
    sequence := fun i h total start before st n =>
      (nested_within n).2 start i before st h
    choices := fun i h total start before st n =>
      (nested_within n).1 start i before st h
    countCaptures := countCaptures_eq s
    parse := parse_within flags s }

/-- In `(?<n>[b-d]{2})\k<n` the class, the term and the group are read in turn, each further on, and
the reference that is not closed is at fault where it starts. -/
theorem parse_advances_of_unclosed :
    let s := Bytes.ofString "(?<n>[b-d]{2})\\k<n"
    let body := fun j st => choices {} 1 s 38 j j [] st
    (bracket false s 0 5).map (·.2.2) = .ok 10 ∧ Ahead s 5 (·.2.2) (bracket false s 0 5) ∧
      (term {} 1 s body .initial 5).map (·.2.1) = .ok 13 ∧
      Ahead s 5 (·.2.1) (term {} 1 s body .initial 5) ∧
      (group s body .initial 0).map (·.2.1) = .ok 14 ∧
      Ahead s 0 (·.2.1) (group s body .initial 0) ∧
      parse s {} = fault 14 .unclosedReference ∧ 14 ≤ s.length := by
  intro s body
  have parsed : Pattern.parse s {} = .error ⟨s, 14, .unclosedReference⟩ := by
    with_unfolding_all rfl
  obtain ⟨forward, same, inside⟩ := parse_advances {} s
  refine ⟨by with_unfolding_all rfl, forward.bracket 5 (by decide) 0, by with_unfolding_all rfl,
    forward.term 5 (by decide) 1 .initial 38 (by decide), by with_unfolding_all rfl,
    forward.group 0 (by decide) 1 .initial 38 (by decide), ?_, inside _ parsed⟩
  rw [same, parsed]
  rfl

end Forward

end Descent

end Backtrack
