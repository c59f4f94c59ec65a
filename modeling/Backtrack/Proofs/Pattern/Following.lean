/-
# Two readers side by side

One reader goes down into groups and comes back with a node.  The other one cuts the source into
lexemes and builds the tree from them with a stack.  They are compared at the places between two
lexemes (`Descent.Place`): an offset, the lexemes before it and the tree built so far.

What comes of a source from a place on (`Descent.rest`) is all that matters of what the second reader
does later.  A lexeme does not change it (`Descent.rest_next`), and a fault is what comes.  So a
function of the first reader follows the second one (`Descent.Follows`) if it ends at a place from
which the same comes, or with the fault that comes.  Functions that follow can be put one after the
other (`Descent.Follows.bind`).

* An atom adds a node to the level it is in (`Descent.AddsAtom`), and after it a count may come.
* A term adds a node (`Descent.Adds`), and after it no count comes (`Descent.Settled`).  The reader of
  lexemes has to be told so, since it looks for a count wherever one is possible.
* `sequence` finishes an alternative, `choices` a level (`Descent.Finishes`, `Descent.Closes`), and
  `Descent.follows_nested` does both by induction on the calls.  Whether there are calls enough is
  not asked here.
-/
import Backtrack.Proofs.Pattern.Advancing

namespace Backtrack

namespace Descent

/-! ## 1. Places between lexemes

What comes of a source from a place on does not mention the first reader at all.  It is the
measure for both: if it is the same before and after a piece of reading, nothing has been lost or
added. -/

/-- A place between two lexemes: its offset, what stands before it, the lexemes before it and the tree
that they have built so far. -/
structure Place where
  pos : Nat
  before : Lexer.Before
  done : List Lexeme
  tree : Parser.State

namespace Place

/-- The names that groups have got before the place. -/
def names (p : Place) : List Bytes :=
  p.done.foldl (fun names l => Lexer.namesAfter names l.token) []

/-- A lexeme at the place. -/
def lexeme (p : Place) (r : Lexer.Reading) : Lexeme := ⟨p.pos, p.pos + r.width, r.nodes, r.token⟩

/-- The place after one more lexeme. -/
def next (p : Place) (r : Lexer.Reading) (t : Parser.State) : Place :=
  ⟨p.pos + r.width, Lexer.Before.of r.token, p.done ++ [p.lexeme r], t⟩

theorem names_next (p : Place) (r : Lexer.Reading) (t : Parser.State) :
    (p.next r t).names = Lexer.namesAfter p.names r.token := by
  simp [names, next, lexeme]

end Place

section Rest

variable (flags : Flags) (total : Nat) (s : Bytes)

/-- What comes of a source when reading goes on at a place: all its lexemes and the tree at the end,
or the first fault.  References by name have no group yet. -/
def rest (p : Place) : Except Lexer.Fault (List Lexeme × Parser.State) :=
  let later := Lexer.scan flags total p.pos p.names p.before (s.drop p.pos)
  match Parser.run flags (fun _ => 0) p.tree later.1 with
  | .error f => .error f
  | .ok t =>
    match later.2, t.opened with
    | some f, _ => .error f
    | none, _ :: _ => .error ⟨s.length, .unclosedGroup⟩
    | none, [] => .ok (p.done ++ later.1, t)

variable {flags total s} {p : Place} {b : UInt8} {l : Bytes} {r : Lexer.Reading} {f : Lexer.Fault}

theorem rest_next {t : Parser.State} (h : Left s p.pos (b :: l))
    (read : Lexer.lexeme flags total p.names p.pos p.before b l = .ok r)
    (step : Parser.step flags (fun _ => 0) p.tree (p.lexeme r) = .ok t) :
    rest flags total s p = rest flags total s (p.next r t) := by
  have fits := Lexer.fits_of_lexeme read
  have after := (h.after fits.positive fits.bounded).drop_eq
  unfold rest
  rw [h.drop_eq, Lexer.scan, read, p.names_next]
  simp only [Place.next, after]
  rw [Parser.run, show Parser.step _ _ _ ⟨p.pos, p.pos + r.width, r.nodes, r.token⟩ = _ from step]
  simp only [List.append_assoc, List.singleton_append]
  rfl

theorem rest_fault (h : Left s p.pos (b :: l))
    (read : Lexer.lexeme flags total p.names p.pos p.before b l = .error f) :
    rest flags total s p = .error ⟨p.pos + f.offset, f.cause⟩ := by
  unfold rest
  rw [h.drop_eq, Lexer.scan, read]
  rfl

theorem rest_stuck (h : Left s p.pos (b :: l))
    (read : Lexer.lexeme flags total p.names p.pos p.before b l = .ok r)
    (step : Parser.step flags (fun _ => 0) p.tree (p.lexeme r) = .error f) :
    rest flags total s p = .error f := by
  unfold rest
  rw [h.drop_eq, Lexer.scan, read]
  simp only
  rw [Parser.run, show Parser.step _ _ _ ⟨p.pos, p.pos + r.width, r.nodes, r.token⟩ = _ from step]

theorem rest_end (h : p.pos = s.length) :
    rest flags total s p =
      match p.tree.opened with
      | _ :: _ => .error ⟨s.length, .unclosedGroup⟩
      | [] => .ok (p.done, p.tree) := by
  unfold rest
  rw [h, List.drop_length, Lexer.scan]
  simp only [Parser.run, List.append_nil]
  cases p.tree.opened <;> rfl

end Rest

/-! ## 2. Following

The two readers stop at the same places only where a lexeme ends, and the first one does so in the
middle of its functions.  So it is the function as a whole that follows, and two functions that do
can be put one after the other, as the first ends where the second starts. -/

/-- The number of the group that a lexeme gives a name. -/
def lookup (lexemes : List Lexeme) (name : Bytes) : Option Nat :=
  ((Parser.captureNames lexemes).idxOf? name).map (· + 1)

/-- The place and the name of a reference. -/
def mention (l : Lexeme) : Option (Nat × Bytes) :=
  match l.token with
  | .reference _ name => some (l.start, name)
  | _ => none

/-- What both readers keep track of is the same at a place. -/
structure Agrees (p : Place) (st : State) : Prop where
  names : st.names.map (·.1) = p.names
  captures : st.captures = p.tree.captures
  counted : st.captures = (Parser.captureNames p.done).length
  lookup : ∀ name ≠ [], st.names.lookup name = lookup p.done name
  references : st.references.map (fun r => (r.site.start, r.name)) = p.done.filterMap mention

section Follows

variable {α β : Type} (flags : Flags) (total : Nat) (s : Bytes)

/-- **What is read from a place on is what comes of the source there.**  The reading ends at a place
from which the same comes, or with the fault that comes. -/
def Follows (p : Place) (Q : α → Place → Prop) : Reads α → Prop
  | .ok a => ∃ p', rest flags total s p = rest flags total s p' ∧ Q a p'
  | .error (.fault j cause) => rest flags total s p = .error ⟨j, cause⟩
  | .error _ => True

variable {flags total s} {p : Place} {Q : α → Place → Prop} {Q' : β → Place → Prop} {r : Reads α}

theorem Follows.here {a : α} (h : Q a p) : Follows flags total s p Q (.ok a) := ⟨p, rfl, h⟩

/-- Reading may start at an earlier place. -/
theorem Follows.from {p' : Place} (h : Follows flags total s p' Q r)
    (eq : rest flags total s p = rest flags total s p') : Follows flags total s p Q r := by
  rcases r with (_ | _ | _) | a
  · exact eq.trans h
  · trivial
  · trivial
  · obtain ⟨q, same, hq⟩ := h
    exact ⟨q, eq.trans same, hq⟩

theorem Follows.mono {Q₂ : α → Place → Prop} (h : Follows flags total s p Q r)
    (le : ∀ a q, Q a q → Q₂ a q) : Follows flags total s p Q₂ r := by
  rcases r with (_ | _ | _) | a
  · exact h
  · trivial
  · trivial
  · obtain ⟨q, same, hq⟩ := h
    exact ⟨q, same, le a q hq⟩

theorem Follows.bind {f : α → Reads β} (h : Follows flags total s p Q r)
    (next : ∀ a q, Q a q → Follows flags total s q Q' (f a)) :
    Follows flags total s p Q' (r >>= f) := by
  rcases r with (_ | _ | _) | a
  · exact h
  · trivial
  · trivial
  · obtain ⟨q, same, hq⟩ := h
    exact (next a q hq).from same

end Follows

/-! ## 3. One lexeme

Names are the one thing that both keep track of and do not keep alike.  The reader of lexemes has
a list of them, and the reader by offsets has their numbers as well. -/

section Lexemes

variable {flags : Flags} {total : Nat} {s : Bytes} {p : Place} {st st' : State}
  {r : Lexer.Reading} {t : Parser.State}

/-- A lexeme that opens no group with a number leaves the names alone. -/
theorem namesAfter_of_quiet {l : Lexeme} (h : Parser.captureNames [l] = []) (names : List Bytes) :
    Lexer.namesAfter names l.token = names := by
  obtain ⟨start, stop, nodes, token⟩ := l
  cases token with
  | opening kind name =>
    cases kind with
    | capture => cases h
    | _ => rfl
  | _ => rfl

theorem captureNames_next (p : Place) (r : Lexer.Reading) (t : Parser.State) :
    Parser.captureNames (p.next r t).done =
      Parser.captureNames p.done ++ Parser.captureNames [p.lexeme r] :=
  List.filterMap_append

/-- After a lexeme that opens no group with a number. -/
theorem Agrees.next (h : Agrees p st) (quiet : Parser.captureNames [p.lexeme r] = [])
    (names : st'.names = st.names) (captures : st'.captures = st.captures)
    (tree : t.captures = p.tree.captures)
    (references : st'.references.map (fun r => (r.site.start, r.name)) =
      st.references.map (fun r => (r.site.start, r.name)) ++ [p.lexeme r].filterMap mention) :
    Agrees (p.next r t) st' := by
  have same : Parser.captureNames (p.next r t).done = Parser.captureNames p.done := by
    rw [captureNames_next, quiet, List.append_nil]
  exact {
    names := by
      have named : Lexer.namesAfter p.names r.token = p.names := namesAfter_of_quiet quiet p.names
      rw [p.names_next, named, names, h.names]
    captures := by rw [captures, h.captures, ← tree]; rfl
    counted := by rw [same, captures, h.counted]
    lookup := by rw [names]; unfold Descent.lookup; rw [same]; exact h.lookup
    references := by
      rw [references, h.references, Place.next, List.filterMap_append] }

theorem lookup_concat {done : List Lexeme} {l : Lexeme} {new : Bytes}
    (hl : Parser.captureNames [l] = [new]) (name : Bytes) :
    lookup (done ++ [l]) name =
      (lookup done name).or
        (if new = name then some ((Parser.captureNames done).length + 1) else none) := by
  have names : Parser.captureNames (done ++ [l]) = Parser.captureNames done ++ [new] := by
    rw [← hl]
    exact List.filterMap_append
  unfold lookup
  rw [names, List.idxOf?, List.findIdx?_append, List.findIdx?_singleton]
  by_cases hn : new = name
  · simp only [hn]
    cases List.findIdx? _ _ <;> simp
  · simp [hn]

/-- After a lexeme that opens a group, whose name is new. -/
theorem Agrees.enter {kind : GroupKind} {name : Bytes} {w : Nat} (h : Agrees p st)
    (new : kind = .capture → name ≠ [] → name ∉ p.names)
    (tree : t.captures = if kind = .capture then p.tree.captures + 1 else p.tree.captures) :
    Agrees (p.next ⟨.opening kind name, 0, w⟩ t) (st.enter kind name) := by
  by_cases capture : kind = .capture
  · subst capture
    rw [if_pos rfl] at tree
    have after := captureNames_next p ⟨.opening .capture name, 0, w⟩ t
    have named := p.names_next ⟨.opening .capture name, 0, w⟩ t
    unfold State.enter
    rw [if_pos rfl]
    refine ⟨?_, ?_, ?_, fun n hn => ?_, ?_⟩
    · rw [named, Lexer.namesAfter]
      cases name with
      | nil => exact h.names
      | cons => exact congrArg (_ :: ·) h.names
    · exact (congrArg (· + 1) h.captures).trans tree.symm
    · rw [after, List.length_append]
      exact congrArg (· + 1) h.counted
    · have only : Parser.captureNames [p.lexeme ⟨.opening .capture name, 0, w⟩] = [name] := rfl
      rw [Place.next, lookup_concat only, ← h.lookup n hn]
      by_cases eq : name = n
      · subst eq
        have unknown : st.names.lookup name = none := by
          refine List.lookup_eq_none_iff.mpr fun a ha => bne_iff_ne.mpr fun eq => ?_
          exact new rfl hn (h.names ▸ eq ▸ List.mem_map_of_mem ha)
        rw [unknown, if_pos rfl, ← h.counted, if_neg (by simpa using hn), List.lookup_cons_self]
        rfl
      · rw [if_neg eq, Option.or_none]
        cases name with
        | nil => rfl
        | cons => rw [if_neg (by simp), List.lookup_cons, beq_eq_false_iff_ne.mpr (Ne.symm eq)]
    · rw [h.references, Place.next, List.filterMap_append]
      exact (List.append_nil _).symm
  · have same : st.enter kind name = st := if_neg capture
    rw [same]
    rw [if_neg capture] at tree
    refine h.next ?_ rfl rfl tree (List.append_nil _).symm
    cases kind with
    | capture => exact absurd rfl capture
    | _ => rfl

end Lexemes

/-! ## 4. Elements

An element may be read in two ways by the reader of lexemes, with a count behind it or without.
The other reader looks ahead once and is done, so after it has read a term it has to be said that
no count comes. -/

/-- What a node is to the lexeme after it. -/
def beforeOf : Node → Lexer.Before
  | .anchor _ k => .anchor k
  | _ => .repeatable

/-- From one place to another a node has been added to the alternative. -/
structure Adds (s : Bytes) (p : Place) (r : Node × Nat × State) (q : Place) : Prop where
  agrees : Agrees q r.2.2
  used : q.tree.used = r.2.2.used
  pos : q.pos = r.2.1
  le : q.pos ≤ s.length
  start : r.1.site.start = p.pos
  level : q.tree.level = { p.tree.level with elements := r.1 :: p.tree.level.elements }
  opened : q.tree.opened = p.tree.opened

/-- The node has been read just now, so that a count may follow. -/
structure AddsAtom (s : Bytes) (p : Place) (r : Node × Nat × State) (q : Place) : Prop
    extends Adds s p r q where
  before : q.before = beforeOf r.1
  text : ∀ site k, r.1 = .anchor site k → slice s site.start site.stop = .ok k.text

section Elements

variable {flags : Flags} {total : Nat} {s : Bytes} {p : Place} {st : State} {b : UInt8}
  {l : Bytes}

/-- No count comes at a place. -/
def Settled (flags : Flags) (total : Nat) (s : Bytes) (p : Place) : Prop :=
  ∀ b l, Left s p.pos (b :: l) →
    Lexer.lexeme flags total p.names p.pos p.before b l =
      Lexer.fresh flags total p.names p.pos b l

theorem text_of_anchor {names : List Bytes} {i : Nat} {r : Lexer.Reading} {k : Anchor}
    (h : Lexer.fresh flags total names i b l = .ok r) (token : r.token = .anchor k) :
    (b :: l).take r.width = k.text := by
  cases Lexer.readsLexeme_of_fresh .nothing h with
  | start | stop =>
    cases token
    rfl
  | escape _ he =>
    cases he with
    | wordBoundary | nonWordBoundary =>
      cases token
      rfl
    | _ => cases token
  | _ => cases token

/-- An element that is a lexeme by itself. -/
theorem follows_placed (h : Left s p.pos (b :: l)) (agrees : Agrees p st)
    (used : p.tree.used = st.used) (settled : Settled flags total s p)
    (single : b ≠ Ascii.openParen ∧ b ≠ Ascii.closeParen ∧ b ≠ Ascii.pipe) :
    Follows flags total s p (AddsAtom s p)
      (placed st p.pos (Lexer.fresh flags total p.names p.pos b l)) := by
  have eq := settled b l h
  have length := h.length_cons
  cases read : Lexer.fresh flags total p.names p.pos b l with
  | error f => exact rest_fault h (eq.trans read)
  | ok r =>
    have fits := Lexer.fits_of_lexeme (eq.trans read)
    have element := isElement_of_fresh read single
    have text := fun k => text_of_anchor (k := k) read
    rw [read] at eq
    have le : p.pos + r.width ≤ s.length := by
      have := fits.bounded
      omega
    obtain ⟨token, nodes, width⟩ := r
    dsimp only at element text le
    simp only [placed, ← used]
    cases element with
    | leaf shape =>
      refine ⟨_, rest_next h eq rfl, ⟨?_, rfl, rfl, le, ?_, rfl, rfl⟩, ?_, fun site k hk => ?_⟩
      · exact agrees.next rfl rfl rfl rfl (List.append_nil _).symm
      · cases shape <;> rfl
      · cases shape <;> rfl
      · cases shape <;> cases hk
    | anchor k =>
      refine ⟨_, rest_next h eq rfl, ⟨?_, rfl, rfl, le, rfl, rfl, rfl⟩, rfl, fun site k' hk => ?_⟩
      · exact agrees.next rfl rfl rfl rfl (List.append_nil _).symm
      · cases hk
        rw [← text k rfl]
        exact h.slice_take (by rw [List.length_cons]; omega) rfl
    | number n =>
      refine ⟨_, rest_next h eq rfl, ⟨?_, rfl, rfl, le, rfl, rfl, rfl⟩, rfl, by rintro _ _ ⟨⟩⟩
      exact agrees.next rfl rfl rfl rfl List.map_append
    | name name =>
      refine ⟨_, rest_next h eq rfl, ⟨?_, rfl, rfl, le, rfl, ?_, rfl⟩, rfl, by rintro _ _ ⟨⟩⟩
      · exact agrees.next rfl rfl rfl rfl List.map_append
      · cases name <;> rfl

/-- The level of a place has been read to its end, and the node is what it is. -/
structure Closes (flags : Flags) (total : Nat) (s : Bytes) (p : Place) (r : Node × Nat × State)
    (q : Place) : Prop where
  agrees : Agrees q r.2.2
  pos : q.pos = r.2.1
  le : q.pos ≤ s.length
  opened : q.tree.opened = p.tree.opened
  finished : q.tree.level.finish q.tree.used q.pos = (r.1, r.2.2.used)
  settled : Settled flags total s q
  ended : ∀ b l, Left s q.pos (b :: l) → b = Ascii.closeParen

/-- Closing a level puts what it is into the one around it. -/
theorem step_closing {resolve : Bytes → Nat} {t : Parser.State} {m : Lexeme} {o : Parser.Opened}
    {opened : List Parser.Opened} {n : Node} {used : Nat} (token : m.token = .closing)
    (ho : t.opened = o :: opened) (finished : t.level.finish t.used m.start = (n, used)) :
    Parser.step flags resolve t m = .ok
      { used := used + 1
        captures := t.captures
        level := { o.outer with
          elements := .group ⟨⟨used + 1, o.start, m.stop⟩, o.kind, o.index, o.name⟩ n ::
            o.outer.elements }
        opened := opened } := by
  unfold Parser.step
  rw [token]
  dsimp only
  rw [ho]
  dsimp only
  rw [finished]

theorem used_enter (st : State) (kind : GroupKind) (name : Bytes) :
    (st.enter kind name).used = st.used := by
  unfold State.enter
  split <;> rfl

theorem fresh_openParen (names : List Bytes) (i : Nat) (l : Bytes) :
    Lexer.fresh flags total names i Ascii.openParen l =
      match Lexer.opening names l with
      | .ok (kind, name, w) => .ok ⟨.opening kind name, 0, w⟩
      | .error f => .error f :=
  rfl

/-- Both readers give a group the same number. -/
theorem index_enter (agrees : Agrees p st) (kind : GroupKind) (name : Bytes) :
    (if kind = .capture then
        if kind = .capture then p.tree.captures + 1 else p.tree.captures
      else 0) =
      if kind = .capture then (st.enter kind name).captures else 0 := by
  by_cases capture : kind = .capture
  · subst capture
    exact congrArg (· + 1) agrees.captures.symm
  · rw [if_neg capture, if_neg capture]

variable {choices : Nat → State → Reads (Node × Nat × State)}

/-- The body of a group is followed by `choices`, wherever it starts. -/
def FollowsBodies (flags : Flags) (total : Nat) (s : Bytes)
    (choices : Nat → State → Reads (Node × Nat × State)) : Prop :=
  ∀ (q : Place) st, Agrees q st → q.tree.used = st.used → q.before = .nothing →
    q.tree.level = Parser.Level.at q.pos → q.pos ≤ s.length →
    Follows flags total s q (Closes flags total s q) (choices q.pos st)

theorem follows_group (h : Left s p.pos (Ascii.openParen :: l)) (agrees : Agrees p st)
    (used : p.tree.used = st.used) (settled : Settled flags total s p)
    (inner : FollowsBodies flags total s choices) :
    Follows flags total s p (AddsAtom s p) (group s choices st p.pos) := by
  have eq := settled _ _ h
  unfold group
  rw [opening_eq _ h, agrees.names]
  cases read : Lexer.opening p.names l with
  | error f =>
    rw [fresh_openParen, read] at eq
    exact rest_fault h eq
  | ok o =>
    obtain ⟨kind, name, w⟩ := o
    rw [fresh_openParen, read] at eq
    have bounded := (Lexer.fits_of_lexeme eq).bounded
    have length := h.length_cons
    have new : kind = .capture → name ≠ [] → name ∉ p.names := by
      intro _ hn
      cases Lexer.readsOpening_of_opening read with
      | sign | plain => exact absurd rfl hn
      | name _ _ _ _ new => exact new
    have entered := rest_next h eq rfl
    rw [ok_bind]
    refine Follows.from ?_ entered
    refine (inner _ (st.enter kind name) (agrees.enter new rfl) ?_ rfl rfl ?_).bind
      fun body q closes => ?_
    · rw [used_enter]
      exact used
    · show p.pos + w ≤ s.length
      dsimp only at bounded
      omega
    have opened : q.tree.opened = _ :: p.tree.opened := closes.opened
    rw [← closes.pos]
    rcases Nat.lt_or_eq_of_le closes.le with lt | eq
    · rw [if_neg (by omega)]
      obtain ⟨b, more, left⟩ := exists_left lt
      obtain rfl := closes.ended b more left
      have eq : Lexer.lexeme flags total q.names q.pos q.before Ascii.closeParen more =
          .ok ⟨.closing, 0, 1⟩ := closes.settled _ _ left
      have step : Parser.step flags (fun _ => 0) q.tree (q.lexeme ⟨.closing, 0, 1⟩) = _ :=
        step_closing rfl opened closes.finished
      refine ⟨_, rest_next left eq step, ⟨?_, rfl, rfl, lt, rfl, ?_, rfl⟩, rfl, by rintro _ _ ⟨⟩⟩
      · exact closes.agrees.next rfl rfl rfl rfl (List.append_nil _).symm
      · show ({ p.tree.level with elements := .group ⟨_, kind, _, name⟩ _ :: _ } : Parser.Level) = _
        rw [index_enter agrees kind name]
        rfl
    · rw [if_pos (by omega), eq]
      show rest flags total s q = _
      rw [rest_end eq, opened]

theorem follows_atom (h : Left s p.pos (b :: l)) (agrees : Agrees p st)
    (used : p.tree.used = st.used) (settled : Settled flags total s p)
    (goes : ¬ (b = Ascii.pipe ∨ b = Ascii.closeParen))
    (inner : FollowsBodies flags total s choices) :
    Follows flags total s p (AddsAtom s p) (atom flags total s choices st p.pos) := by
  rw [not_or] at goes
  by_cases paren : b = Ascii.openParen
  · subst paren
    unfold atom
    rw [h.byteAt, ok_bind]
    exact follows_group h agrees used settled inner
  · rw [atom_eq p.names h ⟨paren, goes.2, goes.1⟩]
    exact follows_placed h agrees used settled ⟨paren, goes.2, goes.1⟩

/-- What is left at a place is only one thing. -/
theorem Left.unique {i : Nat} {l l' : Bytes} (h : Left s i l) (h' : Left s i l') : l = l' :=
  h.drop_eq.symm.trans h'.drop_eq

/-- After a count no other count comes. -/
theorem settled_of_nothing (h : p.before = .nothing) : Settled flags total s p := by
  intro b l _
  rw [h]
  rfl

/-- Where there is no count, there is none for the reader of lexemes. -/
theorem settled_of_none (h : ∀ b l, Left s p.pos (b :: l) → Lexer.count? b l = .ok none) :
    Settled flags total s p := by
  intro b l left
  unfold Lexer.lexeme
  rw [h b l left]
  cases p.before <;> rfl

theorem lexeme_fault {a : Node} {cause : SyntaxCause} (before : p.before = beforeOf a)
    (read : Lexer.count? b l = .error cause) :
    Lexer.lexeme flags total p.names p.pos p.before b l = .error ⟨0, cause⟩ := by
  unfold Lexer.lexeme
  rw [before]
  cases a <;> simp only [beforeOf, read]

/-- A count after an anchor is a fault. -/
theorem lexeme_anchor {k : Anchor} {q : Count × Nat} (before : p.before = .anchor k)
    (read : Lexer.count? b l = .ok (some q)) :
    Lexer.lexeme flags total p.names p.pos p.before b l = .error ⟨0, .repeatedAnchor k.text⟩ := by
  unfold Lexer.lexeme
  rw [before]
  simp only [read]

/-- A count after anything else is the next lexeme. -/
theorem lexeme_count {c : Count} {w : Nat} (before : p.before = .repeatable)
    (read : Lexer.count? b l = .ok (some (c, w))) :
    Lexer.lexeme flags total p.names p.pos p.before b l = .ok ⟨.count c, 1, w⟩ := by
  unfold Lexer.lexeme
  rw [before]
  simp only [read]

theorem beforeOf_of_ne {n : Node} (h : ∀ site k, n ≠ .anchor site k) : beforeOf n = .repeatable := by
  cases n with
  | anchor site k => exact absurd rfl (h site k)
  | _ => rfl

/-- A count takes the last element back. -/
theorem step_count {resolve : Bytes → Nat} {t : Parser.State} {m : Lexeme} {c : Count} {n : Node}
    {ns : List Node} (token : m.token = .count c) (elements : t.level.elements = n :: ns) :
    Parser.step flags resolve t m =
      if Parser.isRepeatable flags n then
        .ok { t with
          used := t.used + m.nodes
          level := { t.level with
            elements := .quantifier ⟨⟨t.used + m.nodes, n.site.start, m.stop⟩, c⟩ n :: ns } }
      else .error ⟨m.start, .repeatedLookaround⟩ := by
  unfold Parser.step
  rw [token]
  dsimp only
  rw [elements]

theorem follows_term (h : Left s p.pos (b :: l)) (agrees : Agrees p st)
    (used : p.tree.used = st.used) (settled : Settled flags total s p)
    (goes : ¬ (b = Ascii.pipe ∨ b = Ascii.closeParen))
    (inner : FollowsBodies flags total s choices) :
    Follows flags total s p (fun r q => Adds s p r q ∧ Settled flags total s q)
      (term flags total s choices st p.pos) := by
  unfold term
  refine (follows_atom h agrees used settled goes inner).bind fun a q adds => ?_
  rw [← adds.pos]
  have left := left_drop adds.le
  cases rest : s.drop q.pos with
  | nil =>
    rw [rest] at left
    rw [quantifier_end left, ok_bind]
    refine Follows.here ⟨adds.toAdds, settled_of_none fun b l some => ?_⟩
    cases left.unique some
  | cons b' l' =>
    rw [rest] at left
    rw [quantifier_eq left]
    rcases read : Lexer.count? b' l' with cause | _ | ⟨c, w⟩
    · exact rest_fault left (lexeme_fault adds.before read)
    · refine Follows.here ⟨adds.toAdds, settled_of_none fun b l some => ?_⟩
      obtain ⟨rfl, rfl⟩ := List.cons.inj (left.unique some)
      exact read
    · simp only [blamed, ok_bind]
      have width := Lexer.width_of_count? read
      have length := left.length_cons
      split
      · rename_i site k anchor
        have before : q.before = .anchor k := by rw [adds.before, anchor]; rfl
        rw [adds.text site k anchor, ok_bind]
        exact rest_fault left (lexeme_anchor before read)
      · rename_i other
        have before := adds.before.trans (beforeOf_of_ne other)
        have eq : Lexer.lexeme flags total q.names q.pos q.before b' l' = _ :=
          lexeme_count before read
        have elements : q.tree.level.elements = _ :: _ :=
          congrArg Parser.Level.elements adds.level
        have step : Parser.step flags (fun _ => 0) q.tree (q.lexeme ⟨.count c, 1, w⟩) = _ :=
          step_count rfl elements
        split
        · rename_i repeatable
          rw [if_pos repeatable] at step
          refine ⟨_, rest_next left eq step, ⟨?_, ?_, rfl, ?_, rfl, ?_, adds.opened⟩,
            settled_of_nothing rfl⟩
          · exact adds.agrees.next rfl rfl rfl rfl (List.append_nil _).symm
          · exact congrArg (· + 1) adds.used
          · show q.pos + w ≤ s.length
            omega
          · show ({ q.tree.level with
              elements := .quantifier ⟨⟨q.tree.used + 1, a.1.site.start, _⟩, c⟩ _ :: _ } :
                Parser.Level) = _
            rw [adds.level, adds.used, adds.start]
            rfl
        · rename_i fixed
          rw [if_neg fixed] at step
          exact rest_stuck left eq step

end Elements

/-! ## 5. Alternatives

The functions call each other, so their statements are proved together, by induction on the calls
that are left.  Nothing is claimed here of readings that run out of calls. -/

section Nested

variable (flags : Flags) (total : Nat) (s : Bytes)

/-- An alternative has been read to its end, and the node is what it is. -/
structure Finishes (p : Place) (r : Node × Nat × State) (q : Place) : Prop where
  agrees : Agrees q r.2.2
  pos : q.pos = r.2.1
  le : q.pos ≤ s.length
  opened : q.tree.opened = p.tree.opened
  start : q.tree.level.start = p.tree.level.start
  alternatives : q.tree.level.alternatives = p.tree.level.alternatives
  finished : q.tree.level.finishAlternative q.tree.used q.pos = (r.1, r.2.2.used)
  settled : Settled flags total s q
  ended : ∀ b l, Left s q.pos (b :: l) → b = Ascii.pipe ∨ b = Ascii.closeParen

variable {flags total s}

theorem Agrees.count {p : Place} {st : State} (h : Agrees p st) : Agrees p st.count :=
  ⟨h.names, h.captures, h.counted, h.lookup, h.references⟩

theorem finishAlternative_many {level : Parser.Level} {before : List Node}
    (h : level.elements = before.reverse) (several : ∀ only, before = [only] → False)
    (used pos : Nat) :
    level.finishAlternative used pos =
      (.sequence ⟨used + 1, level.current, pos⟩ before, used + 1) := by
  unfold Parser.Level.finishAlternative
  rw [h]
  split
  · rename_i only eq
    exact (several only (by rw [← List.reverse_reverse before, eq]; rfl)).elim
  · rw [List.reverse_reverse]

theorem finish_many {level : Parser.Level} {before : List Node} {n : Node} {used used' pos : Nat}
    (h : level.alternatives = before.reverse) (some : before ≠ [])
    (finished : level.finishAlternative used pos = (n, used')) :
    level.finish used pos =
      (.alternation ⟨used' + 1, level.start, pos⟩ (before ++ [n]), used' + 1) := by
  unfold Parser.Level.finish
  rw [finished, h]
  dsimp only
  split
  · rename_i eq
    exact absurd (List.reverse_eq_nil_iff.mp eq) some
  · rw [List.reverse_reverse]

theorem ends_cases {i : Nat} (h : i ≤ s.length) :
    (ends s i = .ok true ∧ ∀ b l, Left s i (b :: l) → b = Ascii.pipe ∨ b = Ascii.closeParen) ∨
      ends s i = .ok false ∧
        ∃ b l, Left s i (b :: l) ∧ ¬ (b = Ascii.pipe ∨ b = Ascii.closeParen) := by
  rcases Nat.lt_or_eq_of_le h with lt | rfl
  · obtain ⟨b, l, left⟩ := exists_left lt
    rw [ends_cons s left]
    by_cases ending : b = Ascii.pipe ∨ b = Ascii.closeParen
    · refine .inl ⟨by simpa using ending, fun b' l' left' => ?_⟩
      obtain ⟨rfl, rfl⟩ := List.cons.inj (left.unique left')
      exact ending
    · exact .inr ⟨by simpa using ending, b, l, left, ending⟩
  · refine .inl ⟨ends_nil s, fun b l left => ?_⟩
    have length := left.length_cons
    omega

/-- A bar ends an alternative and starts the next one. -/
theorem step_bar {resolve : Bytes → Nat} {t : Parser.State} {m : Lexeme} {n : Node} {used : Nat}
    (token : m.token = .bar) (finished : t.level.finishAlternative t.used m.start = (n, used)) :
    Parser.step flags resolve t m = .ok { t with
      used := used
      level := ⟨t.level.start, n :: t.level.alternatives, m.stop, []⟩ } := by
  unfold Parser.step
  rw [token]
  dsimp only
  rw [finished]

variable (flags total s)

/-- With `n` calls `choices` follows from the start of an alternative. -/
def ChoicesFollow (n : Nat) : Prop :=
  ∀ (p : Place) st start before, Agrees p st → p.tree.used = st.used →
    Settled flags total s p → p.pos ≤ s.length →
    p.tree.level = ⟨start, before.reverse, p.pos, []⟩ →
    Follows flags total s p (Closes flags total s p)
      (choices flags total s n start p.pos before st)

/-- With `n` calls `sequence` follows from the start of an element. -/
def SequenceFollows (n : Nat) : Prop :=
  ∀ (p : Place) st before, Agrees p st → p.tree.used = st.used →
    Settled flags total s p → p.pos ≤ s.length → p.tree.level.elements = before.reverse →
    Follows flags total s p (Finishes flags total s p)
      (sequence flags total s n p.tree.level.current p.pos before st)

variable {flags total s} {n : Nat}

theorem ChoicesFollow.followsBodies (h : ChoicesFollow flags total s n) :
    FollowsBodies flags total s fun j st => choices flags total s n j j [] st :=
  fun q st agrees used before level le =>
    h q st q.pos [] agrees used (settled_of_nothing before) le level

/-- An alternative, and the next one if there is a bar. -/
theorem follows_choices (sequence_ih : SequenceFollows flags total s n)
    (choices_ih : ChoicesFollow flags total s n) : ChoicesFollow flags total s (n + 1) := by
  intro p st start before agrees used settled le level
  unfold choices
  have first := sequence_ih p st [] agrees used settled le (by rw [level]; rfl)
  rw [show p.tree.level.current = p.pos by rw [level]] at first
  refine first.bind fun last q done => ?_
  have alternatives : q.tree.level.alternatives = before.reverse := by
    rw [done.alternatives, level]
  have outer : q.tree.level.start = start := by rw [done.start, level]
  rw [← done.pos, isAt_eq (left_drop done.le), ok_bind]
  split
  · rename_i found
    obtain ⟨l, bar⟩ := List.head?_eq_some_iff.mp (beq_iff_eq.mp found)
    have left : Left s q.pos (Ascii.pipe :: l) := bar ▸ left_drop done.le
    have eq : Lexer.lexeme flags total q.names q.pos q.before Ascii.pipe l =
        .ok ⟨.bar, 0, 1⟩ := done.settled _ _ left
    have step : Parser.step flags (fun _ => 0) q.tree (q.lexeme ⟨.bar, 0, 1⟩) = _ :=
      step_bar rfl done.finished
    rw [outer, alternatives] at step
    refine Follows.from ?_ (rest_next left eq step)
    refine (choices_ih (q.next ⟨.bar, 0, 1⟩ _) last.2.2 start (before ++ [last.1]) ?_ rfl
      (settled_of_nothing rfl) ?_ ?_).mono fun r q' closes => ?_
    · exact done.agrees.next rfl rfl rfl rfl (List.append_nil _).symm
    · exact left.tail.le
    · rw [List.reverse_append]
      rfl
    · exact ⟨closes.agrees, closes.pos, closes.le, closes.opened.trans done.opened,
        closes.finished, closes.settled, closes.ended⟩
  · rename_i none
    have ended : ∀ b l, Left s q.pos (b :: l) → b = Ascii.closeParen := by
      intro b l left
      refine (done.ended b l left).resolve_left fun bar => none ?_
      rw [left.drop_eq, bar]
      rfl
    split
    · refine .here ⟨done.agrees, done.pos, done.le, done.opened, ?_, done.settled, ended⟩
      unfold Parser.Level.finish
      rw [done.finished, alternatives]
      rfl
    · refine .here ⟨done.agrees.count, rfl, done.le, done.opened, ?_, done.settled, ended⟩
      rw [finish_many alternatives (List.cons_ne_nil _ _) done.finished, outer]
      rfl

/-- The end of an alternative, or one more term. -/
theorem follows_sequence (sequence_ih : SequenceFollows flags total s n)
    (choices_ih : ChoicesFollow flags total s n) : SequenceFollows flags total s (n + 1) := by
  intro p st before agrees used settled le elements
  unfold sequence
  rcases ends_cases le with ⟨done, ended⟩ | ⟨goes, b, l, left, other⟩
  · rw [done, ok_bind, if_pos rfl]
    split
    · rename_i only
      refine .here ⟨agrees, rfl, le, rfl, rfl, rfl, ?_, settled, ended⟩
      unfold Parser.Level.finishAlternative
      rw [elements, ← used]
      rfl
    · rename_i several
      refine .here ⟨agrees.count, rfl, le, rfl, rfl, rfl, ?_, settled, ended⟩
      rw [finishAlternative_many elements several, used]
      rfl
  · rw [goes, ok_bind, if_neg Bool.false_ne_true]
    refine (follows_term left agrees used settled other choices_ih.followsBodies).bind
      fun t q ht => ?_
    obtain ⟨adds, settled'⟩ := ht
    have current : q.tree.level.current = p.tree.level.current := by rw [adds.level]
    have read : q.tree.level.elements = (before ++ [t.1]).reverse := by
      rw [adds.level, List.reverse_append]
      exact congrArg (t.1 :: ·) elements
    have later := sequence_ih q t.2.2 (before ++ [t.1]) adds.agrees adds.used settled' adds.le read
    rw [← adds.pos, ← current]
    refine later.mono fun r q' done => ⟨done.agrees, done.pos, done.le, ?_, ?_, ?_,
      done.finished, done.settled, done.ended⟩
    · rw [done.opened, adds.opened]
    · rw [done.start, adds.level]
    · rw [done.alternatives, adds.level]

/-- **The reader by offsets follows the reader of lexemes**, however many calls it has.  The two
functions are taken together, by induction on the calls. -/
theorem follows_nested (n : Nat) :
    ChoicesFollow flags total s n ∧ SequenceFollows flags total s n := by
  induction n with
  | zero =>
    constructor
    · intro p st start before _ _ _ _ _
      trivial
    · intro p st before _ _ _ _ _
      trivial
  | succ n ih => exact ⟨follows_choices ih.2 ih.1, follows_sequence ih.2 ih.1⟩

end Nested

end Descent

end Backtrack
