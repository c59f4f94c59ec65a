/-
# From lexemes to a tree

A tree is built from its lexemes from left to right.  The groups that are open form a stack,
and each level of nesting keeps the alternatives it has finished and the elements of the
alternative it is in.  A count takes the last element back and wraps it.

Nodes are numbered in the order in which they are finished: a leaf when it is read, a quantifier
right after what it repeats, a sequence or an alternation at its end, a group after its body.
An alternative with exactly one element is that element, and a level with exactly one
alternative is that alternative; no node is made for them.

A name is resolved against all groups of the source, also those further on.  That a name is
undefined is reported last.
-/
import Backtrack.Pattern.Lexer

namespace Backtrack.Parser

open Lexer (Fault)

/-! ## 1. Levels -/

/-- What is known of one level of nesting: where it starts, its finished alternatives, where
the current alternative starts and its elements, the last ones first. -/
structure Level where
  start : Nat
  alternatives : List Node
  current : Nat
  elements : List Node
deriving Repr

/-- A level at its start. -/
def Level.at (pos : Nat) : Level := ⟨pos, [], pos, []⟩

/-- Finishes the current alternative at `pos`.  Returns it with the nodes used so far. -/
def Level.finishAlternative (l : Level) (used pos : Nat) : Node × Nat :=
  match l.elements with
  | [n] => (n, used)
  | ns => (.sequence ⟨used + 1, l.current, pos⟩ ns.reverse, used + 1)

/-- Finishes the level at `pos`.  Returns its node with the nodes used so far. -/
def Level.finish (l : Level) (used pos : Nat) : Node × Nat :=
  let last := l.finishAlternative used pos
  match l.alternatives with
  | [] => last
  | ns => (.alternation ⟨last.2 + 1, l.start, pos⟩ (ns.reverse ++ [last.1]), last.2 + 1)

/-- A group that has been opened and not closed, with the level it stands in. -/
structure Opened where
  start : Nat
  kind : GroupKind
  index : Nat
  name : Bytes
  outer : Level
deriving Repr

/-- The state between two lexemes. -/
structure State where
  used : Nat
  captures : Nat
  level : Level
  opened : List Opened
deriving Repr

/-- Before the first lexeme. -/
def State.initial : State := ⟨0, 0, Level.at 0, []⟩

/-! ## 2. One lexeme -/

/-- The sites inside a class count from the class on; this makes them count from the start. -/
def shiftSites (used : Nat) (k : CharClass) : CharClass :=
  let shift (s : Site) : Site := { s with id := s.id + used }
  { k with
    escapes := k.escapes.map fun e => (shift e.1, e.2)
    properties := k.properties.map fun p => (shift p.1, p.2) }

/-- The leaf of a token. -/
def leaf (used : Nat) (site : Site) : Shape → Node
  | .charClass k => .atom ⟨site, .charClass (shiftSites used k)⟩
  | shape => .atom ⟨site, shape⟩

/-- Adds an element to the current alternative. -/
def State.push (s : State) (used : Nat) (n : Node) : State :=
  { s with used := used, level := { s.level with elements := n :: s.level.elements } }

/-- Whether an element may be repeated: lookbehinds never, lookaheads only without the
unicode flag. -/
def isRepeatable (flags : Flags) : Node → Bool
  | .group g _ => !(g.isLookaround && (flags.unicode || g.kind.isLookbehind))
  | _ => true

/-- The state after one more lexeme.  `resolve` gives the group a name stands for. -/
def step (flags : Flags) (resolve : Bytes → Nat) (s : State) (l : Lexeme) :
    Except Fault State :=
  let site : Site := ⟨s.used + l.nodes, l.start, l.stop⟩
  match l.token with
  | .leaf shape => .ok (s.push (s.used + l.nodes) (leaf s.used site shape))
  | .anchor k => .ok (s.push (s.used + l.nodes) (.anchor site k))
  | .reference index name =>
    let index := if name.isEmpty then index else resolve name
    .ok (s.push (s.used + l.nodes) (.reference ⟨site, index, name⟩))
  | .opening kind name =>
    let captures := if kind = .capture then s.captures + 1 else s.captures
    let index := if kind = .capture then captures else 0
    .ok { s with
      captures := captures
      level := Level.at l.stop
      opened := ⟨l.start, kind, index, name, s.level⟩ :: s.opened }
  | .closing =>
    match s.opened with
    | [] => .error ⟨l.start, .unmatchedParen⟩
    | o :: opened =>
      let body := s.level.finish s.used l.start
      let group : Group := ⟨⟨body.2 + 1, o.start, l.stop⟩, o.kind, o.index, o.name⟩
      .ok
        { used := body.2 + 1
          captures := s.captures
          level := { o.outer with elements := .group group body.1 :: o.outer.elements }
          opened := opened }
  | .bar =>
    let last := s.level.finishAlternative s.used l.start
    .ok { s with
      used := last.2
      level := ⟨s.level.start, last.1 :: s.level.alternatives, l.stop, []⟩ }
  | .count c =>
    match s.level.elements with
    | [] => .error ⟨l.start, .nothingToRepeat⟩
    | n :: rest =>
      if isRepeatable flags n then
        let q : Quantifier := ⟨⟨s.used + l.nodes, n.site.start, l.stop⟩, c⟩
        .ok { s with
          used := s.used + l.nodes
          level := { s.level with elements := .quantifier q n :: rest } }
      else .error ⟨l.start, .repeatedLookaround⟩

/-! ## 3. All lexemes -/

/-- The state after some lexemes. -/
def run (flags : Flags) (resolve : Bytes → Nat) (s : State) : List Lexeme → Except Fault State
  | [] => .ok s
  | l :: ls =>
    match step flags resolve s l with
    | .error f => .error f
    | .ok s => run flags resolve s ls

/-- The tree and the number of captures of lexemes that end at `length`, unless `fault` ended
them early. -/
def build (flags : Flags) (resolve : Bytes → Nat) (length : Nat) (lexemes : List Lexeme)
    (fault : Option Fault) : Except Fault (Node × Nat) :=
  match run flags resolve State.initial lexemes with
  | .error f => .error f
  | .ok s =>
    match fault, s.opened with
    | some f, _ => .error f
    | none, _ :: _ => .error ⟨length, .unclosedGroup⟩
    | none, [] => .ok ((s.level.finish s.used length).1, s.captures)

/-! ## 4. Names -/

/-- The names of the capture groups in order, empty for those without one. -/
def captureNames (lexemes : List Lexeme) : List Bytes :=
  lexemes.filterMap fun l =>
    match l.token with
    | .opening .capture name => some name
    | _ => none

/-- The number of the group with a name, zero if there is none. -/
def indexOfName (names : List Bytes) (name : Bytes) : Nat :=
  match names.idxOf? name with
  | some i => i + 1
  | none => 0

/-- The first reference to a name that no group has. -/
def undefinedName? (names : List Bytes) (lexemes : List Lexeme) : Option Fault :=
  lexemes.findSome? fun l =>
    match l.token with
    | .reference _ name =>
      if name.isEmpty || names.contains name then none else some ⟨l.start, .undefinedName name⟩
    | _ => none

end Backtrack.Parser

namespace Backtrack

namespace Pattern

open Backtrack.Parser

/-! ## 5. Parsing -/

/-- The pattern a source denotes. -/
def parse (source : Bytes) (flags : Flags) : Except SyntaxError Pattern :=
  let (lexemes, fault) := Lexer.lexemes flags source
  let names := captureNames lexemes
  match build flags (indexOfName names) source.length lexemes fault with
  | .error f => .error ⟨source, f.offset, f.cause⟩
  | .ok (root, captures) =>
    match undefinedName? names lexemes with
    | some f => .error ⟨source, f.offset, f.cause⟩
    | none => .ok ⟨source, flags, root, captures⟩

/-- Reads the flags of a literal; `pos` is where they start.  Flags that do not change what a
single match does are accepted and dropped. -/
def literalFlags (pos : Nat) (flags : Flags) : List Utf8.Glyph → Except Lexer.Fault Flags
  | [] => .ok flags
  | g :: rest =>
    let next := pos + g.bytes.length
    if g.value = 'i'.toNat then literalFlags next { flags with ignoreCase := true } rest
    else if g.value = 's'.toNat then literalFlags next { flags with dotAll := true } rest
    else if g.value = 'u'.toNat ∨ g.value = 'v'.toNat then
      literalFlags next { flags with unicode := true } rest
    else if g.value = 'm'.toNat then literalFlags next { flags with multiline := true } rest
    else if g.value = 'g'.toNat ∨ g.value = 'y'.toNat ∨ g.value = 'd'.toNat then
      literalFlags next flags rest
    else .error ⟨pos, .unknownFlag g.value⟩

/-- The pattern of a literal `/source/flags`. -/
def parseLiteral (literal : Bytes) : Except SyntaxError Pattern :=
  match literal with
  | Ascii.slash :: b :: more =>
    match Ascii.cutLast? Ascii.slash (b :: more) with
    | none => .error ⟨literal, literal.length, .unclosedLiteral⟩
    | some (source, flags) =>
      match literalFlags (source.length + 2) {} (Utf8.glyphs flags) with
      | .error f => .error ⟨literal, f.offset, f.cause⟩
      | .ok flags => parse source flags
  | _ => .error ⟨literal, 0, .expectedLiteral⟩

end Pattern

end Backtrack
