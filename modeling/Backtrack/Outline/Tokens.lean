/-
# Reading tokens

Tokens are read when they are wanted.  Three things take more than a look at the next character.

* Indentation.  The columns of the open mappings and lists are kept on a stack.  A token further
  to the left closes them, and a key or dash further to the right opens one.
* Keys.  Whether a scalar or a bracket starts a key shows only at the colon, which has to follow
  on the same line and within reach.  Until then the place is remembered as a candidate, on each
  level of brackets one, and the token there is held back.  A candidate that is no key and stands
  where only a key can stand is a fault.
* Lookahead.  A token is given out when the two tokens after it have been read, so a fault close
  behind the end of a document is still a fault of the document.
-/
import Backtrack.Outline.Block
import Backtrack.Outline.Plain
import Backtrack.Outline.Property
import Backtrack.Outline.Quoted
import Backtrack.Outline.Readable

namespace Backtrack.Outline

/-! ## 1. The state -/

/-- A place where a key may have started. -/
structure Candidate where
  /-- The number of the token there. -/
  number : Nat := 0
  index : Nat := 0
  line : Nat := 0
  column : Nat := 0
  /-- Whether it may still become a key. -/
  isOpen : Bool := false
  /-- Whether nothing but a key can stand there. -/
  isRequired : Bool := false
  /-- Whether the token there is held back. -/
  isHeld : Bool := false
deriving Repr, DecidableEq

/-- The tokens of a text. -/
structure Tokens where
  cursor : Cursor
  /-- Where reading has to stop, if there is more than can be read. -/
  limit : Option Nat
  /-- Up to where the first character of a line is dropped. -/
  marked : Nat
  /-- The tokens that were read and not taken. -/
  queue : List Token := []
  /-- The number of tokens that were taken. -/
  taken : Nat := 0
  /-- The columns of the open mappings and lists, the innermost one first. -/
  indents : List Nat := []
  /-- Whether a key may start here. -/
  keyAllowed : Bool := true
  /-- The candidate between the innermost brackets. -/
  candidate : Candidate := {}
  /-- The candidates around them, one for each level of brackets. -/
  outer : List Candidate := []

namespace Tokens

/-- The tokens of what can be read of a text. -/
def ofReadable (r : Readable) : Tokens :=
  { cursor := { rest := r.text }, limit := r.limit, marked := r.marked }

/-- Whether brackets are open. -/
def inBrackets (t : Tokens) : Bool := !t.outer.isEmpty

/-- The least column of what belongs to the innermost mapping or list. -/
def least (t : Tokens) : Nat := (t.indents.head?.map (· + 1)).getD 0

/-- The number of the next token. -/
def number (t : Tokens) : Nat := t.taken + t.queue.length

/-- Whether the next `n` characters can be read, as far as there are any. -/
def reaches (t : Tokens) (n : Nat) : Bool := t.limit.all (t.cursor.index + n ≤ ·)

/-- Adds a token. -/
def push (t : Tokens) (x : Token) : Tokens := { t with queue := t.queue ++ [x] }

/-- Adds a token before the one with a number.  If that one is gone the token comes last. -/
def insert (t : Tokens) (number : Nat) (x : Token) : Tokens :=
  if number < t.taken then t.push x
  else
    let n := number - t.taken
    { t with queue := t.queue.take n ++ x :: t.queue.drop n }

/-! ## 2. Indentation -/

/-- How many mappings and lists, or brackets, may be open. -/
def maxDepth : Nat := 10000

/-- Opens a mapping or list at a column, before the token with a number, unless one is open
there. -/
def indent (t : Tokens) (column number : Nat) (x : Token) : Except Fault Tokens :=
  if t.inBrackets || column < t.least then .ok t
  else if maxDepth ≤ t.indents.length then .error .tooDeep
  else .ok ({ t with indents := column :: t.indents }.insert number x)

/-- Closes the mappings and lists for which `closes` holds. -/
def dedentWhile (t : Tokens) (closes : Nat → Bool) : Tokens :=
  if t.inBrackets then t
  else
    { t with
      queue := t.queue ++ (t.indents.takeWhile closes).map fun _ => .dedent
      indents := t.indents.dropWhile closes }

/-! ## 3. Keys -/

/-- How far behind its start the colon of a key may be. -/
def keyReach : Nat := 1024

/-- Whether a colon at the cursor would make a candidate a key. -/
def isLive (t : Tokens) (k : Candidate) : Bool :=
  k.isOpen && k.line == t.cursor.line && t.cursor.index ≤ k.index + keyReach

/-- Gives up the candidate. -/
def giveUp (t : Tokens) : Except Fault Tokens :=
  if t.candidate.isOpen && t.candidate.isRequired then .error .keyWithoutColon
  else .ok { t with candidate := { t.candidate with isOpen := false } }

/-- Makes the place of the cursor the candidate, if a key may start there. -/
def propose (t : Tokens) : Except Fault Tokens :=
  if !t.keyAllowed then .ok t
  else do
    let c := t.cursor
    let t' ← t.giveUp
    return { t' with
      candidate :=
        { number := t.number, index := c.index, line := c.line, column := c.column, isOpen := true
          isRequired := !t.inBrackets && c.column + 1 == t.least, isHeld := true } }

/-! ## 4. Signs -/

/-- Ends everything that is open outside of brackets. -/
def closeAll (t : Tokens) : Except Fault Tokens := do
  let t ← (t.dedentWhile fun _ => true).giveUp
  return { t with keyAllowed := false }

/-- Adds a sign of one character; `allowed` says whether a key may follow. -/
def sign (t : Tokens) (x : Token) (allowed : Bool) : Tokens :=
  { t.push x with cursor := t.cursor.skip 1, keyAllowed := allowed }

/-- Opens brackets. -/
def openBracket (t : Tokens) (x : Token) : Except Fault Tokens := do
  let t ← t.propose
  let t := { t with candidate := { number := t.number }, outer := t.candidate :: t.outer }
  if maxDepth < t.outer.length then .error .tooDeep else return t.sign x true

/-- Closes brackets.  If no candidate came up between them, the token that opened them is not
held back any longer. -/
def closeBracket (t : Tokens) (x : Token) : Except Fault Tokens := do
  let t ← t.giveUp
  let t := match t.outer with
    | [] => t
    | k :: outer =>
      let isHeld := k.isHeld && k.number != t.candidate.number
      { t with candidate := { k with isHeld := isHeld }, outer := outer }
  return t.sign x false

/-- Reads a comma. -/
def comma (t : Tokens) : Except Fault Tokens := do
  let t ← t.giveUp
  return t.sign .comma true

/-- Checks that an entry may start here and opens what it belongs to, unless it is between
brackets. -/
def startEntry (t : Tokens) (x : Token) : Except Fault Tokens :=
  if t.inBrackets then .ok t
  else if !t.keyAllowed then .error .entry
  else t.indent t.cursor.column t.number x

/-- Reads the dash of an item. -/
def dash (t : Tokens) : Except Fault Tokens := do
  let t ← t.startEntry .indentList
  let t ← t.giveUp
  return t.sign .dash true

/-- Reads the question mark before a key. -/
def questionMark (t : Tokens) : Except Fault Tokens := do
  let t ← t.startEntry .indentMapping
  let t ← t.giveUp
  return t.sign .key !t.inBrackets

/-- Reads the colon before a value.  It turns the candidate into a key, or else belongs to a key
with a question mark. -/
def colon (t : Tokens) : Except Fault Tokens := do
  let k := t.candidate
  if t.isLive k then
    let t ← (t.insert k.number .key).indent k.column k.number .indentMapping
    let t := { t with candidate := { k with isOpen := false } }
    return t.sign .colon false
  else if k.isOpen && k.isRequired then .error .keyWithoutColon
  else
    let t := { t with candidate := { k with isOpen := false } }
    let t ← t.startEntry .indentMapping
    return t.sign .colon !t.inBrackets

/-! ## 5. Words -/

/-- Reads something that may be a key, or the start of one. -/
def word (t : Tokens) (read : Cursor → Except Fault (Token × Cursor)) : Except Fault Tokens := do
  let t ← t.propose
  let (x, c) ← read t.cursor
  return { t.push x with cursor := c, keyAllowed := false }

/-- Reads a plain scalar.  After the end of its line a key may start. -/
def plain (t : Tokens) : Except Fault Tokens := do
  let t ← t.propose
  let (p, c) ← t.cursor.plain t.inBrackets t.least
  return { t.push (.scalar false (String.ofList p.text)) with cursor := c, keyAllowed := p.broken }

/-- Reads a block scalar, which cannot be a key. -/
def block (t : Tokens) : Except Fault Tokens := do
  let t ← t.giveUp
  let (text, c) ← t.cursor.block t.least
  return { t.push (.scalar true (String.ofList text)) with cursor := c, keyAllowed := true }

/-- Reads a quoted scalar. -/
def quoted (t : Tokens) (quote : Char) : Except Fault Tokens :=
  t.word fun c => do
    let (text, c) ← c.quoted quote
    return (.scalar true (String.ofList text), c)

/-- The characters that cannot start a plain scalar, or not always. -/
def signs : List Char := "-?:,[]\x7b\x7d#&*!|>'\"%@`\t".toList

/-- Whether a plain scalar may start with `x`. -/
def startsPlain (t : Tokens) (x : Char) (rest : List Char) : Bool :=
  !signs.contains x || x == '-' || (!t.inBrackets && (x == '?' || x == ':') && !endsWord rest)

/-- Reads the token that starts with `x`. -/
def inLine (t : Tokens) (x : Char) (rest : List Char) : Except Fault Tokens :=
  let alone := t.inBrackets || endsWord rest
  match x with
  | '[' => t.openBracket .openList
  | '\x7b' => t.openBracket .openMapping
  | ']' => t.closeBracket .closeList
  | '\x7d' => t.closeBracket .closeMapping
  | ',' => t.comma
  | '*' => t.word fun c => (c.anchorName).map fun r => (.reuse r.1, r.2)
  | '&' => t.word fun c => (c.anchorName).map fun r => (.anchor r.1, r.2)
  | '!' => t.word Cursor.tag
  | '\'' => t.quoted x
  | '"' => t.quoted x
  | _ =>
    if x == '-' && endsWord rest then t.dash
    else if x == '?' && alone then t.questionMark
    else if x == ':' && alone then t.colon
    else if (x == '|' || x == '>') && !t.inBrackets then t.block
    else if t.startsPlain x rest then t.plain
    else .error .character

/-! ## 6. Between tokens -/

/-- How many blanks and line breaks may stand before a comment that belongs to what is before
it. -/
def commentReach : Nat := 512

/-- Moves over comments and what stands between them, up to the end of the last one's line. -/
def skipComments : (fuel : Nat) → Cursor → Cursor
  | 0, c => c
  | fuel + 1, c =>
    let c := c.skipComment
    let between := c.rest.takeWhile fun x => isBlank x || x == '\n' || x == '\r'
    if between.length < commentReach && (c.rest.drop between.length).head? == some '#' then
      match c.gap 0 true with
      | .ok (_, c') => skipComments fuel c'
      | .error _ => c
    else c

/-- Moves over blanks, comments and line breaks.  Tabs are blanks unless a key may start after
them; after a line break one may, outside of brackets. -/
def toToken (inBrackets : Bool) (marked : Nat) :
    (fuel : Nat) → (keyAllowed : Bool) → Cursor → Bool × Cursor
  | 0, keyAllowed, c => (keyAllowed, c)
  | fuel + 1, keyAllowed, c =>
    let c := if c.column == 0 && c.index < marked then c.skip 1 else c
    let c := c.skipWhile fun x => x == ' ' || (x == '\t' && (inBrackets || !keyAllowed))
    let c := if c.isAt '#' then skipComments (c.rest.length + 1) c else c
    if c.rest.head?.any isBreak then
      toToken inBrackets marked fuel (keyAllowed || !inBrackets) c.skipBreak
    else (keyAllowed, c)

/-- Moves over a comment on the line of the last token. -/
def lineComment (c : Cursor) : Cursor :=
  let blanks := c.rest.takeWhile isBlank
  if !c.afterBreak && blanks.length < commentReach &&
      (c.rest.drop blanks.length).head? == some '#' then
    (c.skip blanks.length).skipComment
  else c

/-! ## 7. Reading -/

/-- Reads the next token, and whatever its indentation closes and opens. -/
def read (t : Tokens) : Except Fault Tokens := do
  let (keyAllowed, c) :=
    toToken t.inBrackets t.marked (t.cursor.rest.length + 1) t.keyAllowed t.cursor
  let t := { t with cursor := c, keyAllowed := keyAllowed }.dedentWhile (c.column < ·)
  let t := { t with marked := if t.marked < c.index + 4 then 0 else t.marked }
  if !t.reaches 4 then .error .unreadable
  else
    match c.rest with
    | [] =>
      let line := if c.column == 0 then c.line else c.line + 1
      let t ← { t with cursor := { c with line := line, column := 0 } }.closeAll
      return t.push .textEnd
    | x :: rest =>
      if c.column == 0 && x == '%' then
        let t ← t.closeAll
        let (d, c) ← c.directive
        return { t.push d with cursor := c }
      else if c.column == 0 && isMarker c.rest then
        let t ← t.closeAll
        return { t.push (if x == '-' then .documentStart else .documentEnd) with
          cursor := c.skip 3 }
      else
        let t ← t.inLine x rest
        if x == '-' && endsWord rest then return t
        else return { t with cursor := lineComment t.cursor }

/-- The candidate for whose sake the next token is held back. -/
def holding? (t : Tokens) : Option Candidate :=
  (t.candidate :: t.outer).find? fun k => k.isOpen && k.isHeld && k.number == t.taken

/-- Whether more has to be read before the next token can be given out. -/
def isWaiting (t : Tokens) : Except Fault Bool :=
  if t.queue.length ≤ 2 then .ok true
  else
    match t.holding? with
    | none => .ok false
    | some k =>
      if t.isLive k then .ok true
      else if k.isRequired then .error .keyWithoutColon
      else .ok false

/-- Reads until the next token can be given out. -/
def fill : (fuel : Nat) → Tokens → Except Fault Tokens
  | 0, t => .ok t
  | fuel + 1, t =>
    match t.isWaiting with
    | .error f => .error f
    | .ok false => .ok t
    | .ok true =>
      match t.read with
      | .error f => .error f
      | .ok t => if t.reaches 1 then fill fuel t else .error .unreadable

/-- The next token. -/
def peek (t : Tokens) : Except Malformed (Token × Tokens) :=
  match t.fill (t.cursor.rest.length + 4) with
  | .error f => .error ⟨t.cursor.line, f⟩
  | .ok t => .ok (t.queue.headD .textEnd, t)

/-- The tokens without the next one. -/
def drop (t : Tokens) : Tokens := { t with queue := t.queue.tail, taken := t.taken + 1 }

end Tokens

end Backtrack.Outline
