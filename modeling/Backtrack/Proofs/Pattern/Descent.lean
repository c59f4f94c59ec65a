/-
# Reading a source by offsets

`Pattern.parse` cuts the bytes that are left and passes on the rest, so that it cannot look beyond
them.  Here is the reader that keeps the source whole and goes about in it by offsets: every byte is
asked for by its place, and asking for one that is not there is an outcome of its own
(`Stop.outside`).  It is one function for each thing that can stand in a source, each called with the
offset of the first byte of the thing and giving the offset after the last one.

* `member` and `bracket` read classes, `escape` reads what a backslash starts, `opening` what a
  parenthesis does, `quantifier` a count.
* `choices`, `sequence`, `term`, `atom` and `group` call each other.  They do not end because a tree
  gets smaller but because offsets get larger, which is to be proved; so they are given a number of
  calls they may be nested in, and that the calls are used up is one more outcome
  (`Stop.exhausted`).
* A reference by name has no group while it is read.  At the end each gets the number that its name
  has got (`Node.targeting`).
-/
import Backtrack.Pattern.Parser

namespace Backtrack

namespace Descent

/-- Why reading ends early. -/
inductive Stop where
  /-- The source is malformed. -/
  | fault (offset : Nat) (cause : SyntaxCause)
  /-- A byte was asked for where there is none. -/
  | outside (offset : Nat)
  /-- Calls were nested deeper than allowed. -/
  | exhausted
deriving Repr, DecidableEq

/-- What is read, or why it is not. -/
abbrev Reads (α : Type) : Type := Except Stop α

/-- Finds fault with the source. -/
def fault {α : Type} (offset : Nat) (cause : SyntaxCause) : Reads α := .error (.fault offset cause)

/-! ## 1. Looking at bytes

All bytes of the source are asked for by these functions.  An answer that would be beyond the end
is `Stop.outside`, and not some default that could pass for a byte. -/

/-- The byte at an offset. -/
def byteAt (s : Bytes) (i : Nat) : Reads UInt8 :=
  match s[i]? with
  | some b => .ok b
  | none => .error (.outside i)

/-- The bytes from an offset on, which may be the end. -/
def suffix (s : Bytes) (i : Nat) : Reads Bytes :=
  if i ≤ s.length then .ok (s.drop i) else .error (.outside i)

/-- The bytes from one offset up to another. -/
def slice (s : Bytes) (i j : Nat) : Reads Bytes :=
  if i ≤ j ∧ j ≤ s.length then .ok ((s.drop i).take (j - i)) else .error (.outside j)

/-- Whether there is a byte at an offset, and it is this one. -/
def isAt (s : Bytes) (i : Nat) (b : UInt8) : Reads Bool :=
  if i < s.length then (byteAt s i).map (· == b) else .ok false

/-- The character at an offset and its width, which is zero at the end. -/
def charAt (s : Bytes) (i : Nat) : Reads (Nat × Nat) :=
  (suffix s i).map fun
    | [] => (Utf8.replacement, 0)
    | b :: rest => Utf8.decode b rest

/-! ## 2. Escapes -/

/-- The class escape whose backslash is at `i` and whose letter is there. -/
def classEscape (s : Bytes) (i : Nat) : Reads (Option ClassEscape) :=
  (byteAt s (i + 1)).map Lexer.classEscape?

/-- The property escape whose backslash is at `i` and whose letter is there. -/
def property (unicode : Bool) (s : Bytes) (i : Nat) : Reads (Option (PropertyEscape × Nat)) := do
  let c ← byteAt s (i + 1)
  if unicode && (c = Ascii.byte 'p' || c = Ascii.byte 'P') then
    if ← isAt s (i + 2) Ascii.openBrace then
      let left ← suffix s (i + 2)
      match left.idxOf? Ascii.closeBrace with
      | none => fault i .unclosedProperty
      | some stop =>
        let name ← slice s (i + 3) (i + 2 + stop)
        if (Unicode.lookup? name.toText).isSome then
          pure (some (⟨name.toText, c = Ascii.byte 'P'⟩, i + 2 + stop + 1))
        else fault (i + 3) (.unknownProperty name)
    else fault i .invalidProperty
  else pure none

/-- The number that `n` hexadecimal digits write, if they are there. -/
def hex (s : Bytes) (i n : Nat) : Reads (Option Nat) :=
  if s.length < i + n then pure none else (slice s i (i + n)).map Ascii.hexNumber?

/-- A number of at most `digits` octal digits and at most `0o377`, and the offset after it. -/
def octal (s : Bytes) : (digits value i : Nat) → Reads (Nat × Nat)
  | 0, v, i => pure (v, i)
  | n + 1, v, i =>
    if i < s.length then do
      let b ← byteAt s i
      if Ascii.isOctal b && v * 8 + (b.toNat - 0x30) ≤ 0o377 then
        octal s n (v * 8 + (b.toNat - 0x30)) (i + 1)
      else pure (v, i)
    else pure (v, i)

/-- The character in braces, whose brace is at `j` and whose backslash is at `i`. -/
def braced (s : Bytes) (i j : Nat) : Reads (Nat × Nat) := do
  let left ← suffix s j
  match left.idxOf? Ascii.closeBrace with
  | none => fault i .invalidUnicodeEscape
  | some stop =>
    let digits ← slice s (j + 1) (j + stop)
    match Ascii.hexNumber? digits with
    | some v => if v ≤ maxCodePoint then pure (v, j + stop + 1) else fault i .invalidUnicodeEscape
    | none => fault i .invalidUnicodeEscape

/-- A character given by number, if the letter `c` before `j` and what follows spell one. -/
def numbered (unicode : Bool) (s : Bytes) (i c j : Nat) : Reads (Option (Nat × Nat)) :=
  if c = 'x'.toNat then (hex s j 2).map fun v => v.map (·, j + 2)
  else if c = 'u'.toNat then do
    let left ← if unicode then suffix s j else pure []
    if [Ascii.openBrace].isPrefixOf left then (braced s i j).map some
    else (hex s j 4).map fun v => v.map (·, j + 4)
  else if c = 'c'.toNat then
    if j < s.length then
      (byteAt s j).map fun b => if Ascii.isLetter b then some (b.toNat % 32, j + 1) else none
    else pure none
  else if c = '0'.toNat then
    if j < s.length then (byteAt s j).map fun b => if Ascii.isDigit b then none else some (0, j)
    else pure (some (0, j))
  else pure none

/-- The character that the backslash at `i` and what follows it stand for. -/
def charEscape (unicode : Bool) (s : Bytes) (i : Nat) : Reads (Nat × Nat) := do
  let d ← charAt s (i + 1)
  let c := d.1
  let j := i + 1 + d.2
  match ← numbered unicode s i c j with
  | some r => pure r
  | none =>
    if '0'.toNat ≤ c && c ≤ '9'.toNat && unicode then fault i .invalidDecimalEscape
    else if '0'.toNat ≤ c && c ≤ '7'.toNat then octal s 3 0 (i + 1)
    else if unicode && c < 0x80 && Ascii.isLetter (UInt8.ofNat c) && Lexer.controlValue c == c then
      fault i (.invalidEscape c)
    else pure (Lexer.controlValue c, j)

/-! ## 3. Classes

The loop gets a number of calls too.  It takes a byte at least in each round, so as many calls as
there are bytes left are enough. -/

/-- The member of a class at an offset. -/
def member (unicode : Bool) (s : Bytes) (i : Nat) : Reads (Lexer.Member × Nat) := do
  let b ← byteAt s i
  if b ≠ Ascii.backslash then
    (charAt s i).map fun d => (.char d.1, i + d.2)
  else if s.length ≤ i + 1 then fault i .trailingBackslash
  else
    match ← classEscape s i with
    | some k => pure (.escape k, i + 2)
    | none =>
      match ← property unicode s i with
      | some p => pure (.property p.1, p.2)
      | none =>
        let e ← byteAt s (i + 1)
        if e = Ascii.byte 'b' then pure (.char 0x08, i + 2)
        else if e = Ascii.minus then pure (.char 0x2D, i + 2)
        else (charEscape unicode s i).map fun c => (.char c.1, c.2)

/-- Whether the character before `i` starts a range: there is a minus, and no bracket after it. -/
def startsRange (s : Bytes) (i : Nat) : Reads Bool :=
  if i + 1 < s.length then do
    if (← byteAt s i) = Ascii.minus then (byteAt s (i + 1)).map (· != Ascii.closeBracket)
    else pure false
  else pure false

/-- The member or the range at `i`, added to the class.  `used` counts the nodes so far.  A range
whose upper end turns out to be an escape is no range. -/
def item (unicode : Bool) (s : Bytes) (used i : Nat) (k : CharClass) :
    Reads (CharClass × Nat × Nat) := do
  let m ← member unicode s i
  match m.1 with
  | .escape e =>
    pure ({ k with escapes := k.escapes ++ [(⟨used + 1, i, m.2⟩, e)] }, used + 1, m.2)
  | .property p =>
    pure ({ k with properties := k.properties ++ [(⟨used + 1, i, m.2⟩, p)] }, used + 1, m.2)
  | .char c =>
    let single : CharClass := { k with ranges := k.ranges ++ [⟨c, c⟩] }
    if ← startsRange s m.2 then
      let upper ← member unicode s (m.2 + 1)
      match upper.1 with
      | .char d =>
        if d < c then fault i .classRangeOutOfOrder
        else pure ({ k with ranges := k.ranges ++ [⟨c, d⟩] }, used, upper.2)
      | _ => if unicode then fault m.2 .invalidClassRange else pure (single, used + 1, m.2)
    else pure (single, used, m.2)

/-- The members of a class up to its closing bracket or the end of the source. -/
def classBody (unicode : Bool) (s : Bytes) :
    (calls used i : Nat) → CharClass → Reads (CharClass × Nat × Nat)
  | 0, _, _, _ => .error .exhausted
  | n + 1, used, i, k =>
    if s.length ≤ i then pure (k, used, i)
    else do
      if (← byteAt s i) = Ascii.closeBracket then pure (k, used, i)
      else
        let r ← item unicode s used i k
        classBody unicode s n r.2.1 r.2.2 r.1

/-- The class whose bracket is at `i`, with the nodes of its members counted. -/
def bracket (unicode : Bool) (s : Bytes) (used i : Nat) : Reads (CharClass × Nat × Nat) := do
  let negated ← isAt s (i + 1) Ascii.caret
  let r ← classBody unicode s (s.length + 1) used (if negated then i + 2 else i + 1)
    ⟨negated, [], [], []⟩
  if s.length ≤ r.2.2 then fault r.2.2 .unclosedClass else pure (r.1, r.2.1, r.2.2 + 1)

/-! ## 4. Groups and counts -/

/-- The opening of a group with a name, where `?<` is at `j`. -/
def groupName (s : Bytes) (names : List Bytes) (j : Nat) : Reads (GroupKind × Bytes × Nat) := do
  let left ← suffix s j
  match left.idxOf? Ascii.greater with
  | none => fault j .unclosedGroupName
  | some stop =>
    let name ← slice s (j + 2) (j + stop)
    if !Lexer.isGroupName name then fault (j + 2) (.invalidGroupName name)
    else if names.contains name then fault (j + 2) (.duplicateGroupName name)
    else pure (.capture, name, j + stop + 1)

/-- The opening of the group whose parenthesis is at `i`, and the offset after it. -/
def opening (s : Bytes) (names : List Bytes) (i : Nat) : Reads (GroupKind × Bytes × Nat) := do
  let j := i + 1
  let left ← suffix s j
  if [Ascii.question, Ascii.colon].isPrefixOf left then pure (.nonCapture, [], j + 2)
  else if [Ascii.question, Ascii.equals].isPrefixOf left then pure (.lookahead, [], j + 2)
  else if [Ascii.question, Ascii.exclamation].isPrefixOf left then
    pure (.negativeLookahead, [], j + 2)
  else if [Ascii.question, Ascii.less, Ascii.equals].isPrefixOf left then
    pure (.lookbehind, [], j + 3)
  else if [Ascii.question, Ascii.less, Ascii.exclamation].isPrefixOf left then
    pure (.negativeLookbehind, [], j + 3)
  else if [Ascii.question, Ascii.less].isPrefixOf left then groupName s names j
  else if [Ascii.question].isPrefixOf left then fault j .invalidGroup
  else pure (.capture, [], j)

/-- The bounds that stand between braces, unless it is no bounds that do. -/
def innerBounds (inner : Bytes) : Except SyntaxCause (Option (Nat × Option Nat)) :=
  let parts := (Ascii.cut? Ascii.comma inner).map fun p => (p.1, some p.2)
  let least := (parts.getD (inner, none)).1
  let most := (parts.getD (inner, none)).2
  if !Ascii.isDecimal least then .ok none
  else
    match number? least with
    | none => .error (.braceNumberTooLarge least)
    | some m =>
      match most with
      | none => .ok (some (m, Lexer.bound m))
      | some [] => .ok (some (m, none))
      | some digits =>
        if !Ascii.isDecimal digits then .ok none
        else
          match number? digits with
          | none => .error (.braceNumberTooLarge digits)
          | some n => if n < m then .error .bracesOutOfOrder else .ok (some (m, Lexer.bound n))

/-- The bounds whose brace is at `i`, and their width. -/
def braces (s : Bytes) (i : Nat) : Reads (Option (Nat × Option Nat × Nat)) := do
  let left ← suffix s i
  match left.idxOf? Ascii.closeBrace with
  | none => pure none
  | some stop =>
    let inner ← slice s (i + 1) (i + stop)
    match innerBounds inner with
    | .error cause => fault i cause
    | .ok none => pure none
    | .ok (some (m, n)) => pure (some (m, n, stop + 1))

/-- The bounds at `i`, where the byte `b` is, and their width. -/
def bounds (s : Bytes) (i : Nat) (b : UInt8) : Reads (Option (Nat × Option Nat × Nat)) :=
  match b with
  | Ascii.plus => pure (some (1, none, 1))
  | Ascii.star => pure (some (0, none, 1))
  | Ascii.question => pure (some (0, some 1, 1))
  | Ascii.openBrace => braces s i
  | _ => pure none

/-- The count at an offset, if there is one, and its width. -/
def quantifier (s : Bytes) (i : Nat) : Reads (Option (Count × Nat)) :=
  if s.length ≤ i then pure none
  else do
    let b ← byteAt s i
    match ← bounds s i b with
    | none => pure none
    | some (m, n, w) =>
      if ← isAt s (i + w) Ascii.question then pure (some (⟨m, n, true⟩, w + 1))
      else pure (some (⟨m, n, false⟩, w))

/-! ## 5. Nodes

The functions that call each other get a number of calls each.  They use up one of them at each
level, whatever it is that they read there. -/

/-- What is kept track of: nodes and groups are counted, names have the numbers of their groups,
and references are looked through at the end. -/
structure State where
  used : Nat
  captures : Nat
  names : List (Bytes × Nat)
  references : List Reference
deriving Repr

/-- Before anything is read. -/
def State.initial : State := ⟨0, 0, [], []⟩

/-- The next node. -/
def State.count (st : State) : State := { st with used := st.used + 1 }

/-- Gives a group its number if it captures, and its name the number. -/
def State.enter (st : State) (kind : GroupKind) (name : Bytes) : State :=
  if kind = .capture then
    { st with
      captures := st.captures + 1
      names := if name.isEmpty then st.names else (name, st.captures + 1) :: st.names }
  else st

/-- A leaf between two offsets. -/
def State.leaf (st : State) (i j : Nat) (shape : Shape) : Node × Nat × State :=
  (.atom ⟨⟨st.used + 1, i, j⟩, shape⟩, j, st.count)

/-- An anchor between two offsets. -/
def State.anchor (st : State) (i j : Nat) (kind : Anchor) : Node × Nat × State :=
  (.anchor ⟨st.used + 1, i, j⟩ kind, j, st.count)

/-- A reference between two offsets. -/
def State.refer (st : State) (i j index : Nat) (name : Bytes) : Node × Nat × State :=
  let r : Reference := ⟨⟨st.used + 1, i, j⟩, index, name⟩
  (.reference r, j, { st.count with references := st.references ++ [r] })

/-- The offset after the digits that start at `i`. -/
def digitsEnd (s : Bytes) (i : Nat) : Reads Nat :=
  if _h : i < s.length then do
    if Ascii.isDigit (← byteAt s i) then digitsEnd s (i + 1) else pure i
  else pure i
termination_by s.length - i

section Nodes

variable (flags : Flags) (total : Nat) (s : Bytes)

/-- The reference by name whose backslash is at `i`, if there is one. -/
def named (st : State) (i : Nat) : Reads (Option (Node × Nat × State)) := do
  let left ← suffix s (i + 2)
  if [Ascii.less].isPrefixOf left then
    match left.idxOf? Ascii.greater with
    | none => fault i .unclosedReference
    | some stop =>
      let name ← slice s (i + 3) (i + 2 + stop)
      pure (some (st.refer i (i + 2 + stop + 1) 0 name))
  else if flags.unicode then fault i .invalidNamedReference
  else pure none

/-- The reference by number whose backslash is at `i`, if the group is one of `total`. -/
def numeric (st : State) (i : Nat) : Reads (Option (Node × Nat × State)) := do
  let j ← digitsEnd s (i + 1)
  let digits ← slice s (i + 1) j
  match (number? digits).filter (· ≤ total) with
  | some n => pure (some (st.refer i j n []))
  | none => if flags.unicode then fault i (.undefinedGroup digits) else pure none

/-- The character escape whose backslash is at `i`. -/
def char (st : State) (i : Nat) : Reads (Node × Nat × State) :=
  (charEscape flags.unicode s i).map fun c => st.leaf i c.2 (.char c.1)

/-- The escape whose backslash is at `i` if it names no group: a property, a reference by number or
a character. -/
def unnamed (st : State) (i : Nat) : Reads (Node × Nat × State) := do
  match ← property flags.unicode s i with
  | some p => pure (st.leaf i p.2 (.property p.1))
  | none =>
    let e ← byteAt s (i + 1)
    if Ascii.isDigit e && e != Ascii.byte '0' then
      match ← numeric flags total s st i with
      | some r => pure r
      | none => char flags s st i
    else char flags s st i

/-- What the backslash at `i` starts, outside of classes. -/
def escape (st : State) (i : Nat) : Reads (Node × Nat × State) :=
  if s.length ≤ i + 1 then fault i .trailingBackslash
  else do
    match ← classEscape s i with
    | some k => pure (st.leaf i (i + 2) (.escape k))
    | none =>
      let e ← byteAt s (i + 1)
      if e = Ascii.byte 'b' then pure (st.anchor i (i + 2) .wordBoundary)
      else if e = Ascii.byte 'B' then pure (st.anchor i (i + 2) .nonWordBoundary)
      else if e = Ascii.byte 'k' then
        match ← named flags s st i with
        | some r => pure r
        | none => unnamed flags total s st i
      else unnamed flags total s st i

/-- The group whose parenthesis is at `i`; `choices` reads its body. -/
def group (choices : Nat → State → Reads (Node × Nat × State)) (st : State) (i : Nat) :
    Reads (Node × Nat × State) := do
  let o ← opening s (st.names.map (·.1)) i
  let inner := st.enter o.1 o.2.1
  let body ← choices o.2.2 inner
  if s.length ≤ body.2.1 then fault body.2.1 .unclosedGroup
  else
    let index := if o.1 = .capture then inner.captures else 0
    pure (.group ⟨⟨body.2.2.used + 1, i, body.2.1 + 1⟩, o.1, index, o.2.1⟩ body.1,
      body.2.1 + 1, body.2.2.count)

/-- The thing at `i` that may be repeated. -/
def atom (choices : Nat → State → Reads (Node × Nat × State)) (st : State) (i : Nat) :
    Reads (Node × Nat × State) := do
  let b ← byteAt s i
  let char : Reads (Node × Nat × State) :=
    (charAt s i).map fun d => st.leaf i (i + d.2) (.char d.1)
  match b with
  | Ascii.openParen => group s choices st i
  | Ascii.openBracket =>
    let k ← bracket flags.unicode s st.used i
    pure ({ st with used := k.2.1 }.leaf i k.2.2 (.charClass k.1))
  | Ascii.dot => pure (st.leaf i (i + 1) .dot)
  | Ascii.caret => pure (st.anchor i (i + 1) .start)
  | Ascii.dollar => pure (st.anchor i (i + 1) .stop)
  | Ascii.backslash => escape flags total s st i
  | Ascii.star => fault i .nothingToRepeat
  | Ascii.plus => fault i .nothingToRepeat
  | Ascii.question => fault i .nothingToRepeat
  | Ascii.openBrace =>
    match quantifier s i with
    | .ok (some _) => fault i .nothingToRepeat
    | .ok none | .error (.fault _ _) => if flags.unicode then fault i .loneBrace else char
    | .error stop => .error stop
  | Ascii.closeBrace => if flags.unicode then fault i (.loneCloser b) else char
  | Ascii.closeBracket => if flags.unicode then fault i (.loneCloser b) else char
  | _ => char

/-- An atom, and the count that follows it. -/
def term (choices : Nat → State → Reads (Node × Nat × State)) (st : State) (i : Nat) :
    Reads (Node × Nat × State) := do
  let a ← atom flags total s choices st i
  match ← quantifier s a.2.1 with
  | none => pure a
  | some (c, w) =>
    match a.1 with
    | .anchor site _ =>
      let text ← slice s site.start site.stop
      fault a.2.1 (.repeatedAnchor text)
    | n =>
      if Parser.isRepeatable flags n then
        pure (.quantifier ⟨⟨a.2.2.used + 1, i, a.2.1 + w⟩, c⟩ n, a.2.1 + w, a.2.2.count)
      else fault a.2.1 .repeatedLookaround

/-- Whether an alternative ends at `i`. -/
def ends (i : Nat) : Reads Bool :=
  if i < s.length then
    (byteAt s i).map fun b => b == Ascii.pipe || b == Ascii.closeParen
  else .ok true

mutual

/-- The alternatives from `i` on, after those that started at `start`. -/
def choices : (calls start i : Nat) → List Node → State → Reads (Node × Nat × State)
  | 0, _, _, _, _ => .error .exhausted
  | n + 1, start, i, before, st => do
    let last ← sequence n i i [] st
    if ← isAt s last.2.1 Ascii.pipe then
      choices n start (last.2.1 + 1) (before ++ [last.1]) last.2.2
    else
      match before with
      | [] => pure last
      | _ :: _ =>
        pure (.alternation ⟨last.2.2.used + 1, start, last.2.1⟩ (before ++ [last.1]), last.2.1,
          last.2.2.count)

/-- The elements from `i` on, after those that started at `start`. -/
def sequence : (calls start i : Nat) → List Node → State → Reads (Node × Nat × State)
  | 0, _, _, _, _ => .error .exhausted
  | n + 1, start, i, before, st => do
    if ← ends s i then
      match before with
      | [only] => pure (only, i, st)
      | _ => pure (.sequence ⟨st.used + 1, start, i⟩ before, i, st.count)
    else
      let t ← term flags total s (fun j st => choices n j j [] st) st i
      sequence n start t.2.1 (before ++ [t.1]) t.2.2

end

end Nodes

/-! ## 6. The whole source

Groups are counted before the first node is read, since a number after a backslash is a reference
only if there is a group for it. -/

/-- Counts the capture groups that open from `i` on. -/
def countFrom (s : Bytes) : (calls : Nat) → (inClass : Bool) → (i count : Nat) → Reads Nat
  | 0, _, _, _ => .error .exhausted
  | n + 1, inClass, i, count =>
    if s.length ≤ i then pure count
    else do
      match ← byteAt s i with
      | Ascii.backslash => countFrom s n inClass (i + 2) count
      | Ascii.openBracket => countFrom s n true (i + 1) count
      | Ascii.closeBracket => countFrom s n false (i + 1) count
      | Ascii.openParen =>
        if inClass then countFrom s n inClass (i + 1) count
        else
          let left ← suffix s (i + 1)
          countFrom s n inClass (i + 1) (if Lexer.opensCapture left then count + 1 else count)
      | _ => countFrom s n inClass (i + 1) count

/-- The number of capture groups of a source. -/
def countCaptures (s : Bytes) : Reads Nat := countFrom s (s.length + 1) false 0 0

/-- As many calls as are ever nested in a source. -/
def enough (s : Bytes) : Nat := 2 * s.length + 2

end Descent

mutual

/-- The tree with each reference by name to the group that has the name. -/
def Node.targeting (resolve : Bytes → Nat) : Node → Node
  | .atom a => .atom a
  | .anchor s k => .anchor s k
  | .reference r =>
    .reference (if r.name.isEmpty then r else { r with index := resolve r.name })
  | .group g body => .group g (body.targeting resolve)
  | .quantifier q body => .quantifier q (body.targeting resolve)
  | .sequence s ns => .sequence s (Node.targetingAll resolve ns)
  | .alternation s ns => .alternation s (Node.targetingAll resolve ns)

/-- The same for several trees. -/
def Node.targetingAll (resolve : Bytes → Nat) : List Node → List Node
  | [] => []
  | n :: ns => n.targeting resolve :: Node.targetingAll resolve ns

end

namespace Descent

/-- The pattern a source denotes. -/
def parse (source : Bytes) (flags : Flags) : Reads Pattern := do
  let total ← countCaptures source
  let r ← choices flags total source (enough source) 0 0 [] .initial
  if r.2.1 < source.length then fault r.2.1 .unmatchedParen
  else
    match r.2.2.references.find? fun ref =>
        !ref.name.isEmpty && (r.2.2.names.lookup ref.name).isNone with
    | some ref => fault ref.site.start (.undefinedName ref.name)
    | none =>
      pure ⟨source, flags, r.1.targeting fun name => (r.2.2.names.lookup name).getD 0,
        r.2.2.captures⟩

end Descent

end Backtrack
