/-
# Reading tokens

A source is cut into lexemes from left to right.  What a byte means depends only on the flags,
on how many capture groups the source opens (`countCaptures`), on the group names met so far
and on whether the lexeme before it can be repeated; so one lexeme is read by a plain function
of the bytes that are left, `lexeme`, and `scan` repeats it.

A reader of one unit returns the width of what it read.  The next unit starts after at least
one byte in any case, so every loop here ends because the bytes left get fewer, whatever the
readers return.

Reading stops at the first fault.  The lexemes before it are returned with it: a fault of the
tree (an unmatched parenthesis, say) that comes earlier in the source has to be reported first.
-/
import Backtrack.Pattern.SyntaxError
import Backtrack.Pattern.Token
import Backtrack.Unicode.Property

namespace Backtrack.Lexer

/-- Something wrong at a byte; readers of a unit count from the start of the unit. -/
structure Fault where
  offset : Nat
  cause : SyntaxCause
deriving Repr, DecidableEq

/-! ## 1. Capture groups of a source

A numeric reference is one only if the group exists, and it may exist further on.  So the
groups are counted beforehand: every unescaped `(` outside of brackets that is not followed by
`?`, or by `?<` without `=` or `!`. -/

/-- Whether a parenthesis followed by these bytes captures. -/
def opensCapture : Bytes → Bool
  | Ascii.question :: Ascii.less :: Ascii.equals :: _ => false
  | Ascii.question :: Ascii.less :: Ascii.exclamation :: _ => false
  | Ascii.question :: Ascii.less :: _ => true
  | Ascii.question :: _ => false
  | _ => true

/-- Counts the capture groups that open in the bytes left. -/
def countCapturesFrom (inClass : Bool) : Bytes → Nat
  | [] => 0
  | Ascii.backslash :: rest =>
    match rest with
    | [] => 0
    | _ :: rest => countCapturesFrom inClass rest
  | Ascii.openBracket :: rest => countCapturesFrom true rest
  | Ascii.closeBracket :: rest => countCapturesFrom false rest
  | Ascii.openParen :: rest =>
    (if !inClass && opensCapture rest then 1 else 0) + countCapturesFrom inClass rest
  | _ :: rest => countCapturesFrom inClass rest

/-- The number of capture groups a source opens. -/
def countCaptures (source : Bytes) : Nat := countCapturesFrom false source

/-! ## 2. Escapes -/

/-- The family of a class escape by its letter. -/
def classEscape? (b : UInt8) : Option ClassEscape :=
  if b = Ascii.byte 'd' then some ⟨.digit, false⟩
  else if b = Ascii.byte 'D' then some ⟨.digit, true⟩
  else if b = Ascii.byte 'w' then some ⟨.word, false⟩
  else if b = Ascii.byte 'W' then some ⟨.word, true⟩
  else if b = Ascii.byte 's' then some ⟨.space, false⟩
  else if b = Ascii.byte 'S' then some ⟨.space, true⟩
  else none

/-- A property escape whose letter is `b`, when the flags make it one.  The width counts from
the backslash on. -/
def property? (unicode : Bool) (b : UInt8) (rest : Bytes) :
    Option (Except Fault (PropertyEscape × Nat)) :=
  if unicode && (b = Ascii.byte 'p' || b = Ascii.byte 'P') then
    some <|
      match rest with
      | Ascii.openBrace :: more =>
        match Ascii.cut? Ascii.closeBrace more with
        | none => .error ⟨0, .unclosedProperty⟩
        | some (name, _) =>
          if (Unicode.lookup? name.toText).isSome then
            .ok (⟨name.toText, b = Ascii.byte 'P'⟩, name.length + 4)
          else .error ⟨3, .unknownProperty name⟩
      | _ => .error ⟨0, .invalidProperty⟩
  else none

/-- What the letter of a control escape stands for, other characters themselves. -/
def controlValue (c : Nat) : Nat :=
  if c = 'f'.toNat then 0x0C
  else if c = 'n'.toNat then 0x0A
  else if c = 'r'.toNat then 0x0D
  else if c = 't'.toNat then 0x09
  else if c = 'v'.toNat then 0x0B
  else c

/-- The number written by exactly `n` hexadecimal digits. -/
def hexDigits? (n : Nat) (s : Bytes) : Option Nat :=
  if s.length < n then none else Ascii.hexNumber? (s.take n)

/-- A number written in octal, of at most `digits` digits and at most `0o377`, with the number
of digits it takes. -/
def octal : (digits value : Nat) → Bytes → Nat × Nat
  | 0, v, _ => (v, 0)
  | _ + 1, v, [] => (v, 0)
  | n + 1, v, b :: rest =>
    if Ascii.isOctal b && v * 8 + (b.toNat - 0x30) ≤ 0o377 then
      let r := octal n (v * 8 + (b.toNat - 0x30)) rest
      (r.1, r.2 + 1)
    else (v, 0)

/-- A character given by number, if the letter `c` and the bytes after it spell one.  The width
counts from the letter on. -/
def numbered? (unicode : Bool) (c : Nat) (rest : Bytes) :
    Option (Except SyntaxCause (Nat × Nat)) :=
  if c = 'x'.toNat then (hexDigits? 2 rest).map fun v => .ok (v, 3)
  else if c = 'u'.toNat then
    match unicode, rest with
    | true, Ascii.openBrace :: more =>
      match Ascii.cut? Ascii.closeBrace more with
      | none => some (.error .invalidUnicodeEscape)
      | some (digits, _) =>
        match Ascii.hexNumber? digits with
        | some v =>
          if v ≤ maxCodePoint then some (.ok (v, digits.length + 3))
          else some (.error .invalidUnicodeEscape)
        | none => some (.error .invalidUnicodeEscape)
    | _, _ => (hexDigits? 4 rest).map fun v => .ok (v, 5)
  else if c = 'c'.toNat then
    match rest with
    | b :: _ => if Ascii.isLetter b then some (.ok (b.toNat % 32, 2)) else none
    | [] => none
  else if c = '0'.toNat then
    match rest with
    | b :: _ => if Ascii.isDigit b then none else some (.ok (0, 1))
    | [] => some (.ok (0, 1))
  else none

/-- The character of an escape whose backslash is followed by `b :: rest`, with the width from
the backslash on. -/
def charEscape (unicode : Bool) (b : UInt8) (rest : Bytes) : Except SyntaxCause (Nat × Nat) :=
  let d := Utf8.decode b rest
  let c := d.1
  match numbered? unicode c (rest.drop (d.2 - 1)) with
  | some (.ok r) => .ok (r.1, r.2 + 1)
  | some (.error e) => .error e
  | none =>
    if Ascii.isDigit b && unicode then .error .invalidDecimalEscape
    else if Ascii.isOctal b then
      let r := octal 3 0 (b :: rest)
      .ok (r.1, r.2 + 1)
    else if unicode && Ascii.isLetter b && controlValue c == c then .error (.invalidEscape c)
    else .ok (controlValue c, d.2 + 1)

/-! ## 3. Classes -/

/-- One member of a class. -/
inductive Member where
  | char (c : Nat)
  | escape (e : ClassEscape)
  | property (p : PropertyEscape)
deriving Repr, DecidableEq

/-- The member at `b :: rest` and its width. -/
def member (unicode : Bool) (b : UInt8) (rest : Bytes) : Except Fault (Member × Nat) :=
  if b ≠ Ascii.backslash then
    let d := Utf8.decode b rest
    .ok (.char d.1, d.2)
  else
    match rest with
    | [] => .error ⟨0, .trailingBackslash⟩
    | e :: more =>
      match classEscape? e with
      | some k => .ok (.escape k, 2)
      | none =>
        match property? unicode e more with
        | some (.ok p) => .ok (.property p.1, p.2)
        | some (.error f) => .error f
        | none =>
          if e = Ascii.byte 'b' then .ok (.char 0x08, 2)
          else if e = Ascii.minus then .ok (.char 0x2D, 2)
          else
            match charEscape unicode e more with
            | .ok c => .ok (.char c.1, c.2)
            | .error cause => .error ⟨0, cause⟩

/-- Adds one to the nodes a class has introduced so far and gives the newest its site. -/
def siteIn (nodes start width : Nat) : Site := ⟨nodes + 1, start, start + width⟩

/-- The members of a class up to its closing bracket, added to what was read of it before.
Returns the class, the number of nodes its members introduced and where it stops.

A range whose upper end turns out to be an escape is no range: the escape is read a second time
on its own, and the node it introduced the first time is lost. -/
def classBody (unicode : Bool) (pos nodes : Nat) (k : CharClass) :
    Bytes → Except Fault (CharClass × Nat × Nat)
  | [] => .error ⟨pos, .unclosedClass⟩
  | b :: rest =>
    if b = Ascii.closeBracket then .ok (k, nodes, pos + 1)
    else
      match member unicode b rest with
      | .error f => .error ⟨pos + f.offset, f.cause⟩
      | .ok (.escape e, w) =>
        classBody unicode (pos + w) (nodes + 1)
          { k with escapes := k.escapes ++ [(siteIn nodes pos w, e)] } (rest.drop (w - 1))
      | .ok (.property p, w) =>
        classBody unicode (pos + w) (nodes + 1)
          { k with properties := k.properties ++ [(siteIn nodes pos w, p)] } (rest.drop (w - 1))
      | .ok (.char c, w) =>
        let single : CharClass := { k with ranges := k.ranges ++ [⟨c, c⟩] }
        match _h : rest.drop (w - 1) with
        | Ascii.minus :: x :: more =>
          if x = Ascii.closeBracket then
            classBody unicode (pos + w) nodes single (Ascii.minus :: x :: more)
          else
            match member unicode x more with
            | .error f => .error ⟨pos + w + 1 + f.offset, f.cause⟩
            | .ok (.char d, v) =>
              if d < c then .error ⟨pos, .classRangeOutOfOrder⟩
              else
                classBody unicode (pos + w + 1 + v) nodes
                  { k with ranges := k.ranges ++ [⟨c, d⟩] } (more.drop (v - 1))
            | .ok (_, _) =>
              if unicode then .error ⟨pos + w, .invalidClassRange⟩
              else classBody unicode (pos + w) (nodes + 1) single (Ascii.minus :: x :: more)
        | left => classBody unicode (pos + w) nodes single left
termination_by s => s.length
decreasing_by
  all_goals
    simp only [List.length_drop, List.length_cons]
    try have := congrArg List.length _h
    try simp only [List.length_drop, List.length_cons] at this
    omega

/-- The class that opens at `pos` and whose bracket is followed by `rest`. -/
def charClass (unicode : Bool) (pos : Nat) (rest : Bytes) :
    Except Fault (CharClass × Nat × Nat) :=
  match rest with
  | Ascii.caret :: more => classBody unicode (pos + 2) 0 ⟨true, [], [], []⟩ more
  | _ => classBody unicode (pos + 1) 0 ⟨false, [], [], []⟩ rest

/-! ## 4. Groups -/

/-- Whether glyphs spell a group name: letters, digits, `_`, `$` and everything beyond ASCII,
the first no digit. -/
def isGroupName (name : Bytes) : Bool :=
  let isStart (c : Nat) : Bool :=
    c == '_'.toNat || c == '$'.toNat || c ≥ 0x80 || Ascii.isLetter (UInt8.ofNat c)
  match Utf8.glyphs name with
  | [] => false
  | g :: rest =>
    isStart g.value && rest.all fun h => isStart h.value || Ascii.isDigit (UInt8.ofNat h.value)

/-- The opening whose parenthesis is followed by `rest`, with its width. -/
def opening (names : List Bytes) (rest : Bytes) : Except Fault (GroupKind × Bytes × Nat) :=
  match rest with
  | Ascii.question :: Ascii.colon :: _ => .ok (.nonCapture, [], 3)
  | Ascii.question :: Ascii.equals :: _ => .ok (.lookahead, [], 3)
  | Ascii.question :: Ascii.exclamation :: _ => .ok (.negativeLookahead, [], 3)
  | Ascii.question :: Ascii.less :: Ascii.equals :: _ => .ok (.lookbehind, [], 4)
  | Ascii.question :: Ascii.less :: Ascii.exclamation :: _ => .ok (.negativeLookbehind, [], 4)
  | Ascii.question :: Ascii.less :: more =>
    match Ascii.cut? Ascii.greater more with
    | none => .error ⟨1, .unclosedGroupName⟩
    | some (name, _) =>
      if !isGroupName name then .error ⟨3, .invalidGroupName name⟩
      else if names.contains name then .error ⟨3, .duplicateGroupName name⟩
      else .ok (.capture, name, name.length + 4)
  | Ascii.question :: _ => .error ⟨1, .invalidGroup⟩
  | _ => .ok (.capture, [], 1)

/-! ## 5. Counts -/

/-- The largest number there is stands for no bound at all. -/
def bound (n : Nat) : Option Nat := if n + 1 = numberLimit then none else some n

/-- The bounds between braces, given the bytes after the opening one; `none` if they are not
of the form `m}`, `m,}` or `m,n}`.  The width counts both braces. -/
def braces? (rest : Bytes) : Except SyntaxCause (Option (Nat × Option Nat × Nat)) :=
  match Ascii.cut? Ascii.closeBrace rest with
  | none => .ok none
  | some (inner, _) =>
    let parts := (Ascii.cut? Ascii.comma inner).map fun p => (p.1, some p.2)
    let least := (parts.getD (inner, none)).1
    let most := (parts.getD (inner, none)).2
    if !Ascii.isDecimal least then .ok none
    else
      match number? least with
      | none => .error (.braceNumberTooLarge least)
      | some m =>
        match most with
        | none => .ok (some (m, bound m, inner.length + 2))
        | some [] => .ok (some (m, none, inner.length + 2))
        | some digits =>
          if !Ascii.isDecimal digits then .ok none
          else
            match number? digits with
            | none => .error (.braceNumberTooLarge digits)
            | some n =>
              if n < m then .error .bracesOutOfOrder
              else .ok (some (m, bound n, inner.length + 2))

/-- The bounds at `b :: rest` and their width, if there are any. -/
def bounds? (b : UInt8) (rest : Bytes) : Except SyntaxCause (Option (Nat × Option Nat × Nat)) :=
  match b with
  | Ascii.plus => .ok (some (1, none, 1))
  | Ascii.star => .ok (some (0, none, 1))
  | Ascii.question => .ok (some (0, some 1, 1))
  | Ascii.openBrace => braces? rest
  | _ => .ok none

/-- The count at `b :: rest` and its width, if there is one; a `?` after it makes it lazy. -/
def count? (b : UInt8) (rest : Bytes) : Except SyntaxCause (Option (Count × Nat)) :=
  match bounds? b rest with
  | .error e => .error e
  | .ok none => .ok none
  | .ok (some (m, n, w)) =>
    if (rest.drop (w - 1)).head? = some Ascii.question then .ok (some (⟨m, n, true⟩, w + 1))
    else .ok (some (⟨m, n, false⟩, w))

/-! ## 6. Lexemes -/

/-- What a lexeme is made of: its token, the nodes it introduces, its width. -/
structure Reading where
  token : Token
  nodes : Nat
  width : Nat
deriving Repr, DecidableEq

/-- The escape whose backslash is followed by `rest`, outside of classes. -/
def escape (flags : Flags) (captures : Nat) (rest : Bytes) : Except Fault Reading :=
  match rest with
  | [] => .error ⟨0, .trailingBackslash⟩
  | e :: more =>
    let char : Except Fault Reading :=
      match charEscape flags.unicode e more with
      | .ok c => .ok ⟨.leaf (.char c.1), 1, c.2⟩
      | .error cause => .error ⟨0, cause⟩
    match classEscape? e with
    | some k => .ok ⟨.leaf (.escape k), 1, 2⟩
    | none =>
      if e = Ascii.byte 'b' then .ok ⟨.anchor .wordBoundary, 1, 2⟩
      else if e = Ascii.byte 'B' then .ok ⟨.anchor .nonWordBoundary, 1, 2⟩
      else if e = Ascii.byte 'k' then
        match more with
        | Ascii.less :: name =>
          match Ascii.cut? Ascii.greater name with
          | none => .error ⟨0, .unclosedReference⟩
          | some (name, _) => .ok ⟨.reference 0 name, 1, name.length + 4⟩
        | _ => if flags.unicode then .error ⟨0, .invalidNamedReference⟩ else char
      else
        match property? flags.unicode e more with
        | some (.ok p) => .ok ⟨.leaf (.property p.1), 1, p.2⟩
        | some (.error f) => .error f
        | none =>
          if Ascii.isDigit e && e != Ascii.byte '0' then
            let digits := (e :: more).takeWhile Ascii.isDigit
            match (number? digits).filter (· ≤ captures) with
            | some n => .ok ⟨.reference n [], 1, digits.length + 1⟩
            | none =>
              if flags.unicode then .error ⟨0, .undefinedGroup digits⟩ else char
          else char

/-- The lexeme that starts afresh at `b :: rest`. -/
def fresh (flags : Flags) (captures : Nat) (names : List Bytes) (pos : Nat) (b : UInt8)
    (rest : Bytes) : Except Fault Reading :=
  let char : Except Fault Reading :=
    let d := Utf8.decode b rest
    .ok ⟨.leaf (.char d.1), 1, d.2⟩
  match b with
  | Ascii.openParen =>
    match opening names rest with
    | .ok (kind, name, w) => .ok ⟨.opening kind name, 0, w⟩
    | .error f => .error f
  | Ascii.closeParen => .ok ⟨.closing, 0, 1⟩
  | Ascii.pipe => .ok ⟨.bar, 0, 1⟩
  | Ascii.openBracket =>
    match charClass flags.unicode pos rest with
    | .ok (k, nodes, stop) => .ok ⟨.leaf (.charClass k), nodes + 1, stop - pos⟩
    | .error f => .error ⟨f.offset - pos, f.cause⟩
  | Ascii.dot => .ok ⟨.leaf .dot, 1, 1⟩
  | Ascii.caret => .ok ⟨.anchor .start, 1, 1⟩
  | Ascii.dollar => .ok ⟨.anchor .stop, 1, 1⟩
  | Ascii.backslash => escape flags captures rest
  | Ascii.star => .error ⟨0, .nothingToRepeat⟩
  | Ascii.plus => .error ⟨0, .nothingToRepeat⟩
  | Ascii.question => .error ⟨0, .nothingToRepeat⟩
  | Ascii.openBrace =>
    match braces? rest with
    | .ok (some _) => .error ⟨0, .nothingToRepeat⟩
    | _ => if flags.unicode then .error ⟨0, .loneBrace⟩ else char
  | Ascii.closeBrace => if flags.unicode then .error ⟨0, .loneCloser b⟩ else char
  | Ascii.closeBracket => if flags.unicode then .error ⟨0, .loneCloser b⟩ else char
  | _ => char

/-- What stands before a lexeme, as far as repeating it is concerned. -/
inductive Before where
  | nothing
  | anchor (k : Anchor)
  | repeatable
deriving Repr, DecidableEq

/-- What a token is to the lexeme after it. -/
def Before.of : Token → Before
  | .leaf _ => .repeatable
  | .reference _ _ => .repeatable
  | .closing => .repeatable
  | .anchor k => .anchor k
  | .opening _ _ => .nothing
  | .bar => .nothing
  | .count _ => .nothing

/-- The lexeme at `b :: rest`.  After something that can be repeated a count comes first. -/
def lexeme (flags : Flags) (captures : Nat) (names : List Bytes) (pos : Nat) (before : Before)
    (b : UInt8) (rest : Bytes) : Except Fault Reading :=
  match before with
  | .nothing => fresh flags captures names pos b rest
  | .anchor k =>
    match count? b rest with
    | .error cause => .error ⟨0, cause⟩
    | .ok (some _) => .error ⟨0, .repeatedAnchor k.text⟩
    | .ok none => fresh flags captures names pos b rest
  | .repeatable =>
    match count? b rest with
    | .error cause => .error ⟨0, cause⟩
    | .ok (some (c, w)) => .ok ⟨.count c, 1, w⟩
    | .ok none => fresh flags captures names pos b rest

/-- The group names met so far, after one more token. -/
def namesAfter (names : List Bytes) : Token → List Bytes
  | .opening .capture name => if name.isEmpty then names else name :: names
  | _ => names

/-- The lexemes of the bytes left, and the fault that ends them early. -/
def scan (flags : Flags) (captures pos : Nat) (names : List Bytes) (before : Before) :
    Bytes → List Lexeme × Option Fault
  | [] => ([], none)
  | b :: rest =>
    match lexeme flags captures names pos before b rest with
    | .error f => ([], some ⟨pos + f.offset, f.cause⟩)
    | .ok r =>
      let later := scan flags captures (pos + r.width) (namesAfter names r.token)
        (Before.of r.token) (rest.drop (r.width - 1))
      (⟨pos, pos + r.width, r.nodes, r.token⟩ :: later.1, later.2)
termination_by s => s.length
decreasing_by simp only [List.length_drop, List.length_cons]; omega

/-- The lexemes of a source, and the fault that ends them early. -/
def lexemes (flags : Flags) (source : Bytes) : List Lexeme × Option Fault :=
  scan flags (countCaptures source) 0 [] .nothing source

end Backtrack.Lexer
