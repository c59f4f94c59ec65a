/-
# Reading outlines

What was laid out by indentation and what was written between brackets are read alike, each with
tokens of its own.  A missing key, value or item is nothing at all.  Of a text only the first
document is read, and all that is checked of the rest is that its first few tokens are tokens.

The functions work with fuel.  A call either takes a token or passes on to one that does, and
there are at most a few tokens for each character, so `Outline.read` gives them more than they
can use.
-/
import Backtrack.Outline.Tokens

namespace Backtrack.Outline

/-! ## 1. The state -/

/-- What there is to read and what has been learned from what has been read. -/
structure Reader where
  tokens : Tokens
  /-- What the handles of tags stand for. -/
  handles : List (String × String) := []
  /-- The numbers of the parts with an anchor, the last one first. -/
  numbers : List (String × Nat) := []
  /-- The parts with an anchor that are complete. -/
  anchored : List (Nat × Outline) := []

namespace Reader

/-- The next token. -/
def peek (r : Reader) : Except Malformed (Token × Reader) :=
  r.tokens.peek.map fun p => (p.1, { r with tokens := p.2 })

/-- The reader after the next token. -/
def drop (r : Reader) : Reader := { r with tokens := r.tokens.drop }

/-- A fault at the next token. -/
def fail {α : Type} (r : Reader) (f : Fault) : Except Malformed α :=
  .error ⟨r.tokens.cursor.line, f⟩

/-! ## 2. Anchors and tags -/

/-- Reads an anchor, if there is one. -/
def anchor? (r : Reader) : Except Malformed (Option String × Reader) := do
  match ← r.peek with
  | (.anchor name, r) => return (some name, r.drop)
  | (_, r) => return (none, r)

/-- Reads a tag, if there is one. -/
def tag? (r : Reader) : Except Malformed (Option String × Reader) := do
  match ← r.peek with
  | (.tag "" suffix, r) => return (some suffix, r.drop)
  | (.tag handle suffix, r) =>
    match r.handles.lookup handle with
    | some meaning => return (some (meaning ++ suffix), r.drop)
    | none => r.fail .unknownTag
  | (_, r) => return (none, r)

/-- What may stand before the content of a part of an outline. -/
structure Properties where
  anchor : Option String := none
  tag : Option String := none

/-- Reads an anchor and a tag, in any order, as far as they are there. -/
def properties (r : Reader) : Except Malformed (Properties × Reader) := do
  let (before, r) ← r.anchor?
  let (tag, r) ← r.tag?
  if before.isNone && tag.isSome then
    let (after, r) ← r.anchor?
    return (⟨after, tag⟩, r)
  else return (⟨before, tag⟩, r)

/-- Whether anything was given. -/
def Properties.any (p : Properties) : Bool := p.anchor.isSome || p.tag.isSome

/-- The tag, in short form if it is one of those everybody knows.  The tag that is nothing but an
exclamation mark says nothing. -/
def Properties.shortTag (p : Properties) : Option String :=
  let known := "tag:yaml.org,2002:"
  match p.tag with
  | some "!" => none
  | some t => some (if t.startsWith known then "!!" ++ (t.drop known.length).toString else t)
  | none => none

/-- The reader after a part with an anchor has begun, so that its alias may be used in it. -/
def begin (r : Reader) (p : Properties) : Reader :=
  match p.anchor with
  | some name => { r with numbers := (name, r.numbers.length) :: r.numbers }
  | none => r

/-- The reader after a part with an anchor is complete; `number` is the one it was given. -/
def complete (r : Reader) (p : Properties) (number : Nat) (o : Outline) : Reader :=
  if p.anchor.isSome then { r with anchored := (number, o) :: r.anchored } else r

end Reader

/-! ## 3. Parts -/

/-- Whether an entry laid out by indentation has nothing before this token. -/
def endsEntry : Token → Bool
  | .key | .colon | .dedent => true
  | _ => false

/-- Whether a key between brackets has nothing before this token; `close` closes the brackets. -/
def endsKey (close t : Token) : Bool := t == .colon || t == .comma || t == close

mutual

/-- A part of an outline.  One laid out by indentation may stand here if `laidOut` says so, and a
list whose dashes are not further to the right if `below` does. -/
def node : (fuel : Nat) → (laidOut below : Bool) → Reader →
    Except Malformed (Outline × Reader)
  | 0, _, _, r => r.fail .misplaced
  | fuel + 1, laidOut, below, r => do
    match ← r.peek with
    | (.reuse name, r) =>
      match r.numbers.lookup name with
      | some number => return (.reuse name number, r.drop)
      | none => r.fail .unknownAnchor
    | (_, r) =>
      let (p, r) ← r.properties
      let (o, r') ← content fuel laidOut below p (r.begin p)
      return (o, r'.complete p r.numbers.length o)

/-- What comes after the anchor and the tag of a part. -/
def content : (fuel : Nat) → (laidOut below : Bool) → Reader.Properties → Reader →
    Except Malformed (Outline × Reader)
  | 0, _, _, _, r => r.fail .misplaced
  | fuel + 1, laidOut, below, p, r => do
    match ← r.peek with
    | (.scalar quoted text, r) => return (.scalar p.shortTag quoted text, r.drop)
    | (.openList, r) => items fuel true [] r.drop
    | (.openMapping, r) => entries fuel true [] r.drop
    | (t, r) =>
      if t == .dash && below then dashesBelow fuel [] r
      else if t == .indentList && laidOut then dashes fuel [] r.drop
      else if t == .indentMapping && laidOut then keys fuel [] r.drop
      else if p.any then return (.scalar p.shortTag false "", r)
      else r.fail .misplaced

/-- The items of a list laid out by indentation; `done` holds those before, last first. -/
def dashes : (fuel : Nat) → (done : List Outline) → Reader →
    Except Malformed (Outline × Reader)
  | 0, _, r => r.fail .misplaced
  | fuel + 1, done, r => do
    match ← r.peek with
    | (.dedent, r) => return (.list done.reverse, r.drop)
    | (.dash, r) =>
      let (t, r) ← r.drop.peek
      let (item, r) ←
        if t == .dash || t == .dedent then pure (null, r) else node fuel true false r
      dashes fuel (item :: done) r
    | (_, r) => r.fail .misplaced

/-- The items of a list with its dashes right below a key; it ends where the next key starts. -/
def dashesBelow : (fuel : Nat) → (done : List Outline) → Reader →
    Except Malformed (Outline × Reader)
  | 0, _, r => r.fail .misplaced
  | fuel + 1, done, r => do
    match ← r.peek with
    | (.dash, r) =>
      let (t, r) ← r.drop.peek
      let (item, r) ←
        if t == .dash || endsEntry t then pure (null, r) else node fuel true false r
      dashesBelow fuel (item :: done) r
    | (_, r) => return (.list done.reverse, r)

/-- The entries of a mapping laid out by indentation. -/
def keys : (fuel : Nat) → (done : List (Outline × Outline)) → Reader →
    Except Malformed (Outline × Reader)
  | 0, _, r => r.fail .misplaced
  | fuel + 1, done, r => do
    match ← r.peek with
    | (.dedent, r) => return (.mapping done.reverse, r.drop)
    | (.key, r) =>
      let (t, r) ← r.drop.peek
      let (key, r) ← if endsEntry t then pure (null, r) else node fuel true true r
      let (t, r) ← r.peek
      if t == .colon then
        let (t, r) ← r.drop.peek
        let (value, r) ← if endsEntry t then pure (null, r) else node fuel true true r
        keys fuel ((key, value) :: done) r
      else keys fuel ((key, null) :: done) r
    | (_, r) => r.fail .misplaced

/-- The items of a list between brackets; `first` says that there are none before. -/
def items : (fuel : Nat) → (first : Bool) → (done : List Outline) → Reader →
    Except Malformed (Outline × Reader)
  | 0, _, _, r => r.fail .misplaced
  | fuel + 1, first, done, r => do
    let (t, r) ← r.peek
    if t == .closeList then return (.list done.reverse, r.drop)
    else if !first && t != .comma then r.fail .misplaced
    else
      let (t, r) ← if first then pure (t, r) else r.drop.peek
      match t with
      | .closeList => return (.list done.reverse, r.drop)
      | .key =>
        let (o, r) ← pair fuel r.drop
        items fuel false (o :: done) r
      | _ =>
        let (o, r) ← node fuel false false r
        items fuel false (o :: done) r

/-- A key and a value that are an item of a list.  A missing key takes the token with it that
stands in its place. -/
def pair : (fuel : Nat) → Reader → Except Malformed (Outline × Reader)
  | 0, r => r.fail .misplaced
  | fuel + 1, r => do
    let (t, r) ← r.peek
    let (key, r) ←
      if endsKey .closeList t then pure (null, r.drop) else node fuel false false r
    let (value, r) ← bracketValue fuel .closeList r
    return (.mapping [(key, value)], r)

/-- The value of a key between brackets that are closed by `close`. -/
def bracketValue : (fuel : Nat) → (close : Token) → Reader →
    Except Malformed (Outline × Reader)
  | 0, _, r => r.fail .misplaced
  | fuel + 1, close, r => do
    let (t, r) ← r.peek
    if t == .colon then
      let (t, r) ← r.drop.peek
      if t == .comma || t == close then return (null, r) else node fuel false false r
    else return (null, r)

/-- The entries of a mapping between brackets. -/
def entries : (fuel : Nat) → (first : Bool) → (done : List (Outline × Outline)) → Reader →
    Except Malformed (Outline × Reader)
  | 0, _, _, r => r.fail .misplaced
  | fuel + 1, first, done, r => do
    let (t, r) ← r.peek
    if t == .closeMapping then return (.mapping done.reverse, r.drop)
    else if !first && t != .comma then r.fail .misplaced
    else
      let (t, r) ← if first then pure (t, r) else r.drop.peek
      match t with
      | .closeMapping => return (.mapping done.reverse, r.drop)
      | .key =>
        let (t, r) ← r.drop.peek
        let (key, r) ←
          if endsKey .closeMapping t then pure (null, r) else node fuel false false r
        let (value, r) ← bracketValue fuel .closeMapping r
        entries fuel false ((key, value) :: done) r
      | _ =>
        let (key, r) ← node fuel false false r
        entries fuel false ((key, null) :: done) r

end

/-! ## 4. Documents -/

/-- What handles stand for if nothing else was said. -/
def usualHandles : List (String × String) := [("!", "!"), ("!!", "tag:yaml.org,2002:")]

/-- Reads directives; `versioned` says whether the version has been given. -/
def directives : (fuel : Nat) → (versioned : Bool) → Reader → Except Malformed Reader
  | 0, _, r => r.fail .directive
  | fuel + 1, versioned, r => do
    match ← r.peek with
    | (.version major minor, r) =>
      if versioned || major != 1 || minor != 1 then r.fail .directive
      else directives fuel true r.drop
    | (.handle name meaning, r) =>
      if (r.handles.lookup name).isSome then r.fail .directive
      else directives fuel versioned { r.drop with handles := (name, meaning) :: r.handles }
    | (_, r) => return { r with handles := r.handles ++ usualHandles }

/-- Whether there is no document between its start and this token. -/
def endsDocument : Token → Bool
  | .version _ _ | .handle _ _ | .documentStart | .documentEnd | .textEnd => true
  | _ => false

/-- Reads the first document.  It needs no start unless it has directives. -/
def document (fuel : Nat) (r : Reader) : Except Malformed (Outline × Reader) := do
  let (t, r) ← r.peek
  if t == .textEnd then return (null, r)
  else
    let r ← directives fuel false r
    let (o, r) ←
      if endsDocument t && t != .documentEnd then do
        let (t, r) ← r.peek
        if t != .documentStart then r.fail .misplaced
        else
          let (t, r) ← r.drop.peek
          if endsDocument t then pure (null, r) else node fuel true false r
      else node fuel true false r
    let (_, r) ← r.peek
    return (o, r)

/-- The outline a text denotes. -/
def read (text : List Char) : Except Malformed Document := do
  let fuel := 8 * text.length + 16
  let (o, r) ← document fuel { tokens := .ofReadable (.ofText text) }
  return ⟨o, r.anchored, r.tokens.taken⟩

end Backtrack.Outline
