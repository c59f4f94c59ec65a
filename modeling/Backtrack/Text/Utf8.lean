/-
# Byte strings and their UTF-8 reading

A pattern is a string of bytes that need not be well formed.  Everything that reads it goes
through `decode`, which never fails: a byte that starts no well formed sequence is a *stray*
and reads as U+FFFD with a width of one byte.  So every non-empty byte string has a first
glyph, and cutting glyphs off the front ends after at most as many cuts as there are bytes.

* `Utf8.encode` writes one code point; surrogates and values beyond the last code point have
  no encoding and are written as U+FFFD.
* `Utf8.decode` reads the first code point together with its width in bytes.
* `Utf8.glyphs` cuts a whole byte string into glyphs, strays included, so that the bytes of
  the glyphs joined together are the string again (`glyphs_join`).
-/

namespace Backtrack

/-- A string of bytes, well formed UTF-8 or not. -/
abbrev Bytes := List UInt8

/-- The largest code point. -/
def maxCodePoint : Nat := 0x10FFFF

namespace Utf8

/-- What a stray byte reads as, and what a code point without an encoding is written as. -/
def replacement : Nat := 0xFFFD

/-! ## 1. Writing one code point -/

/-- The bytes of one code point. -/
def encode (c : Nat) : Bytes :=
  if c < 0x80 then [UInt8.ofNat c]
  else if c < 0x800 then [UInt8.ofNat (0xC0 + c / 0x40), UInt8.ofNat (0x80 + c % 0x40)]
  else if (0xD800 ≤ c ∧ c ≤ 0xDFFF) ∨ maxCodePoint < c then [0xEF, 0xBF, 0xBD]
  else if c < 0x10000 then
    [UInt8.ofNat (0xE0 + c / 0x1000), UInt8.ofNat (0x80 + c / 0x40 % 0x40),
      UInt8.ofNat (0x80 + c % 0x40)]
  else
    [UInt8.ofNat (0xF0 + c / 0x40000), UInt8.ofNat (0x80 + c / 0x1000 % 0x40),
      UInt8.ofNat (0x80 + c / 0x40 % 0x40), UInt8.ofNat (0x80 + c % 0x40)]

/-! ## 2. Reading the first code point -/

/-- The payload of a continuation byte, `none` for any other byte. -/
def tail? (b : UInt8) : Option Nat :=
  if 0x80 ≤ b ∧ b ≤ 0xBF then some (b.toNat - 0x80) else none

/-- The code point of a multi-byte sequence that starts with `b`, with its width.  Overlong
forms, surrogates and values beyond the last code point are refused. -/
def sequence? (b : UInt8) (rest : Bytes) : Option (Nat × Nat) :=
  if 0xC2 ≤ b ∧ b ≤ 0xDF then
    match rest with
    | x :: _ => (tail? x).map fun p => ((b.toNat - 0xC0) * 0x40 + p, 2)
    | _ => none
  else if 0xE0 ≤ b ∧ b ≤ 0xEF then
    match rest with
    | x :: y :: _ =>
      match tail? x, tail? y with
      | some p, some q =>
        let c := (b.toNat - 0xE0) * 0x1000 + p * 0x40 + q
        if c < 0x800 ∨ (0xD800 ≤ c ∧ c ≤ 0xDFFF) then none else some (c, 3)
      | _, _ => none
    | _ => none
  else if 0xF0 ≤ b ∧ b ≤ 0xF4 then
    match rest with
    | x :: y :: z :: _ =>
      match tail? x, tail? y, tail? z with
      | some p, some q, some r =>
        let c := (b.toNat - 0xF0) * 0x40000 + p * 0x1000 + q * 0x40 + r
        if c < 0x10000 ∨ maxCodePoint < c then none else some (c, 4)
      | _, _, _ => none
    | _ => none
  else none

/-- The first code point of `b :: rest` and its width in bytes. -/
def decode (b : UInt8) (rest : Bytes) : Nat × Nat :=
  if b < 0x80 then (b.toNat, 1) else (sequence? b rest).getD (replacement, 1)

/-! ## 3. Cutting a byte string into glyphs -/

/-- One unit of a byte string: a code point and the bytes it was read from. -/
structure Glyph where
  value : Nat
  bytes : Bytes
deriving Repr, DecidableEq

/-- A stray byte reads as the replacement character but is a single byte. -/
def Glyph.isStray (g : Glyph) : Bool := g.value == replacement && g.bytes.length == 1

/-- The glyphs of a byte string, in order. -/
def glyphs : Bytes → List Glyph
  | [] => []
  | b :: rest =>
    let d := decode b rest
    ⟨d.1, b :: rest.take (d.2 - 1)⟩ :: glyphs (rest.drop (d.2 - 1))
termination_by s => s.length
decreasing_by simp only [List.length_drop, List.length_cons]; omega

/-- Nothing is lost: the bytes of the glyphs are the bytes of the string. -/
theorem glyphs_join (s : Bytes) : (glyphs s).flatMap Glyph.bytes = s := by
  fun_induction glyphs s with
  | case1 => rfl
  | case2 b rest d ih => simp [ih, List.take_append_drop]

end Utf8

namespace Bytes

/-- The bytes of a text. -/
def ofString (s : String) : Bytes := s.toList.flatMap fun c => Utf8.encode c.toNat

/-- The text of a byte string, every stray byte read as U+FFFD. -/
def toText (s : Bytes) : String :=
  String.ofList ((Utf8.glyphs s).map fun g => Char.ofNat g.value)

/-- Whether `s` starts with the bytes of the text `t`. -/
def startsWith (s : Bytes) (t : String) : Bool := (ofString t).isPrefixOf s

end Bytes

end Backtrack
