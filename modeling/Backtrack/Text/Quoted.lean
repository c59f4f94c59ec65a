/-
# Quoted text

Messages show sources and names between quotes, on one line and in plain characters: the quote
and the backslash after a backslash, the usual control characters by a letter, other
unprintable code points by number, stray bytes by their value.
-/
import Backtrack.Unicode.Printable

namespace Backtrack.Quoted

/-- The letter of a control character that has one. -/
def letter? (c : Nat) : Option Char :=
  match c with
  | 0x07 => some 'a'
  | 0x08 => some 'b'
  | 0x09 => some 't'
  | 0x0A => some 'n'
  | 0x0B => some 'v'
  | 0x0C => some 'f'
  | 0x0D => some 'r'
  | _ => none

/-- A code point between quotes of the given kind. -/
def point (quote : Char) (c : Nat) : String :=
  if c = quote.toNat ∨ c = 0x5C then String.ofList ['\\', Char.ofNat c]
  else if Unicode.isPrintable c then String.singleton (Char.ofNat c)
  else
    match letter? c with
    | some l => String.ofList ['\\', l]
    | none =>
      if c < 0x20 ∨ c = 0x7F then "\\x" ++ Ascii.lowerHex 2 c
      else if c < 0x10000 then "\\u" ++ Ascii.lowerHex 4 c
      else "\\U" ++ Ascii.lowerHex 8 c

/-- A glyph of quoted text; a stray byte is written by its value. -/
def glyph (g : Utf8.Glyph) : String :=
  if g.isStray then "\\x" ++ String.join (g.bytes.map fun b => Ascii.lowerHex 2 b.toNat)
  else point '"' g.value

/-- A byte string between double quotes. -/
def text (s : Bytes) : String :=
  "\"" ++ String.join ((Utf8.glyphs s).map glyph) ++ "\""

/-- A single code point between single quotes. -/
def character (c : Nat) : String := "'" ++ point '\'' c ++ "'"

end Backtrack.Quoted
