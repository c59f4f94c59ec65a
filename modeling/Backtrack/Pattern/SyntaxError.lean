/-
# Why a source is no pattern

Every cause has a constructor, and the wording of all of them stands in one place, `message`.
Numbers are limited to 63 bits; the two causes that come from a number beyond that limit carry
its digits and have a second, inner text.
-/
import Backtrack.Text.Quoted

namespace Backtrack

/-- What is wrong at some place of a source. -/
inductive SyntaxCause where
  | expectedLiteral
  | unclosedLiteral
  | unknownFlag (c : Nat)
  | unmatchedParen
  | unclosedGroup
  | invalidGroup
  | unclosedGroupName
  | invalidGroupName (name : Bytes)
  | duplicateGroupName (name : Bytes)
  | nothingToRepeat
  | repeatedAnchor (text : Bytes)
  | repeatedLookaround
  | loneBrace
  | loneCloser (b : UInt8)
  | braceNumberTooLarge (digits : Bytes)
  | bracesOutOfOrder
  | unclosedClass
  | classRangeOutOfOrder
  | invalidClassRange
  | trailingBackslash
  | unclosedReference
  | invalidNamedReference
  | undefinedGroup (digits : Bytes)
  | undefinedName (name : Bytes)
  | invalidProperty
  | unclosedProperty
  | unknownProperty (name : Bytes)
  | invalidUnicodeEscape
  | invalidDecimalEscape
  | invalidEscape (c : Nat)
deriving Repr, DecidableEq

/-- Numbers in a source stay below this bound. -/
def numberLimit : Nat := 0x8000000000000000

/-- The number written by decimal digits, unless it is too large. -/
def number? (digits : Bytes) : Option Nat :=
  let n := Ascii.decimalValue digits
  if n < numberLimit then some n else none

namespace SyntaxCause

/-- The wording of a cause. -/
def message : SyntaxCause → String
  | expectedLiteral => "expected /pattern/flags"
  | unclosedLiteral => "missing closing '/'"
  | unknownFlag c => "unknown flag " ++ Quoted.character c
  | unmatchedParen => "unmatched ')'"
  | unclosedGroup => "unexpected EOS, did not find closing ')'"
  | invalidGroup => "invalid group"
  | unclosedGroupName => "did not find closing '>' of group name"
  | invalidGroupName name => "invalid group name " ++ Quoted.text name
  | duplicateGroupName name => "duplicate group name " ++ Quoted.text name
  | nothingToRepeat => "nothing to repeat"
  | repeatedAnchor text => "nothing to repeat after anchor " ++ Quoted.text text
  | repeatedLookaround => "lookaround can't be quantified"
  | loneBrace => "lone quantifier bracket"
  | loneCloser b => "lone " ++ Quoted.character b.toNat
  | braceNumberTooLarge _ => "failed to convert to number"
  | bracesOutOfOrder => "numbers out of order in \x7b\x7d quantifier"
  | unclosedClass => "unexpected EOS, did not find closing ']'"
  | classRangeOutOfOrder => "range out of order in character class"
  | invalidClassRange => "invalid character class range"
  | trailingBackslash => "unexpected EOS after '\\'"
  | unclosedReference => "did not find closing '>' of group reference"
  | invalidNamedReference => "invalid named reference"
  | undefinedGroup digits => "reference to undefined group " ++ digits.toText
  | undefinedName name => "reference to undefined group " ++ Quoted.text name
  | invalidProperty => "invalid property name"
  | unclosedProperty => "did not find closing '\x7d' of property"
  | unknownProperty name => "unknown property " ++ Quoted.text name
  | invalidUnicodeEscape => "invalid unicode escape"
  | invalidDecimalEscape => "invalid decimal escape"
  | invalidEscape c => "invalid escape \\" ++ String.singleton (Char.ofNat c)

/-- The inner text of a cause that comes from a number beyond the limit. -/
def inner? : SyntaxCause → Option String
  | braceNumberTooLarge digits => some (tooLarge digits)
  | undefinedGroup digits => if (number? digits).isNone then some (tooLarge digits) else none
  | _ => none
where
  tooLarge (digits : Bytes) : String :=
    "strconv.Atoi: parsing " ++ Quoted.text digits ++ ": value out of range"

end SyntaxCause

/-- A malformed source: what is wrong, and at which byte. -/
structure SyntaxError where
  source : Bytes
  offset : Nat
  cause : SyntaxCause
deriving Repr, DecidableEq

/-- The text of the error. -/
def SyntaxError.message (e : SyntaxError) : String :=
  "invalid pattern " ++ Quoted.text e.source ++ " at " ++ toString e.offset ++ ": " ++
    e.cause.message

end Backtrack
