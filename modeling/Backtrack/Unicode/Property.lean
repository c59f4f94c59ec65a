/-
# Property names

The names a property escape may use: general categories with their long names, scripts, the
two special names `Any` and `ASCII`, and binary properties.  A name may also be qualified, as
`General_Category=`, `gc=`, `Script=`, `sc=`, `Script_Extensions=` or `scx=` in front of a
value; script extensions are read as scripts.

A name resolves to the table of all code points with the property (Unicode 17); a name that is
none of these resolves to nothing.
-/
import Backtrack.Unicode.BinaryProperties
import Backtrack.Unicode.Letters
import Backtrack.Unicode.Marks
import Backtrack.Unicode.Scripts
import Backtrack.Unicode.Unassigned

namespace Backtrack.Unicode

/-! ## 1. Names -/

/-- General categories by their short names. -/
def categories : List (String × Table) := [
  ("C", other), ("Cc", control), ("Cf", format), ("Cn", unassigned), ("Co", privateUse),
  ("Cs", surrogate), ("L", letter), ("LC", casedLetter), ("Ll", lowercaseLetter),
  ("Lm", modifierLetter), ("Lo", otherLetter), ("Lt", titlecaseLetter), ("Lu", uppercaseLetter),
  ("M", mark), ("Mc", spacingMark), ("Me", enclosingMark), ("Mn", nonspacingMark), ("N", number),
  ("Nd", decimalNumber), ("Nl", letterNumber), ("No", otherNumber), ("P", punctuation),
  ("Pc", connectorPunctuation), ("Pd", dashPunctuation), ("Pe", closePunctuation),
  ("Pf", finalPunctuation), ("Pi", initialPunctuation), ("Po", otherPunctuation),
  ("Ps", openPunctuation), ("S", symbol), ("Sc", currencySymbol), ("Sk", modifierSymbol),
  ("Sm", mathSymbol), ("So", otherSymbol), ("Z", separator), ("Zl", lineSeparator),
  ("Zp", paragraphSeparator), ("Zs", spaceSeparator)]

/-- The long names of general categories and the short names they stand for. -/
def categoryAliases : List (String × String) := [
  ("Letter", "L"), ("Cased_Letter", "LC"), ("Uppercase_Letter", "Lu"), ("Lowercase_Letter", "Ll"),
  ("Titlecase_Letter", "Lt"), ("Modifier_Letter", "Lm"), ("Other_Letter", "Lo"), ("Mark", "M"),
  ("Combining_Mark", "M"), ("Nonspacing_Mark", "Mn"), ("Spacing_Mark", "Mc"),
  ("Enclosing_Mark", "Me"), ("Number", "N"), ("Decimal_Number", "Nd"), ("digit", "Nd"),
  ("Letter_Number", "Nl"), ("Other_Number", "No"), ("Punctuation", "P"), ("punct", "P"),
  ("Connector_Punctuation", "Pc"), ("Dash_Punctuation", "Pd"), ("Open_Punctuation", "Ps"),
  ("Close_Punctuation", "Pe"), ("Initial_Punctuation", "Pi"), ("Final_Punctuation", "Pf"),
  ("Other_Punctuation", "Po"), ("Symbol", "S"), ("Math_Symbol", "Sm"), ("Currency_Symbol", "Sc"),
  ("Modifier_Symbol", "Sk"), ("Other_Symbol", "So"), ("Separator", "Z"),
  ("Space_Separator", "Zs"), ("Line_Separator", "Zl"), ("Paragraph_Separator", "Zp"),
  ("Other", "C"), ("Control", "Cc"), ("cntrl", "Cc"), ("Format", "Cf"), ("Surrogate", "Cs"),
  ("Private_Use", "Co")]

/-- The table of all code points. -/
def anyCodePoint : Table := { strides := [⟨0, maxCodePoint, 1⟩] }

/-- The table of the first 128 code points. -/
def ascii : Table := { strides := [⟨0, 0x7F, 1⟩] }

/-! ## 2. Looking a name up -/

/-- A general category by its short or long name. -/
def category? (name : String) : Option Table :=
  match categories.lookup name with
  | some t => some t
  | none => (categoryAliases.lookup name).bind (categories.lookup ·)

/-- A name without a qualifier: category, script, `Any`, `ASCII`, binary property. -/
def plain? (name : String) : Option Table :=
  match category? name with
  | some t => some t
  | none =>
    match scripts.lookup name with
    | some t => some t
    | none =>
      if name = "Any" then some anyCodePoint
      else if name = "ASCII" then some ascii
      else binaryProperties.lookup name

/-- A value below a qualifier. -/
def qualified? (qualifier value : String) : Option Table :=
  if qualifier = "General_Category" ∨ qualifier = "gc" then category? value
  else if qualifier = "Script" ∨ qualifier = "sc" ∨ qualifier = "Script_Extensions" ∨
      qualifier = "scx" then scripts.lookup value
  else none

/-- The table a property name stands for; the first `=` divides a qualifier from its value. -/
def lookup? (name : String) : Option Table :=
  match name.toList.span (· != '=') with
  | (_, []) => plain? name
  | (qualifier, _ :: value) => qualified? (String.ofList qualifier) (String.ofList value)

end Backtrack.Unicode
