/-
# Painters

How a text comes out in colours is not decided here: that is done by a *painter*, which is
handed the attributes of the text and told whether there are colours at all.  Reports take the
painter as a parameter.  `Painter.terminal` is the one that writes the codes of a terminal.
-/
import Backtrack.Text.Utf8

namespace Backtrack

/-- What a text can look like. -/
inductive Attribute where
  | green
  | red
  | yellow
  | cyan
  | magenta
  | bold
  | faint
deriving Repr, DecidableEq

/-- Prints a text with some attributes, if colours are enabled. -/
abbrev Painter := (enabled : Bool) → List Attribute → Bytes → Bytes

/-- The code of an attribute on a terminal. -/
def Attribute.code : Attribute → String
  | green => "32"
  | red => "31"
  | yellow => "33"
  | cyan => "36"
  | magenta => "35"
  | bold => "1"
  | faint => "2"

/-- What a terminal is sent to switch attributes on. -/
def terminalOn (attributes : List Attribute) : Bytes :=
  Bytes.ofString ("\x1b[" ++ String.intercalate ";" (attributes.map Attribute.code) ++ "m")

/-- What a terminal is sent to switch all attributes off. -/
def terminalOff : Bytes := Bytes.ofString "\x1b[0m"

/-- The painter for terminals. -/
def Painter.terminal : Painter := fun enabled attributes text =>
  if enabled then terminalOn attributes ++ text ++ terminalOff else text

end Backtrack
