/-
# What can be read of a text

A text is read window by window, and a window with a character that is not allowed cannot be
read at all.  That does not matter as long as nobody looks there: what comes after a document is
looked at only as far as it takes to see that the document has ended.

A byte order mark at the start of a text is dropped.  If there is another one, then the first
character of every line is dropped as long as that mark is in the window.
-/
import Backtrack.Outline.Cursor

namespace Backtrack.Outline

/-- The number of bytes of a window. -/
def windowSize : Nat := 512

/-- The byte order mark. -/
def byteOrderMark : Char := '\ufeff'

/-- The number of characters before the first window that cannot be read, if there is one.  The
current window starts at `start` and holds `used` bytes so far. -/
def unreadable? (start index used : Nat) : List Char → Option Nat
  | [] => none
  | c :: cs =>
    let opens := windowSize < used + c.utf8Size
    let start := if opens then index else start
    if isAllowed c then
      unreadable? start (index + 1) (if opens then c.utf8Size else used + c.utf8Size) cs
    else some start

/-- The number of characters that fit a window that holds `used` bytes. -/
def fitting (used : Nat) : List Char → Nat
  | [] => 0
  | c :: cs =>
    if windowSize < used + c.utf8Size then 0 else fitting (used + c.utf8Size) cs + 1

/-- A text together with how far it can be read. -/
structure Readable where
  /-- The text that can be read. -/
  text : List Char
  /-- Where reading has to stop, if there is more than can be read. -/
  limit : Option Nat := none
  /-- The number of characters in the window of a second byte order mark. -/
  marked : Nat := 0

/-- What can be read of a text. -/
def Readable.ofText (cs : List Char) : Readable :=
  let isMarked (cs : List Char) : Bool := cs.head? == some byteOrderMark
  let used := if isMarked cs then byteOrderMark.utf8Size else 0
  let cs := if isMarked cs then cs.tail else cs
  let limit := unreadable? 0 0 used cs
  { text := cs.take (limit.getD cs.length)
    limit := limit
    marked := if isMarked cs then fitting used cs else 0 }

end Backtrack.Outline
