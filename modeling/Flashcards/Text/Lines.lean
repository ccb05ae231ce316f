import Flashcards.Text.Blank

namespace Flashcards.Text

/-!
# Lines of a text

A document is read as a list of lines.  Both line endings, `\n` and `\r\n`, are understood, and
the number of line ends at the end of a text carries no meaning.

* `cutLines` — a text cut at its line ends, with what stands behind the last of them.
* `lines` — the lines of a text, without line ends and without empty lines at the end.
* `unifyLineEnds` — every `\r\n` written as `\n`, the form in which a file's text is kept.
-/

/-- A line without the one carriage return that may end it. -/
def dropCarriageReturn : List Char → List Char
  | [] => []
  | ['\r'] => []
  | c :: cs => c :: dropCarriageReturn cs

/-- Characters cut at every `\n`, each part without one `\r` at its end. -/
def cutLineChars (cs : List Char) : List (List Char) :=
  (cs.splitOn '\n').map dropCarriageReturn

/-- The parts of a text between its line ends. -/
def cutLines (text : String) : List String :=
  (cutLineChars text.toList).map String.ofList

/-- The lines of a text given as characters: its parts without the empty ones at the end. -/
def lineChars (cs : List Char) : List (List Char) :=
  dropTrailing List.isEmpty (cutLineChars cs)

/-- The lines of a text. -/
def lines (text : String) : List String :=
  (lineChars text.toList).map String.ofList

/-- Characters with every `\r\n` written as `\n`, read from left to right. -/
def unifyLineEndChars : List Char → List Char
  | [] => []
  | '\r' :: '\n' :: cs => '\n' :: unifyLineEndChars cs
  | c :: cs => c :: unifyLineEndChars cs

/-- A text with every `\r\n` written as `\n`. -/
def unifyLineEnds (text : String) : String :=
  String.ofList (unifyLineEndChars text.toList)

end Flashcards.Text
