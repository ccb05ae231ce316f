import Flashcards.Format
import Flashcards.Markup.Fault
import Flashcards.Pinyin.Reading

namespace Flashcards

open Flashcards.Markup

/-!
# Terms

A term is one entry of a vocabulary.  Its flashcard is one line: a tab divides the two sides, and
a colon and a space divide the reading from the rest.
-/

/-- One entry of a vocabulary.  The reading is kept with tone marks. -/
structure Term where
  headword : String
  reading : String
  definition : String
  deriving DecidableEq, Repr

/-- The term of three lines as typed, the second with tone numbers. -/
def Term.ofLines (headword reading definition : String) : Term :=
  ⟨headword, Pinyin.markTones reading, definition⟩

/-- The flashcard of a term. -/
def Term.render (t : Term) : Format → String
  | .reading => t.headword ++ "\t" ++ t.reading ++ ": " ++ t.definition ++ "\n"
  | .writing => t.definition ++ "\t" ++ t.reading ++ ": " ++ t.headword ++ "\n"

/-- The format of a name in a document. -/
def Format.named (name : String) : Except Fault Format :=
  match Format.ofName? name with
  | some f => .ok f
  | none => .error (.unknownFormat name)

/-- The flashcard of a term in the format of a name. -/
def Term.renderNamed (t : Term) (name : String) : Except Fault String :=
  (Format.named name).map t.render

end Flashcards
