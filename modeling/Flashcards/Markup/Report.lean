import Flashcards.Json
import Flashcards.Log
import Flashcards.Markup.Document

namespace Flashcards.Markup

/-!
# Reports

A report tells a program, rather than a person, what became of a document: its listing and its
groups, or its diagnostic.

* `report` — the report of a document.
* `faultRecords` — what the log is told.
-/

/-- A term in a report. -/
def termReport (t : Term) : Json :=
  .object [("headword", .string t.headword), ("reading", .string t.reading),
    ("definition", .string t.definition)]

/-- A group in a report: its complete terms. -/
def groupReport (g : Group) : Json :=
  .object [("name", .string g.name), ("terms", .array (g.terms.map termReport))]

/-- A diagnostic in a report. -/
def diagnosticReport (d : Diagnostic) : Json :=
  .object [("line", .number d.line), ("raw", .string d.raw), ("message", .string d.message)]

/-- The report of a document, or of the diagnostic in its place. -/
def report : Except Diagnostic Document → Json
  | .ok d =>
    .object [("ok", .bool true), ("output", .string d.listing),
      ("groups", .array (d.groups.map groupReport))]
  | .error d => .object [("ok", .bool false), ("error", diagnosticReport d)]

/-- The log records of a reading: there is one if it was given up at a fault. -/
def faultRecords : Except Diagnostic Document → List Record
  | .ok _ => []
  | .error d =>
    [⟨.debug, "quizlet_core::parser", "markup parse aborted",
      [("line", toString d.line), ("error", d.message)]⟩]

end Flashcards.Markup
