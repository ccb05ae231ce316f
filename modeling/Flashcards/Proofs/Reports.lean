import Flashcards.Proofs.Courses
import Flashcards.Proofs.Json.Layout
import Flashcards.Proofs.Reading

/-!
# Reports can be read back

A report is made for programs, which read it by the grammar of JSON and know nothing of how it was
printed.  What such a program finds is told here as a value.

* `termValue`, `groupValue`, `reportValue` — what a report says of a document or of its fault.
* `value_report` — the report of the program says this.
* `World.report_read_back` — whatever a file holds, its report is one JSON text that says this.
-/

namespace Flashcards

open Flashcards.Markup Flashcards.Json

/-- What a report says of a term. -/
def termValue (t : Term) : Value :=
  .object [("headword", .string t.headword), ("reading", .string t.reading),
    ("definition", .string t.definition)]

/-- What a report says of a group. -/
def groupValue (g : Group) : Value :=
  .object [("name", .string g.name), ("terms", .array (g.terms.map termValue))]

/-- What a report says of a document, or of the fault that it has. -/
def reportValue : Except Diagnostic Document → Value
  | .ok d =>
    .object [("ok", .bool true), ("output", .string d.listing),
      ("groups", .array (d.groups.map groupValue))]
  | .error e =>
    .object [("ok", .bool false), ("error", .object [("line", .number e.line),
      ("raw", .string e.raw), ("message", .string e.message)])]

theorem value_termReport (t : Term) : (termReport t).value = termValue t := by
  simp [termReport, termValue, value, memberValues]

/-- Only complete terms are reported. -/
theorem value_groupReport (g : Group) : (groupReport g).value = groupValue g := by
  have hterms : values (g.terms.map termReport) = g.terms.map termValue := by
    rw [values_eq_map, List.map_map]
    exact List.map_congr_left fun t _ => value_termReport t
  simp [groupReport, groupValue, value, memberValues, hterms]

theorem value_report (result : Except Diagnostic Document) :
    (report result).value = reportValue result := by
  cases result with
  | ok d =>
    have hgroups : values (d.groups.map groupReport) = d.groups.map groupValue := by
      rw [values_eq_map, List.map_map]
      exact List.map_congr_left fun g _ => value_groupReport g
    simp [report, reportValue, value, memberValues, hgroups]
  | error e => simp [report, reportValue, diagnosticReport, value, memberValues]

/-- A report is printed with a line end behind it. -/
theorem prints_report {files : FileSystem} {file : Path} {text : String}
    (h : files.load file = .ok text) (output : Option Path) :
    Prints (statusOf (Document.ofText text)) ((report (Document.ofText text)).pretty ++ "\n") files
      ((World.ofFiles files).run (.render file output true)) := by
  have hprints := prints_of_course (course_render_of_load h [] output true)
  simpa [spoken, reportCourse] using hprints

/-- **A report can be read back.**  Whatever text a file holds, its report is printed as one JSON
    text with a line end behind it.  By the grammar of JSON this text names one value, which says
    of the document, or of its fault, all that there is to be said. -/
theorem World.report_read_back {files : FileSystem} {file : Path} {text : String}
    (h : files.load file = .ok text) :
    ∃ json, Prints (statusOf (Document.ofText text)) (json ++ "\n") files
        ((ofFiles files).run (.render file none true)) ∧
      ∀ v, IsText json.toList v ↔ v = reportValue (Document.ofText text) := by
  refine ⟨(report (Document.ofText text)).pretty, prints_report h none, fun v => ?_⟩
  rw [isText_pretty_iff, value_report]

/-- A file with a sample text is reported on. -/
theorem World.report_read_back_sample :
    (FileSystem.empty.overwrite ⟨"words.txt"⟩ Document.sampleText.toUTF8).load ⟨"words.txt"⟩ =
        .ok Document.sampleText ∧
      ∃ json : String, ∀ v, IsText json.toList v ↔ v =
        .object [("ok", .bool true), ("output", .string "一\tyī: one\n"),
          ("groups", .array [.object [("name", .string "numbers"),
            ("terms", .array [.object [("headword", .string "一"), ("reading", .string "yī"),
              ("definition", .string "one")]])]])] := by
  have hload : (FileSystem.empty.overwrite ⟨"words.txt"⟩ Document.sampleText.toUTF8).load
      ⟨"words.txt"⟩ = .ok Document.sampleText := by
    rfl
  obtain ⟨json, -, hread⟩ := report_read_back hload
  rw [Document.ofText_sampleText] at hread
  exact ⟨hload, json, hread⟩

end Flashcards
