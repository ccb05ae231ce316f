import Flashcards.CommandLine
import Flashcards.Markup.Report
import Flashcards.Template
import Flashcards.Watch.Watcher

namespace Flashcards

open Flashcards.Markup

/-!
# Running commands

* `renderFile` — the three ways to deliver what became of a file: its listing printed, its listing
  saved, a report printed.
* `execute` — what a command does on a host.
-/

variable {m : Type → Type} [Monad m] [Host m]

/-- The log record of a document that was read from a file. -/
def outcomeRecord (file : Path) : Except Diagnostic Document → Record
  | .ok d =>
    ⟨.info, "quizlet_cli", "rendered " ++ file.text,
      [("groups", toString d.groups.length),
        ("terms", toString (d.groups.flatMap Group.terms).length)]⟩
  | .error d =>
    ⟨.warn, "quizlet_cli", file.text ++ ": " ++ d.message, [("line", toString d.line)]⟩

/-- All log records of a document that was read from a file. -/
def readingRecords (file : Path) (result : Except Diagnostic Document) : List Record :=
  faultRecords result ++ [outcomeRecord file result]

/-- How a command ends that read a document. -/
def statusOf : Except Diagnostic Document → Status
  | .ok _ => .clean
  | .error _ => .documentError

/-- Prints the report of a document. -/
def printReport (result : Except Diagnostic Document) : ExceptT Failure m Unit := do
  orFail .report (Host.print (report result).pretty)
  printOut "\n"

/-- Prints or saves the listing of a document.  A diagnostic is printed and never saved. -/
def deliver (output : Option Path) : Except Diagnostic Document → ExceptT Failure m Unit
  | .error d => printOut (d.text ++ "\n")
  | .ok d =>
    match output with
    | none => printOut d.listing
    | some path => do
      orFail .storage (Storage.save path d.listing)
      logRecord ⟨.info, "quizlet_cli", "saved listing", [("path", path.text)]⟩

/-- Renders a file. -/
def renderFile (file : Path) (output : Option Path) (json : Bool) : ExceptT Failure m Status := do
  let text ← orFail .storage (Storage.load file)
  let result := Document.ofText text
  logRecords (readingRecords file result)
  if json then printReport result else deliver output result
  return statusOf result

/-- Writes the template of a new document to a file and prints the file's path. -/
def newFile (path : Path) (force : Bool) : ExceptT Failure m Status := do
  let written ← orFail .storage (Storage.create path Template.newDocument force)
  logRecord ⟨.info, "quizlet_cli", "created document", [("path", written.text)]⟩
  printOut (written.text ++ "\n")
  return .clean

/-- A watcher of a file that can be loaded. -/
def watcherOf (file : Path) : ExceptT Failure m Watch.Watcher := do
  let _ ← orFail .storage (Storage.load file)
  inContext ("failed to watch " ++ file.text) (Watch.Watcher.open? file)

/-- Prints the listing of a file now and, as long as the host follows it, after each change.
    Nobody tells this watch to stop. -/
def watchFile (follow : Watch.Watcher → ExceptT Failure m Unit) (file : Path) :
    ExceptT Failure m Status := do
  follow (← (← watcherOf file).reload Watch.printFrame)
  return .clean

/-- Prints the built-in document and its listing. -/
def showDemo : ExceptT Failure m Status := do
  printOut (Template.demo ++ "\n")
  printOut (render Template.demo)
  return .clean

/-- What a command does.  `follow` is how the host goes on with a document that is watched. -/
def execute (follow : Watch.Watcher → ExceptT Failure m Unit) :
    Command → ExceptT Failure m Status
  | .render file output json => renderFile file output json
  | .watch file => watchFile follow file
  | .new path force => newFile path force
  | .demo => showDemo

end Flashcards
