import Flashcards.Failure
import Flashcards.Markup.Report
import Flashcards.Watch.Event

namespace Flashcards.Watch

open Flashcards.Markup

/-!
# Watching a document

A watcher renders a document once, and again after every change of its text.

* `Watcher.open?` — a watcher of a file, under the file's path from the root.
* `Watcher.reload` — the document looked at again.
* `Watcher.handle` — an event dealt with; only an update makes the watcher look.

A document that cannot be loaded is passed over: the watcher keeps what it showed last.  What is
shown is remembered once it was delivered, so a failed delivery is not taken for a shown text.
-/

/-- What a watcher knows. -/
structure Watcher where
  /-- The path from the root, by which events call the document. -/
  document : Path
  /-- The text rendered last. -/
  shown : Option String
  deriving DecidableEq, Repr

/-- A log record of a watcher. -/
def watchRecord (level : Level) (message : String) (fields : List (String × String)) : Record :=
  ⟨level, "quizlet_cli::watcher", message, fields⟩

/-- The log record of a watch that begins. -/
def watchingRecord (document : Path) : Record :=
  watchRecord .info "watching document" [("path", document.text)]

namespace Watcher

variable {m : Type → Type} [Monad m] [Host m]

/-- A watcher of a file, before the first look at it. -/
def open? (file : Path) : ExceptT Failure m Watcher := do
  let document ← orFail .watch (Host.canonicalize file)
  logRecord (watchingRecord document)
  return ⟨document, none⟩

/-- Looks at the document and delivers its rendering, unless its text is the one shown. -/
def reload (deliver : String → ExceptT Failure m Unit) (w : Watcher) :
    ExceptT Failure m Watcher := do
  match ← ExceptT.lift (Storage.load w.document) with
  | .error e =>
    logRecord (watchRecord .warn e.message [])
    return w
  | .ok text =>
    if w.shown = some text then
      return w
    else
      logRecords (faultRecords (Document.ofText text))
      deliver (render text)
      return { w with shown := some text }

/-- Deals with an event. -/
def handle (deliver : String → ExceptT Failure m Unit) (w : Watcher) (e : Event) :
    ExceptT Failure m Watcher := do
  match e.change? w.document with
  | some .updated => w.reload deliver
  | some .removed =>
    logRecord (watchRecord .warn "document removed" [("path", w.document.text)])
    return w
  | none => return w

/-- Deals with events one after the other. -/
def handleAll (deliver : String → ExceptT Failure m Unit) :
    Watcher → List Event → ExceptT Failure m Watcher
  | w, [] => return w
  | w, e :: es => do
    let w ← w.handle deliver e
    handleAll deliver w es

/-- Ends the watch because it is told to stop. -/
def stop (w : Watcher) : ExceptT Failure m Watcher := do
  logRecord (watchRecord .info "watcher stopped" [])
  return w

end Watcher

/-! ### Frames -/

/-- What divides one rendering from the next. -/
def separator : String :=
  String.ofList (List.replicate 60 '=')

/-- Prints a rendering below a separator. -/
def printFrame {m : Type → Type} [Monad m] [Host m] (rendered : String) :
    ExceptT Failure m Unit := do
  printOut (separator ++ "\n")
  printOut rendered
  orFail .output Host.flush

/-- A rendering below a separator. -/
def frame (rendered : String) : String :=
  separator ++ "\n" ++ rendered

end Flashcards.Watch
