import Flashcards.Host
import Flashcards.Text.Lines

namespace Flashcards

/-!
# Documents in files

* `Storage.load` — the text of a file, with `\n` for every line end.
* `Storage.save` — a text written to a file, whatever stood there.
* `Storage.create` — a new file, which replaces another one only where that is asked for.
-/

/-- Why a document cannot be loaded, saved or created. -/
inductive StorageError where
  | notFound (path : Path)
  | alreadyExists (path : Path)
  | unreadable (path : Path) (cause : FileError)
  | unwritable (path : Path) (cause : FileError)
  deriving DecidableEq, Repr

/-- The wording of a storage error. -/
def StorageError.message : StorageError → String
  | .notFound p => "file not found: " ++ p.text
  | .alreadyExists p => "file already exists: " ++ p.text ++ " (use --force to overwrite)"
  | .unreadable p cause => "could not read " ++ p.text ++ ": " ++ cause.message
  | .unwritable p cause => "could not save " ++ p.text ++ ": " ++ cause.message

/-- The cause behind a storage error, where there is one. -/
def StorageError.cause? : StorageError → Option FileError
  | .notFound _ => none
  | .alreadyExists _ => none
  | .unreadable _ cause => some cause
  | .unwritable _ cause => some cause

namespace Storage

/-- The text of a file, of which the content or an error is known. -/
def decode (p : Path) : Except FileError ByteArray → Except StorageError String
  | .error .notFound => .error (.notFound p)
  | .error cause => .error (.unreadable p cause)
  | .ok content =>
    match String.fromUTF8? content with
    | some text => .ok (Text.unifyLineEnds text)
    | none => .error (.unreadable p .malformedText)

/-- A text in a file is read as it is, but for its line ends. -/
theorem decode_toUTF8 (p : Path) (text : String) :
    decode p (.ok text.toUTF8) = .ok (Text.unifyLineEnds text) := by
  have htext : String.fromUTF8? text.toUTF8 = some text := by
    rw [String.fromUTF8?, String.toUTF8_eq_toByteArray, dif_pos text.isValidUTF8]
    rfl
  rw [decode, htext]

variable {m : Type → Type} [Monad m] [Host m]

/-- The text of a file, with `\n` for every line end. -/
def load (p : Path) : m (Except StorageError String) := do
  return decode p (← Host.readFile p)

/-- Writes a text to a file, whatever stands there. -/
def save (p : Path) (text : String) : m (Except StorageError Unit) := do
  return (← Host.writeFile p text.toUTF8).mapError (.unwritable p)

/-- Writes a text to a file whose path ends in `.txt`, and gives that path.  What exists there is
    replaced only by force. -/
def create (p : Path) (text : String) (force : Bool) : m (Except StorageError Path) := do
  let exists? ← Host.contains p.withTxt
  if exists? && !force then
    return .error (.alreadyExists p.withTxt)
  else
    return (← save p.withTxt text).map fun _ => p.withTxt

end Storage

end Flashcards
