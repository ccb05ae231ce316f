import Flashcards.Environment
import Flashcards.Execution
import Flashcards.Log.Filter
import Flashcards.Settings

namespace Flashcards

/-!
# Invocations of the program

An invocation is a list of words under the variables of an environment.

* `Variables.withFile` — the variables, with those of the file `.env` where they are missing.
* `Variables.filter` — the log filter that they ask for.
* `Variables.complaints` — what there is to say about directives of it that cannot be read.
* `invoke` — what the program does, and how it ends.
-/

/-- The file that may hold further variables. -/
def environmentFile : Path := ⟨".env"⟩

/-- How the program ends: its exit code and what it says on the error output at last. -/
structure Exit where
  code : Nat
  complaint : Option String
  deriving DecidableEq, Repr

/-- The name and the version of the program. -/
def versionText : String := "quizlet 0.1.0\n"

/-- A short help text. -/
def helpText : String := String.join [
  "Generate flashcard listings from vocabulary markup\n",
  "\n",
  "Usage: quizlet <COMMAND>\n",
  "\n",
  "Commands:\n",
  "  render  Render a markup file\n",
  "  watch   Re-render a markup file every time it changes\n",
  "  new     Write a new markup file from the built-in template\n",
  "  demo    Print the built-in demo document and its rendering\n",
  "  help    Print this message or the help of the given subcommand(s)\n",
  "\n",
  "Options:\n",
  "  -h, --help     Print help\n",
  "  -V, --version  Print version\n"]

/-- The settings under some variables. -/
def Variables.settings (vs : Variables) : Settings :=
  Settings.ofLookup vs.get?

/-- The text of the log filter under some variables. -/
def Variables.filterText (vs : Variables) : String :=
  (vs.get? "RUST_LOG").getD vs.settings.logFilter

/-- The log filter under some variables. -/
def Variables.filter (vs : Variables) : Filter :=
  Filter.ofText vs.filterText

/-- What there is to say about the log filter under some variables. -/
def Variables.complaints (vs : Variables) : List String :=
  Filter.complaints vs.filterText

variable {m : Type → Type} [Monad m] [Host m]

/-- The variables, with those of the file `.env` where they are missing. -/
def Variables.withFile (vs : Variables) : m Variables := do
  match ← Host.readFile environmentFile with
  | .ok content => return vs.extend (Assignment.readFile content)
  | .error _ => return vs

/-- How the program ends on words that are no command. -/
def refuse : Refusal → m Exit
  | .version => do
    let _ ← Host.print versionText
    return ⟨0, none⟩
  | .help => do
    let _ ← Host.print helpText
    return ⟨0, none⟩
  | _ => return ⟨2, some "error: invalid arguments; see --help"⟩

/-- How the program ends after a command. -/
def exitOf : Except Failure Status → Exit
  | .ok .clean => ⟨0, none⟩
  | .ok .documentError => ⟨1, none⟩
  | .error failure => ⟨1, some ("error: " ++ failure.message)⟩

/-- What the program does on some words. -/
def invoke (follow : Watch.Watcher → ExceptT Failure m Unit) (ws : List String) : m Exit := do
  match Command.ofWords ws with
  | .error refusal => refuse refusal
  | .ok command => return exitOf (← (execute follow command).run)

end Flashcards
