import Flashcards.Storage

namespace Flashcards

/-!
# Failures of commands
-/

/-- Why a command fails. -/
inductive Failure where
  | storage (error : StorageError)
  /-- The output takes no more. -/
  | output (error : OutputError)
  /-- The output takes no more of a report. -/
  | report (error : OutputError)
  /-- A document cannot be found that is to be watched. -/
  | watch (cause : FileError)
  /-- Whoever is told of the listings refuses one. -/
  | listener (words : String)
  /-- Something fails for the reason of something else. -/
  | context (words : String) (cause : Failure)
  deriving DecidableEq, Repr

/-- The wording of a failure, followed by its causes. -/
def Failure.message : Failure → String
  | .storage e =>
    match e.cause? with
    | some cause => e.message ++ ": " ++ cause.message
    | none => e.message
  | .output e => e.message
  | .report e => "failed to write JSON report: " ++ e.message
  | .watch cause => cause.message
  | .listener words => words
  | .context words cause => words ++ ": " ++ cause.message

/-- How a command ends that does not fail. -/
inductive Status where
  | clean
  /-- The document was read and has a fault. -/
  | documentError
  deriving DecidableEq, Repr

variable {m : Type → Type} [Monad m] [Host m]

/-- A step that may fail, as part of a command. -/
def orFail {ε α : Type} (failure : ε → Failure) (step : m (Except ε α)) : ExceptT Failure m α :=
  ExceptT.mk do return (← step).mapError failure

/-- A step that may fail, with more to say of its failure. -/
def inContext {α : Type} (words : String) (step : ExceptT Failure m α) : ExceptT Failure m α :=
  step.adapt (.context words)

/-- Writes to the output. -/
def printOut (text : String) : ExceptT Failure m Unit :=
  orFail .output (Host.print text)

/-- Makes an entry in the log. -/
def logRecord (r : Record) : ExceptT Failure m Unit :=
  ExceptT.lift (Host.log r)

/-- Makes some entries in the log. -/
def logRecords (rs : List Record) : ExceptT Failure m Unit :=
  rs.forM logRecord

end Flashcards
