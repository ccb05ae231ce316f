import Flashcards.Invocation

namespace Flashcards

/-!
# The program

The host that the program runs on: the files, the output and the error output of its process.
All decisions are made elsewhere; here they meet the system.
-/

/-- Steps of the process, under the filter of its log. -/
abbrev Console := ReaderT Filter IO

/-- The number of an error; some parts of the system report it with the opposite sign. -/
def errorNumber (code : UInt32) : Nat :=
  if code.toNat < 0x80000000 then code.toNat else 0x100000000 - code.toNat

/-- The cause that an error of the system stands for. -/
def causeOf : IO.Error → FileError
  | .noFileOrDirectory .. => .notFound
  | .inappropriateType _ code details =>
    if errorNumber code = 20 then .notADirectory
    else if errorNumber code = 21 then .isADirectory
    else .other details
  | .invalidArgument _ code details =>
    if errorNumber code = 36 then .nameTooLong else .other details
  | e => .other (toString e)

/-- A step on a file, refused beforehand where the path alone forbids it. -/
def onFile {α : Type} (p : Path) (step : IO α) : IO (Except FileError α) := do
  match FileSystem.refusal? p with
  | some cause => return .error cause
  | none =>
    try
      return .ok (← step)
    catch e =>
      return .error (causeOf e)

/-- A step on the output. -/
def onOutput (step : IO.FS.Stream → IO Unit) : IO (Except OutputError Unit) := do
  try
    step (← IO.getStdout)
    return .ok ()
  catch _ =>
    return .error .closed

instance : Host Console where
  readFile p := fun _ => onFile p (IO.FS.readBinFile p.text)
  writeFile p content := fun _ => onFile p (IO.FS.writeBinFile p.text content)
  contains p := fun _ => do
    return (← onFile p (IO.FS.realPath p.text)).toBool
  canonicalize p := fun _ => onFile p do
    return ⟨(← IO.FS.realPath p.text).toString⟩
  print text := fun _ => onOutput fun out => do
    out.putStr text
    out.flush
  flush := fun _ => onOutput IO.FS.Stream.flush
  log r := fun filter => do
    if filter.admits r then IO.eprintln r.text

/-- The longest pause between two looks at a document, in milliseconds. -/
def longestPause : Nat := 3600000

/-- Looks at a watched document again and again, with a pause between. -/
partial def keepWatching (pause : Nat) (w : Watch.Watcher) : ExceptT Failure Console Unit := do
  (IO.sleep (min pause longestPause).toUInt32 : IO Unit)
  keepWatching pause (← w.reload Watch.printFrame)

/-- The variables that the program asks for by name. -/
def knownVariables : List String :=
  ["RUST_LOG", "QUIZLET_LOG", "QUIZLET_POLL_INTERVAL_MS", "QUIZLET_DEBOUNCE_MS"]

/-- The variables that an assignment gives or uses. -/
def Assignment.mentioned (a : Assignment) : List String :=
  a.name :: a.value.filterMap fun
    | .variable name => some (String.ofList (name.toList.takeWhile (· ≠ '=')))
    | .plain _ => none

/-- The variables of some names that the process has. -/
def environment (names : List String) : IO Variables :=
  names.filterMapM fun name => do
    return (← IO.getEnv name).map (name, ·)

/-- The names of all variables that can matter to the program. -/
def relevantVariables : Console (List String) := do
  match ← Host.readFile environmentFile with
  | .ok content => return knownVariables ++ (Assignment.readFile content).flatMap (·.mentioned)
  | .error _ => return knownVariables

/-- The program on some words. -/
def runProgram (ws : List String) : IO UInt32 := do
  let quiet := Filter.ofText "off"
  let own ← environment (← relevantVariables quiet)
  let vs ← (own.withFile : Console Variables) quiet
  vs.complaints.forM fun words => IO.eprintln words
  let exit ← (invoke (keepWatching vs.settings.pollInterval) ws : Console Exit) vs.filter
  match exit.complaint with
  | some words => IO.eprintln words
  | none => pure ()
  return exit.code.toUInt32

end Flashcards

/-- Runs the program on the words of its command line. -/
def main (ws : List String) : IO UInt32 :=
  Flashcards.runProgram ws
