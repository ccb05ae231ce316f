import Flashcards.Invocation

namespace Flashcards

/-!
# Worlds

A world is a host held as a value: files, an output, a log.  What is said of a command on every
world is said of all that it can do.

* `Session` — steps that read and change a world.
* `World.run` — a command on a world.
* `World.invoke` — the whole program on a world.
-/

/-- Files, an output and a log. -/
structure World where
  files : FileSystem
  out : Sink
  /-- The entries made so far, in order. -/
  log : List Record

/-- Steps that read and change a world. -/
abbrev Session := StateM World

instance : Host Session where
  readFile p := fun w => (w.files.read p, w)
  writeFile p content := fun w =>
    match w.files.write p content with
    | .ok files => (.ok (), { w with files := files })
    | .error e => (.error e, w)
  contains p := fun w => (w.files.contains p, w)
  canonicalize p := fun w => (w.files.canonicalize p, w)
  print text := fun w => ((w.out.write text).1, { w with out := (w.out.write text).2 })
  -- A sink holds nothing back.
  flush := fun w => (.ok (), w)
  log r := fun w => ((), { w with log := w.log ++ [r] })

namespace World

/-- A world of some files with an output that takes everything. -/
def ofFiles (files : FileSystem) : World :=
  ⟨files, .unlimited, []⟩

/-- No further change of a watched document comes. -/
def settled (_ : Watch.Watcher) : ExceptT Failure Session Unit :=
  pure ()

/-- A command on a world: how it ends, and the world after it. -/
def run (w : World) (c : Command) : Except Failure Status × World :=
  (execute settled c).run w

/-- A record in lines.  Blank characters at the end of the first line do not count. -/
def recordLines (r : Record) : List String :=
  match Text.cutLineChars r.text.toList with
  | [] => []
  | first :: rest => (Text.trimEnd first :: rest).map String.ofList

/-- The log in lines. -/
def logLines (w : World) : List String :=
  w.log.flatMap recordLines

/-- How an invocation ends, and the lines on its error output. -/
structure Invoked where
  exit : Exit
  errors : List String
  deriving DecidableEq, Repr

/-- The error output in lines: what there is to say about the filter of the log, what passes the
    filter, then the complaint. -/
def errorLines (w : World) (vs : Variables) (e : Exit) : List String :=
  vs.complaints.flatMap Text.cutLines ++ (w.log.filter vs.filter.admits).flatMap recordLines ++
    e.complaint.toList.flatMap Text.cutLines

/-- The whole program on a world, under the variables of an environment. -/
def invoke (w : World) (vs : Variables) (ws : List String) : Invoked × World :=
  let (vs, w) := (vs.withFile : Session Variables).run w
  let (exit, w) := (Flashcards.invoke settled ws : Session Exit).run w
  (⟨exit, w.errorLines vs exit⟩, w)

end World

end Flashcards
