import Flashcards.World

namespace Flashcards.Watch

/-!
# Histories of a watched document

A history is a list of edits, each made when the watcher has dealt with the one before.  A listener
keeps what was rendered.

* `Edit.apply`, `Edit.events` — what an edit does to the files, and the events that tell of it.
* `Stage.edit` — an edit, and what the watcher does about it.
* `listen` — a history told to a listener, who may refuse a rendering.
* `print` — a history printed by the command `watch`, until its output is closed.
-/

/-! ### Edits -/

/-- A change in the directory of the document. -/
inductive Edit where
  /-- The document is replaced in one move by a file written beside it. -/
  | save (content : ByteArray)
  | remove
  /-- Another file is written. -/
  | other (path : Path) (content : ByteArray)

namespace Edit

/-- The path of what is changed, where a file is watched. -/
def path (file : Path) : Edit → Path
  | .save _ => file
  | .remove => file
  | .other path _ => path

/-- The files after an edit. -/
def apply (file : Path) (fs : FileSystem) : Edit → FileSystem
  | .save content => fs.overwrite file content
  | .remove => fs.remove file
  | .other path content => fs.overwrite path content

/-- The file that takes another one's place when that is saved. -/
def swapFile (path : Path) : Path :=
  ⟨path.text ++ ".swp"⟩

/-- The events that tell of a change at a path from the root. -/
def eventsAt (path : Path) : Edit → List Event
  | .save _ =>
    [⟨.create, [swapFile path]⟩, ⟨.modify .data, [swapFile path]⟩,
      ⟨.modify .name, [swapFile path, path]⟩]
  | .remove => [⟨.remove .file, [path]⟩]
  | .other _ _ => [⟨.create, [path]⟩, ⟨.modify .data, [path]⟩]

/-- The events that tell of an edit.  They call what is changed by its path from the root, however
    the edit calls it.  Nothing is told of a change that cannot be made. -/
def events (file : Path) (fs : FileSystem) (e : Edit) : List Event :=
  match fs.target (e.path file) with
  | .error _ => []
  | .ok place =>
    match e, fs.find? place with
    | .remove, none => []
    | e, _ => e.eventsAt (FileSystem.pathTo place)

end Edit

/-! ### Listeners -/

/-- Someone who is told of the renderings, and may refuse one of them. -/
structure Listener where
  /-- The number of the rendering that is refused, counted from one. -/
  refused : Option Nat
  heard : List String
  deriving DecidableEq, Repr

/-- Steps in a world with a listener. -/
abbrev Audience := StateT Listener Session

/-- Tells the listener of a rendering. -/
def tell (rendered : String) : ExceptT Failure Audience Unit :=
  ExceptT.mk fun l =>
    if l.refused = some (l.heard.length + 1) then pure (.error (.listener "output closed"), l)
    else pure (.ok (), { l with heard := l.heard ++ [rendered] })

/-- Prints a rendering and then tells the listener what was printed. -/
def printAndTell (rendered : String) : ExceptT Failure Audience Unit := do
  printFrame rendered
  tell (frame rendered)

/-! ### Stages of a history -/

/-- How far a history has come.  A watch that has ended keeps its failure. -/
structure Stage where
  watcher : Except Failure Watcher
  listener : Listener
  world : World

namespace Stage

/-- The stage after some steps that give a watcher. -/
def start (w : World) (l : Listener) (act : ExceptT Failure Audience Watcher) : Stage :=
  let ((watcher, listener), world) := (act.run.run l).run w
  ⟨watcher, listener, world⟩

/-- The stage after a watch goes on, unless it has ended. -/
def advance (s : Stage) (act : Watcher → ExceptT Failure Audience Watcher) : Stage :=
  match s.watcher with
  | .error _ => s
  | .ok watcher => start s.world s.listener (act watcher)

/-- The stage with other files. -/
def withFiles (s : Stage) (fs : FileSystem) : Stage :=
  { s with world := { s.world with files := fs } }

variable (deliver : String → ExceptT Failure Audience Unit) (file : Path)

/-- The stage after an edit, when the watcher has dealt with its events. -/
def edit (s : Stage) (e : Edit) : Stage :=
  (s.withFiles (e.apply file s.world.files)).advance fun w =>
    w.handleAll deliver (e.events file s.world.files)

/-- What was heard because of each edit, and the stage after the last. -/
def edits (s : Stage) : List Edit → List (List String) × Stage
  | [] => ([], s)
  | e :: es =>
    let after := s.edit deliver file e
    let rest := after.edits es
    (after.listener.heard.drop s.listener.heard.length :: rest.1, rest.2)

end Stage

/-! ### Histories -/

/-- What was rendered at the start and because of each edit, and how the watch ended. -/
structure History where
  initial : List String
  steps : List (List String)
  ending : Except Failure Unit

/-- The watcher of a file after its first look. -/
def listenTo (file : Path) : ExceptT Failure Audience Watcher := do
  (← Watcher.open? file).reload tell

/-- A history told to a listener who refuses a rendering, or none.  Then the watch is stopped. -/
def listen (file : Path) (files : FileSystem) (refused : Option Nat) (es : List Edit) : History :=
  let first := Stage.start (World.ofFiles files) ⟨refused, []⟩ (listenTo file)
  let (steps, last) := first.edits tell file es
  ⟨first.listener.heard, steps, (last.advance Watcher.stop).watcher.map fun _ => ()⟩

/-- The watcher of the command `watch` after its first look. -/
def printFrom (file : Path) : ExceptT Failure Audience Watcher := do
  (← watcherOf file).reload printAndTell

/-- A text other than the one that a watcher has shown. -/
def Watcher.otherText (w : Watcher) : String :=
  w.shown.getD "" ++ "\n"

/-- The stage of the command `watch` after its output is closed and the document changed. -/
def Stage.closeOutput (file : Path) (s : Stage) : Stage :=
  match s.watcher with
  | .error _ => s
  | .ok w =>
    Stage.edit printAndTell file
      { s with world := { s.world with out := s.world.out.close } } (.save w.otherText.toUTF8)

/-- A history printed by the command `watch`.  At its end the output is closed and the document
    changed once more, which ends the command. -/
def print (file : Path) (files : FileSystem) (es : List Edit) : History :=
  let first := Stage.start (World.ofFiles files) ⟨none, []⟩ (printFrom file)
  let (steps, last) := first.edits printAndTell file es
  ⟨first.listener.heard, steps, (last.closeOutput file).watcher.map fun _ => ()⟩

end Flashcards.Watch
