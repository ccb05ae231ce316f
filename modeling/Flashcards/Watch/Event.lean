import Flashcards.Path

namespace Flashcards.Watch

/-!
# Events of the file system

An event tells what happened, and to which paths.  For the document that is watched, it is an
update, a removal, or nothing.
-/

/-- What of a file was modified. -/
inductive Modification where
  | any
  | data
  | metadata
  | name
  | other
  deriving DecidableEq, Repr

/-- What was removed. -/
inductive Removal where
  | any
  | file
  | folder
  | other
  deriving DecidableEq, Repr

/-- What happened. -/
inductive EventKind where
  | any
  | access
  | create
  | modify (what : Modification)
  | remove (what : Removal)
  | other
  deriving DecidableEq, Repr

/-- One event. -/
structure Event where
  kind : EventKind
  paths : List Path
  deriving DecidableEq, Repr

/-- What an event means for the watched document. -/
inductive Change where
  | updated
  | removed
  deriving DecidableEq, Repr

/-- What happened to the paths of an event of some kind. -/
def EventKind.change? : EventKind → Option Change
  | .create => some .updated
  | .modify .data => some .updated
  | .modify .name => some .updated
  | .modify .any => some .updated
  | .remove .file => some .removed
  | .remove .any => some .removed
  | _ => none

/-- What an event means for a document; events of other paths mean nothing. -/
def Event.change? (e : Event) (document : Path) : Option Change :=
  if e.paths.any (·.sameAs document) then e.kind.change? else none

end Flashcards.Watch
