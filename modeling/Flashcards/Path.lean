import Flashcards.Text.Blank

namespace Flashcards

open Flashcards.Text

/-!
# Paths

A path is the text that names a file.  Names are divided by `/`.

* `Path.components` — what a path means part by part: repeated and trailing `/` do not matter, nor
  does a `.` other than a leading one.
* `Path.extension?` — the part of the last name behind its last dot.
* `Path.withTxt` — a path that ends in `.txt`.
-/

/-- The text that names a file. -/
structure Path where
  text : String
  deriving DecidableEq, Repr

namespace Path

/-- The texts between the slashes of a path, empty ones included. -/
def pieces (p : Path) : List String :=
  (p.text.toList.splitOn '/').map String.ofList

/-- One part of a path. -/
inductive Component where
  /-- The leading `/` of an absolute path. -/
  | root
  /-- The leading `.` of a relative path. -/
  | here
  /-- A `..`, kept as it stands. -/
  | parent
  | name (text : String)
  deriving DecidableEq, Repr

/-- The part that a piece after the first stands for; empty pieces and `.` stand for none. -/
def Component.ofPiece? (piece : String) : Option Component :=
  if piece = "" ∨ piece = "." then none
  else if piece = ".." then some .parent
  else some (.name piece)

/-- The parts of a path. -/
def components (p : Path) : List Component :=
  match p.pieces with
  | [] => []
  | first :: rest =>
    let leading :=
      if first = "" then (if rest.isEmpty then none else some .root)
      else if first = "." then some .here
      else Component.ofPiece? first
    leading.toList ++ rest.filterMap Component.ofPiece?

/-- Whether two paths are the same part by part. -/
def sameAs (p q : Path) : Bool :=
  p.components = q.components

/-- The last name of a path; a path that ends in `..` has none. -/
def fileName? (p : Path) : Option String :=
  match p.components.getLast? with
  | some (.name text) => some text
  | _ => none

/-- What stands before and behind the last dot of a name. -/
def splitLastDot? : List Char → Option (List Char × List Char)
  | [] => none
  | c :: cs =>
    match splitLastDot? cs with
    | some (before, behind) => some (c :: before, behind)
    | none => if c = '.' then some ([], cs) else none

/-- The extension of a name: what stands behind its last dot, unless that dot is its first
    character. -/
def extensionOfName? (name : String) : Option String :=
  match splitLastDot? name.toList with
  | some (_ :: _, behind) => some (String.ofList behind)
  | _ => none

/-- The extension of a path's last name. -/
def extension? (p : Path) : Option String :=
  p.fileName?.bind extensionOfName?

/-- The path with `.txt` appended to its text, unless `txt` is its extension. -/
def withTxt (p : Path) : Path :=
  if p.extension? = some "txt" then p else ⟨p.text ++ ".txt"⟩

end Path

end Flashcards
