import Flashcards.Path

namespace Flashcards

open Flashcards.Text

/-!
# A file system held as a value

Directories and regular files below one root, and the working directory, where relative paths
start.  A place is the list of names that leads to an entry from the root.

* `FileSystem.find?` — the entry at a place.
* `FileSystem.parent` — the place of the directory that holds an entry.
* `FileSystem.resolve` — the place that a path leads to.
* `FileSystem.canonicalize` — the path from the root to that place.
* `FileSystem.target` — the place that a write to a path goes to.
* `FileSystem.read`, `FileSystem.write` — the content of a file.

A write either is refused and changes nothing, or replaces the whole content of one file.
-/

/-- Why a file cannot be read or written. -/
inductive FileError where
  | notFound
  | notADirectory
  | isADirectory
  | nameTooLong
  /-- A path holds the character with code zero. -/
  | nulInName
  /-- The content of a file is no UTF-8 text. -/
  | malformedText
  /-- Any other cause, in the words of the system. -/
  | other (words : String)
  deriving DecidableEq, Repr

/-- The wording of a cause. -/
def FileError.message : FileError → String
  | .notFound => "No such file or directory (os error 2)"
  | .notADirectory => "Not a directory (os error 20)"
  | .isADirectory => "Is a directory (os error 21)"
  | .nameTooLong => "File name too long (os error 36)"
  | .nulInName => "file name contained an unexpected NUL byte"
  | .malformedText => "stream did not contain valid UTF-8"
  | .other words => words

/-- The longest name, in bytes. -/
def nameLimit : Nat := 255

/-- The longest path, in bytes, with one byte for its end. -/
def pathLimit : Nat := 4096

/-- A text that can be the name of an entry. -/
def IsName (name : String) : Prop :=
  (name ≠ "" ∧ name ≠ "." ∧ name ≠ "..") ∧ name.utf8ByteSize ≤ nameLimit ∧
    '/' ∉ name.toList ∧ '\x00' ∉ name.toList

instance (name : String) : Decidable (IsName name) :=
  inferInstanceAs (Decidable (_ ∧ _))

/-- The names that lead to an entry from the root. -/
abbrev Place := List String

/-- What stands at a place. -/
inductive Entry where
  | directory
  | file (content : ByteArray)

/-- The entries below the root, and the place where relative paths start. -/
structure FileSystem where
  /-- This directory is there, and so are all directories above it. -/
  workingDirectory : Place
  isName_of_mem : ∀ name ∈ workingDirectory, IsName name
  /-- All other entries. -/
  entries : List (Place × Entry)

namespace FileSystem

/-- A working directory with nothing in it. -/
def empty : FileSystem where
  workingDirectory := ["home", "cards"]
  isName_of_mem := by decide
  entries := []

/-- The place of the directory that holds an entry.  The root is held by itself. -/
def parent (place : Place) : Place :=
  place.dropLast

/-- The entry at a place. -/
def find? (fs : FileSystem) (place : Place) : Option Entry :=
  if place.isPrefixOf fs.workingDirectory then some .directory else fs.entries.lookup place

/-- The file system with an entry put at a place. -/
def put (fs : FileSystem) (place : Place) (entry : Entry) : FileSystem :=
  { fs with entries := fs.entries.filter (fun e => e.1 ≠ place) ++ [(place, entry)] }

/-- The file system with nothing at a place. -/
def erase (fs : FileSystem) (place : Place) : FileSystem :=
  { fs with entries := fs.entries.filter fun e => e.1 ≠ place }

/-- Whether a directory stands at a place. -/
def isDirectory (fs : FileSystem) (place : Place) : Bool :=
  match fs.find? place with
  | some .directory => true
  | _ => false

/-! ### Where a path leads -/

/-- The place where a path starts. -/
def start (fs : FileSystem) (p : Path) : Place :=
  if p.text.toList.head? = some '/' then [] else fs.workingDirectory

/-- Why a path is refused for its text alone. -/
def refusal? (p : Path) : Option FileError :=
  if p.text.toList.contains '\x00' then some .nulInName
  else if p.text = "" then some .notFound
  else if pathLimit ≤ p.text.utf8ByteSize then some .nameTooLong
  else none

/-- The place reached from a place by the pieces of a path.  Every piece, also an empty one,
    needs a directory to start from. -/
def walk (fs : FileSystem) : Place → List String → Except FileError Place
  | place, [] => .ok place
  | place, piece :: rest =>
    if !fs.isDirectory place then .error .notADirectory
    else if piece = "" ∨ piece = "." then fs.walk place rest
    else if piece = ".." then fs.walk (parent place) rest
    else if nameLimit < piece.utf8ByteSize then .error .nameTooLong
    else
      match fs.find? (place ++ [piece]) with
      | none => .error .notFound
      | some _ => fs.walk (place ++ [piece]) rest

/-- The place of the entry that a path leads to. -/
def resolve (fs : FileSystem) (p : Path) : Except FileError Place :=
  match refusal? p with
  | some e => .error e
  | none => fs.walk (fs.start p) p.pieces

/-- The path to a place from the root. -/
def pathTo (place : Place) : Path :=
  ⟨"/" ++ String.intercalate "/" place⟩

/-- The path from the root to the entry that a path leads to, which may be too long itself. -/
def canonicalize (fs : FileSystem) (p : Path) : Except FileError Path :=
  match fs.resolve p with
  | .error e => .error e
  | .ok place =>
    match refusal? (pathTo place) with
    | some e => .error e
    | none => .ok (pathTo place)

/-- Whether a path leads to an entry. -/
def contains (fs : FileSystem) (p : Path) : Bool :=
  (fs.resolve p).toBool

/-- The place, in a directory, of the file of a name. -/
def targetIn (fs : FileSystem) (directory : Place) (name : String) : Except FileError Place :=
  if nameLimit < name.utf8ByteSize then .error .nameTooLong
  else
    match fs.find? (directory ++ [name]) with
    | some .directory => .error .isADirectory
    | _ => .ok (directory ++ [name])

/-- The place of the file that a write to a path goes to, new or not.  A path that ends in a
    slash or in a dot name can only mean a directory. -/
def target (fs : FileSystem) (p : Path) : Except FileError Place :=
  match refusal? p with
  | some e => .error e
  | none =>
    let named := dropTrailing (· = "") p.pieces
    match named.getLast? with
    | none => .error .isADirectory
    | some last => do
      let directory ← fs.walk (fs.start p) named.dropLast
      if !fs.isDirectory directory then .error .notADirectory
      else if named ≠ p.pieces ∨ last = "." ∨ last = ".." then .error .isADirectory
      else fs.targetIn directory last

/-! ### Content -/

/-- The content of the file that a path leads to. -/
def read (fs : FileSystem) (p : Path) : Except FileError ByteArray :=
  match fs.resolve p with
  | .error e => .error e
  | .ok place =>
    match fs.find? place with
    | some (.file content) => .ok content
    | some .directory => .error .isADirectory
    | none => .error .notFound

/-- The file system after the content of a path's file is replaced, new or not. -/
def write (fs : FileSystem) (p : Path) (content : ByteArray) : Except FileError FileSystem :=
  (fs.target p).map fun place => fs.put place (.file content)

/-- The file system after a write to a path's file, or the same one where that is refused. -/
def overwrite (fs : FileSystem) (p : Path) (content : ByteArray) : FileSystem :=
  match fs.write p content with
  | .ok written => written
  | .error _ => fs

/-- The file system without the file of a path; what is no file stays. -/
def remove (fs : FileSystem) (p : Path) : FileSystem :=
  match fs.resolve p with
  | .error _ => fs
  | .ok place =>
    match fs.find? place with
    | some (.file _) => fs.erase place
    | _ => fs

/-! ### Directories -/

/-- The directories along some pieces made where they are missing, and whether all could be. -/
def makeAlong (fs : FileSystem) : Place → List String → Bool × FileSystem
  | _, [] => (true, fs)
  | place, piece :: rest =>
    if piece = "" ∨ piece = "." then fs.makeAlong place rest
    else if piece = ".." then fs.makeAlong (parent place) rest
    else if nameLimit < piece.utf8ByteSize then (false, fs)
    else
      match fs.find? (place ++ [piece]) with
      | some .directory => fs.makeAlong (place ++ [piece]) rest
      | some (.file _) => (false, fs)
      | none => (fs.put (place ++ [piece]) .directory).makeAlong (place ++ [piece]) rest

/-- The pieces of a path without those at its end that mean nothing. -/
def meantPieces (p : Path) : List String :=
  dropTrailing (fun piece => piece = "" || piece = ".") p.pieces

/-- Whether the last piece of a path is a dot, with slashes behind it or none. -/
def endsInDot (p : Path) : Bool :=
  (dropTrailing (· = "") p.pieces).getLast? = some "."

/-- The file system with the directories of a path, and whether it has them all.  The empty path
    asks for nothing.  A path that ends in a dot asks for what stands before its last name; the
    directory of that name itself must exist. -/
def makeDirectories (fs : FileSystem) (p : Path) : Bool × FileSystem :=
  if p.text = "" then (true, fs)
  else if (refusal? p).isSome then (false, fs)
  else if endsInDot p then
    let (made, fs) := fs.makeAlong (fs.start p) (meantPieces p).dropLast
    (made && (fs.walk (fs.start p) p.pieces).toBool, fs)
  else fs.makeAlong (fs.start p) p.pieces

/-- Whether a place is below the working directory. -/
def isInside (fs : FileSystem) (place : Place) : Bool :=
  fs.workingDirectory.isPrefixOf place && place ≠ fs.workingDirectory

/-- The name of an entry from the working directory; that of a directory ends in a slash. -/
def nameOf (fs : FileSystem) : Place × Entry → String
  | (place, .directory) => String.intercalate "/" (place.drop fs.workingDirectory.length) ++ "/"
  | (place, .file _) => String.intercalate "/" (place.drop fs.workingDirectory.length)

/-- The names of all entries below the working directory, in order. -/
def names (fs : FileSystem) : List String :=
  ((fs.entries.filter fun e => fs.isInside e.1).map fs.nameOf).mergeSort fun a b => decide (a ≤ b)

end FileSystem

end Flashcards
