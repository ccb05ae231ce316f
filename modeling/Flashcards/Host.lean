import Flashcards.FileSystem
import Flashcards.Log
import Flashcards.Output

namespace Flashcards

/-!
# Hosts

A command runs on a host: the program's own surroundings, or a world held as a value.  What a
command does is the same on both, for it asks its host for everything else.
-/

/-- What a command may ask of its surroundings. -/
class Host (m : Type → Type) where
  /-- The content of a file. -/
  readFile : Path → m (Except FileError ByteArray)
  /-- Replaces the content of a file, new or not. -/
  writeFile : Path → ByteArray → m (Except FileError Unit)
  /-- Whether a path leads to anything. -/
  contains : Path → m Bool
  /-- The path from the root to what a path leads to. -/
  canonicalize : Path → m (Except FileError Path)
  /-- Writes to the output. -/
  print : String → m (Except OutputError Unit)
  /-- Sees to it that nothing written to the output is held back. -/
  flush : m (Except OutputError Unit)
  /-- Makes an entry in the log. -/
  log : Record → m Unit

/-- A state carried along does not change the host. -/
instance {σ : Type} {m : Type → Type} [Monad m] [Host m] : Host (StateT σ m) where
  readFile p := StateT.lift (Host.readFile p)
  writeFile p content := StateT.lift (Host.writeFile p content)
  contains p := StateT.lift (Host.contains p)
  canonicalize p := StateT.lift (Host.canonicalize p)
  print text := StateT.lift (Host.print text)
  flush := StateT.lift Host.flush
  log r := StateT.lift (Host.log r)

end Flashcards
