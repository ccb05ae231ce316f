namespace Flashcards

/-!
# Output formats

A format is the layout of a flashcard: which side shows the headword and which the definition.
-/

/-- The layouts of a flashcard. -/
inductive Format where
  /-- Headword in front, reading and definition behind. -/
  | reading
  /-- Definition in front, reading and headword behind. -/
  | writing
  deriving DecidableEq, Repr

/-- All formats, in the order in which they are listed to a user. -/
def Format.all : List Format := [.reading, .writing]

/-- The name of a format in a document. -/
def Format.name : Format → String
  | .reading => "reading"
  | .writing => "writing"

/-- The format of a name; capital letters matter. -/
def Format.ofName? (name : String) : Option Format :=
  Format.all.find? fun f => f.name = name

/-- What is said of a name that is no format's where a stored format is read back. -/
def Format.unknownVariant (name : String) : String :=
  "unknown variant `" ++ name ++ "`, expected " ++
    String.intercalate " or " (Format.all.map fun f => "`" ++ f.name ++ "`")

/-- The format stored under a name. -/
def Format.decode (name : String) : Except String Format :=
  match Format.ofName? name with
  | some f => .ok f
  | none => .error (Format.unknownVariant name)

end Flashcards
