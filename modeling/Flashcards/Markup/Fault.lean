namespace Flashcards.Markup

/-!
# Faults and diagnostics

A fault says what is wrong with one line.  A diagnostic is a fault with its line; it is what a
reader of a faulty document gets in place of the listing.

* `Fault.message`, `Diagnostic.text` — the wordings.
* `Halt` — a fault, or a reference of the registry that leads nowhere.
-/

/-- What can be wrong with one line of a document. -/
inductive Fault where
  /-- A group is opened inside another one. -/
  | nestedGroup
  /-- A command that names a group has no words after it. -/
  | missingName
  /-- A command has more words than the number that it takes. -/
  | tooManyWords (allowed : Nat)
  /-- A group of that name was opened before. -/
  | nameTaken (name : String)
  /-- There is no open group to close. -/
  | noOpenGroup
  /-- A group is closed in the middle of a term. -/
  | unfinishedTerm
  /-- A group is shown while another one is open. -/
  | showInsideGroup
  | unknownGroup (name : String)
  /-- A group is shown in no format. -/
  | noFormats
  | unknownFormat (name : String)
  | unknownCommand (word : String)
  /-- Content stands outside all groups. -/
  | strayContent
  /-- The document ends inside a group. -/
  | unclosedGroup
  deriving DecidableEq, Repr

/-- The wording of a fault. -/
def Fault.message : Fault → String
  | .nestedGroup => "cannot open new group, already inside group"
  | .missingName => "no group name specified"
  | .tooManyWords 0 => "this command takes no arguments"
  | .tooManyWords (_ + 1) => "too many parameters"
  | .nameTaken name => "group already exists: " ++ name
  | .noOpenGroup => "cannot close group, not inside group"
  | .unfinishedTerm =>
    "group contains an incomplete term " ++
      "(check to make sure each term has corresponding pinyin and definition)"
  | .showInsideGroup => "this command is not allowed inside a group"
  | .unknownGroup name => "group does not exist: " ++ name
  | .noFormats => "no output formats specified"
  | .unknownFormat name => "invalid format name specified: " ++ name
  | .unknownCommand word => "unknown parser command: " ++ word
  | .strayContent => "only parser commands are allowed outside groups"
  | .unclosedGroup => "group not closed"

/-- A fault located in a document. -/
structure Diagnostic where
  /-- Lines are counted from one; the end of the document counts as the line after the last. -/
  line : Nat
  /-- The faulty line as it stands in the document. -/
  raw : String
  fault : Fault
  deriving DecidableEq, Repr

/-- The wording of a diagnostic's fault. -/
def Diagnostic.message (d : Diagnostic) : String :=
  d.fault.message

/-- The text shown in place of a listing. -/
def Diagnostic.text (d : Diagnostic) : String :=
  "Error on line " ++ toString d.line ++ ": " ++ d.message ++ "\n\n" ++ d.raw

/-- Why reading stops: at something that is wrong with the document, or because the registry of
    groups refers to a place where no group stands. -/
inductive Halt (ε : Type) where
  | fault (e : ε)
  | lost
  deriving DecidableEq, Repr

end Flashcards.Markup
