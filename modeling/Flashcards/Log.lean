namespace Flashcards

/-!
# Log records

A record has a level, the part of the program that it comes from, a message and fields.

* `Record.text` — a record as text.
* `Record.hasField` — whether a record has a field of some name.
-/

/-- How much a record matters, from the least to the most. -/
inductive Level where
  | trace
  | debug
  | info
  | warn
  | error
  deriving DecidableEq, Repr

/-- The place of a level in the order of the levels. -/
def Level.rank : Level → Nat
  | .trace => 0
  | .debug => 1
  | .info => 2
  | .warn => 3
  | .error => 4

/-- The name of a level in a line. -/
def Level.name : Level → String
  | .trace => "TRACE"
  | .debug => "DEBUG"
  | .info => "INFO"
  | .warn => "WARN"
  | .error => "ERROR"

/-- One entry of a log. -/
structure Record where
  level : Level
  /-- The part of the program that made the record. -/
  target : String
  message : String
  fields : List (String × String)
  deriving DecidableEq, Repr

/-- The characters below `0x80` that steer a terminal. -/
def steeringChars : List Char :=
  ['\x07', '\x08', '\x0C', '\x1B', '\x7F']

/-- A character of a message as it is written: by its code if it steers a terminal, in one of two
    forms, for codes below `0x80` and for the rest. -/
def shownChar (c : Char) : List Char :=
  let code := [Nat.digitChar (c.toNat / 16), Nat.digitChar (c.toNat % 16)]
  if steeringChars.contains c then ['\\', 'x'] ++ code
  else if 0x80 ≤ c.toNat && c.toNat ≤ 0x9F then ['\\', 'u', '\x7b'] ++ code ++ ['\x7d']
  else [c]

/-- A message as it is written. -/
def shownMessage (message : String) : String :=
  String.ofList (message.toList.flatMap shownChar)

/-- A record as text: its fields follow its message, and are written as they are. -/
def Record.text (r : Record) : String :=
  r.level.name ++ " " ++ r.target ++ ": " ++ shownMessage r.message ++
    String.join (r.fields.map fun f => " " ++ f.1 ++ "=" ++ f.2)

/-- Whether a record has a field of some name.  The message is a field too. -/
def Record.hasField (r : Record) (name : String) : Bool :=
  name = "message" || r.fields.any (·.1 = name)

end Flashcards
