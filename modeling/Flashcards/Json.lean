namespace Flashcards

/-!
# JSON values and their layout

* `Json` — the values that reports are made of; an object keeps the order of its members.
* `Json.pretty` — the text of a value, one element or member a line, two spaces for each level.
* `Json.quote` — a string in quotes, with escapes for just the characters that need one.
-/

/-- A JSON value. -/
inductive Json where
  | bool (value : Bool)
  | number (value : Nat)
  | string (value : String)
  | array (elements : List Json)
  | object (members : List (String × Json))

namespace Json

/-- A character as it is written inside a string. -/
def escape (c : Char) : List Char :=
  if c = '"' then ['\\', '"']
  else if c = '\\' then ['\\', '\\']
  else if c = '\n' then ['\\', 'n']
  else if c = '\r' then ['\\', 'r']
  else if c = '\t' then ['\\', 't']
  else if c = '\x08' then ['\\', 'b']
  else if c = '\x0C' then ['\\', 'f']
  else if c.toNat < 0x20 then
    ['\\', 'u', '0', '0', Nat.digitChar (c.toNat / 16), Nat.digitChar (c.toNat % 16)]
  else [c]

/-- A string in quotes. -/
def quote (s : String) : String :=
  String.ofList ('"' :: s.toList.flatMap escape ++ ['"'])

/-- The start of a new line at some level. -/
def newline (level : Nat) : String :=
  String.ofList ('\n' :: List.replicate (2 * level) ' ')

mutual

/-- The text of a value that starts at some level, in pieces. -/
def layout (level : Nat) : Json → List String
  | .bool true => ["true"]
  | .bool false => ["false"]
  | .number n => [toString n]
  | .string s => [quote s]
  | .array [] => ["[]"]
  | .array (e :: es) =>
    "[" :: newline (level + 1) :: layout (level + 1) e ++ layoutElements (level + 1) es ++
      [newline level, "]"]
  | .object [] => ["\x7b\x7d"]
  | .object ((key, v) :: ms) =>
    "\x7b" :: newline (level + 1) :: quote key :: ": " :: layout (level + 1) v ++
      layoutMembers (level + 1) ms ++ [newline level, "\x7d"]

/-- The text of the elements after the first. -/
def layoutElements (level : Nat) : List Json → List String
  | [] => []
  | e :: es => "," :: newline level :: layout level e ++ layoutElements level es

/-- The text of the members after the first. -/
def layoutMembers (level : Nat) : List (String × Json) → List String
  | [] => []
  | (key, v) :: ms =>
    "," :: newline level :: quote key :: ": " :: layout level v ++ layoutMembers level ms

end

/-- The text of a value. -/
def pretty (v : Json) : String :=
  String.join (v.layout 0)

end Json

end Flashcards
