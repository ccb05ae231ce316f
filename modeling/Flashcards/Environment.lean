import Flashcards.Text.Alphanumeric
import Flashcards.Text.Blank

namespace Flashcards

open Flashcards.Text

/-!
# Variables of the environment, and files of assignments

The environment is a list of entries, in each of which a variable is written as `NAME=VALUE`.

* `Variables.get?` — the value of a variable.
* `Variables.insertNew` — one more variable.

A file of assignments gives values to variables, one `NAME=VALUE` after the other.

* Lines that start with `#` are comments, and `export` may stand before a name.
* A value may be quoted, wholly or in parts.  Inside single quotes everything stands for itself;
  elsewhere a backslash makes the next character plain, and `\n` is a line end.
* `$NAME` and `${NAME}` stand for the value of a variable, except in single quotes.  Without
  braces the name goes on as long as there are letters and digits.
* An open quote, or a backslash at the end of a line, carries an assignment on to the next line.

Reading stops at the first line that is malformed: what stands before it counts.

* `Assignment.readFile` — the assignments of a file.
* `Variables.extend` — the variables after some assignments; no value is ever replaced.
-/

/-- Names and values. -/
abbrev Variables := List (String × String)

/-- The value of a variable: what follows its name and an equals sign in the first entry that
    starts with them.  So an entry can be asked for under a longer name than its own: if the value
    of `A` is `B=C`, that of `A=B` is `C`.  Nothing has the empty name. -/
def Variables.get? (vs : Variables) (name : String) : Option String :=
  if name = "" then none
  else
    vs.findSome? fun v =>
      ((name.toList ++ ['=']).isPrefixOf? (v.1.toList ++ '=' :: v.2.toList)).map String.ofList

/-- The variables with one more, unless it has a value already. -/
def Variables.insertNew (vs : Variables) (name value : String) : Variables :=
  if (vs.get? name).isSome then vs else vs ++ [(name, value)]

/-! ### Assignments -/

/-- A part of a value. -/
inductive Piece where
  | plain (c : Char)
  | variable (name : String)
  deriving DecidableEq, Repr

/-- A variable and the value that it is given. -/
structure Assignment where
  name : String
  value : List Piece
  deriving DecidableEq, Repr

namespace Assignment

/-! ### Where an assignment ends

A line end closes an assignment unless a quote or an escape is open. -/

/-- What is open at a character of an assignment. -/
inductive Opening where
  | nothing
  | space
  | escape
  | single
  | singleEscape
  | double
  | doubleEscape
  deriving DecidableEq, Repr

/-- What is open after one more character. -/
def Opening.next : Opening → Char → Opening
  | .escape, _ => .nothing
  | .singleEscape, _ => .single
  | .doubleEscape, _ => .double
  | .single, c => if c = '\\' then .singleEscape else if c = '\x27' then .nothing else .single
  | .double, c => if c = '\\' then .doubleEscape else if c = '"' then .nothing else .double
  | .space, c =>
    if c = '\\' then .escape else if c = '"' then .double else if c = '\x27' then .single
    else .nothing
  | .nothing, c =>
    if isBlank c && c ≠ '\n' && c ≠ '\r' then .space
    else if c = '\\' then .escape else if c = '"' then .double else if c = '\x27' then .single
    else .nothing

/-- What is open after a line, or nothing where a comment starts in it, and the characters of the
    line in front of the comment.  They stand before those that were read, the last one first. -/
def Opening.afterLine (state : Opening) (read : List Char) :
    List Char → Option Opening × List Char
  | [] => (some state, read)
  | c :: cs =>
    if state = .space && c = '#' then (none, read)
    else (state.next c).afterLine (c :: read) cs

/-- A text without the line end that closes it; both are given from the last character on. -/
def dropLineEnd : List Char → List Char
  | '\n' :: '\r' :: read => read
  | '\n' :: read => read
  | read => read

/-- The texts of the assignments of some lines, each line with its end.  `held` are the lines of an
    assignment that is open, the last character first.  A line that cannot be decoded, or an
    assignment that is open at the end, makes an end. -/
def joinLines (held : List Char) (state : Opening) :
    List (Option (List Char)) → List (Option (List Char))
  | [] => if state = .nothing then [] else [none]
  | none :: _ => [none]
  | some line :: rest =>
    if held.isEmpty && (trimStart line).head? = some '#' then
      some [] :: joinLines [] .nothing rest
    else
      match state.afterLine held line with
      | (none, read) => some read.reverse :: joinLines [] .nothing rest
      | (some .nothing, read) => some (dropLineEnd read).reverse :: joinLines [] .nothing rest
      | (some opened, read) => joinLines read opened rest

/-! ### The value -/

/-- What the next character of a value belongs to.  `quoted` says whether a double quote is
    open. -/
inductive Mode where
  | bare
  | single
  | double
  | escape (quoted : Bool)
  /-- A name after a dollar sign, its last character first. -/
  | name (quoted : Bool) (read : List Char)
  /-- A name in braces, its last character first. -/
  | bracedName (quoted : Bool) (read : List Char)
  /-- The value is complete: only a comment may follow. -/
  | done
  deriving DecidableEq, Repr

/-- The mode outside names and escapes. -/
def Mode.plain (quoted : Bool) : Mode :=
  if quoted then .double else .bare

/-- The piece for a name that was read. -/
def namePiece (read : List Char) : Piece :=
  .variable (String.ofList read.reverse)

/-- The pieces of a value. -/
def readValue : Mode → List Char → Option (List Piece)
  | .bare, [] => some []
  | .done, [] => some []
  | .escape false, [] => some []
  | .name false read, [] => some [namePiece read]
  | _, [] => none
  | .done, c :: cs =>
    if c = ' ' || c = '\t' then readValue .done cs else if c = '#' then some [] else none
  | .escape quoted, c :: cs =>
    if c = '\\' || c = '\x27' || c = '"' || c = '$' || c = ' ' then
      (readValue (.plain quoted) cs).map (.plain c :: ·)
    else if c = 'n' then (readValue (.plain quoted) cs).map (.plain '\n' :: ·)
    else none
  | .single, c :: cs =>
    if c = '\x27' then readValue .bare cs else (readValue .single cs).map (.plain c :: ·)
  | .name quoted read, c :: cs =>
    if isAlphanumeric c then readValue (.name quoted (c :: read)) cs
    else if c = '\x7b' && read.isEmpty then readValue (.bracedName quoted []) cs
    else if c = '$' then (readValue (.name quoted []) cs).map (namePiece read :: ·)
    else (readValue (.plain quoted) cs).map fun ps => namePiece read :: .plain c :: ps
  | .bracedName quoted read, c :: cs =>
    if c = '\x7d' then (readValue (.plain quoted) cs).map (namePiece read :: ·)
    else readValue (.bracedName quoted (c :: read)) cs
  | .double, c :: cs =>
    if c = '$' then readValue (.name true []) cs
    else if c = '"' then readValue .bare cs
    else if c = '\\' then readValue (.escape true) cs
    else (readValue .double cs).map (.plain c :: ·)
  | .bare, c :: cs =>
    if c = '$' then readValue (.name false []) cs
    else if c = '\x27' then readValue .single cs
    else if c = '"' then readValue .double cs
    else if c = '\\' then readValue (.escape false) cs
    else if c = ' ' || c = '\t' then readValue .done cs
    else (readValue .bare cs).map (.plain c :: ·)

/-! ### The name -/

/-- The name at the start of a text and what follows it. -/
def readName? : List Char → Option (List Char × List Char)
  | [] => none
  | c :: cs =>
    if c.isAlpha || c = '_' then
      some (c :: cs.takeWhile (fun d => d.isAlphanum || d = '_' || d = '.'),
        cs.dropWhile (fun d => d.isAlphanum || d = '_' || d = '.'))
    else none

/-- A name with an equals sign behind it, and what follows. -/
def readHead? (cs : List Char) : Option (List Char × List Char) :=
  match readName? cs with
  | none => none
  | some (name, rest) =>
    match trimStart rest with
    | '=' :: value => some (name, value)
    | other =>
      if name = "export".toList then
        match readName? other with
        | none => none
        | some (exported, rest) =>
          match trimStart rest with
          | '=' :: value => some (exported, value)
          | _ => none
      else none

/-- The assignment of a text, unless it is empty or a comment; nothing if it is malformed. -/
def ofText? (cs : List Char) : Option (Option Assignment) :=
  match trimStart (trimEnd cs) with
  | [] => some none
  | '#' :: _ => some none
  | text =>
    match readHead? text with
    | none => none
    | some (name, rest) =>
      match trimStart rest with
      | [] => some (some ⟨String.ofList name, []⟩)
      | '#' :: _ => some (some ⟨String.ofList name, []⟩)
      | value => (readValue .bare value).map fun ps => some ⟨String.ofList name, ps⟩

/-- The assignments up to the first malformed text. -/
def ofTexts : List (Option (List Char)) → List Assignment
  | [] => []
  | none :: _ => []
  | some cs :: rest =>
    match ofText? cs with
    | none => []
    | some none => ofTexts rest
    | some (some a) => a :: ofTexts rest

/-! ### The file -/

/-- The lines of a file, each with its end, decoded one by one. -/
def fileLines (content : ByteArray) : List (Option (List Char)) :=
  let cut := content.toList.splitOn '\n'.toNat.toUInt8
  let ended := cut.dropLast.map fun bytes => bytes ++ ['\n'.toNat.toUInt8]
  let last := (cut.getLast?.filter fun bytes => !bytes.isEmpty).toList
  (ended ++ last).map fun bytes => (String.fromUTF8? bytes.toByteArray).map String.toList

/-- A file without the mark of its byte order. -/
def dropByteOrderMark (content : ByteArray) : ByteArray :=
  match content.toList with
  | 0xEF :: 0xBB :: 0xBF :: rest => rest.toByteArray
  | _ => content

/-- The assignments of a file, up to its first malformed line. -/
def readFile (content : ByteArray) : List Assignment :=
  ofTexts (joinLines [] .nothing (fileLines (dropByteOrderMark content)))

end Assignment

/-- The text of a piece under some variables; a variable without a value stands for nothing. -/
def Piece.text (vs : Variables) : Piece → String
  | .plain c => c.toString
  | .variable name => (vs.get? name).getD ""

/-- The variables after some assignments, made one after the other. -/
def Variables.extend (vs : Variables) : List Assignment → Variables
  | [] => vs
  | a :: rest =>
    (vs.insertNew a.name (String.join (a.value.map (Piece.text vs)))).extend rest

end Flashcards
