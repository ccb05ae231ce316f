import Flashcards.Log
import Flashcards.Log.Pattern
import Flashcards.Text.Alphanumeric
import Flashcards.Text.Numeral

namespace Flashcards

open Flashcards.Text

/-!
# Directives of a log filter

A directive says which records it is about, and the least level at which they pass.

* `info` is about all records, and `core=debug` about those of the parts of the program whose
  names start with `core`.
* `core[{line}]=debug` is about those of them that have a field `line`.  The target may be left
  out.
* A name in the brackets, as in `[task]`, or a value, as in `[{line=3}]`, asks for the records of a
  task.  There are none.
* Where the level is left out, all levels pass.

A value is a number or a pattern, and has to be readable as one.

Blank characters around a directive do not count while it is scanned, but its parts are cut out of
the text with them.  So a directive with blank characters in front has a target that nothing has,
no level can be read in it, and what counts as its value starts before the value.

* `Directive.ofText` — the directive of a text, or why it has none.
* `Directive.covers` — whether a directive is about a record.
-/

/-- The least level that passes. -/
inductive Threshold where
  | off
  | level (least : Level)
  deriving DecidableEq, Repr

namespace Threshold

/-- Whether a level passes. -/
def admits : Threshold → Level → Bool
  | .off, _ => false
  | .level least, l => least.rank ≤ l.rank

/-- The threshold that lets all levels pass. -/
def lowest : Threshold :=
  .level .trace

/-- The threshold of a number. -/
def ofNumber? : Nat → Option Threshold
  | 0 => some .off
  | 1 => some (.level .error)
  | 2 => some (.level .warn)
  | 3 => some (.level .info)
  | 4 => some (.level .debug)
  | 5 => some (.level .trace)
  | _ => none

/-- The threshold of a name, in capital letters or not. -/
def ofName? (name : List Char) : Option Threshold :=
  match String.ofList (name.map Char.toLower) with
  | "off" => some .off
  | "error" => some (.level .error)
  | "warn" => some (.level .warn)
  | "info" => some (.level .info)
  | "debug" => some (.level .debug)
  | "trace" => some (.level .trace)
  | _ => none

/-- The threshold of a number or a name. -/
def ofChars? (cs : List Char) : Option Threshold :=
  match unsigned64? cs with
  | some n => ofNumber? n
  | none => ofName? cs

end Threshold

/-- Which of the records of its target a directive is about. -/
inductive Scope where
  | all
  /-- Those with a field of some name. -/
  | field (name : String)
  /-- Those of a named task, of which there are none. -/
  | task
  deriving DecidableEq, Repr

/-- Whether a record is in a scope. -/
def Scope.contains : Scope → Record → Bool
  | .all, _ => true
  | .field name, r => r.hasField name
  | .task, _ => false

/-- What a directive says. -/
structure Directive where
  /-- The start of the names of the parts of the program that it is about. -/
  target : String
  scope : Scope
  threshold : Threshold
  deriving DecidableEq, Repr

/-- Why a text is no directive. -/
inductive DirectiveFault where
  | malformed
  | unknownLevel
  /-- The value of a field is a pattern that cannot be read. -/
  | unreadableValue (fault : Pattern.Fault)
  deriving DecidableEq, Repr

/-- The wording of a fault. -/
def DirectiveFault.message : DirectiveFault → String
  | .malformed => "invalid filter directive"
  | .unknownLevel =>
    "error parsing level filter: expected one of \"off\", \"error\", \"warn\", \"info\", " ++
      "\"debug\", \"trace\", or a number 0-5"
  | .unreadableValue fault => "invalid field filter: " ++ fault.message

namespace Directive

/-- Whether a directive is about a record. -/
def covers (d : Directive) (r : Record) : Bool :=
  d.target.toList.isPrefixOf r.target.toList && d.scope.contains r

/-! ### The text of a directive -/

/-- Whether a target can start with a character. -/
def startsTarget (c : Char) : Bool :=
  c = '-' || c = ':' || c = '_' || isAlphanumeric c

/-- Whether a target that has started goes on with a character. -/
def continuesTarget (c : Char) : Bool :=
  c ≠ '=' && c ≠ '['

/-- Whether the name of a task goes on with a character. -/
def continuesTask (c : Char) : Bool :=
  c ≠ ']' && c ≠ '\x7b'

/-- Whether what stands in braces goes on with a character. -/
def continuesField (c : Char) : Bool :=
  c ≠ '\x7d'

/-- The part of a text between two places, counted in bytes; nothing where they part a
    character. -/
def slice? (text : List Char) (start stop : Nat) : Option (List Char) :=
  (String.fromUTF8? ((String.ofList text).toUTF8.extract start stop)).map String.toList

/-- The characters of a field as they are cut out: as many bytes as it has, as far behind the start
    of the text as the field is behind the margin. -/
def cutField? (margin before field : List Char) : Option (List Char) :=
  let start := (String.ofList before).utf8ByteSize
  slice? (margin ++ before ++ field) start (start + (String.ofList field).utf8ByteSize)

/-- Why the value of a field cannot be read.  It stands behind the first equals sign, up to the
    next. -/
def valueFault? (field : List Char) : Option DirectiveFault :=
  match field.splitOn '=' with
  | _ :: value :: _ =>
    if isDecimal value then none else (Pattern.fault? value).map .unreadableValue
  | _ => none

/-- Why what stands in braces is no field. -/
def fieldFault? (margin before field : List Char) : Option DirectiveFault :=
  if field.isEmpty then some .malformed
  else
    match cutField? margin before field with
    | some cut => valueFault? cut
    | none => some .malformed

/-- The scope that is written behind an opening bracket, and what follows the closing one.
    `before` is what stands between the margin and the opening bracket. -/
def readScope (margin before cs : List Char) : Except DirectiveFault (Scope × List Char) :=
  let task := cs.takeWhile continuesTask
  match cs.dropWhile continuesTask with
  | ']' :: rest => .ok (.task, rest)
  | '\x7b' :: inner =>
    let field := inner.takeWhile continuesField
    match inner.dropWhile continuesField with
    | '\x7d' :: behind =>
      match fieldFault? margin (before ++ '[' :: task ++ ['\x7b']) field, behind with
      | some fault, _ => .error fault
      | none, ']' :: rest =>
        if task.isEmpty && !field.contains '=' then .ok (.field (String.ofList field), rest)
        else .ok (.task, rest)
      | none, _ => .error .malformed
    | _ => .error .malformed
  | _ => .error .malformed

/-- The threshold that is written behind what a directive is about. -/
def readThreshold (margin cs : List Char) : Except DirectiveFault Threshold :=
  if cs.all isBlank then .ok .lowest
  else
    match cs with
    | '=' :: level =>
      if !margin.isEmpty then .error .unknownLevel
      else if level.isEmpty then .ok .lowest
      else
        match Threshold.ofChars? level with
        | some threshold => .ok threshold
        | none => .error .unknownLevel
    | _ => .error .malformed

/-- The directive for a target, of the text that follows the target. -/
def ofTarget (margin target : List Char) : List Char → Except DirectiveFault Directive
  | '[' :: cs => do
    let (scope, rest) ← readScope margin target cs
    let threshold ← readThreshold margin rest
    return ⟨String.ofList (margin ++ target), scope, threshold⟩
  | rest => do
    let threshold ← readThreshold margin rest
    return ⟨String.ofList (margin ++ target), .all, threshold⟩

/-- The directive of a text that is a level or a target alone. -/
def ofWord (text : String) : Directive :=
  match Threshold.ofChars? text.toList with
  | some threshold => ⟨"", .all, threshold⟩
  | none => ⟨text, .all, .lowest⟩

/-- The directive of a text. -/
def ofText (text : String) : Except DirectiveFault Directive :=
  let margin := text.toList.takeWhile isBlank
  match text.toList.dropWhile isBlank with
  | [] => .error .malformed
  | c :: cs =>
    if c = '[' then ofTarget margin [] (c :: cs)
    else if !startsTarget c then .error .malformed
    else
      match (c :: cs).dropWhile continuesTarget with
      | [] => .ok (ofWord text)
      | rest => ofTarget margin ((c :: cs).takeWhile continuesTarget) rest

end Directive

end Flashcards
