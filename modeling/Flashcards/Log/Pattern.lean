import Flashcards.Log.Pattern.Bracket
import Flashcards.Text.Alphanumeric

namespace Flashcards.Pattern

open Flashcards.Text

/-!
# Patterns

A pattern is a regular expression.  It is written between braces, so that no closing brace follows
an opening one in it.  Nothing is ever matched with a pattern; what shows is whether it can be read.

* `fault?` — why a pattern cannot be read.
-/

/-- Why a pattern cannot be read. -/
inductive Fault where
  | malformed
  /-- Where words start and end is not known. -/
  | wordEdge
  deriving DecidableEq, Repr

/-- The wording of a fault. -/
def Fault.message : Fault → String
  | .malformed => "error building NFA"
  | .wordEdge =>
    "unsupported regex feature for DFAs: cannot build DFAs for regexes with Unicode word " ++
      "boundaries; switch to ASCII word boundaries, or heuristically enable Unicode word " ++
      "boundaries or use a different regex engine"

/-- A group that is being read. -/
structure OpenGroup where
  /-- The alternatives that are complete. -/
  branches : Row
  /-- The parts of the alternative that is being read. -/
  parts : Row
  /-- How deep the last part is nested, where it can be repeated. -/
  last : Option Nat
  deriving DecidableEq, Repr

namespace OpenGroup

/-- A group of which nothing was read. -/
def start : OpenGroup :=
  ⟨.empty, .empty, none⟩

/-- A group after one more part. -/
def add (g : OpenGroup) (depth : Nat) : OpenGroup :=
  { g with parts := g.parts.add depth, last := some depth }

/-- A group after switches, a part that cannot be repeated. -/
def addSwitches (g : OpenGroup) : OpenGroup :=
  { g with parts := g.parts.add 0, last := none }

/-- A group after its last part is repeated, if it can be. -/
def repeatLast? (g : OpenGroup) : Option OpenGroup :=
  g.last.map fun depth =>
    { g with parts := ⟨g.parts.count, max g.parts.deepest (depth + 1)⟩, last := some (depth + 1) }

/-- A group after one more alternative. -/
def branch (g : OpenGroup) : OpenGroup :=
  ⟨g.branches.add g.parts.depth, .empty, none⟩

/-- How deep the inside of a group is nested. -/
def depth (g : OpenGroup) : Nat :=
  (g.branches.add g.parts.depth).depth

end OpenGroup

/-- What was read of a pattern. -/
structure Reading where
  mode : Mode
  group : OpenGroup
  /-- The groups around it, each with the modes outside the group in it. -/
  outer : List (Mode × OpenGroup)
  /-- The names of groups. -/
  names : List (List Char)
  /-- Starts or ends of words occur, as words of characters and not of bytes. -/
  hasWordEdge : Bool
  deriving DecidableEq, Repr

namespace Reading

/-- Nothing. -/
def start : Reading :=
  ⟨.start, .start, [], [], false⟩

/-- One more part. -/
def add (r : Reading) (depth : Nat) : Reading :=
  { r with group := r.group.add depth }

/-- One more atom. -/
def addAtom? (r : Reading) (a : Atom) : Option Reading :=
  if r.mode.allows a then
    some { r.add 0 with hasWordEdge := r.hasWordEdge || (a = .wordEdge && r.mode.unicode) }
  else none

/-! ### Groups -/

/-- A group opened in some modes. -/
def openGroup (r : Reading) (mode : Mode) : Reading :=
  { r with mode := mode, group := .start, outer := (r.mode, r.group) :: r.outer }

/-- The group closed, if it was opened. -/
def closeGroup? (r : Reading) : Option Reading :=
  match r.outer with
  | [] => none
  | (mode, outside) :: outer =>
    some { r with mode := mode, group := outside.add (r.group.depth + 1), outer := outer }

/-- Whether the name of a group starts with a character. -/
def startsName (c : Char) : Bool :=
  c = '_' || isLetter c

/-- Whether the name of a group goes on with a character. -/
def continuesName (c : Char) : Bool :=
  c = '_' || c = '.' || c = '[' || c = ']' || isAlphanumeric c

/-- A group opened whose name follows, and what follows the name. -/
def openNamed? (r : Reading) (cs : List Char) : Option (Reading × List Char) :=
  let name := cs.takeWhile continuesName
  match cs.dropWhile continuesName with
  | '>' :: rest =>
    if (name.head?.map startsName).getD false && !r.names.contains name then
      some ({ r.openGroup r.mode with names := name :: r.names }, rest)
    else none
  | _ => none

/-- What follows the question mark at the start of a group: switches, alone or for the group. -/
def openSwitched? (r : Reading) (cs : List Char) : Option (Reading × List Char) :=
  match readSwitches? cs with
  | some (switches, ':' :: rest) => some (r.openGroup (r.mode.turned switches), rest)
  | some (switches, ')' :: rest) =>
    if switches.isEmpty then none
    else some ({ r with mode := r.mode.turned switches, group := r.group.addSwitches }, rest)
  | _ => none

/-- What follows an opening parenthesis.  Groups that look ahead or back cannot be read. -/
def open? (r : Reading) (cs : List Char) : Option (Reading × List Char) :=
  match r.mode.skip cs with
  | '?' :: '<' :: '=' :: _ => none
  | '?' :: '<' :: '!' :: _ => none
  | '?' :: 'P' :: '<' :: rest => r.openNamed? rest
  | '?' :: '<' :: rest => r.openNamed? rest
  | '?' :: rest => r.openSwitched? rest
  | rest => some (r.openGroup r.mode, rest)

/-! ### Parts -/

/-- What follows the sign of a repetition: a question mark changes which match is preferred. -/
def afterRepetition : List Char → List Char
  | '?' :: rest => rest
  | rest => rest

/-- The reading after the next character and those that belong to it, and what follows.  A counted
    repetition would need a closing brace. -/
def next? (r : Reading) (steps : Nat) (c : Char) (cs : List Char) :
    Option (Reading × List Char) :=
  match c with
  | '(' => r.open? cs
  | ')' => r.closeGroup?.map (·, cs)
  | '|' => some ({ r with group := r.group.branch }, cs)
  | '?' | '*' | '+' =>
    r.group.repeatLast?.map fun g => ({ r with group := g }, afterRepetition cs)
  | '\x7b' => none
  | '[' => (readSet? r.mode steps cs).map fun p => (r.add p.1, p.2)
  | '\\' => (readEscape? r.mode cs).bind fun p => (r.addAtom? p.1).map (·, p.2)
  | '.' => if r.mode.unicode then some (r.add 0, cs) else none
  | '^' | '$' => some (r.add 0, cs)
  | _ => (r.addAtom? (.literal c false)).map (·, cs)

/-- The reading of all that follows.  The number bounds the steps. -/
def readAll? : Nat → Reading → List Char → Option Reading
  | 0, _, _ => none
  | n + 1, r, cs =>
    match r.mode.skip cs with
    | [] => some r
    | c :: rest =>
      match r.next? n c rest with
      | some (r, rest) => readAll? n r rest
      | none => none

end Reading

/-- The number of levels that a pattern may be nested. -/
def depthLimit : Nat := 250

/-- Why a pattern cannot be read, if it cannot. -/
def fault? (cs : List Char) : Option Fault :=
  match Reading.start.readAll? (cs.length + 1) cs with
  | none => some .malformed
  | some r =>
    if !r.outer.isEmpty || depthLimit < r.group.depth then some .malformed
    else if r.hasWordEdge then some .wordEdge
    else none

end Flashcards.Pattern
