import Flashcards.Log.Pattern.Escape

namespace Flashcards.Pattern

open Flashcards.Text

/-!
# Sets in brackets

A set is written as its members between brackets, such as `[a-z_]`; behind `^` stand those that
are no members.  Sets may stand in sets, be named, as in `[[:alpha:]]`, and be joined by the
operators `&&`, `--` and `~~`.

* `Row` — how deep parts that stand side by side are nested.
* `readSet?` — how deep the set at the start of a pattern is nested, and what follows it.
-/

/-- Parts that stand side by side. -/
structure Row where
  count : Nat
  /-- How deep the deepest of them is nested. -/
  deepest : Nat
  deriving DecidableEq, Repr

namespace Row

/-- No parts. -/
def empty : Row :=
  ⟨0, 0⟩

/-- The parts and one more. -/
def add (r : Row) (depth : Nat) : Row :=
  ⟨r.count + 1, max r.deepest depth⟩

/-- How deep a row is nested: two parts or more make a level of their own. -/
def depth (r : Row) : Nat :=
  if r.count ≤ 1 then r.deepest else r.deepest + 1

end Row

/-- The names of sets. -/
def setNames : List String :=
  ["alnum", "alpha", "ascii", "blank", "cntrl", "digit", "graph", "lower", "print", "punct",
    "space", "upper", "word", "xdigit"]

/-- A colon, the name of a set and `:]`: whether those are meant that are no members, and what
    follows. -/
def readSetName? : List Char → Option (Bool × List Char)
  | ':' :: cs =>
    let negated := cs.head? = some '^'
    let named := if negated then cs.tail else cs
    match named.dropWhile (· ≠ ':') with
    | ':' :: ']' :: rest =>
      if setNames.contains (String.ofList (named.takeWhile (· ≠ ':'))) then some (negated, rest)
      else none
    | _ => none
  | _ => none

/-- Whether a mode allows a set of a name, or all but its members. -/
def Mode.allowsNamed (m : Mode) (negated : Bool) : Bool :=
  if m.unicode then !m.ignoreCase else !negated

/-- Whether an atom can be a member of a set.  Bytes are then below `0x80`. -/
def Mode.allowsMember (m : Mode) : Atom → Bool
  | .literal c _ => if m.unicode then !m.ignoreCase else c.toNat < 0x80
  | .shorthand negated => !m.unicode && !negated
  | .edge => false
  | .wordEdge => false

/-- An atom as it is written in a set, and what follows it. -/
def readMember? (m : Mode) : List Char → Option (Atom × List Char)
  | [] => none
  | '\\' :: cs => readEscape? m cs
  | c :: cs => some (.literal c false, cs)

/-- The character behind a hyphen.  Where blank characters do not count, neither does one `#` with
    them. -/
def Mode.behindHyphen? (m : Mode) (cs : List Char) : Option Char :=
  if m.spaced then
    match cs.dropWhile isBlank with
    | '#' :: rest => (rest.dropWhile isBlank).head?
    | rest => rest.head?
  else cs.head?

/-- Whether a hyphen in front of some characters makes a range. -/
def Mode.makesRange (m : Mode) (cs : List Char) : Bool :=
  m.behindHyphen? cs ≠ some ']' && m.behindHyphen? cs ≠ some '-'

/-- Whether two atoms are the ends of a range. -/
def Mode.allowsRange (m : Mode) : Atom → Atom → Bool
  | .literal first isByte, .literal last isByte' =>
    first ≤ last && m.allowsMember (.literal first isByte) && m.allowsMember (.literal last isByte')
  | _, _ => false

/-- What follows a member of a set or a range of members. -/
def afterMembers? (m : Mode) (cs : List Char) : Option (List Char) :=
  match readMember? m cs with
  | none => none
  | some (first, rest) =>
    match m.skip rest with
    | '-' :: behind =>
      if m.makesRange behind then
        match readMember? m (m.skip behind) with
        | some (last, rest) => if m.allowsRange first last then some rest else none
        | none => none
      else if m.allowsMember first then some ('-' :: behind) else none
    | rest => if m.allowsMember first then some rest else none

/-- A set that is being read. -/
structure OpenSet where
  /-- Only hyphens were read so far. -/
  fresh : Bool
  members : Row
  /-- How deep the sets in front of the last operator are nested. -/
  left : Option Nat
  deriving DecidableEq, Repr

namespace OpenSet

/-- A set of which nothing was read. -/
def start : OpenSet :=
  ⟨true, .empty, none⟩

/-- A set after one more member. -/
def add (s : OpenSet) (depth : Nat) : OpenSet :=
  { s with fresh := false, members := s.members.add depth }

/-- How deep the inside of a set is nested. -/
def depth (s : OpenSet) : Nat :=
  match s.left with
  | none => s.members.depth
  | some left => max left s.members.depth + 1

/-- A set after an operator. -/
def operate (s : OpenSet) : OpenSet :=
  ⟨false, .empty, some s.depth⟩

end OpenSet

/-- What follows the opening bracket of a set, and the `^` behind it.  Among bytes it would ask for
    bytes that are no characters. -/
def openSet? (m : Mode) (cs : List Char) : Option (List Char) :=
  match m.skip cs with
  | '^' :: rest => if m.unicode then some rest else none
  | rest => some rest

/-- How deep the outermost of some open sets is nested, and what follows its closing bracket.  The
    number bounds the steps. -/
def readSets? (m : Mode) : Nat → OpenSet → List OpenSet → List Char → Option (Nat × List Char)
  | 0, _, _, _ => none
  | n + 1, s, outer, cs =>
    match m.skip cs with
    | [] => none
    | c :: rest =>
      if s.fresh && (c = '-' || (c = ']' && s.members.count = 0)) then
        if m.allowsMember (.literal c false) then
          readSets? m n { s.add 0 with fresh := c = '-' } outer rest
        else none
      else if c = ']' then
        match outer with
        | [] => some (s.depth + 1, rest)
        | t :: outer => readSets? m n (t.add (s.depth + 1)) outer rest
      else if c = '[' then
        match readSetName? rest with
        | some (negated, rest) =>
          if m.allowsNamed negated then readSets? m n (s.add 0) outer rest else none
        | none =>
          match openSet? m rest with
          | some rest => readSets? m n .start (s :: outer) rest
          | none => none
      else if (c = '&' || c = '-' || c = '~') && rest.head? = some c then
        readSets? m n s.operate outer rest.tail
      else
        match afterMembers? m (c :: rest) with
        | some rest => readSets? m n (s.add 0) outer rest
        | none => none

/-- How deep a set is nested that was opened by a bracket, and what follows its closing one. -/
def readSet? (m : Mode) (steps : Nat) (cs : List Char) : Option (Nat × List Char) :=
  match openSet? m cs with
  | some rest => readSets? m steps .start [] rest
  | none => none

end Flashcards.Pattern
