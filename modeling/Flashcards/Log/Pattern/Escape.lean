import Flashcards.Log.Pattern.Mode

namespace Flashcards.Pattern

/-!
# Escapes in a pattern

* `readEscape?` — what a backslash and the characters behind it stand for.
* `Mode.allows` — whether what they stand for can be meant in a mode.
-/

/-- The smallest parts of a pattern. -/
inductive Atom where
  /-- A character, or the byte of its code. -/
  | literal (c : Char) (isByte : Bool)
  /-- All digits, blank characters or word characters, or all but those. -/
  | shorthand (negated : Bool)
  /-- The start or the end of the text. -/
  | edge
  /-- The start or the end of a word, or where there is none. -/
  | wordEdge
  deriving DecidableEq, Repr

/-- The value of a hexadecimal digit. -/
def hexValue? (c : Char) : Option Nat :=
  if '0' ≤ c && c ≤ '9' then some (c.toNat - '0'.toNat)
  else if 'a' ≤ c && c ≤ 'f' then some (c.toNat - 'a'.toNat + 10)
  else if 'A' ≤ c && c ≤ 'F' then some (c.toNat - 'A'.toNat + 10)
  else none

/-- The number of so many hexadecimal digits, behind those that were read, and what follows. -/
def readHex? (m : Mode) (read : Nat) : Nat → List Char → Option (Nat × List Char)
  | 0, cs => some (read, cs)
  | n + 1, cs =>
    match m.skip cs with
    | [] => none
    | c :: rest =>
      match hexValue? c with
      | some digit => readHex? m (16 * read + digit) n rest
      | none => none

/-- The character whose code is written in so many hexadecimal digits, and what follows. -/
def readCode? (m : Mode) (digits : Nat) (isByte : Bool) (cs : List Char) :
    Option (Atom × List Char) :=
  match readHex? m 0 digits cs with
  | some (code, rest) =>
    if code.isValidChar then some (.literal (Char.ofNat code) isByte, rest) else none
  | none => none

/-- Whether a backslash makes a character plain. -/
def isPlainEscaped (c : Char) : Bool :=
  c.toNat < 0x80 && !c.isAlphanum

/-- What the characters behind a backslash stand for, and what follows them. -/
def readEscape? (m : Mode) : List Char → Option (Atom × List Char)
  | [] => none
  | c :: cs =>
    match c with
    | 'x' => readCode? m 2 true cs
    | 'u' => readCode? m 4 false cs
    | 'U' => readCode? m 8 false cs
    | 'd' | 's' | 'w' => some (.shorthand false, cs)
    | 'D' | 'S' | 'W' => some (.shorthand true, cs)
    | 'A' | 'z' => some (.edge, cs)
    | 'b' | 'B' | '<' | '>' => some (.wordEdge, cs)
    | 'a' => some (.literal '\x07' false, cs)
    | 'f' => some (.literal '\x0C' false, cs)
    | 'n' => some (.literal '\n' false, cs)
    | 'r' => some (.literal '\r' false, cs)
    | 't' => some (.literal '\t' false, cs)
    | 'v' => some (.literal '\x0B' false, cs)
    | _ => if isPlainEscaped c then some (.literal c false, cs) else none

/-- Whether an atom can be meant in a mode.  Capital letters and classes are known of bytes alone,
    not of characters, and bytes have to make up characters. -/
def Mode.allows (m : Mode) : Atom → Bool
  | .literal c isByte => if m.unicode then !m.ignoreCase else !isByte || c.toNat < 0x80
  | .shorthand negated => !m.unicode && !negated
  | .edge => true
  | .wordEdge => true

end Flashcards.Pattern
