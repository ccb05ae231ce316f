import Flashcards.Text.Blank

namespace Flashcards.Pattern

open Flashcards.Text

/-!
# Modes of a pattern

How a pattern is read depends on its modes.  Switches turn them on, and off behind a hyphen, as in
`(?i-u)` for the rest of a group and in `(?i-u:...)` for a group of its own.

* `Mode.skip` — a pattern without the blank characters and comments at its start, in the mode in
  which they do not count.
* `readSwitches?` — the switches at the start of a pattern.
* `Mode.turned` — the modes after some switches.
-/

/-- The modes that decide whether a pattern can be read. -/
structure Mode where
  /-- Characters are meant, not bytes. -/
  unicode : Bool
  /-- Capital letters do not matter. -/
  ignoreCase : Bool
  /-- Blank characters and comments do not count. -/
  spaced : Bool
  deriving DecidableEq, Repr

/-- The modes at the start of a pattern. -/
def Mode.start : Mode :=
  ⟨true, false, false⟩

/-- A pattern without the blank characters and comments at its start.  A comment, which may be
    open already, starts with `#` and goes to the end of its line. -/
def dropComments : Bool → List Char → List Char
  | _, [] => []
  | true, c :: cs => dropComments (c ≠ '\n') cs
  | false, c :: cs =>
    if isBlank c then dropComments false cs
    else if c = '#' then dropComments true cs
    else c :: cs

/-- A pattern without what does not count at its start. -/
def Mode.skip (m : Mode) (cs : List Char) : List Char :=
  if m.spaced then dropComments false cs else cs

/-- The modes after one of them is turned on or off.  The other letters stand for modes that do
    not matter here. -/
def Mode.turn (m : Mode) (on : Bool) : Char → Mode
  | 'i' => { m with ignoreCase := on }
  | 'u' => { m with unicode := on }
  | 'x' => { m with spaced := on }
  | _ => m

/-- The modes after some switches. -/
def Mode.turned (m : Mode) (switches : List Char) : Mode :=
  (switches.dropWhile (· ≠ '-')).foldl (·.turn false)
    ((switches.takeWhile (· ≠ '-')).foldl (·.turn true) m)

/-- The letters of all modes. -/
def modeLetters : List Char :=
  ['i', 'm', 's', 'U', 'u', 'x', 'R']

/-- Whether some characters are switches: letters of modes, with a hyphen at the start or between
    them, and none of them twice. -/
def areSwitches (cs : List Char) : Bool :=
  cs.all (fun c => c = '-' || modeLetters.contains c) && decide cs.Nodup && cs.getLast? ≠ some '-'

/-- Whether switches go on with a character. -/
def continuesSwitches (c : Char) : Bool :=
  c ≠ ':' && c ≠ ')'

/-- The switches at the start of a pattern, and what follows them: a colon or a parenthesis. -/
def readSwitches? (cs : List Char) : Option (List Char × List Char) :=
  let switches := cs.takeWhile continuesSwitches
  if areSwitches switches then some (switches, cs.dropWhile continuesSwitches) else none

end Flashcards.Pattern
