import Flashcards.Text.Numeral

namespace Flashcards

open Flashcards.Text

/-!
# Settings

Settings come from variables of the environment.  A variable that is missing, or that cannot be
read, leaves its setting at the default.

* `Settings.ofLookup` — the settings under some variables.
-/

/-- How the program runs.  Times are in milliseconds. -/
structure Settings where
  /-- The log filter, unless the environment has one for all programs. -/
  logFilter : String
  /-- How often a watched file is looked at where nothing tells of its changes. -/
  pollInterval : Nat
  /-- How long a watcher waits for an event before it looks whether it should stop. -/
  debounce : Nat
  deriving DecidableEq, Repr

namespace Settings

/-- The settings of an empty environment. -/
def default : Settings :=
  ⟨"info", 2000, 100⟩

/-- The number under a key, or another one in its place. -/
def numberOr (lookup : String → Option String) (key : String) (fallback : Nat) : Nat :=
  ((lookup key).bind readWord64?).getD fallback

/-- The settings under some variables. -/
def ofLookup (lookup : String → Option String) : Settings where
  logFilter := (lookup "QUIZLET_LOG").getD default.logFilter
  pollInterval := numberOr lookup "QUIZLET_POLL_INTERVAL_MS" default.pollInterval
  debounce := numberOr lookup "QUIZLET_DEBOUNCE_MS" default.debounce

end Settings

end Flashcards
