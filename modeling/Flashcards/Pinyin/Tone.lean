namespace Flashcards.Pinyin

/-!
# Tones and the vowels that carry them

A tone is written as a digit `1` to `4` after a syllable, or as a mark over one of its vowels.
The vowel `ü` is typed as `v`.

* `Tone.ofDigit?` — the tone that a digit stands for.
* `Vowel.ofChar?` — the vowels that can carry a mark; capital letters cannot.
* `Vowel.marked` — a vowel under a tone mark.
-/

/-- The four tones that are marked. -/
inductive Tone where
  | first
  | second
  | third
  | fourth
  deriving DecidableEq, Repr

/-- The tone that a digit stands for; `5`, `0` and the rest stand for none. -/
def Tone.ofDigit? : Char → Option Tone
  | '1' => some .first
  | '2' => some .second
  | '3' => some .third
  | '4' => some .fourth
  | _ => none

/-- The vowels that can carry a tone mark. -/
inductive Vowel where
  | a
  | e
  | i
  | o
  | u
  | v
  deriving DecidableEq, Repr

/-- The vowel that a letter stands for.  Only lowercase letters are vowels. -/
def Vowel.ofChar? : Char → Option Vowel
  | 'a' => some .a
  | 'e' => some .e
  | 'i' => some .i
  | 'o' => some .o
  | 'u' => some .u
  | 'v' => some .v
  | _ => none

/-- A vowel under the mark of a tone. -/
def Vowel.marked : Vowel → Tone → Char
  | .a, .first => 'ā'
  | .a, .second => 'á'
  | .a, .third => 'ǎ'
  | .a, .fourth => 'à'
  | .e, .first => 'ē'
  | .e, .second => 'é'
  | .e, .third => 'ě'
  | .e, .fourth => 'è'
  | .i, .first => 'ī'
  | .i, .second => 'í'
  | .i, .third => 'ǐ'
  | .i, .fourth => 'ì'
  | .o, .first => 'ō'
  | .o, .second => 'ó'
  | .o, .third => 'ǒ'
  | .o, .fourth => 'ò'
  | .u, .first => 'ū'
  | .u, .second => 'ú'
  | .u, .third => 'ǔ'
  | .u, .fourth => 'ù'
  | .v, .first => 'ǖ'
  | .v, .second => 'ǘ'
  | .v, .third => 'ǚ'
  | .v, .fourth => 'ǜ'

/-- Whether a letter is a vowel that can carry a tone mark. -/
def isVowel (c : Char) : Bool :=
  (Vowel.ofChar? c).isSome

/-- A letter under the mark of a tone; a letter that is no vowel stays. -/
def markLetter (t : Tone) (c : Char) : Char :=
  match Vowel.ofChar? c with
  | some w => w.marked t
  | none => c

end Flashcards.Pinyin
