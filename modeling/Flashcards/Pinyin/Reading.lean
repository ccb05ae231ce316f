import Flashcards.Pinyin.Tone

namespace Flashcards.Pinyin

/-!
# Readings: from tone numbers to tone marks

A reading is typed with tone numbers, `ni3 hao3`, and shown with tone marks, `nǐ hǎo`.

* `mainVowel?` — where the mark of a syllable goes: its first `a` or `e`, else the `o` of its
  first `ou`, else its last vowel.
* `markSyllable?` — a syllable under a tone, when it has a vowel.
* `markTones` — a whole reading: each tone digit moves onto the run of letters right before it,
  then every `v` that is left becomes `ü`.
-/

/-- Where `ou` first stands in a syllable. -/
def findOu? : List Char → Option Nat
  | 'o' :: 'u' :: _ => some 0
  | _ :: cs => (findOu? cs).map (· + 1)
  | [] => none

/-- Where the last vowel of a syllable stands. -/
def findLastVowel? : List Char → Option Nat
  | [] => none
  | c :: cs =>
    match findLastVowel? cs with
    | some i => some (i + 1)
    | none => if isVowel c then some 0 else none

/-- Where the vowel stands that carries the tone of a syllable. -/
def mainVowel? (syllable : List Char) : Option Nat :=
  (syllable.findIdx? fun c => c = 'a' || c = 'e').or
    ((findOu? syllable).or (findLastVowel? syllable))

/-- A syllable with its main vowel under the mark of a tone. -/
def markSyllable? (t : Tone) (syllable : List Char) : Option (List Char) :=
  (mainVowel? syllable).map fun i => syllable.modify i (markLetter t)

/-- What a run of letters and the character right after it, no letter, are written as. -/
def closeRun (run : List Char) (c : Char) : List Char :=
  match (Tone.ofDigit? c).bind (markSyllable? · run) with
  | some marked => marked
  | none => run ++ [c]

/-- Tone digits turned into marks.  The first argument holds the run of letters read last, its
    last letter first. -/
def moveTones : List Char → List Char → List Char
  | run, [] => run.reverse
  | run, c :: cs =>
    if c.isAlpha then moveTones (c :: run) cs
    else closeRun run.reverse c ++ moveTones [] cs

/-- The letter `v` stands for `ü`. -/
def spellUmlaut (c : Char) : Char :=
  if c = 'v' then 'ü' else c

/-- The characters of a reading with tone marks for tone numbers. -/
def markToneChars (cs : List Char) : List Char :=
  (moveTones [] cs).map spellUmlaut

/-- A reading with tone marks for tone numbers. -/
def markTones (reading : String) : String :=
  String.ofList (markToneChars reading.toList)

end Flashcards.Pinyin
