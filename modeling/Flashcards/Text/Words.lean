import Flashcards.Text.Blank

namespace Flashcards.Text

/-!
# Words of a line

A command line is cut at single spaces.  Two spaces in a row hold an empty word between them, so
they count; spaces at the end of a line do not.

* `words` — the words of a line, at least one.
* `words_ne_nil` — hence the first word of a line can be asked for.
-/

/-- The words of a line given as characters: its parts between spaces, without the empty ones at
    the end.  The first part stays even when it is empty. -/
def wordChars (cs : List Char) : List (List Char) :=
  match cs.splitOn ' ' with
  | [] => []
  | first :: rest => first :: dropTrailing List.isEmpty rest

/-- The words of a line. -/
def words (line : String) : List String :=
  (wordChars line.toList).map String.ofList

/-! ### Words as characters -/

/-- There is always a word, if only an empty one. -/
theorem wordChars_ne_nil (cs : List Char) : wordChars cs ≠ [] := by
  unfold wordChars
  split
  case h_1 h => exact absurd h (List.splitOn_ne_nil ' ' cs)
  case h_2 => exact List.cons_ne_nil _ _

/-- No part between separators holds a separator. -/
theorem not_mem_of_mem_splitOn {c : Char} {cs w : List Char} (h : w ∈ cs.splitOn c) : c ∉ w := by
  induction cs generalizing w with
  | nil =>
    obtain rfl : w = [] := by simpa using h
    exact List.not_mem_nil
  | cons b cs ih =>
    rw [List.splitOn_cons_eq_if_modifyHead] at h
    split at h
    · rcases List.mem_cons.mp h with rfl | h
      · exact List.not_mem_nil
      · exact ih h
    case isFalse hb =>
      obtain ⟨first, rest, hsplit⟩ := List.exists_cons_of_ne_nil (List.splitOn_ne_nil c cs)
      rw [hsplit, List.modifyHead_cons] at h
      rcases List.mem_cons.mp h with rfl | h
      · have hfirst : c ∉ first := ih (by simp [hsplit])
        simp only [beq_iff_eq] at hb
        simp [hfirst, Ne.symm hb]
      · exact ih (by simp [hsplit, h])

/-- A part between separators is made of characters of the whole. -/
theorem subset_of_mem_splitOn {c : Char} {cs w : List Char} (h : w ∈ cs.splitOn c) : w ⊆ cs := by
  intro b hb
  obtain ⟨i, hi⟩ := List.mem_iff_getElem?.mp h
  -- The parts stand at the even places between the separators.
  have hpart : w ∈ (cs.splitOn c).intersperse [c] :=
    List.mem_of_getElem? (List.getElem?_intersperse_two_mul.trans hi)
  have hmem : b ∈ [c].intercalate (cs.splitOn c) := List.mem_flatten.mpr ⟨w, hpart, hb⟩
  rwa [List.intercalate_splitOn] at hmem

/-- The words of a line after the first are among its parts, and the last of them is not empty. -/
theorem wordChars_eq_cons {cs first : List Char} {rest : List (List Char)}
    (h : wordChars cs = first :: rest) :
    (∀ w ∈ first :: rest, w ∈ cs.splitOn ' ') ∧ ∀ w, rest.getLast? = some w → w ≠ [] := by
  unfold wordChars at h
  split at h
  · exact absurd h (by simp)
  case h_2 f r hsplit =>
    obtain ⟨rfl, rfl⟩ := List.cons.inj h
    refine ⟨fun w hw => ?_, fun w hw => ?_⟩
    · obtain ⟨empty, -, hr⟩ := exists_dropTrailing_append List.isEmpty r
      rw [hsplit, ← hr]
      exact List.mem_append_left empty hw
    · have hkept := List.head?_dropWhile_not List.isEmpty r.reverse
      rw [dropTrailing, List.getLast?_reverse] at hw
      rw [hw] at hkept
      simpa using hkept

/-- The first word of a line starts as the line does, unless that is a space. -/
theorem head?_of_wordChars {cs first : List Char} {rest : List (List Char)} {c : Char}
    (h : wordChars cs = first :: rest) (hc : c ≠ ' ') :
    first.head? = some c ↔ cs.head? = some c := by
  cases cs with
  | nil =>
    obtain ⟨rfl, rfl⟩ : [] = first ∧ [] = rest := by simpa [wordChars, dropTrailing] using h
    rfl
  | cons b cs =>
    obtain ⟨f, r, hsplit⟩ := List.exists_cons_of_ne_nil (List.splitOn_ne_nil ' ' cs)
    rw [wordChars, List.splitOn_cons_eq_if_modifyHead, hsplit] at h
    by_cases hb : b = ' '
    · obtain rfl : [] = first := by simpa [hb] using congrArg List.head? h
      simp [hb, Ne.symm hc]
    · obtain rfl : b :: f = first := by simpa [hb] using congrArg List.head? h
      simp

/-! ### Words as texts -/

/-- Every line has a word, if only an empty one. -/
theorem words_ne_nil (line : String) : words line ≠ [] := by
  simp [words, wordChars_ne_nil]

/-- No word holds a space. -/
theorem space_not_mem_of_mem_words {line w : String} (h : w ∈ words line) : ' ' ∉ w.toList := by
  obtain ⟨cs, hcs, rfl⟩ := List.mem_map.mp h
  obtain ⟨first, rest, heq⟩ := List.exists_cons_of_ne_nil (wordChars_ne_nil line.toList)
  rw [String.toList_ofList]
  exact not_mem_of_mem_splitOn ((wordChars_eq_cons heq).1 cs (heq ▸ hcs))

/-- A word is made of characters of its line. -/
theorem subset_of_mem_words {line w : String} (h : w ∈ words line) : w.toList ⊆ line.toList := by
  obtain ⟨cs, hcs, rfl⟩ := List.mem_map.mp h
  obtain ⟨first, rest, heq⟩ := List.exists_cons_of_ne_nil (wordChars_ne_nil line.toList)
  rw [String.toList_ofList]
  exact subset_of_mem_splitOn ((wordChars_eq_cons heq).1 cs (heq ▸ hcs))

/-- The last word of a line is not empty if it is not the only one. -/
theorem getLast?_ne_empty_of_words {line first w : String} {rest : List String}
    (h : words line = first :: rest) (hw : rest.getLast? = some w) : w ≠ "" := by
  obtain ⟨f, r, heq⟩ := List.exists_cons_of_ne_nil (wordChars_ne_nil line.toList)
  rw [words, heq, List.map_cons] at h
  obtain ⟨-, rfl⟩ := List.cons.inj h
  rw [List.getLast?_map, Option.map_eq_some_iff] at hw
  obtain ⟨cs, hcs, rfl⟩ := hw
  have hne := (wordChars_eq_cons heq).2 cs hcs
  simpa [String.ofList_eq_empty_iff] using hne

/-- An argument that stands alone is not empty. -/
theorem isWord_of_words {line first w : String} (h : words line = [first, w]) :
    w ≠ "" ∧ ' ' ∉ w.toList := by
  have hmem : w ∈ words line := by simp [h]
  exact ⟨getLast?_ne_empty_of_words h rfl, space_not_mem_of_mem_words hmem⟩

/-- The first word of a line starts as the line does, unless that is a space. -/
theorem head?_of_words {line first : String} {rest : List String} {c : Char}
    (h : words line = first :: rest) (hc : c ≠ ' ') :
    first.toList.head? = some c ↔ line.toList.head? = some c := by
  obtain ⟨f, r, heq⟩ := List.exists_cons_of_ne_nil (wordChars_ne_nil line.toList)
  rw [words, heq, List.map_cons] at h
  obtain ⟨rfl, -⟩ := List.cons.inj h
  rw [String.toList_ofList]
  exact head?_of_wordChars heq hc

end Flashcards.Text
