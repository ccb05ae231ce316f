import Flashcards.Markup.Line
import Mathlib.Data.List.DropRight

namespace Flashcards.Text

/-!
# Lines cut into words

A line is cut at single spaces, and the empty words at its end are left out.  Nothing else is lost:
with single spaces between them the words make the line again, but for the spaces at its end.

* `AreWords` — texts that can be the words of a line.
* `spaces`, `withoutEndSpaces` — spaces in a row, and a line without those at its end.
* `words_intercalate` — texts with single spaces between them are cut apart again.
* `words_append_spaces` — spaces behind a line do not matter to its words.
* `intercalate_words` — the words of a line with single spaces between them.
* `Markup.words_of_joined_words` — joining words and cutting a line into words.
-/

variable {line : String} {ws : List String}

/-- Texts that can be the words of a line: there are no spaces in them, and only a word that stands
    alone may be an empty one at the end. -/
structure AreWords (ws : List String) : Prop where
  ne_nil : ws ≠ []
  space_not_mem : ∀ w ∈ ws, ' ' ∉ w.toList
  length_eq_one : ws.getLast? = some "" → ws.length = 1

instance (ws : List String) : Decidable (AreWords ws) :=
  decidable_of_iff
    (ws ≠ [] ∧ (∀ w ∈ ws, ' ' ∉ w.toList) ∧ (ws.getLast? = some "" → ws.length = 1))
    ⟨fun h => ⟨h.1, h.2.1, h.2.2⟩, fun h => ⟨h.ne_nil, h.space_not_mem, h.length_eq_one⟩⟩

/-- The words of a line are words. -/
theorem areWords_words (line : String) : AreWords (words line) where
  ne_nil := words_ne_nil line
  space_not_mem _ hw := space_not_mem_of_mem_words hw
  length_eq_one hlast := by
    obtain ⟨first, rest, hw⟩ := List.exists_cons_of_ne_nil (words_ne_nil line)
    rw [hw] at hlast ⊢
    cases rest with
    | nil => rfl
    | cons w rest => exact absurd rfl (getLast?_ne_empty_of_words hw hlast)

/-! ### Words joined -/

/-- Texts with single spaces between them, as they are cut apart again. -/
theorem AreWords.splitOn_intercalate (h : AreWords ws) :
    (String.intercalate " " ws).toList.splitOn ' ' = ws.map String.toList := by
  rw [String.toList_intercalate]
  exact List.splitOn_intercalate ' ' (by simpa using h.space_not_mem) (by simpa using h.ne_nil)

/-- Texts that can be the words of a line are those of the line that they make. -/
theorem words_intercalate (h : AreWords ws) : words (String.intercalate " " ws) = ws := by
  obtain ⟨first, rest, rfl⟩ := List.exists_cons_of_ne_nil h.ne_nil
  -- No word is left out: behind a first word the last one is not empty.
  have hrest : dropTrailing List.isEmpty (rest.map String.toList) = rest.map String.toList := by
    rcases List.eq_nil_or_concat rest with rfl | ⟨front, last, rfl⟩
    · rfl
    · have hne : last ≠ "" := by
        rintro rfl
        have hlast : (first :: front.concat "").getLast? = some "" := by
          rw [List.concat_eq_append, ← List.cons_append, List.getLast?_concat]
        have hone := h.length_eq_one hlast
        simp at hone
      rw [List.concat_eq_append, List.map_append]
      exact List.rdropWhile_concat_neg _ _ _ (by simpa using hne)
  rw [words, wordChars, h.splitOn_intercalate, List.map_cons]
  show (first.toList :: dropTrailing List.isEmpty (rest.map String.toList)).map String.ofList = _
  rw [hrest, ← List.map_cons, List.map_map]
  simp [Function.comp_def]

/-! ### Spaces at the end -/

/-- Spaces in a row. -/
def spaces (n : Nat) : String :=
  String.ofList (List.replicate n ' ')

/-- A line without the spaces at its end. -/
def withoutEndSpaces (line : String) : String :=
  String.ofList (line.toList.rdropWhile (· = ' '))

/-- Spaces behind a line are empty parts of it. -/
theorem splitOn_append_spaces (cs : List Char) (n : Nat) :
    (cs ++ List.replicate n ' ').splitOn ' ' = cs.splitOn ' ' ++ List.replicate n [] := by
  induction n generalizing cs with
  | zero => simp
  | succ n ih =>
    -- The first of the spaces cuts off `cs`, and the others stand behind an empty part.
    rw [List.replicate_succ, List.splitOn_append_cons_self,
      ← List.nil_append (List.replicate n ' '), ih []]
    rfl

/-- Spaces at the end of a line do not matter. -/
theorem words_append_spaces (line : String) (n : Nat) : words (line ++ spaces n) = words line := by
  obtain ⟨first, rest, hcut⟩ := List.exists_cons_of_ne_nil (List.splitOn_ne_nil ' ' line.toList)
  have hempty : ([] : List Char).isEmpty = true := rfl
  rw [words, words, spaces, String.toList_append, String.toList_ofList, wordChars, wordChars,
    splitOn_append_spaces, hcut]
  show (first :: dropTrailing List.isEmpty (rest ++ List.replicate n [])).map String.ofList = _
  rw [dropTrailing_append_replicate hempty]

/-- The spaces at the end of a line are all that its words do not hold. -/
theorem exists_intercalate_append_spaces (line : String) :
    ∃ n, String.intercalate " " (words line) ++ spaces n = line := by
  obtain ⟨first, rest, hcut⟩ := List.exists_cons_of_ne_nil (List.splitOn_ne_nil ' ' line.toList)
  obtain ⟨blanks, hblanks, hrest⟩ := exists_dropTrailing_append List.isEmpty rest
  refine ⟨blanks.length, ?_⟩
  have hempty : blanks = List.replicate blanks.length [] :=
    List.eq_replicate_iff.mpr ⟨rfl, fun part hpart => by simpa using hblanks part hpart⟩
  have hwords : (words line).map String.toList = first :: dropTrailing List.isEmpty rest := by
    rw [words, wordChars, hcut, List.map_map]
    simp [Function.comp_def]
  -- Both sides have the same parts between spaces.
  have hparts : ((String.intercalate " " (words line)).toList ++
      List.replicate blanks.length ' ').splitOn ' ' = line.toList.splitOn ' ' := by
    rw [splitOn_append_spaces, (areWords_words line).splitOn_intercalate, hwords, ← hempty,
      List.cons_append, hrest, hcut]
  have hchars := congrArg [' '].intercalate hparts
  rw [List.intercalate_splitOn, List.intercalate_splitOn] at hchars
  rwa [← String.toList_inj, String.toList_append, spaces, String.toList_ofList]

/-- No space stands at the end of joined words: there would be an empty word behind it. -/
theorem AreWords.getLast?_intercalate_ne (h : AreWords ws) :
    (String.intercalate " " ws).toList.getLast? ≠ some ' ' := by
  intro hspace
  obtain ⟨cs, hcs⟩ := List.getLast?_eq_some_iff.mp hspace
  have hparts : ws.map String.toList = cs.splitOn ' ' ++ [[]] := by
    rw [← h.splitOn_intercalate, hcs]
    exact splitOn_append_spaces cs 1
  have hlast : ws.getLast? = some "" := by
    have hmap : (ws.map String.toList).getLast? = some [] := by rw [hparts]; simp
    simpa using hmap
  have hlength : ws.length = (cs.splitOn ' ').length + 1 := by
    rw [← List.length_map (f := String.toList), hparts, List.length_append, List.length_singleton]
  have hpos : 0 < (cs.splitOn ' ').length := List.length_pos_of_ne_nil (List.splitOn_ne_nil ' ' cs)
  have hone := h.length_eq_one hlast
  omega

/-- Words with single spaces between them are their line, but for the spaces at its end. -/
theorem intercalate_words (line : String) :
    String.intercalate " " (words line) = withoutEndSpaces line := by
  obtain ⟨n, hn⟩ := exists_intercalate_append_spaces line
  have hlast := (areWords_words line).getLast?_intercalate_ne
  generalize String.intercalate " " (words line) = joined at hn hlast
  have hjoined : (joined.toList ++ List.replicate n ' ').rdropWhile (· = ' ') = joined.toList := by
    refine (dropTrailing_append_replicate (by simp) joined.toList n).trans ?_
    refine List.rdropWhile_eq_self_iff.mpr fun hne hspace => hlast ?_
    rw [List.getLast?_eq_some_getLast hne, of_decide_eq_true hspace]
  rw [← hn, withoutEndSpaces, String.toList_append, spaces, String.toList_ofList, hjoined,
    String.ofList_toList]

end Flashcards.Text

namespace Flashcards.Markup

open Flashcards.Text

/-- **A line loses nothing but the spaces at its end when it is cut into words.**  With single
    spaces between them its words make the line without these spaces, and words that are joined in
    this way are cut apart again.  So a command is the same one with any number of spaces behind it;
    its first word starts with `#`, and the last of its arguments is not empty. -/
theorem words_of_joined_words :
    (∀ line, AreWords (words line) ∧ String.intercalate " " (words line) = withoutEndSpaces line) ∧
      (∀ ws, AreWords ws → words (String.intercalate " " ws) = ws) ∧
      ∀ line : String, line.toList.head? = some '#' →
        (∀ n, Line.ofText (line ++ spaces n) = Line.ofText line) ∧
        ∃ name arguments, words line = name :: arguments ∧
          Line.ofText line = .ofCommand name arguments ∧ name.toList.head? = some '#' ∧
          (arguments = [] ∨ ∃ last, arguments.getLast? = some last ∧ last ≠ "") := by
  refine ⟨fun line => ⟨areWords_words line, intercalate_words line⟩, fun ws => words_intercalate,
    fun line hline => ?_⟩
  obtain ⟨name, arguments, hw⟩ := List.exists_cons_of_ne_nil (words_ne_nil line)
  have hname : name.toList.head? = some '#' := (head?_of_words hw (by decide)).mpr hline
  have hcommand := Line.ofText_of_words hw hname
  refine ⟨fun n => ?_, name, arguments, hw, hcommand, hname, ?_⟩
  · rw [hcommand]
    exact Line.ofText_of_words ((words_append_spaces line n).trans hw) hname
  · rcases List.eq_nil_or_concat arguments with hnil | ⟨front, last, hlast⟩
    · exact .inl hnil
    · have hget : arguments.getLast? = some last := by simp [hlast]
      exact .inr ⟨last, hget, getLast?_ne_empty_of_words hw hget⟩

/-- An empty word between two words is kept, and the spaces behind the last word are not. -/
theorem words_of_joined_words_sample :
    AreWords ["#showgroup", "", "numbers", "reading"] ∧
      words "#showgroup  numbers reading" = ["#showgroup", "", "numbers", "reading"] ∧
      Line.ofText ("#showgroup  numbers reading" ++ spaces 2) =
        Line.ofText "#showgroup  numbers reading" := by
  obtain ⟨-, hjoined, hcommand⟩ := words_of_joined_words
  have hwords : AreWords ["#showgroup", "", "numbers", "reading"] := by decide
  exact ⟨hwords, hjoined _ hwords, (hcommand "#showgroup  numbers reading" (by decide)).1 2⟩

end Flashcards.Markup
