import Flashcards.Text.Lines
import Flashcards.Text.Words
import Mathlib.Data.List.DropRight
import Mathlib.Data.List.Infix

namespace Flashcards.Text

/-!
# Texts cut into lines

A text is cut at each `\n`, and a `\r` at the end of a part goes with the line end behind it.

* `lineInduction` — a text is its last line, or goes on behind the end of its first line.
* `cutLines_join` — a line end cuts a text in two.
* `IsLine` — a text that can be a line.
* `cutLines_intercalate` — texts with line ends between them are cut apart again.
* `lines_eq_dropTrailing` — the lines of a text are its parts, but for the empty ones at the end.
* `newline_not_mem_of_mem_lines` — lines hold no line ends.
-/

variable {cs : List Char} {line : String}

/-! ### The carriage return at the end of a line -/

/-- At most the last character is left out. -/
theorem dropCarriageReturn_isPrefix (cs : List Char) : dropCarriageReturn cs <+: cs := by
  fun_induction dropCarriageReturn cs with
  | case1 => exact List.prefix_rfl
  | case2 => exact List.nil_prefix
  | case3 c cs _ ih => exact List.cons_prefix_cons.mpr ⟨rfl, ih⟩

/-- A carriage return at the end is left out. -/
theorem dropCarriageReturn_concat (cs : List Char) : dropCarriageReturn (cs ++ ['\r']) = cs := by
  induction cs with
  | nil => rfl
  | cons c cs ih =>
    rw [List.cons_append, dropCarriageReturn, ih]
    simp

/-- Any other character at the end stays. -/
theorem dropCarriageReturn_of_ne (h : cs.getLast? ≠ some '\r') : dropCarriageReturn cs = cs := by
  fun_induction dropCarriageReturn cs with
  | case1 => rfl
  | case2 => exact absurd rfl h
  | case3 c cs hc ih =>
    cases cs with
    | nil => rfl
    | cons b cs => rw [ih (by simpa using h)]

/-! ### Cuts at line ends -/

/-- A text is its last line, or has a first line with an end. -/
theorem lineInduction {P : List Char → Prop} (last : ∀ cs, '\n' ∉ cs → P cs)
    (more : ∀ line rest, '\n' ∉ line → P rest → P (line ++ '\n' :: rest)) (cs : List Char) :
    P cs := by
  suffices h : ∀ line : List Char, '\n' ∉ line → P (line ++ cs) from h [] (by simp)
  induction cs with
  | nil =>
    intro line hline
    rw [List.append_nil]
    exact last line hline
  | cons c cs ih =>
    intro line hline
    by_cases hc : c = '\n'
    · rw [hc]
      exact more line cs hline (ih [] (by simp))
    · simpa using ih (line ++ [c]) (by simp [hline, Ne.symm hc])

/-- A text is cut at each line end. -/
theorem cutLineChars_append_cons (xs ys : List Char) :
    cutLineChars (xs ++ '\n' :: ys) = cutLineChars xs ++ cutLineChars ys := by
  rw [cutLineChars, List.splitOn_append_cons_self, List.map_append]
  rfl

/-- Without a line end there is one line. -/
theorem cutLineChars_of_not_mem (h : '\n' ∉ cs) : cutLineChars cs = [dropCarriageReturn cs] := by
  rw [cutLineChars, List.splitOn_eq_singleton h, List.map_singleton]

/-- Texts joined by a line end are cut there. -/
theorem cutLines_join (a b : String) : cutLines (a ++ "\n" ++ b) = cutLines a ++ cutLines b := by
  have hchars : (a ++ "\n" ++ b).toList = a.toList ++ '\n' :: b.toList := by simp
  rw [cutLines, hchars, cutLineChars_append_cons, List.map_append]
  rfl

/-- A line without the carriage return that may end it. -/
def withoutReturn (line : String) : String :=
  String.ofList (dropCarriageReturn line.toList)

/-- A text that can be a line: there is no line end in it, and none is made of its end and a line
    end behind it. -/
structure IsLine (line : String) : Prop where
  newline_not_mem : '\n' ∉ line.toList
  getLast?_ne : line.toList.getLast? ≠ some '\r'

instance (line : String) : Decidable (IsLine line) :=
  decidable_of_iff ('\n' ∉ line.toList ∧ line.toList.getLast? ≠ some '\r')
    ⟨fun h => ⟨h.1, h.2⟩, fun h => ⟨h.newline_not_mem, h.getLast?_ne⟩⟩

/-- A line has no carriage return at its end. -/
theorem IsLine.withoutReturn_eq (h : IsLine line) : withoutReturn line = line := by
  rw [withoutReturn, dropCarriageReturn_of_ne h.getLast?_ne, String.ofList_toList]

theorem map_withoutReturn {ls : List String} (hls : ∀ l ∈ ls, IsLine l) :
    ls.map withoutReturn = ls :=
  (List.map_congr_left fun l hl => (hls l hl).withoutReturn_eq).trans (List.map_id ls)

/-- A text without a line end is one line, but for a carriage return at its end. -/
theorem cutLines_of_not_mem (h : '\n' ∉ line.toList) : cutLines line = [withoutReturn line] := by
  rw [cutLines, cutLineChars_of_not_mem h, List.map_singleton]
  rfl

/-- Texts with line ends between them are cut apart again. -/
theorem cutLines_intercalate {ls : List String} (hne : ls ≠ []) (h : ∀ l ∈ ls, '\n' ∉ l.toList) :
    cutLines (String.intercalate "\n" ls) = ls.map withoutReturn := by
  have hcut : (String.intercalate "\n" ls).toList.splitOn '\n' = ls.map String.toList := by
    rw [String.toList_intercalate]
    exact List.splitOn_intercalate '\n' (by simpa using h) (by simpa using hne)
  rw [cutLines, cutLineChars, hcut, List.map_map, List.map_map]
  rfl

/-! ### Lines -/

/-- The lines of a text are its parts, but for the empty ones at the end. -/
theorem lines_eq_dropTrailing (text : String) :
    lines text = dropTrailing String.isEmpty (cutLines text) := by
  have hempty : (fun cs => (String.ofList cs).isEmpty) = List.isEmpty := by
    funext cs
    cases cs <;> simp [String.isEmpty_eq_false_iff]
  rw [cutLines, dropTrailing_map, hempty, lines, lineChars]

/-- The parts of a text are its lines and empty ones. -/
theorem exists_lines_append (text : String) :
    ∃ blanks, (∀ line ∈ blanks, line.isEmpty = true) ∧ lines text ++ blanks = cutLines text := by
  rw [lines_eq_dropTrailing]
  exact exists_dropTrailing_append String.isEmpty (cutLines text)

/-- The lines of texts with line ends between them. -/
theorem lines_intercalate {ls : List String} (h : ∀ l ∈ ls, '\n' ∉ l.toList) :
    lines (String.intercalate "\n" ls) = dropTrailing String.isEmpty (ls.map withoutReturn) := by
  cases ls with
  | nil => rfl
  | cons line ls => rw [lines_eq_dropTrailing, cutLines_intercalate (List.cons_ne_nil line ls) h]

/-- Lists of lines are as they are, unless they end in an empty line. -/
theorem dropTrailing_isEmpty_eq {ls : List String} (hlast : ls.getLast? ≠ some "") :
    dropTrailing String.isEmpty ls = ls := by
  refine List.rdropWhile_eq_self_iff.mpr fun hne hempty => hlast ?_
  rw [List.getLast?_eq_some_getLast hne, String.isEmpty_iff.mp hempty]

/-- No line has a line end in it. -/
theorem newline_not_mem_of_mem_lines {text : String} (h : line ∈ lines text) :
    '\n' ∉ line.toList := by
  obtain ⟨cs, hcs, rfl⟩ := List.mem_map.mp h
  have hcut : cs ∈ cutLineChars text.toList := (List.rdropWhile_prefix _ _).subset hcs
  obtain ⟨part, hpart, rfl⟩ := List.mem_map.mp hcut
  rw [String.toList_ofList]
  exact fun hmem =>
    not_mem_of_mem_splitOn hpart ((dropCarriageReturn_isPrefix part).subset hmem)

end Flashcards.Text
