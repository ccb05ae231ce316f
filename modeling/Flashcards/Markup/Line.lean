import Flashcards.Text.Words

namespace Flashcards.Markup

open Flashcards.Text

/-!
# Kinds of lines

A line that starts with `#` is a command, named by its first word; any other line that is not
empty is content.

* `## ...` — a comment.
* `#group NAME` — opens a group; the content lines after it are its terms, three lines a term.
* `#endgroup` — closes the open group.
* `#showgroup NAME FORMAT ...` — prints a group in some formats.
* `#endfile` — the end of the document.
-/

/-- The command that ends every document, whether written or not. -/
def endOfFile : String := "#endfile"

/-- One line of a document.  Commands carry the words after their name. -/
inductive Line where
  | empty
  | comment
  | openGroup (arguments : List String)
  | closeGroup (arguments : List String)
  | showGroup (arguments : List String)
  | endFile (arguments : List String)
  | unknown (word : String)
  /-- A headword, reading or definition. -/
  | content (text : String)
  deriving DecidableEq, Repr

/-- The command with a given name and arguments. -/
def Line.ofCommand (name : String) (arguments : List String) : Line :=
  if name = "##" then .comment
  else if name = "#group" then .openGroup arguments
  else if name = "#endgroup" then .closeGroup arguments
  else if name = "#showgroup" then .showGroup arguments
  else if name = endOfFile then .endFile arguments
  else .unknown name

/-- The kind of a line of text. -/
def Line.ofText (line : String) : Line :=
  match line.toList with
  | [] => .empty
  | '#' :: _ => .ofCommand ((words line).head (words_ne_nil line)) (words line).tail
  | _ => .content line

/-- A line that is neither empty nor a command. -/
def IsContent (line : String) : Prop :=
  line ≠ "" ∧ line.toList.head? ≠ some '#'

instance (line : String) : Decidable (IsContent line) :=
  inferInstanceAs (Decidable (_ ∧ _))

/-! ### Lines and their words -/

/-- A command is one of five, or unknown. -/
theorem Line.ofCommand_cases (name : String) (arguments : List String) :
    name = "##" ∧ ofCommand name arguments = .comment ∨
      name = "#group" ∧ ofCommand name arguments = .openGroup arguments ∨
      name = "#endgroup" ∧ ofCommand name arguments = .closeGroup arguments ∨
      name = "#showgroup" ∧ ofCommand name arguments = .showGroup arguments ∨
      name = endOfFile ∧ ofCommand name arguments = .endFile arguments ∨
      ofCommand name arguments = .unknown name := by
  unfold ofCommand
  repeat' split
  all_goals simp_all

/-- The kind of a line whose first word is that of a command. -/
theorem Line.ofText_of_words {line name : String} {arguments : List String}
    (hw : words line = name :: arguments) (hn : name.toList.head? = some '#') :
    Line.ofText line = .ofCommand name arguments := by
  have hhead : line.toList.head? = some '#' := (head?_of_words hw (by decide)).mp hn
  obtain ⟨cs, hcs⟩ : ∃ cs, line.toList = '#' :: cs := by
    simpa [List.head?_eq_some_iff] using hhead
  simp [Line.ofText, hcs, hw]

/-- The first word of a line of content is not that of a command. -/
theorem IsContent.head?_words_ne {line name : String} (h : IsContent line)
    (hn : name.toList.head? = some '#') : (words line).head? ≠ some name := by
  intro hw
  obtain ⟨arguments, hw⟩ := List.head?_eq_some_iff.mp hw
  exact h.2 ((head?_of_words hw (by decide)).mp hn)

/-- A line whose first word begins with `#` is no content. -/
theorem not_isContent_of_words {line name : String} {arguments : List String}
    (hw : words line = name :: arguments) (hn : name.toList.head? = some '#') :
    ¬ IsContent line :=
  fun h => h.head?_words_ne hn (congrArg List.head? hw)

/-- Content is read as it stands. -/
theorem Line.ofText_of_isContent {line : String} (h : IsContent line) :
    Line.ofText line = .content line := by
  unfold Line.ofText
  split
  case h_1 hline => exact absurd (String.toList_eq_nil_iff.mp hline) h.1
  case h_2 hline => exact absurd (by simp [hline]) h.2
  case h_3 => rfl

/-- A line is empty, content or a command. -/
theorem Line.ofText_cases (line : String) :
    line = "" ∧ Line.ofText line = .empty ∨
      IsContent line ∧ Line.ofText line = .content line ∨
      ∃ name arguments, words line = name :: arguments ∧ name.toList.head? = some '#' ∧
        Line.ofText line = .ofCommand name arguments := by
  obtain ⟨name, arguments, hw⟩ := List.exists_cons_of_ne_nil (words_ne_nil line)
  by_cases hhead : line.toList.head? = some '#'
  · have hn := (head?_of_words hw (by decide)).mpr hhead
    exact .inr (.inr ⟨name, arguments, hw, hn, ofText_of_words hw hn⟩)
  · by_cases hempty : line = ""
    · exact .inl ⟨hempty, by simp [hempty, Line.ofText]⟩
    · exact .inr (.inl ⟨⟨hempty, hhead⟩, ofText_of_isContent ⟨hempty, hhead⟩⟩)

end Flashcards.Markup
