import Flashcards.Markup.Soundness
import Flashcards.Text.Lines

namespace Flashcards.Markup

open Flashcards.Text

/-!
# Documents

A document is read line by line, from the empty registry, up to its first fault.  The end of the
document is read as one more line, `#endfile`, which finds an open group.

* `Document.ofText` — the groups and the listing of a text, or its first fault.
* `render` — the listing, or the diagnostic in its place.
-/

/-- The groups of a document and the listing that it prints. -/
structure Document where
  listing : String
  /-- The groups in the order in which they were opened. -/
  groups : List Group
  deriving DecidableEq, Repr

/-- The document of some lines. -/
def Document.ofLines (ls : List String) : Except Diagnostic Document :=
  match h : Registry.empty.readLines 1 (ls ++ [endOfFile]) with
  | .ok (r, printed) => .ok ⟨String.join printed, r.groups.toList⟩
  | .error (.fault d) => .error d
  | .error .lost => absurd h (Registry.empty_sound.readLines_ne_lost 1 _)

/-- The document of a text. -/
def Document.ofText (text : String) : Except Diagnostic Document :=
  Document.ofLines (lines text)

/-- The listing of a text. -/
def listing (text : String) : Except Diagnostic String :=
  (Document.ofText text).map Document.listing

/-- What a user sees of a text: its listing, or the diagnostic that replaces it. -/
def render (text : String) : String :=
  match listing text with
  | .ok printed => printed
  | .error d => d.text

/-- An accepted text is rendered as its listing. -/
theorem render_of_ok {text : String} {d : Document} (h : Document.ofText text = .ok d) :
    render text = d.listing := by
  rw [render, listing, h]
  rfl

/-- Any other text is rendered as its diagnostic. -/
theorem render_of_error {text : String} {d : Diagnostic} (h : Document.ofText text = .error d) :
    render text = d.text := by
  rw [render, listing, h]
  rfl

end Flashcards.Markup
