import Flashcards.Proofs.Lines
import Flashcards.Proofs.Listing
import Flashcards.Proofs.Refusal

namespace Flashcards.Markup

open Flashcards.Text

/-!
# The first parts of a document

A document that is written from its start to its end is, at every line end, a document itself.
What is said of it then is compared with what is said of the whole.

* `firstSegments` — the first parts of a text between its line ends.
* `lines_firstSegments` — their lines are the first lines of the text, without the empty ones that
  have come to stand at the end.
* `Quiet` — a text without a fault, but for a group that may be open at its end.
* `Document.ofText_firstSegments` — the first fault is found as soon as it is there.
-/

/-! ### The first parts of a text -/

/-- The parts of a text between its line ends. -/
def segments (text : String) : List String :=
  (text.toList.splitOn '\n').map String.ofList

/-- The first parts of a text, with line ends between them. -/
def firstSegments (text : String) (k : Nat) : String :=
  String.intercalate "\n" ((segments text).take k)

/-- The first parts of a text are cut where the text is cut. -/
theorem cutLines_firstSegments (text : String) {k : Nat} (hk : k ≠ 0) :
    cutLines (firstSegments text k) = (cutLines text).take k := by
  have hne : (segments text).take k ≠ [] := by simp [segments, hk, List.splitOn_ne_nil]
  have hcut : cutLines text = (segments text).map withoutReturn := by
    simp [cutLines, cutLineChars, segments, withoutReturn]
  rw [firstSegments, cutLines_intercalate hne, hcut, List.map_take]
  intro segment hsegment
  obtain ⟨part, hpart, rfl⟩ := List.mem_map.mp (List.mem_of_mem_take hsegment)
  rw [String.toList_ofList]
  exact not_mem_of_mem_splitOn hpart

/-- The lines of the first parts of a text are its first lines, without the empty ones at their
    end. -/
theorem lines_firstSegments (text : String) (k : Nat) :
    lines (firstSegments text k) = dropTrailing String.isEmpty ((lines text).take k) := by
  cases k with
  | zero => rfl
  | succ k =>
    rw [lines_eq_dropTrailing, cutLines_firstSegments text (Nat.succ_ne_zero k),
      lines_eq_dropTrailing, dropTrailing_take]

/-- The first segments of a text have no more than its first lines. -/
theorem lines_firstSegments_isPrefix (text : String) (k : Nat) :
    lines (firstSegments text k) <+: (lines text).take k := by
  rw [lines_firstSegments]
  exact List.rdropWhile_prefix ..

/-! ### Documents of the first lines -/

/-- A text without a fault, but for a group that may be open at its end. -/
def Quiet (text : String) : Prop :=
  (∃ d, Document.ofText text = .ok d) ∨ Document.ofText text = .error (.atEnd (lines text))

/-- Where the first lines are accepted, the first segments have no fault but an open group. -/
theorem quiet_firstSegments {text : String} {k : Nat} (h : Accepted ((lines text).take k)) :
    Quiet (firstSegments text k) :=
  Document.ofLines_of_accepted (h.of_isPrefix (lines_firstSegments_isPrefix text k))

namespace Document

/-- More lines print more and add groups. -/
theorem isPrefix_of_lines_isPrefix {xs ys : List String} {d d' : Document}
    (hxs : ofLines xs = .ok d') (hys : ofLines ys = .ok d) (h : xs <+: ys) :
    (∃ rest, d'.listing ++ rest = d.listing) ∧ d'.groups <+: d.groups := by
  obtain ⟨rest, rfl⟩ := h
  obtain ⟨r', ts, hread', hc', rfl⟩ := ofLines_eq_ok_iff.mp hxs
  obtain ⟨r, texts, hread, hc, rfl⟩ := ofLines_eq_ok_iff.mp hys
  obtain ⟨r'', ts', us, hfirst, hlater, rfl⟩ := Registry.readLines_append_eq_ok_iff.mp hread
  obtain ⟨rfl, rfl⟩ : r' = r'' ∧ ts = ts' := by simpa [hread'] using hfirst
  refine ⟨⟨String.join us, by simp⟩, ?_⟩
  -- No group is open after `xs`, so all of them are closed and stay as they are.
  rw [← Registry.closed_of_current_eq_none hc', ← Registry.closed_of_current_eq_none hc]
  exact Registry.readLines_closed_isPrefix hlater

end Document

namespace Refused

variable {text : String} {before after : List String} {d : Diagnostic} {k : Nat}

/-- The lines before one that is refused are accepted. -/
theorem accepted (h : Refused before d) : Accepted before := by
  obtain ⟨-, r, texts, hread, -⟩ := h
  exact ⟨r, texts, hread⟩

/-- A part that holds the refused line fails as the whole does. -/
theorem ofText_firstSegments_of_le (h : Refused before d)
    (hcut : before ++ d.raw :: after = lines text) (hk : d.line ≤ k) :
    Document.ofText (firstSegments text k) = .error d := by
  obtain ⟨m, rfl⟩ : ∃ m, k = before.length + (m + 1) := by
    have hline := h.1
    exact ⟨k - d.line, by omega⟩
  -- The refused line is not empty, so it and the lines before it are all there.
  have hraw : d.raw.isEmpty = false := by simpa [String.isEmpty_eq_false_iff] using h.raw_ne_empty
  have hlines : lines (firstSegments text (before.length + (m + 1))) =
      before ++ d.raw :: dropTrailing String.isEmpty (after.take m) := by
    rw [lines_firstSegments, ← hcut, List.take_length_add_append, List.take_succ_cons,
      dropTrailing_append_cons hraw]
  rw [Document.ofText, hlines]
  have hwhole : before ++ d.raw :: (dropTrailing String.isEmpty (after.take m) ++ [endOfFile]) =
      (before ++ d.raw :: dropTrailing String.isEmpty (after.take m)) ++ [endOfFile] := by
    simp
  exact Document.ofLines_eq_error_iff.mpr ⟨before, _, hwhole, h⟩

/-- A part that ends before the refused line has no fault. -/
theorem quiet_firstSegments_of_lt (h : Refused before d)
    (hcut : before ++ d.raw :: after = lines text) (hk : k < d.line) :
    Quiet (firstSegments text k) := by
  have hline := h.1
  have htake : (lines text).take k = before.take k := by
    rw [← hcut, List.take_append_of_le_length (by omega)]
  refine quiet_firstSegments ?_
  rw [htake]
  exact h.accepted.of_isPrefix (List.take_prefix ..)

end Refused

/-- **The first fault is found as soon as it is there.**  If a text is accepted, all its first
    parts are quiet, and those that are accepted print a first part of the listing and have the
    first groups.  If a text fails at one of its lines, a first part fails in the same way when it
    has this line, and is quiet when it has not.  If a text fails at its end, all first parts are
    quiet. -/
theorem Document.ofText_firstSegments (text : String) :
    match ofText text with
    | .ok d =>
      ∀ k, Quiet (firstSegments text k) ∧
        ∀ d', ofText (firstSegments text k) = .ok d' →
          (∃ rest, d'.listing ++ rest = d.listing) ∧ d'.groups <+: d.groups
    | .error d =>
      if d.line ≤ (lines text).length then
        1 ≤ d.line ∧ (lines text)[d.line - 1]? = some d.raw ∧
          ∀ k, if d.line ≤ k then ofText (firstSegments text k) = .error d
            else Quiet (firstSegments text k)
      else d = .atEnd (lines text) ∧ ∀ k, Quiet (firstSegments text k) := by
  cases h : ofText text with
  | ok d =>
    intro k
    have haccepted : Accepted (lines text) := accepted_of_ofLines h
    have hprefix := (lines_firstSegments_isPrefix text k).trans (List.take_prefix ..)
    exact ⟨quiet_firstSegments (haccepted.of_isPrefix (List.take_prefix ..)),
      fun d' h' => isPrefix_of_lines_isPrefix h' h hprefix⟩
  | error d =>
    show if d.line ≤ (lines text).length then _ else _
    rcases ofLines_eq_error_cases h with ⟨before, after, hcut, hrefused⟩ | ⟨hrefused, rfl⟩
    · have hline : d.line = before.length + 1 := hrefused.1
      have hle : d.line ≤ (lines text).length := by
        rw [← hcut, List.length_append, List.length_cons]
        omega
      rw [if_pos hle]
      refine ⟨by omega, by simp [← hcut, hline], fun k => ?_⟩
      split
      case isTrue hk => exact hrefused.ofText_firstSegments_of_le hcut hk
      case isFalse hk => exact hrefused.quiet_firstSegments_of_lt hcut (by omega)
    · rw [if_neg (by simp [Diagnostic.atEnd])]
      refine ⟨rfl, fun k => quiet_firstSegments ?_⟩
      exact hrefused.accepted.of_isPrefix (List.take_prefix ..)

end Flashcards.Markup
