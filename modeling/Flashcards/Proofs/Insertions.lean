import Flashcards.Proofs.Grammar
import Flashcards.Proofs.Lines
import Flashcards.Proofs.Refusal

namespace Flashcards.Markup

open Flashcards.Text

/-!
# Lines that say nothing

An empty line or a comment may be put between any two lines of a document.  The document stays what
it is; a fault behind the new line is found one line later.

* `Registry.readLines_insert` — a line that says nothing, among lines that are accepted.
* `Diagnostic.pushed` — a diagnostic when a line was put into the document.
* `Document.ofLines_insert` — the two outcomes of reading, with the line and without it.
* `IsWrittenComment` — how a comment is written.
* `MayPrecede.lines_eq` — the lines of a text into which such a line was put.
* `Document.ofText_insertIdx` — lines that say nothing do not show in a document.
-/

/-! ### Lists with one more element -/

/-- An insertion behind the first part of a list. -/
theorem insertIdx_length_append {α : Type} (xs ys : List α) (a : α) :
    (xs ++ ys).insertIdx xs.length a = xs ++ a :: ys := by
  induction xs with
  | nil => rfl
  | cons x xs ih => rw [List.cons_append, List.length_cons, List.insertIdx_succ_cons, ih]; rfl

/-- An element of a whole stands in its first part, or behind it. -/
theorem append_cons_eq_append {α : Type} {before after xs ys : List α} {a : α}
    (h : before ++ a :: after = xs ++ ys) :
    (∃ more, before ++ a :: more = xs ∧ more ++ ys = after) ∨
      ∃ more, xs ++ more = before ∧ more ++ a :: after = ys := by
  rcases List.append_eq_append_iff.mp h with ⟨more, rfl, hcut⟩ | ⟨more, rfl, hcut⟩
  · rcases List.cons_eq_append_iff.mp hcut with ⟨rfl, rfl⟩ | ⟨more, rfl, rfl⟩
    · exact .inr ⟨[], by simp, rfl⟩
    · exact .inl ⟨more, rfl, rfl⟩
  · exact .inr ⟨more, rfl, hcut.symm⟩

/-! ### Among lines that are read -/

/-- An empty line or a comment. -/
def Silent (line : String) : Prop :=
  line = "" ∨ IsComment line

namespace Registry

variable {r next : Registry} {n : Nat} {line : String} {xs ys texts : List String}

/-- A silent line changes nothing and prints nothing. -/
theorem step_silent (h : Silent line) (r : Registry) : r.Step line r "" := by
  rcases h with rfl | hcomment
  · exact .blank
  · exact .comment hcomment

/-- Whether lines are accepted does not depend on their numbers. -/
theorem readLines_renumber (h : r.readLines n xs = .ok (next, texts)) (m : Nat) :
    r.readLines m xs = .ok (next, texts) := by
  induction xs generalizing r n m texts with
  | nil => exact h
  | cons line xs ih =>
    obtain ⟨r', printed, more, ha, hrest, rfl⟩ := readLines_cons_eq_ok_iff.mp h
    exact readLines_cons_eq_ok_iff.mpr ⟨r', printed, more, ha, ih hrest (m + 1), rfl⟩

/-- A line that says nothing, among lines that are accepted, prints nothing and leaves the
    registry alone. -/
theorem readLines_insert (h : Silent line) (hread : r.readLines n (xs ++ ys) = .ok (next, texts)) :
    ∃ ts us, ts ++ us = texts ∧ r.readLines n (xs ++ line :: ys) = .ok (next, ts ++ "" :: us) := by
  obtain ⟨r', ts, us, hxs, hys, hcut⟩ := readLines_append_eq_ok_iff.mp hread
  refine ⟨ts, us, hcut, readLines_append_eq_ok_iff.mpr ⟨r', ts, _, hxs, ?_, rfl⟩⟩
  -- The lines behind have other numbers now, and these show in diagnostics only.
  exact readLines_cons_eq_ok_iff.mpr
    ⟨r', "", us, accept_eq_ok_iff.mpr (step_silent h r'), readLines_renumber hys _, rfl⟩

end Registry

/-- A diagnostic when a line was put behind the first `i` lines of the document. -/
def Diagnostic.pushed (i : Nat) (d : Diagnostic) : Diagnostic :=
  if i < d.line then { d with line := d.line + 1 } else d

@[simp] theorem Diagnostic.pushed_raw (i : Nat) (d : Diagnostic) : (d.pushed i).raw = d.raw := by
  unfold Diagnostic.pushed
  split <;> rfl

namespace Refused

variable {line : String} {xs ys : List String} {d : Diagnostic}

/-- The refused line stands behind the new one. -/
theorem insert (h : Silent line) (hrefused : Refused (xs ++ ys) d) :
    Refused (xs ++ line :: ys) (d.pushed xs.length) := by
  obtain ⟨hline, r, texts, hread, hf⟩ := hrefused
  obtain ⟨ts, us, -, hinserted⟩ := Registry.readLines_insert h hread
  have hlater : xs.length < d.line := by
    rw [hline, List.length_append]
    omega
  rw [Diagnostic.pushed, if_pos hlater]
  refine ⟨?_, r, _, hinserted, hf⟩
  show d.line + 1 = _
  rw [hline, List.length_append, List.length_append, List.length_cons]
  omega

end Refused

namespace Document

variable {line : String}

/-- A line that says nothing does not matter to a document, but for the numbers of the lines behind
    it. -/
theorem ofLines_insert (h : Silent line) (xs ys : List String) :
    ofLines (xs ++ line :: ys) = (ofLines (xs ++ ys)).mapError (Diagnostic.pushed xs.length) := by
  cases hread : ofLines (xs ++ ys) with
  | ok d =>
    obtain ⟨r, texts, hls, hc, rfl⟩ := ofLines_eq_ok_iff.mp hread
    obtain ⟨ts, us, rfl, hinserted⟩ := Registry.readLines_insert h hls
    exact ofLines_eq_ok_iff.mpr ⟨r, _, hinserted, hc, by simp⟩
  | error d =>
    obtain ⟨before, after, hcut, hrefused⟩ := ofLines_eq_error_iff.mp hread
    show ofLines (xs ++ line :: ys) = .error (d.pushed xs.length)
    rw [List.append_assoc] at hcut
    rcases append_cons_eq_append hcut with ⟨more, rfl, rfl⟩ | ⟨more, rfl, hmore⟩
    · -- The refused line stands before the new one.
      have hearlier : ¬ (before ++ d.raw :: more).length < d.line := by
        rw [hrefused.1, List.length_append, List.length_cons]
        omega
      rw [Diagnostic.pushed, if_neg hearlier]
      exact ofLines_eq_error_iff.mpr
        ⟨before, more ++ line :: (ys ++ [endOfFile]), by simp, hrefused⟩
    · -- It stands behind the new line, or it is the end of the document.
      refine ofLines_eq_error_iff.mpr ⟨xs ++ line :: more, after, ?_, hrefused.insert h⟩
      simp [← hmore]

end Document

/-! ### Among the lines of a text -/

section Comments

variable {line : String}

/-- A comment is `##`, or goes on behind it with a space. -/
def IsWrittenComment (line : String) : Prop :=
  line = "##" ∨ ['#', '#', ' '] <+: line.toList

theorem IsWrittenComment.isComment (h : IsWrittenComment line) : IsComment line := by
  rcases h with rfl | ⟨rest, hrest⟩
  · show (words "##").head? = some "##"
    decide
  · have hsplit : line.toList.splitOn ' ' = ['#', '#'] :: rest.splitOn ' ' := by
      rw [← hrest]
      have hword : ' ' ∉ ['#', '#'] := by decide
      exact List.splitOn_append_cons_self_of_not_mem hword rest
    rw [IsComment, words, wordChars, hsplit]
    rfl

/-- It stays one without the carriage return at its end. -/
theorem IsWrittenComment.withoutReturn (h : IsWrittenComment line) :
    IsWrittenComment (withoutReturn line) := by
  rcases h with rfl | ⟨rest, hrest⟩
  · exact .inl rfl
  · refine .inr ?_
    rw [Text.withoutReturn, String.toList_ofList, ← hrest]
    exact ⟨dropCarriageReturn rest, rfl⟩

theorem IsWrittenComment.ne_empty (h : IsWrittenComment line) : line ≠ "" := by
  rintro rfl
  rcases h with h | h
  · exact absurd h (by decide)
  · exact absurd h (by simp)

/-- A line that says nothing and that may be put before some lines: an empty line must not come to
    stand at the end. -/
def MayPrecede (ys : List String) (line : String) : Prop :=
  IsWrittenComment line ∧ '\n' ∉ line.toList ∨ line = "" ∧ ys ≠ []

variable {xs ys : List String}

/-- A line that may be put in has no line end in it. -/
theorem MayPrecede.newline_not_mem (h : MayPrecede ys line) : '\n' ∉ line.toList := by
  rcases h with ⟨-, hmem⟩ | ⟨rfl, -⟩
  · exact hmem
  · simp

/-- A line that may be put in is silent, as it is read. -/
theorem MayPrecede.silent (h : MayPrecede ys line) : Silent (withoutReturn line) := by
  rcases h with ⟨hcomment, -⟩ | ⟨rfl, -⟩
  · exact .inr hcomment.withoutReturn.isComment
  · exact .inl rfl

/-- A line that is put in does not become a last empty one. -/
theorem MayPrecede.getLast?_ne (h : MayPrecede ys line) (hlast : (xs ++ ys).getLast? ≠ some "") :
    (xs ++ withoutReturn line :: ys).getLast? ≠ some "" := by
  cases ys with
  | nil =>
    rcases h with ⟨hcomment, -⟩ | ⟨-, hne⟩
    · simpa using hcomment.withoutReturn.ne_empty
    · exact absurd rfl hne
  | cons y ys => simpa [List.getLast?_append] using hlast

/-- The lines of a text, one of which was put there. -/
theorem MayPrecede.lines_eq (h : MayPrecede ys line) (hls : ∀ l ∈ xs ++ ys, IsLine l)
    (hlast : (xs ++ ys).getLast? ≠ some "") :
    lines (String.intercalate "\n" (xs ++ line :: ys)) = xs ++ withoutReturn line :: ys := by
  have hmem : ∀ l ∈ xs ++ line :: ys, '\n' ∉ l.toList := by
    intro l hl
    rcases List.mem_append.mp hl with hl | hl
    · exact (hls l (by simp [hl])).newline_not_mem
    · rcases List.mem_cons.mp hl with rfl | hl
      · exact h.newline_not_mem
      · exact (hls l (by simp [hl])).newline_not_mem
  have hxs : xs.map withoutReturn = xs := map_withoutReturn fun l hl => hls l (by simp [hl])
  have hys : ys.map withoutReturn = ys := map_withoutReturn fun l hl => hls l (by simp [hl])
  rw [lines_intercalate hmem, List.map_append, List.map_cons, hxs, hys,
    dropTrailing_isEmpty_eq (h.getLast?_ne hlast)]

end Comments

namespace Document

variable {ls : List String} {line : String} {i : Nat}

/-- **Lines that say nothing do not show in a document.**  Lines that do not end in an empty one are
    joined by line ends.  If a comment is put anywhere among them, or an empty line before one of
    them, then the text is the same document, or has the same fault: one line later if it stands
    behind the new line, and at the same line if it stands before it. -/
theorem ofText_insertIdx (hls : ∀ l ∈ ls, IsLine l) (hlast : ls.getLast? ≠ some "")
    (hi : i ≤ ls.length)
    (hline : (line = "##" ∨ ['#', '#', ' '] <+: line.toList) ∧ '\n' ∉ line.toList ∨
      line = "" ∧ i < ls.length) :
    ofText (String.intercalate "\n" (ls.insertIdx i line)) =
      (ofText (String.intercalate "\n" ls)).mapError (Diagnostic.pushed i) := by
  obtain ⟨xs, ys, rfl, rfl⟩ : ∃ xs ys, xs ++ ys = ls ∧ xs.length = i :=
    ⟨ls.take i, ls.drop i, List.take_append_drop i ls, List.length_take_of_le hi⟩
  have hmay : MayPrecede ys line := by
    refine hline.imp_right fun ⟨hempty, hlt⟩ => ⟨hempty, ?_⟩
    rintro rfl
    simp at hlt
  have hwithout : lines (String.intercalate "\n" (xs ++ ys)) = xs ++ ys := by
    rw [lines_intercalate fun l hl => (hls l hl).newline_not_mem, map_withoutReturn hls,
      dropTrailing_isEmpty_eq hlast]
  rw [insertIdx_length_append, ofText, ofText, hmay.lines_eq hls hlast, hwithout,
    ofLines_insert hmay.silent]

/-- A comment in the middle of a term, one before the end of a text that leaves a group open, and an
    empty line behind the line of a fault. -/
theorem ofText_insertIdx_sample :
    ofText "#group a\n一\n## 1\r\nyi1\none\n#endgroup" =
        .ok ⟨"", [⟨"a", [⟨"一", "yī", "one"⟩], none, none⟩]⟩ ∧
      ofText "#group a\n一\n##" = .error ⟨4, endOfFile, .unclosedGroup⟩ ∧
      ofText "x\n\ny" = .error ⟨1, "x", .strayContent⟩ := by
  have haccepted : ofText (String.intercalate "\n" ["#group a", "一", "yi1", "one", "#endgroup"]) =
      .ok ⟨"", [⟨"a", [⟨"一", "yī", "one"⟩], none, none⟩]⟩ := by rfl
  have hopen : ofText (String.intercalate "\n" ["#group a", "一"]) =
      .error ⟨3, endOfFile, .unclosedGroup⟩ := by rfl
  have hstray : ofText (String.intercalate "\n" ["x", "y"]) =
      .error ⟨1, "x", .strayContent⟩ := by rfl
  have hinside := @ofText_insertIdx ["#group a", "一", "yi1", "one", "#endgroup"] "## 1\r" 2
    (by decide) (by decide) (by decide) (by decide)
  have hend := @ofText_insertIdx ["#group a", "一"] "##" 2 (by decide) (by decide) (by decide)
    (by decide)
  have hempty := @ofText_insertIdx ["x", "y"] "" 1 (by decide) (by decide) (by decide) (by decide)
  rw [haccepted] at hinside
  rw [hopen] at hend
  rw [hstray] at hempty
  exact ⟨hinside, hend, hempty⟩

end Document

end Flashcards.Markup
