import Flashcards.Proofs.Lines
import Flashcards.Proofs.Reading
import Mathlib.Data.List.Basic

namespace Flashcards.Markup

open Flashcards.Text

/-!
# The first fault

* `Registry.openGroup_eq_fault_iff` and its like — what each command refuses, and why.
* `Registry.readLines_eq_fault_iff` — the line that a diagnostic is about is refused, and the lines
  before it are accepted.
* `Accepted`, `Refused` — lines that are read from the start, up to a refused line or without one.
* `Document.ofLines_eq_error_cases` — a document fails at its first refused line, or at its end.
* `Document.ofLines_of_accepted` — if all its lines are accepted, it can fail at its end only.
-/

namespace Registry

variable {r next : Registry} {n : Nat} {line : String} {d : Diagnostic} {f : Fault}
  {arguments : List String}

/-! ### What each command refuses -/

/-- Why a group is not opened. -/
theorem openGroup_eq_fault_iff :
    r.openGroup arguments = .error (.fault f) ↔
      r.current ≠ none ∧ .nestedGroup = f ∨
        r.current = none ∧
          (arguments = [] ∧ .missingName = f ∨ 2 ≤ arguments.length ∧ .tooManyWords 1 = f ∨
            ∃ name, arguments = [name] ∧ r.places.lookup name ≠ none ∧ .nameTaken name = f) := by
  unfold openGroup
  cases hc : r.current with
  | some place => simp
  | none =>
    match arguments with
    | [] => simp
    | _ :: _ :: _ => simp
    | [name] => cases hn : r.places.lookup name <;> simp [hn, -List.lookup_eq_none_iff]

/-- Why a group is not closed. -/
theorem closeGroup_eq_fault_iff :
    r.closeGroup arguments = .error (.fault f) ↔
      r.current = none ∧ .noOpenGroup = f ∨
        ∃ place, r.current = some place ∧
          (arguments ≠ [] ∧ .tooManyWords 0 = f ∨
            arguments = [] ∧
              ∃ g, r.groups[place]? = some g ∧ g.isDirty = true ∧ .unfinishedTerm = f) := by
  unfold closeGroup
  cases hc : r.current with
  | none => simp
  | some place =>
    cases arguments with
    | cons => simp
    | nil =>
      cases hg : r.groups[place]? with
      | none => simp [hg]
      | some g => cases hd : g.isDirty <;> simp [hg, hd]

/-- Why a group is not shown. -/
theorem showGroup_eq_fault_iff :
    r.showGroup arguments = .error (.fault f) ↔
      r.current ≠ none ∧ .showInsideGroup = f ∨
        r.current = none ∧
          (arguments = [] ∧ .missingName = f ∨
            ∃ name formats, arguments = name :: formats ∧
              (r.places.lookup name = none ∧ .unknownGroup name = f ∨
                ∃ place g, r.places.lookup name = some place ∧ r.groups[place]? = some g ∧
                  g.display formats = .error f)) := by
  unfold showGroup
  cases hc : r.current with
  | some place => simp
  | none =>
    cases arguments with
    | nil => simp
    | cons name formats =>
      cases hn : r.places.lookup name with
      | none => simp [hn, -List.lookup_eq_none_iff]
      | some place =>
        cases hg : r.groups[place]? <;>
          simp [hn, hg, mapError_eq_error_iff, -List.lookup_eq_none_iff]

/-- Why a document does not end. -/
theorem endFile_eq_fault_iff :
    r.endFile arguments = .error (.fault f) ↔
      r.current ≠ none ∧ .unclosedGroup = f ∨
        r.current = none ∧ arguments ≠ [] ∧ .tooManyWords 0 = f := by
  unfold endFile
  cases r.current <;> cases arguments <;> simp

/-- Content is refused outside all groups only. -/
theorem addContent_eq_fault_iff {text : String} :
    r.addContent text = .error (.fault f) ↔ r.current = none ∧ .strayContent = f := by
  unfold addContent
  cases hc : r.current with
  | none => simp
  | some place => cases hg : r.groups[place]? <;> simp [hg]

/-! ### The first refused line -/

/-- Either the first line is refused, or it is accepted and a later one is refused. -/
theorem readLines_cons_eq_fault_iff {rest : List String} :
    r.readLines n (line :: rest) = .error (.fault d) ↔
      (∃ f, r.accept line = .error (.fault f) ∧ ⟨n, line, f⟩ = d) ∨
        ∃ r' printed, r.accept line = .ok (r', printed) ∧
          r'.readLines (n + 1) rest = .error (.fault d) := by
  rw [readLines]
  cases ha : r.accept line with
  | error stop => cases stop <;> simp
  | ok p =>
    simp only [map_eq_error_iff, reduceCtorEq, false_and, exists_false, false_or, Except.ok.injEq]
    constructor
    · intro h
      exact ⟨p.1, p.2, rfl, h⟩
    · rintro ⟨_, _, rfl, h⟩
      exact h

/-- A diagnostic is about a line that is refused after the lines before it are accepted. -/
theorem readLines_eq_fault_iff {ls : List String} :
    r.readLines n ls = .error (.fault d) ↔
      ∃ before after r' texts, before ++ d.raw :: after = ls ∧ d.line = n + before.length ∧
        r.readLines n before = .ok (r', texts) ∧ r'.accept d.raw = .error (.fault d.fault) := by
  induction ls generalizing r n with
  | nil => simp [readLines]
  | cons line ls ih =>
    rw [readLines_cons_eq_fault_iff]
    simp only [ih]
    constructor
    · rintro (⟨f, ha, rfl⟩ | ⟨r₁, printed, ha, before, after, r', texts, rfl, hline, hread, hf⟩)
      · exact ⟨[], ls, r, [], rfl, rfl, rfl, ha⟩
      · refine ⟨line :: before, after, r', printed :: texts, rfl, ?_, ?_, hf⟩
        · rw [hline, List.length_cons]
          omega
        · exact readLines_cons_eq_ok_iff.mpr ⟨r₁, printed, texts, ha, hread, rfl⟩
    · rintro ⟨before, after, r', texts, hcut, hline, hread, hf⟩
      cases before with
      | nil =>
        obtain ⟨rfl, -⟩ := readLines_nil_eq_ok_iff.mp hread
        obtain ⟨rfl, rfl⟩ := List.cons.inj hcut
        refine .inl ⟨d.fault, hf, ?_⟩
        rw [show n = d.line by simpa using hline.symm]
      | cons first before =>
        obtain ⟨rfl, rfl⟩ := List.cons.inj hcut
        obtain ⟨r₁, printed, more, ha, hread, -⟩ := readLines_cons_eq_ok_iff.mp hread
        refine .inr ⟨r₁, printed, ha, before, after, r', more, rfl, ?_, hread, hf⟩
        rw [hline, List.length_cons]
        omega

/-- The end of a document is refused inside a group, and for nothing else. -/
theorem accept_endOfFile_eq_fault_iff :
    r.accept endOfFile = .error (.fault f) ↔ r.current ≠ none ∧ .unclosedGroup = f := by
  have hline : Line.ofText endOfFile = .endFile [] := by decide
  rw [accept, hline, acceptLine, map_eq_error_iff, endFile_eq_fault_iff]
  simp

/-- The empty line is never refused. -/
theorem ne_empty_of_accept_eq_fault (h : r.accept line = .error (.fault f)) : line ≠ "" := by
  rintro rfl
  have hblank : r.accept "" = .ok (r, "") := accept_eq_ok_iff.mpr .blank
  rw [hblank] at h
  exact absurd h (by simp)

end Registry

/-! ### Lines read from the start -/

/-- Some lines are accepted one after the other. -/
def Accepted (ls : List String) : Prop :=
  ∃ r texts, Registry.empty.readLines 1 ls = .ok (r, texts)

/-- Some lines are accepted, and a diagnostic is about the line after them. -/
def Refused (before : List String) (d : Diagnostic) : Prop :=
  d.line = before.length + 1 ∧
    ∃ r texts, Registry.empty.readLines 1 before = .ok (r, texts) ∧
      r.accept d.raw = .error (.fault d.fault)

/-- The diagnostic of some lines that leave a group open. -/
def Diagnostic.atEnd (ls : List String) : Diagnostic :=
  ⟨ls.length + 1, endOfFile, .unclosedGroup⟩

/-- Of lines that are accepted, the first ones are. -/
theorem Accepted.of_isPrefix {xs ys : List String} (h : Accepted ys) (hxs : xs <+: ys) :
    Accepted xs := by
  obtain ⟨r, texts, hread⟩ := h
  obtain ⟨rest, rfl⟩ := hxs
  obtain ⟨r', ts, -, hread, -⟩ := Registry.readLines_append_eq_ok_iff.mp hread
  exact ⟨r', ts, hread⟩

/-- A line that is refused is not empty. -/
theorem Refused.raw_ne_empty {before : List String} {d : Diagnostic} (h : Refused before d) :
    d.raw ≠ "" := by
  obtain ⟨-, r, texts, -, hf⟩ := h
  exact Registry.ne_empty_of_accept_eq_fault hf

namespace Document

variable {ls : List String} {d : Diagnostic}

/-- A document fails at its first refused line, where its end counts as a line. -/
theorem ofLines_eq_error_iff :
    ofLines ls = .error d ↔
      ∃ before after, before ++ d.raw :: after = ls ++ [endOfFile] ∧ Refused before d := by
  have hread : ofLines ls = .error d ↔
      Registry.empty.readLines 1 (ls ++ [endOfFile]) = .error (.fault d) := by
    unfold ofLines
    split
    case h_1 h => simp [h]
    case h_2 h => simp [h]
    case h_3 h =>
      -- A run from the empty registry loses no group.
      exact absurd h (Registry.empty_sound.readLines_ne_lost 1 _)
  rw [hread, Registry.readLines_eq_fault_iff]
  constructor
  · rintro ⟨before, after, r, texts, hcut, hline, hr, hf⟩
    exact ⟨before, after, hcut, by rw [hline, Nat.add_comm], r, texts, hr, hf⟩
  · rintro ⟨before, after, hcut, hline, r, texts, hr, hf⟩
    exact ⟨before, after, r, texts, hcut, by rw [hline, Nat.add_comm], hr, hf⟩

/-- A document fails at one of its lines, or at its end. -/
theorem ofLines_eq_error_cases (h : ofLines ls = .error d) :
    (∃ before after, before ++ d.raw :: after = ls ∧ Refused before d) ∨
      Refused ls d ∧ d = .atEnd ls := by
  obtain ⟨before, after, hcut, hrefused⟩ := ofLines_eq_error_iff.mp h
  rcases List.eq_nil_or_concat after with rfl | ⟨after, last, rfl⟩
  · -- Nothing stands behind the refused line, so it is the end of the document.
    obtain ⟨rfl, hraw⟩ := List.append_inj' hcut rfl
    obtain ⟨hline, r, texts, hread, hf⟩ := hrefused
    have hraw : d.raw = endOfFile := by simpa using hraw
    obtain ⟨-, hfault⟩ := Registry.accept_endOfFile_eq_fault_iff.mp (hraw ▸ hf)
    exact .inr ⟨⟨hline, r, texts, hread, hf⟩, by rw [Diagnostic.atEnd, ← hline, ← hraw, hfault]⟩
  · have hsplit : (before ++ d.raw :: after) ++ [last] = ls ++ [endOfFile] := by simpa using hcut
    obtain ⟨hfront, -⟩ := List.append_inj' hsplit rfl
    exact .inl ⟨before, after, hfront, hrefused⟩

/-- A document of which all lines are accepted can fail at its end only. -/
theorem ofLines_of_accepted (h : Accepted ls) :
    (∃ d, ofLines ls = .ok d) ∨ ofLines ls = .error (.atEnd ls) := by
  obtain ⟨r, texts, hread⟩ := h
  cases hc : r.current with
  | none => exact .inl ⟨_, ofLines_eq_ok_iff.mpr ⟨r, texts, hread, hc, rfl⟩⟩
  | some place =>
    have hopen : r.current ≠ none := by simp [hc]
    have hend := Registry.accept_endOfFile_eq_fault_iff.mpr ⟨hopen, rfl⟩
    exact .inr (ofLines_eq_error_iff.mpr ⟨ls, [], rfl, rfl, r, texts, hread, hend⟩)

/-- The faulty line of a text is not empty and holds no line end. -/
theorem raw_of_ofText {text : String} (h : ofText text = .error d) :
    d.raw ≠ "" ∧ '\n' ∉ d.raw.toList := by
  rcases ofLines_eq_error_cases h with ⟨before, after, hcut, hrefused⟩ | ⟨hrefused, rfl⟩
  · have hmem : d.raw ∈ lines text := by simp [← hcut]
    exact ⟨hrefused.raw_ne_empty, newline_not_mem_of_mem_lines hmem⟩
  · show endOfFile ≠ "" ∧ '\n' ∉ endOfFile.toList
    simp [endOfFile]

/-- The lines of a document are accepted. -/
theorem accepted_of_ofLines {d : Document} (h : ofLines ls = .ok d) : Accepted ls := by
  obtain ⟨r, texts, hread, -, -⟩ := ofLines_eq_ok_iff.mp h
  exact ⟨r, texts, hread⟩

end Document

end Flashcards.Markup
