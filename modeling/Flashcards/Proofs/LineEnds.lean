import Flashcards.Proofs.Lines
import Flashcards.World

namespace Flashcards.Text

/-!
# Line ends

A line may end in `\n` or in `\r\n`.  Which of them is used does not show in the lines of a text,
nor do line ends at its end.  A text that was loaded from a file has `\n` only.

* `LineEnd`, `lineEnds` — the two line ends, and some of them in a row.
* `lines_joined` — lines joined by one of the line ends are the lines of the text that they make.
* `lines_append_lineEnds` — line ends behind a text that has one do not matter.
* `lines_unifyLineEnds_eq_iff` — a text has the lines that it has when it is loaded, unless it holds
  `\r\r\n`, where two carriage returns are lost instead of one.
* `writeReturns` — a text with `\r\n` for every `\n`, which is what it was when it is loaded.
* `Storage.load_lines_eq_iff` — what a text and its loaded text have in common.
* `Markup.lines_of_joined_lines` — joining lines and cutting a text into lines.
-/

variable {cs rest : List Char} {line : String}

/-! ### Lines joined -/

/-- The two ways to end a line. -/
inductive LineEnd where
  | newline
  | returnNewline
  deriving DecidableEq, Repr

/-- The characters of a line end. -/
def LineEnd.text : LineEnd → String
  | .newline => "\n"
  | .returnNewline => "\r\n"

/-- Line ends in a row. -/
def lineEnds (es : List LineEnd) : String :=
  String.join (es.map LineEnd.text)

/-- The first line of a text is cut off, whatever ends it. -/
theorem cutLines_append_lineEnd (h : IsLine line) (e : LineEnd) (rest : String) :
    cutLines (line ++ e.text ++ rest) = line :: cutLines rest := by
  cases e with
  | newline =>
    show cutLines (line ++ "\n" ++ rest) = _
    rw [cutLines_join, cutLines_of_not_mem h.newline_not_mem, h.withoutReturn_eq]
    rfl
  | returnNewline =>
    -- The carriage return stands at the end of the line and is taken off it.
    have hends : line ++ "\r\n" ++ rest = line ++ "\r" ++ "\n" ++ rest := by
      simp [← String.toList_inj]
    have hreturn : withoutReturn (line ++ "\r") = line := by
      rw [withoutReturn, String.toList_append]
      exact (congrArg String.ofList (dropCarriageReturn_concat _)).trans (String.ofList_toList)
    have hmem : '\n' ∉ (line ++ "\r").toList := by simp [h.newline_not_mem]
    show cutLines (line ++ "\r\n" ++ rest) = _
    rw [hends, cutLines_join, cutLines_of_not_mem hmem, hreturn]
    rfl

theorem isLine_empty : IsLine "" :=
  ⟨by simp, by simp⟩

/-- Line ends alone are cut into empty lines. -/
theorem cutLines_lineEnds (es : List LineEnd) :
    cutLines (lineEnds es) = List.replicate (es.length + 1) "" := by
  induction es with
  | nil => rfl
  | cons e es ih =>
    have hfirst : lineEnds (e :: es) = "" ++ e.text ++ lineEnds es := by simp [lineEnds]
    rw [hfirst, cutLines_append_lineEnd isLine_empty, ih]
    rfl

/-- Lines joined by one of the line ends are cut apart again, and line ends behind them are empty
    parts. -/
theorem cutLines_joined {ls : List String} (hne : ls ≠ []) (hls : ∀ l ∈ ls, IsLine l) (e : LineEnd)
    (es : List LineEnd) :
    cutLines (String.intercalate e.text ls ++ lineEnds es) = ls ++ List.replicate es.length "" := by
  induction ls with
  | nil => exact absurd rfl hne
  | cons line ls ih =>
    have hline : IsLine line := hls line (by simp)
    cases ls with
    | nil =>
      rw [String.intercalate_singleton]
      cases es with
      | nil =>
        have hlast : line ++ lineEnds [] = line := by simp [lineEnds]
        rw [hlast, cutLines_of_not_mem hline.newline_not_mem, hline.withoutReturn_eq]
        rfl
      | cons e' es =>
        have hmore : line ++ lineEnds (e' :: es) = line ++ e'.text ++ lineEnds es := by
          simp [lineEnds, String.append_assoc]
        rw [hmore, cutLines_append_lineEnd hline, cutLines_lineEnds]
        rfl
    | cons next ls =>
      rw [String.intercalate_cons_cons, String.append_assoc, cutLines_append_lineEnd hline,
        ih (by simp) fun l hl => hls l (by simp [hl])]
      rfl

/-- Lines joined by one of the line ends are the lines of the text that they make. -/
theorem lines_joined {ls : List String} (hls : ∀ l ∈ ls, IsLine l) (hlast : ls.getLast? ≠ some "")
    (e : LineEnd) (es : List LineEnd) :
    lines (String.intercalate e.text ls ++ lineEnds es) = ls := by
  have hempty : "".isEmpty = true := rfl
  rcases eq_or_ne ls [] with rfl | hne
  · rw [String.intercalate_nil, String.empty_append, lines_eq_dropTrailing, cutLines_lineEnds]
    exact dropTrailing_append_replicate hempty [] (es.length + 1)
  · rw [lines_eq_dropTrailing, cutLines_joined hne hls, dropTrailing_append_replicate hempty,
      dropTrailing_isEmpty_eq hlast]

/-- Line ends behind a text that has one do not matter. -/
theorem lines_append_lineEnds (text : String) (es : List LineEnd) :
    lines (text ++ "\n" ++ lineEnds es) = lines text := by
  have hempty : "".isEmpty = true := rfl
  rw [lines_eq_dropTrailing, cutLines_join, cutLines_lineEnds,
    dropTrailing_append_replicate hempty, ← lines_eq_dropTrailing]

/-- The last line of a text is not empty. -/
theorem getLast?_lines_ne (text : String) : (lines text).getLast? ≠ some "" := by
  intro h
  obtain ⟨ls, hls⟩ := List.getLast?_eq_some_iff.mp h
  have hkept : dropTrailing String.isEmpty (lines text) = lines text := by
    rw [lines_eq_dropTrailing]
    exact List.rdropWhile_idempotent _ _
  have hlast := List.rdropWhile_eq_self_iff.mp hkept (by simp [hls])
  simp [hls] at hlast

/-! ### Texts loaded -/

/-- A character is left alone, unless it is the carriage return of a line end. -/
theorem unifyLineEndChars_cons {c : Char} (h : c = '\r' → cs.head? ≠ some '\n') :
    unifyLineEndChars (c :: cs) = c :: unifyLineEndChars cs := by
  rw [unifyLineEndChars]
  rintro rest hc rfl
  exact h hc rfl

/-- A text without line ends stays as it is. -/
theorem unifyLineEndChars_of_not_mem (h : '\n' ∉ cs) : unifyLineEndChars cs = cs := by
  induction cs with
  | nil => rfl
  | cons c cs ih =>
    have hcs : '\n' ∉ cs := fun hmem => h (List.mem_cons_of_mem c hmem)
    rw [unifyLineEndChars_cons fun _ hhead => hcs (List.mem_of_head? hhead), ih hcs]

/-- In a text that is loaded a line loses the carriage return at its end. -/
theorem unifyLineEndChars_append_cons (h : '\n' ∉ cs) (rest : List Char) :
    unifyLineEndChars (cs ++ '\n' :: rest) =
      dropCarriageReturn cs ++ '\n' :: unifyLineEndChars rest := by
  fun_induction dropCarriageReturn cs with
  | case1 => exact unifyLineEndChars_cons (by simp)
  | case2 => rfl
  | case3 c cs hlast ih =>
    have hcs : '\n' ∉ cs := fun hmem => h (List.mem_cons_of_mem c hmem)
    have hhead : c = '\r' → (cs ++ '\n' :: rest).head? ≠ some '\n' := by
      intro hc
      cases cs with
      | nil => exact absurd rfl (hlast hc)
      | cons b cs => simpa using fun hb => hcs (by simp [hb])
    rw [List.cons_append, unifyLineEndChars_cons hhead, ih hcs]
    rfl

/-- A line keeps a carriage return at its end if it has two of them there. -/
theorem getLast?_dropCarriageReturn_iff (cs : List Char) :
    (dropCarriageReturn cs).getLast? = some '\r' ↔ ['\r', '\r'] <:+ cs := by
  by_cases h : cs.getLast? = some '\r'
  · obtain ⟨xs, rfl⟩ := List.getLast?_eq_some_iff.mp h
    rw [dropCarriageReturn_concat, ← List.singleton_suffix_iff_getLast?_eq_some]
    exact List.suffix_append_self_iff.symm
  · rw [dropCarriageReturn_of_ne h]
    refine iff_of_false h ?_
    rintro ⟨xs, rfl⟩
    exact h (by simp)

/-- Two carriage returns before a line end stand at the end of a line. -/
theorem doubleReturn_isInfix_iff (h : '\n' ∉ cs) (rest : List Char) :
    ['\r', '\r', '\n'] <:+: cs ++ '\n' :: rest ↔
      ['\r', '\r'] <:+ cs ∨ ['\r', '\r', '\n'] <:+: rest := by
  rw [List.infix_append_iff_ne_nil]
  constructor
  · rintro (hcs | hrest | ⟨before, behind, -, hne, hcut, hbefore, hbehind⟩)
    · exact absurd (hcs.subset (by simp)) h
    · rcases List.infix_cons_iff.mp hrest with hprefix | hrest
      · exact absurd hprefix (by simp)
      · exact .inr hrest
    · -- What stands behind the cut begins with the line end of the text.
      obtain ⟨more, rfl, -⟩ := (List.prefix_cons_iff.mp hbehind).resolve_left hne
      have hsplit : ['\r', '\r'] ++ '\n' :: [] = before ++ '\n' :: more := hcut
      obtain ⟨rfl, -⟩ := (List.append_cons_inj_of_notMem (by simp) (by simp)).mp hsplit
      exact .inl hbefore
  · rintro (hcs | hrest)
    · exact .inr (.inr ⟨['\r', '\r'], ['\n'], by simp, by simp, rfl, hcs, by simp⟩)
    · exact .inr (.inl (List.infix_cons hrest))

/-- A text has the lines that it has when it is loaded, unless it holds two carriage returns before
    a line end. -/
theorem lineChars_unifyLineEndChars_iff (cs : List Char) :
    lineChars (unifyLineEndChars cs) = lineChars cs ↔ ¬ ['\r', '\r', '\n'] <:+: cs := by
  induction cs using lineInduction with
  | last cs hcs =>
    rw [unifyLineEndChars_of_not_mem hcs]
    exact iff_of_true rfl fun hpart => hcs (hpart.subset (by simp))
  | more line rest hline ih =>
    have hkept : '\n' ∉ dropCarriageReturn line := fun hmem =>
      hline ((dropCarriageReturn_isPrefix line).subset hmem)
    have hloaded : cutLineChars (unifyLineEndChars (line ++ '\n' :: rest)) =
        dropCarriageReturn (dropCarriageReturn line) :: cutLineChars (unifyLineEndChars rest) := by
      rw [unifyLineEndChars_append_cons hline, cutLineChars_append_cons,
        cutLineChars_of_not_mem hkept]
      rfl
    have hraw : cutLineChars (line ++ '\n' :: rest) =
        dropCarriageReturn line :: cutLineChars rest := by
      rw [cutLineChars_append_cons, cutLineChars_of_not_mem hline]
      rfl
    rw [lineChars, lineChars, hloaded, hraw, doubleReturn_isInfix_iff hline,
      ← getLast?_dropCarriageReturn_iff, not_or, ← ih]
    by_cases hlast : (dropCarriageReturn line).getLast? = some '\r'
    · -- The line loses one more character, and as it is not empty, that shows.
      obtain ⟨shorter, hline⟩ := List.getLast?_eq_some_iff.mp hlast
      rw [hline, dropCarriageReturn_concat]
      refine iff_of_false (fun heq => ?_) (by simp)
      have hfirst : dropTrailing List.isEmpty ((shorter ++ ['\r']) :: cutLineChars rest) =
          (shorter ++ ['\r']) :: dropTrailing List.isEmpty (cutLineChars rest) :=
        dropTrailing_append_cons (by simp) [] _
      have hprefix : dropTrailing List.isEmpty (shorter :: cutLineChars (unifyLineEndChars rest)) <+:
          shorter :: cutLineChars (unifyLineEndChars rest) := List.rdropWhile_prefix _ _
      rw [heq, hfirst, List.cons_prefix_cons] at hprefix
      exact absurd hprefix.1 (by simp)
    · rw [dropCarriageReturn_of_ne hlast, dropTrailing_cons_inj]
      simp [hlast, lineChars]

/-- Loading does not change the lines of a text, unless it holds two carriage returns before a line
    end. -/
theorem lines_unifyLineEnds_eq_iff (text : String) :
    lines (unifyLineEnds text) = lines text ↔ ¬ ['\r', '\r', '\n'] <:+: text.toList := by
  rw [← lineChars_unifyLineEndChars_iff, lines, lines, unifyLineEnds, String.toList_ofList]
  exact (List.map_injective_iff.mpr fun _ _ => String.ofList_injective).eq_iff

/-- A line end written with a carriage return; any other character as it is. -/
def withReturn (c : Char) : List Char :=
  if c = '\n' then ['\r', '\n'] else [c]

/-- A text with `\r\n` for every `\n`. -/
def writeReturns (text : String) : String :=
  String.ofList (text.toList.flatMap withReturn)

/-- A text does not begin with a bare line end, when each has its carriage return. -/
theorem head?_flatMap_withReturn (cs : List Char) : (cs.flatMap withReturn).head? ≠ some '\n' := by
  cases cs with
  | nil => simp
  | cons c cs => by_cases hc : c = '\n' <;> simp [withReturn, hc]

/-- Carriage returns that were written before line ends are left out again. -/
theorem unifyLineEndChars_flatMap (cs : List Char) :
    unifyLineEndChars (cs.flatMap withReturn) = cs := by
  induction cs with
  | nil => rfl
  | cons c cs ih =>
    rw [List.flatMap_cons, withReturn]
    by_cases hc : c = '\n'
    · rw [if_pos hc, hc]
      exact congrArg ('\n' :: ·) ih
    · rw [if_neg hc, List.singleton_append,
        unifyLineEndChars_cons fun _ => head?_flatMap_withReturn cs, ih]

/-- So a text is got back from its form with carriage returns. -/
theorem unifyLineEnds_writeReturns (text : String) : unifyLineEnds (writeReturns text) = text := by
  rw [unifyLineEnds, writeReturns, String.toList_ofList, unifyLineEndChars_flatMap,
    String.ofList_toList]

end Flashcards.Text

namespace Flashcards.Storage

open Flashcards.Text Flashcards.Markup

/-- What is loaded from a file that holds a text. -/
theorem load_of_read {p : Path} {w : World} {text : String}
    (hread : w.files.read p = .ok text.toUTF8) :
    (load p : Session (Except StorageError String)).run w = (.ok (unifyLineEnds text), w) := by
  have hload : (load p : Session (Except StorageError String)).run w =
      (decode p (w.files.read p), w) := rfl
  rw [hload, hread, decode_toUTF8]

/-- **Loading keeps the lines of a text, but for one pattern.**  A file that holds a text is loaded
    with `\n` for every `\r\n`.  This text has the lines of the text in the file just when `\r\r\n`
    does not stand in it; then it is the same document, or has the same fault at the same line.
    Whatever a text holds, it is loaded as it is when the file has `\r\n` for every `\n` of it. -/
theorem load_lines_eq_iff (p : Path) (w : World) (text : String) :
    (w.files.read p = .ok text.toUTF8 →
      (load p : Session (Except StorageError String)).run w = (.ok (unifyLineEnds text), w)) ∧
    (lines (unifyLineEnds text) = lines text ↔ ¬ ['\r', '\r', '\n'] <:+: text.toList) ∧
    (¬ ['\r', '\r', '\n'] <:+: text.toList →
      Document.ofText (unifyLineEnds text) = Document.ofText text) ∧
    (w.files.read p = .ok (writeReturns text).toUTF8 →
      (load p : Session (Except StorageError String)).run w = (.ok text, w)) := by
  refine ⟨load_of_read, lines_unifyLineEnds_eq_iff text, fun h => ?_, fun hread => ?_⟩
  · have hlines := (lines_unifyLineEnds_eq_iff text).mpr h
    rw [Document.ofText, Document.ofText, hlines]
  · rw [load_of_read hread, unifyLineEnds_writeReturns]

/-- The world of a file that holds a text. -/
def worldOf (p : Path) (text : String) : World :=
  World.ofFiles (FileSystem.empty.overwrite p text.toUTF8)

/-- A carriage return at the end of the last line is not loaded away, but is not part of the line
    either.  One before a line end of the text itself comes back. -/
theorem load_lines_sample :
    let p : Path := ⟨"words.txt"⟩
    ((load p : Session (Except StorageError String)).run (worldOf p "a\r\nb\r")).1 =
        .ok "a\nb\r" ∧
      lines "a\nb\r" = lines "a\r\nb\r" ∧
      Document.ofText "a\nb\r" = Document.ofText "a\r\nb\r" ∧
      ((load p : Session (Except StorageError String)).run (worldOf p "a\r\r\nb")).1 =
        .ok "a\r\nb" := by
  have hunified : unifyLineEnds "a\r\nb\r" = "a\nb\r" := by decide
  have hwritten : writeReturns "a\r\nb" = "a\r\r\nb" := by decide
  have hsingle : ¬ ['\r', '\r', '\n'] <:+: "a\r\nb\r".toList := by decide
  obtain ⟨hload, hlines, hdocument, -⟩ :=
    load_lines_eq_iff ⟨"words.txt"⟩ (worldOf ⟨"words.txt"⟩ "a\r\nb\r") "a\r\nb\r"
  obtain ⟨-, -, -, hback⟩ :=
    load_lines_eq_iff ⟨"words.txt"⟩ (worldOf ⟨"words.txt"⟩ "a\r\r\nb") "a\r\nb"
  rw [hunified] at hload hlines hdocument
  rw [hwritten] at hback
  exact ⟨congrArg Prod.fst (hload rfl), hlines.mpr hsingle, hdocument hsingle,
    congrArg Prod.fst (hback rfl)⟩

end Flashcards.Storage

namespace Flashcards.Markup

open Flashcards.Text

/-- **Lines come back from the text that they make, and line ends behind a text do not matter.**
    Lines that are joined by one of the two line ends, with any line ends behind the last, are the
    lines of the text so made.  A text with `\n` and any line ends behind it has the lines of the
    text itself, and is the same document or has the same fault.  No line holds a line end, and the
    last line is not empty. -/
theorem lines_of_joined_lines :
    (∀ ls : List String, (∀ l ∈ ls, IsLine l) → ls.getLast? ≠ some "" →
      ∀ (e : LineEnd) (es : List LineEnd),
        lines (String.intercalate e.text ls ++ lineEnds es) = ls) ∧
    ∀ text : String,
      (∀ es : List LineEnd,
        lines (text ++ "\n" ++ lineEnds es) = lines text ∧
          Document.ofText (text ++ "\n" ++ lineEnds es) = Document.ofText text) ∧
      (∀ line ∈ lines text, '\n' ∉ line.toList) ∧ (lines text).getLast? ≠ some "" := by
  refine ⟨fun ls hls hlast e es => lines_joined hls hlast e es, fun text => ⟨fun es => ?_, ?_, ?_⟩⟩
  · have hlines := lines_append_lineEnds text es
    exact ⟨hlines, by rw [Document.ofText, Document.ofText, hlines]⟩
  · exact fun line hline => newline_not_mem_of_mem_lines hline
  · exact getLast?_lines_ne text

/-- The empty line inside a text is a line, those at its end are not. -/
theorem lines_of_joined_lines_sample :
    lines "a\r\n\r\nb\n\r\n" = ["a", "", "b"] ∧
      Document.ofText "#group a\n\n\r\n" = Document.ofText "#group a" := by
  have hls : ∀ l ∈ ["a", "", "b"], IsLine l := by decide
  have hjoined := lines_of_joined_lines.1 ["a", "", "b"] hls (by decide) .returnNewline
    [.newline, .returnNewline]
  have htrailed := ((lines_of_joined_lines.2 "#group a").1 [.newline, .returnNewline]).2
  exact ⟨hjoined, htrailed⟩

end Flashcards.Markup
