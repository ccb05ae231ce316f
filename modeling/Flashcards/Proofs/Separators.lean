import Flashcards.Proofs.Lines
import Flashcards.Proofs.Renderings
import Flashcards.Proofs.Refusal
import Flashcards.Proofs.Rereading
import Mathlib.Data.List.SplitBy

namespace Flashcards

/-!
# Separators between renderings

The command `watch` prints its renderings one after the other, each below a separator.  A listing
ends its last line, if it has any; a diagnostic ends in the faulty line, without a line end.  So a
separator stands on a line of its own when it comes first or below a listing, and goes on with the
faulty line when it comes below a diagnostic.

* `EndsLine` — a text behind which a line begins.
* `endsLine_render_iff` — a rendering is such a text just when it is a listing.
* `stream`, `cutFrames` — what is printed in all, and what is found in it between separators.
* `separators_apart_iff` — the separators stand on lines of their own just when no rendering but
  the last is a diagnostic; then the renderings can be found again.
-/

/-- A text behind which a line begins: it is empty or ends in a line end. -/
def EndsLine (text : String) : Prop :=
  text = "" ∨ text.toList.getLast? = some '\n'

variable {a b : String}

/-- The end of a text is the end of its last part. -/
theorem endsLine_append_iff (hb : b ≠ "") : EndsLine (a ++ b) ↔ EndsLine b := by
  have hlist : b.toList ≠ [] := by simpa using hb
  rw [EndsLine, EndsLine, String.toList_append, List.getLast?_append_of_ne_nil _ hlist]
  simp [hb]

/-- Texts that end their last lines do so one after the other. -/
theorem EndsLine.append (ha : EndsLine a) (hb : EndsLine b) : EndsLine (a ++ b) := by
  by_cases hempty : b = ""
  · rwa [hempty, String.append_empty]
  · exact (endsLine_append_iff hempty).mpr hb

theorem endsLine_join {texts : List String} (h : ∀ text ∈ texts, EndsLine text) :
    EndsLine (String.join texts) := by
  induction texts with
  | nil => exact .inl rfl
  | cons text texts ih =>
    rw [String.join_cons]
    exact (h text (by simp)).append (ih fun t ht => h t (by simp [ht]))

/-! ### The ends of renderings -/

/-- A displayed group ends its last line. -/
theorem endsLine_of_display {g : Group} {formats : List String} {printed : String}
    (h : g.display formats = .ok printed) : EndsLine printed := by
  obtain ⟨-, cards, hcards, rfl⟩ := Group.display_eq_ok_iff.mp h
  rw [Group.cards?_eq_askedFor?] at hcards
  obtain ⟨cs, -, rfl⟩ := Option.map_eq_some_iff.mp hcards
  refine endsLine_join ?_
  rw [List.forall_mem_map]
  intro c _
  exact .inr (by simp)

namespace Markup

open Flashcards.Text

variable {r next : Registry} {line printed text : String} {ls texts : List String} {n : Nat}

/-- What a line prints ends its last line. -/
theorem Registry.Step.endsLine (hs : r.Step line next printed) : EndsLine printed := by
  cases hs with
  | showing _ _ _ _ hp => exact endsLine_of_display hp
  | blank => exact .inl rfl
  | comment => exact .inl rfl
  | endFile => exact .inl rfl
  | opening => exact .inl rfl
  | closing => exact .inl rfl
  | content => exact .inl rfl

/-- What lines print ends its last line each time. -/
theorem Registry.endsLine_of_readLines (h : r.readLines n ls = .ok (next, texts)) :
    ∀ text ∈ texts, EndsLine text := by
  induction ls generalizing r n texts with
  | nil =>
    obtain ⟨-, rfl⟩ := readLines_nil_eq_ok_iff.mp h
    simp
  | cons line ls ih =>
    obtain ⟨r', printed, more, ha, hrest, rfl⟩ := readLines_cons_eq_ok_iff.mp h
    exact List.forall_mem_cons.mpr ⟨(accept_eq_ok_iff.mp ha).endsLine, ih hrest⟩

/-- A listing ends its last line. -/
theorem Document.endsLine_listing {d : Document} (h : ofText text = .ok d) :
    EndsLine d.listing := by
  obtain ⟨r, texts, hread, -, rfl⟩ := ofLines_eq_ok_iff.mp h
  exact endsLine_join (Registry.endsLine_of_readLines hread)

/-- A diagnostic does not end its last line. -/
theorem Document.not_endsLine_text {d : Diagnostic} (h : ofText text = .error d) :
    ¬ EndsLine d.text := by
  obtain ⟨hne, hmem⟩ := raw_of_ofText h
  unfold Diagnostic.text
  rw [endsLine_append_iff hne]
  rintro (hempty | hlast)
  · exact hne hempty
  · exact hmem (List.mem_of_getLast? hlast)

/-- A rendering ends its last line just when it is a listing. -/
theorem endsLine_render_iff (text : String) :
    EndsLine (render text) ↔ ∃ d, Document.ofText text = .ok d := by
  cases h : Document.ofText text with
  | ok d =>
    rw [render_of_ok h]
    exact iff_of_true (Document.endsLine_listing h) ⟨d, rfl⟩
  | error d =>
    rw [render_of_error h]
    exact iff_of_false (Document.not_endsLine_text h) (by simp)

end Markup

namespace Watch

open Flashcards.Text Flashcards.Markup

variable {rs : List String} {rendered : String}

/-! ### The renderings below their separators -/

/-- The line of a separator. -/
def separatorLine : String :=
  String.ofList (List.replicate 60 '=') ++ "\n"

theorem separatorLine_ne_empty : separatorLine ≠ "" := by
  decide

/-- A line begins behind a separator. -/
theorem endsLine_separatorLine : EndsLine separatorLine :=
  (endsLine_append_iff (by simp)).mpr (.inr rfl)

/-- Renderings one after the other, each below a separator. -/
def stream (rs : List String) : String :=
  String.join (rs.map fun rendered => separatorLine ++ rendered)

/-- The frames of some renderings are the stream of these. -/
theorem join_frames (texts : List String) :
    String.join (texts.map fun text => frame (render text)) = stream (texts.map render) := by
  rw [stream, List.map_map]
  rfl

/-- A rendering below a separator ends its last line just when the rendering does. -/
theorem endsLine_separatorLine_append_iff (rendered : String) :
    EndsLine (separatorLine ++ rendered) ↔ EndsLine rendered := by
  by_cases hempty : rendered = ""
  · rw [hempty, String.append_empty]
    exact iff_of_true endsLine_separatorLine (.inl rfl)
  · rw [endsLine_append_iff hempty]

/-- A stream ends as its last rendering does. -/
theorem endsLine_stream_concat_iff (rs : List String) (rendered : String) :
    EndsLine (stream (rs ++ [rendered])) ↔ EndsLine rendered := by
  have hne : separatorLine ++ rendered ≠ "" := by simp [separatorLine_ne_empty]
  have hstream : stream (rs ++ [rendered]) = stream rs ++ (separatorLine ++ rendered) := by
    simp [stream]
  rw [hstream, endsLine_append_iff hne, endsLine_separatorLine_append_iff]

/-- The separators stand on lines of their own just when all renderings but the last end their last
    lines. -/
theorem endsLine_before_iff (rs : List String) :
    (∀ before rendered after, before ++ rendered :: after = rs → EndsLine (stream before)) ↔
      ∀ rendered ∈ rs.dropLast, EndsLine rendered := by
  constructor
  · intro h rendered hmem
    obtain ⟨before, more, hcut⟩ := List.append_of_mem hmem
    have hne : rs ≠ [] := by
      rintro rfl
      exact absurd hmem (by simp)
    have hrs : (before ++ [rendered]) ++ (more ++ [rs.getLast hne]) = rs := by
      rw [← List.append_assoc, List.append_assoc before, List.singleton_append, ← hcut,
        List.dropLast_concat_getLast]
    obtain ⟨next, after, hnext⟩ : ∃ next after, more ++ [rs.getLast hne] = next :: after :=
      List.exists_cons_of_ne_nil (by simp)
    rw [hnext] at hrs
    exact (endsLine_stream_concat_iff _ _).mp (h _ _ _ hrs)
  · rintro h before rendered after rfl
    rcases List.eq_nil_or_concat before with rfl | ⟨earlier, last, rfl⟩
    · exact .inl rfl
    · rw [List.concat_eq_append] at h ⊢
      refine (endsLine_stream_concat_iff _ _).mpr (h last ?_)
      simp [List.dropLast_append_of_ne_nil]

/-! ### The way back from what is printed -/

/-- The lines of a text, each with its end. -/
def withLineEnds (text : String) : List String :=
  (text.toList.splitBy fun c _ => c ≠ '\n').map String.ofList

/-- What stands between the separators of a text. -/
def cutFrames (printed : String) : List String :=
  ((withLineEnds printed).splitOn separatorLine).tail.map String.join

/-- Lines are cut apart where a line begins. -/
theorem withLineEnds_append (ha : EndsLine a) (b : String) :
    withLineEnds (a ++ b) = withLineEnds a ++ withLineEnds b := by
  rw [withLineEnds, String.toList_append, List.splitBy_append, List.map_append]
  · rfl
  · intro c hc d _
    rcases ha with rfl | hlast
    · exact absurd hc (by simp)
    · obtain rfl : c = '\n' := by simpa [hlast] using hc.symm
      simp

/-- The lines of a text, each with its end, are the whole text. -/
theorem join_withLineEnds (text : String) : String.join (withLineEnds text) = text := by
  apply String.toList_injective
  rw [withLineEnds, String.toList_join, List.flatMap_map]
  simp

/-- A line with its end is one line. -/
theorem withLineEnds_separatorLine : withLineEnds separatorLine = [separatorLine] := by
  decide

/-- The lines of a stream are those of its separators and renderings, in order. -/
theorem withLineEnds_stream (h : ∀ rendered ∈ rs.dropLast, EndsLine rendered) :
    withLineEnds (stream rs) =
      rs.flatMap fun rendered => separatorLine :: withLineEnds rendered := by
  induction rs with
  | nil => rfl
  | cons rendered rs ih =>
    have hframe : withLineEnds (separatorLine ++ rendered) =
        separatorLine :: withLineEnds rendered := by
      rw [withLineEnds_append endsLine_separatorLine, withLineEnds_separatorLine,
        List.singleton_append]
    rw [List.flatMap_cons, ← hframe]
    -- Nothing is printed behind the last rendering, so that one may end in a faulty line.
    cases rs with
    | nil => simp [stream]
    | cons next rs =>
      have hends : EndsLine (separatorLine ++ rendered) :=
        (endsLine_separatorLine_append_iff rendered).mpr (h rendered (by simp))
      rw [← ih fun r hr => h r (by simp [hr]), ← withLineEnds_append hends]
      simp [stream]

/-- Lists of which all but the first follow the same element are divided by it. -/
theorem intercalate_singleton_cons {α : Type} (x : α) (xs : List α) (xss : List (List α)) :
    [x].intercalate (xs :: xss) = xs ++ xss.flatMap (x :: ·) := by
  induction xss generalizing xs with
  | nil => simp
  | cons ys xss ih => simp [ih]

/-- **What stands between the separators are the renderings**, when the separators stand on lines of
    their own and no other line is one. -/
theorem cutFrames_stream (h : ∀ rendered ∈ rs.dropLast, EndsLine rendered)
    (hother : ∀ rendered ∈ rs, separatorLine ∉ withLineEnds rendered) :
    cutFrames (stream rs) = rs := by
  have hlines : withLineEnds (stream rs) =
      [separatorLine].intercalate ([] :: rs.map withLineEnds) := by
    rw [withLineEnds_stream h, intercalate_singleton_cons, List.flatMap_map, List.nil_append]
  have hsplit : (withLineEnds (stream rs)).splitOn separatorLine = [] :: rs.map withLineEnds := by
    rw [hlines]
    exact List.splitOn_intercalate separatorLine (by simpa using hother) (by simp)
  rw [cutFrames, hsplit, List.tail_cons, List.map_map]
  exact List.map_id'' join_withLineEnds rs

/-! ### What the command prints -/

variable {file document : Path} {files : FileSystem} {content : ByteArray} {text : String}

/-- **The separators stand on lines of their own just when no rendering but the last is a
    diagnostic.**  The command `watch` prints the stream of its renderings.  What it has printed
    before each separator is nothing or ends in a line end just when all texts that are rendered,
    but for the last, are accepted.  Then the renderings can be found again between the separators,
    unless a line of a rendering looks like a separator. -/
theorem separators_apart_iff {os : List Occurrence} (hread : files.read file = .ok content)
    (hfound : files.canonicalize file = .ok document)
    (hspares : ∀ o ∈ os, o.edit.Spares file files) (htold : ∀ o ∈ os, o.Told document)
    (htext : textOf? content = some text) :
    let texts := shownTexts content (os.map Occurrence.edit)
    let printed := stream (texts.map render)
    (∃ world,
      (execute (follow file os) (.watch file)).run (World.ofFiles files) =
          (.ok .clean, world) ∧
        world.out.accepted = printed.toUTF8) ∧
    ((∀ before rendered after, before ++ rendered :: after = texts.map render →
        EndsLine (stream before)) ↔
      ∀ shown ∈ texts.dropLast, ∃ d, Document.ofText shown = .ok d) ∧
    ((∀ shown ∈ texts.dropLast, ∃ d, Document.ofText shown = .ok d) →
      (∀ shown ∈ texts, separatorLine ∉ withLineEnds (render shown)) →
        cutFrames printed = texts.map render) := by
  intro texts printed
  have hends : (∀ rendered ∈ (texts.map render).dropLast, EndsLine rendered) ↔
      ∀ shown ∈ texts.dropLast, ∃ d, Document.ofText shown = .ok d := by
    simp only [← List.map_dropLast, List.forall_mem_map, endsLine_render_iff]
  refine ⟨?_, ?_, ?_⟩
  · obtain ⟨world, hrun, -, hout⟩ := execute_follow hspares htold hread hfound htext .empty []
    refine ⟨world, hrun, ?_⟩
    rw [hout, ByteArray.empty_append, join_frames]
  · rw [endsLine_before_iff, hends]
  · intro haccepted hother
    exact cutFrames_stream (hends.mpr haccepted) (List.forall_mem_map.mpr hother)

/-- A history in which the document is saved once. -/
def savedOnce (text : String) : List Occurrence :=
  [⟨.save text.toUTF8, [sampleUpdate]⟩]

theorem savedOnce_spares (text before : String) :
    ∀ o ∈ savedOnce text, o.edit.Spares sampleFile (sampleFiles before) := by
  simp [savedOnce, Edit.Spares]

theorem savedOnce_told (text : String) : ∀ o ∈ savedOnce text, o.Told sampleDocument := by
  have hupdate : sampleUpdate.change? sampleDocument = some .updated := by decide
  simp [savedOnce, Occurrence.Told, TellUpdate, hupdate]

/-- The text that was there and the one that is saved are rendered, if they are not the same. -/
theorem shownTexts_savedOnce {text before : String} (htext : unifyLineEnds text = text)
    (hbefore : unifyLineEnds before = before) (hne : before ≠ text) :
    shownTexts before.toUTF8 ((savedOnce text).map Occurrence.edit) = [before, text] := by
  show ([before.toUTF8, text.toUTF8].filterMap textOf?).destutter (· ≠ ·) = _
  rw [List.filterMap_cons_some (textOf?_toUTF8 before),
    List.filterMap_cons_some (textOf?_toUTF8 text), List.filterMap_nil, htext, hbefore,
    List.destutter_pair]
  exact if_pos hne

/-- The rendering of a line outside all groups is a diagnostic, which ends in that line. -/
theorem render_stray :
    render "x" = "Error on line 1: only parser commands are allowed outside groups\n\nx" := by
  decide

/-- A listing and the diagnostic that comes after it are found again. -/
theorem separators_apart_sample :
    let printed := stream [Document.sample.listing, render "x"]
    (∃ world,
      (execute (follow sampleFile (savedOnce "x")) (.watch sampleFile)).run
          (World.ofFiles (sampleFiles Document.sampleText)) = (.ok .clean, world) ∧
        world.out.accepted = printed.toUTF8) ∧
      cutFrames printed = [Document.sample.listing, render "x"] := by
  have hread : (sampleFiles Document.sampleText).read sampleFile =
      .ok Document.sampleText.toUTF8 := rfl
  have hfound : (sampleFiles Document.sampleText).canonicalize sampleFile = .ok sampleDocument :=
    rfl
  have htext := textOf?_toUTF8 Document.sampleText
  have hshown : shownTexts Document.sampleText.toUTF8 ((savedOnce "x").map Occurrence.edit) =
      [Document.sampleText, "x"] :=
    shownTexts_savedOnce (by decide) (by decide) (by decide)
  have hlisting : render Document.sampleText = Document.sample.listing := by
    rw [render, listing, Document.ofText_sampleText]
    rfl
  have hother : ∀ rendered ∈ [Document.sample.listing, render "x"],
      separatorLine ∉ withLineEnds rendered := by
    rw [render_stray]
    decide
  obtain ⟨hprinted, -, hcut⟩ := separators_apart_iff hread hfound
    (savedOnce_spares "x" Document.sampleText) (savedOnce_told "x") htext
  rw [hshown, List.map_cons, List.map_singleton, hlisting] at hprinted hcut
  refine ⟨hprinted, hcut (by simp [Document.ofText_sampleText]) ?_⟩
  simpa [hlisting] using hother

/-- The separator behind a diagnostic goes on with the faulty line. -/
theorem separator_behind_diagnostic :
    let faulty := separatorLine ++
      "Error on line 1: only parser commands are allowed outside groups\n\nx"
    ∃ world,
      (execute (follow sampleFile (savedOnce "#endfile")) (.watch sampleFile)).run
          (World.ofFiles (sampleFiles "x")) = (.ok .clean, world) ∧
        world.out.accepted = (faulty ++ separatorLine).toUTF8 ∧ ¬ EndsLine faulty := by
  have hread : (sampleFiles "x").read sampleFile = .ok "x".toUTF8 := rfl
  have hfound : (sampleFiles "x").canonicalize sampleFile = .ok sampleDocument := rfl
  have htext := textOf?_toUTF8 "x"
  have hshown : shownTexts "x".toUTF8 ((savedOnce "#endfile").map Occurrence.edit) =
      ["x", "#endfile"] :=
    shownTexts_savedOnce (by decide) (by decide) (by decide)
  have hempty : render "#endfile" = "" := by decide
  have hfault : (Document.ofText "x").isOk = false := by decide
  intro faulty
  have hfaulty : faulty = separatorLine ++ render "x" := by rw [render_stray]
  obtain ⟨world, hrun, -, hout⟩ :=
    execute_follow (savedOnce_spares _ _) (savedOnce_told _) hread hfound htext .empty []
  refine ⟨world, hrun, ?_, ?_⟩
  · rw [hout, ByteArray.empty_append, join_frames, hshown, hfaulty]
    simp [stream, hempty]
  · rw [hfaulty, endsLine_separatorLine_append_iff, endsLine_render_iff]
    rintro ⟨d, hd⟩
    simp [hd, Except.isOk, Except.toBool] at hfault

end Watch

end Flashcards
