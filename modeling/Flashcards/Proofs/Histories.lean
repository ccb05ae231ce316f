import Flashcards.Proofs.Files
import Flashcards.Proofs.Watching
import Mathlib.Data.List.Destutter

namespace Flashcards.Watch

open Flashcards.Markup

/-!
# Histories and the texts in them

A history matters to a watch only through the texts that the document holds after each save.

* `changes` — the texts that differ from the text before them.  Told from the start, these are the
  texts without stuttering (`changes_none`).
* `WatchedAs` — a file and its path from the root, under which it is watched.
* `Edit.read_apply` — what the document holds after an edit.
* `Occurrence` — an edit and the events that are sent of it, whatever they are; only a save must be
  told as an update.
* `Stage.Settled.quiet_occur_eq` — but for the log, an occurrence comes to delivering its text, if
  that is a change.
* `Stage.quiet_occurAll_look_eq` — **a watch comes to delivering the texts of the document**,
  without stuttering.
* `Stage.presentAll_eq` — texts delivered one after the other, until a delivery fails.
* `Stage.exists_occurrences` — the edits of a history are occurrences that are told.
-/

/-! ### Changes of a text -/

/-- The texts to deliver, where the text delivered last is known, if there was one. -/
def changes : Option String → List String → List String
  | _, [] => []
  | last, text :: texts =>
    if last = some text then changes last texts else text :: changes (some text) texts

/-- The changes behind a text are the texts that do not stutter from it on. -/
theorem cons_changes (text : String) (texts : List String) :
    text :: changes (some text) texts = texts.destutter' (· ≠ ·) text := by
  induction texts generalizing text with
  | nil => rfl
  | cons next texts ih =>
    by_cases hsame : text = next
    · rw [changes, if_pos (congrArg some hsame), List.destutter'_cons_neg _ (not_not.mpr hsame), ih]
    · rw [changes, if_neg (by simpa using hsame), List.destutter'_cons_pos _ hsame, ih]

/-- All changes of a text are the text without stuttering. -/
theorem changes_none (texts : List String) : changes none texts = texts.destutter (· ≠ ·) := by
  cases texts with
  | nil => rfl
  | cons text texts =>
    rw [changes, if_neg (by simp), cons_changes, List.destutter_cons']

/-- A text that may come first is delivered if it is a change, and then the changes from it on. -/
theorem changes_toList_append (last next : Option String) (texts : List String) :
    changes last (next.toList ++ texts) =
      changes last next.toList ++ changes (next.or last) texts := by
  cases next with
  | none => rfl
  | some text =>
    by_cases hsame : last = some text
    · simp [changes, hsame]
    · simp [changes, hsame]

/-! ### Edits -/

/-- The text in some bytes, with `\n` for every line end. -/
def textOf? (content : ByteArray) : Option String :=
  (String.fromUTF8? content).map Text.unifyLineEnds

/-- This is what a document of that content is loaded as. -/
theorem toOption_decode (p : Path) (content : ByteArray) :
    (Storage.decode p (.ok content)).toOption = textOf? content := by
  rw [textOf?, Storage.decode]
  cases String.fromUTF8? content <;> rfl

/-- Bytes that are a text are loaded as this text. -/
theorem decode_of_textOf? {content : ByteArray} {text : String}
    (htext : textOf? content = some text) (p : Path) :
    Storage.decode p (.ok content) = .ok text := by
  rw [← toOption_decode p] at htext
  cases hloaded : Storage.decode p (.ok content) with
  | ok loaded =>
    rw [hloaded] at htext
    exact congrArg Except.ok (Option.some.inj htext)
  | error e =>
    rw [hloaded] at htext
    exact absurd htext (by simp [Except.toOption])

/-- The bytes of a text are that text, but for its line ends. -/
theorem textOf?_toUTF8 (text : String) :
    textOf? text.toUTF8 = some (Text.unifyLineEnds text) := by
  rw [← toOption_decode ⟨""⟩, Storage.decode_toUTF8]
  rfl

/-- A file and its path from the root lead to one place, at which a file may stand. -/
structure WatchedAs (fs : FileSystem) (file document : Path) (place : Place) : Prop where
  target_file : fs.target file = .ok place
  target_document : fs.target document = .ok place
  document_eq : document = FileSystem.pathTo place

section WatchedAs

variable {file document : Path} {fs fs' : FileSystem} {place : Place} {content : ByteArray}

/-- A file that can be read is watched under its path from the root. -/
theorem exists_watchedAs (hread : fs.read file = .ok content)
    (hfound : fs.canonicalize file = .ok document) : ∃ place, WatchedAs fs file document place := by
  obtain ⟨place, ht, -⟩ := FileSystem.exists_target_of_read hread
  obtain ⟨hdocument, ht'⟩ := FileSystem.target_of_canonicalize ht hfound
  exact ⟨place, ht, ht', hdocument⟩

/-- Where a file is watched depends on directories only. -/
theorem WatchedAs.of_sameDirectories (h : WatchedAs fs file document place)
    (hsame : FileSystem.SameDirectories fs fs') : WatchedAs fs' file document place :=
  ⟨FileSystem.target_of_sameDirectories hsame h.target_file,
    FileSystem.target_of_sameDirectories hsame h.target_document, h.document_eq⟩

/-- Both paths read the same. -/
theorem WatchedAs.read_eq (h : WatchedAs fs file document place) :
    fs.read document = fs.read file := by
  rw [FileSystem.read_of_target h.target_document, FileSystem.read_of_target h.target_file]

end WatchedAs

namespace Edit

/-- The content that an edit gives the document. -/
def content? : Edit → Option ByteArray
  | .save content => some content
  | .remove => none
  | .other _ _ => none

/-- The text that an edit gives the document. -/
def text? (e : Edit) : Option String :=
  e.content?.bind textOf?

/-- An edit of the document, or of a file that is another one. -/
def Spares (file : Path) (fs : FileSystem) : Edit → Prop
  | .save _ => True
  | .remove => True
  | .other path _ => fs.target path ≠ fs.target file

variable {file document : Path} {fs fs' : FileSystem} {place : Place} {e : Edit}

/-- Which file an edit spares depends on directories only. -/
theorem Spares.of_sameDirectories (hspares : e.Spares file fs)
    (ht : fs.target file = .ok place) (h : FileSystem.SameDirectories fs fs') :
    e.Spares file fs' := by
  cases e with
  | save content => trivial
  | remove => trivial
  | other path content =>
    intro hsame
    rw [FileSystem.target_of_sameDirectories h ht] at hsame
    exact hspares ((FileSystem.target_of_sameDirectories h.symm hsame).trans ht.symm)

/-- No edit changes a directory. -/
theorem sameDirectories_apply (ht : fs.target file = .ok place) (e : Edit) :
    FileSystem.SameDirectories fs (e.apply file fs) := by
  cases e with
  | save content => exact FileSystem.sameDirectories_overwrite fs file content
  | remove => exact FileSystem.sameDirectories_remove ht
  | other path content => exact FileSystem.sameDirectories_overwrite fs path content

/-- What the document holds after an edit. -/
theorem read_apply (h : WatchedAs fs file document place) (hspares : e.Spares file fs) :
    (e.apply file fs).read document =
      match e with
      | .save content => .ok content
      | .remove => .error .notFound
      | .other _ _ => fs.read document := by
  cases e with
  | save content => exact FileSystem.read_overwrite h.target_file h.target_document content
  | remove => exact FileSystem.read_remove h.target_file h.target_document
  | other path content =>
    exact FileSystem.read_overwrite_of_ne h.target_document
      (fun hsame => hspares (hsame.trans h.target_file.symm)) content

/-- A save is told as an update, for its events call the file by its path from the root. -/
theorem tellUpdate_save (h : WatchedAs fs file document place) (content : ByteArray) :
    TellUpdate document ((save content).events file fs) := by
  have hevents : (save content).events file fs = (save content).eventsAt document := by
    rw [events, path, h.target_file, h.document_eq]
  rw [hevents]
  refine ⟨⟨.modify .name, [swapFile document, document]⟩, by simp [eventsAt], ?_⟩
  simp [Event.change?, Path.sameAs, EventKind.change?]

end Edit

/-- An edit and the events that are sent of it. -/
structure Occurrence where
  edit : Edit
  events : List Event

/-- A save is told as an update.  Of another edit anything may be told. -/
def Occurrence.Told (document : Path) (o : Occurrence) : Prop :=
  o.edit.content?.isSome → TellUpdate document o.events

/-- The texts that the document holds at the start and after each save, where it holds one. -/
def textsOf (content : ByteArray) (es : List Edit) : List String :=
  (content :: es.filterMap Edit.content?).filterMap textOf?

/-- The text of the start comes first, if there is one, and then those of the saves. -/
theorem textsOf_eq (content : ByteArray) (es : List Edit) :
    textsOf content es = (textOf? content).toList ++ es.filterMap Edit.text? := by
  rw [textsOf, List.filterMap_cons, List.filterMap_filterMap]
  cases textOf? content <;> rfl

namespace Stage

variable {deliver : String → ExceptT Failure Audience Unit} {file document : Path} {s t : Stage}
  {last : Option String} {place : Place} {files : FileSystem} {e : Edit} {o : Occurrence}

/-! ### Texts delivered one after the other -/

/-- The stage after some texts were delivered and remembered, one after the other. -/
def presentAll (deliver : String → ExceptT Failure Audience Unit) (s : Stage)
    (texts : List String) : Stage :=
  texts.foldl (present deliver) s

theorem presentAll_append (s : Stage) (texts texts' : List String) :
    s.presentAll deliver (texts ++ texts') =
      (s.presentAll deliver texts).presentAll deliver texts' :=
  List.foldl_append

/-- Deliveries make nothing of a difference in the log. -/
theorem quiet_presentAll (hblind : ∀ rendered, Blind (deliver rendered)) (heq : s.quiet = t.quiet)
    (texts : List String) :
    (s.presentAll deliver texts).quiet = (t.presentAll deliver texts).quiet := by
  induction texts generalizing s t with
  | nil => exact heq
  | cons text texts ih => exact ih (quiet_present hblind heq text)

/-- Deliveries make nothing of a difference in the files. -/
theorem quiet_presentAll_withFiles (hblind : ∀ rendered, Blind (deliver rendered)) (s : Stage)
    (fs : FileSystem) (texts : List String) :
    ((s.withFiles fs).presentAll deliver texts).quiet =
      ((s.presentAll deliver texts).withFiles fs).quiet := by
  induction texts generalizing s with
  | nil => rfl
  | cons text texts ih =>
    calc (((s.withFiles fs).present deliver text).presentAll deliver texts).quiet
        = (((s.present deliver text).withFiles fs).presentAll deliver texts).quiet :=
          quiet_presentAll hblind (quiet_present_withFiles hblind s fs text) texts
      _ = (((s.present deliver text).presentAll deliver texts).withFiles fs).quiet :=
          ih (s.present deliver text)

/-- The deliveries follow one another until one of them fails; the text delivered last is
    remembered. -/
theorem presentAll_eq (s : Stage) (texts : List String) :
    s.presentAll deliver texts =
      s.advance fun w => do
        texts.forM fun text => deliver (render text)
        return { w with shown := texts.getLast?.or w.shown } := by
  induction texts generalizing s with
  | nil => exact (s.advance_pure).symm
  | cons text texts ih =>
    show (s.present deliver text).presentAll deliver texts = _
    rw [ih, present, ← advance_bind]
    congr 1
    funext w
    have hlast : (text :: texts).getLast?.or w.shown = texts.getLast?.or (some text) := by
      rw [List.getLast?_cons]
      cases texts.getLast? <;> rfl
    simp only [List.forM, bind_assoc, pure_bind, hlast]

/-! ### Looks -/

/-- The watcher of a stage, if its watch has not ended, is one of the document and remembers a
    text. -/
def Remembers (document : Path) (last : Option String) (s : Stage) : Prop :=
  ∀ w, s.watcher = .ok w → w = ⟨document, last⟩

/-- A watcher that remembers a text is one of the document. -/
theorem Remembers.watches (h : Remembers document last s) : Watches document s := by
  intro w hw
  rw [h w hw]

theorem Remembers.of_quiet (h : Remembers document last s) (heq : s.quiet = t.quiet) :
    Remembers document last t := by
  have hquiet : Remembers document last s.quiet := h
  rwa [heq] at hquiet

/-- A look comes to delivering what the document holds, if that is a change. -/
theorem quiet_look_eq_presentAll (hblind : ∀ rendered, Blind (deliver rendered))
    (h : Remembers document last s) :
    (s.look deliver).quiet =
      (s.presentAll deliver (changes last (s.loaded document).toOption.toList)).quiet := by
  cases hw : s.watcher with
  | error err => rw [look, advance_of_error hw, presentAll_eq, advance_of_error hw]
  | ok w =>
    obtain rfl := h w hw
    rw [quiet_look hblind hw rfl]
    cases s.loaded document with
    | error err => rfl
    | ok text =>
      by_cases hshown : last = some text
      · simp [hshown, changes, Except.toOption, presentAll]
      · simp [hshown, changes, Except.toOption, presentAll]

/-- A delivered text is remembered. -/
theorem Remembers.present (h : Remembers document last s) (text : String) :
    Remembers document (some text) (s.present deliver text) := by
  intro w hw
  obtain ⟨before, hbefore, rfl⟩ := watcher_of_present hw
  rw [h before hbefore]

/-- A text delivered if it is a change is remembered in any case. -/
theorem Remembers.presentAll_changes (h : Remembers document last s) (next : Option String) :
    Remembers document (next.or last) (s.presentAll deliver (changes last next.toList)) := by
  cases next with
  | none => exact h
  | some text =>
    by_cases hshown : last = some text
    · simpa [changes, hshown, Stage.presentAll] using hshown ▸ h
    · simpa [changes, hshown, Stage.presentAll] using h.present text

/-! ### Occurrences -/

/-- The stage after an edit, when the watcher has dealt with the events that were sent of it. -/
def occur (deliver : String → ExceptT Failure Audience Unit) (file : Path) (s : Stage)
    (o : Occurrence) : Stage :=
  (s.withFiles (o.edit.apply file s.world.files)).advance fun w => w.handleAll deliver o.events

/-- The stage after some edits, each made when the watcher has dealt with the one before. -/
def occurAll (deliver : String → ExceptT Failure Audience Unit) (file : Path) (s : Stage)
    (os : List Occurrence) : Stage :=
  os.foldl (occur deliver file) s

/-- A stage of a history that began with some files: it is known which text was delivered last, the
    files are those of the start but for their contents, and nothing is left to do. -/
structure Settled (document : Path) (files : FileSystem) (last : Option String) (s : Stage) :
    Prop where
  remembers : Remembers document last s
  directories : files.SameDirectories s.world.files
  current : Current document s

/-- An edit makes the watcher look if it is told as an update. -/
theorem quiet_occur (file : Path) (hblind : ∀ rendered, Blind (deliver rendered))
    (hwatches : Watches document s) (o : Occurrence) :
    (s.occur deliver file o).quiet =
      if TellUpdate document o.events then
        ((s.withFiles (o.edit.apply file s.world.files)).look deliver).quiet
      else (s.withFiles (o.edit.apply file s.world.files)).quiet :=
  quiet_handleAll hblind _ hwatches

/-- The text of the document after an edit, at a stage with the files after it. -/
theorem loaded_withFiles_apply (h : WatchedAs s.world.files file document place)
    (hspares : e.Spares file s.world.files) :
    (s.withFiles (e.apply file s.world.files)).loaded document =
      match e with
      | .save content => Storage.decode document (.ok content)
      | .remove => .error (.notFound document)
      | .other _ _ => s.loaded document := by
  show Storage.decode document ((e.apply file s.world.files).read document) = _
  rw [Edit.read_apply h hspares]
  cases e <;> rfl

section Settled

variable (hblind : ∀ rendered, Blind (deliver rendered)) (h : Settled document files last s)
  (hwatched : WatchedAs files file document place)

include hblind h hwatched

/-- An occurrence comes to delivering the text that it gives the document, if that is a change. -/
theorem Settled.quiet_occur_eq (hspares : o.edit.Spares file files) (htold : o.Told document) :
    (s.occur deliver file o).quiet =
      ((s.presentAll deliver (changes last o.edit.text?.toList)).withFiles
        (o.edit.apply file s.world.files)).quiet := by
  obtain ⟨e, sent⟩ := o
  have hloaded := loaded_withFiles_apply (hwatched.of_sameDirectories h.directories)
    (hspares.of_sameDirectories hwatched.target_file h.directories)
  have hremembers : Remembers document last (s.withFiles (e.apply file s.world.files)) :=
    h.remembers
  rw [quiet_occur file hblind h.remembers.watches, ← quiet_presentAll_withFiles hblind]
  cases e with
  | save content =>
    rw [if_pos (htold rfl), quiet_look_eq_presentAll hblind hremembers, hloaded, toOption_decode]
    rfl
  | remove =>
    -- Even if a removal is told as an update, there is nothing to load.
    rw [quiet_look_eq_presentAll hblind hremembers, hloaded]
    exact ite_self _
  | other path content =>
    -- Whatever is told of the other file, the document is the same.
    have hcurrent : Current document
        (s.withFiles ((Edit.other path content).apply file s.world.files)) := by
      intro w text hw htext
      exact h.current w text hw (hloaded.symm.trans htext)
    rw [look_of_current hblind hremembers.watches hcurrent]
    exact ite_self _

/-- The files after an occurrence are those after its edit. -/
theorem Settled.occur_files (hspares : o.edit.Spares file files) (htold : o.Told document) :
    (s.occur deliver file o).world.files = o.edit.apply file s.world.files :=
  (quiet_eq_quiet_iff.mp (h.quiet_occur_eq hblind hwatched hspares htold)).2.2.1

/-- After an occurrence the watch is settled again. -/
theorem Settled.occur (hspares : o.edit.Spares file files) (htold : o.Told document) :
    Settled document files (o.edit.text?.or last) (s.occur deliver file o) := by
  have heq := h.quiet_occur_eq hblind hwatched hspares htold
  have hhandled := quiet_occur file hblind h.remembers.watches o
  obtain ⟨e, sent⟩ := o
  have hnow := hwatched.of_sameDirectories h.directories
  refine ⟨?_, ?_, ?_⟩
  · have hremembers : Remembers document (e.text?.or last)
        ((s.presentAll deliver (changes last e.text?.toList)).withFiles
          (e.apply file s.world.files)) := h.remembers.presentAll_changes e.text?
    exact hremembers.of_quiet heq.symm
  · rw [h.occur_files hblind hwatched hspares htold]
    exact h.directories.trans (Edit.sameDirectories_apply hnow.target_file e)
  · have hloaded := loaded_withFiles_apply hnow
      (hspares.of_sameDirectories hwatched.target_file h.directories)
    have hwatches : Watches document (s.withFiles (e.apply file s.world.files)) :=
      h.remembers.watches
    by_cases hsent : TellUpdate document sent
    · rw [if_pos hsent] at hhandled
      exact (current_look hblind hwatches).of_quiet hhandled.symm
    · rw [if_neg hsent] at hhandled
      refine Current.of_quiet (fun w text hw htext => ?_) hhandled.symm
      rw [hloaded] at htext
      -- Nothing was told as an update, so this was no save.
      cases e with
      | save content => exact absurd (htold rfl) hsent
      | remove => exact absurd htext (by simp)
      | other path content => exact h.current w text hw htext

/-- A history comes to delivering its changes, one after the other. -/
theorem Settled.quiet_occurAll_eq {os : List Occurrence}
    (hspares : ∀ o ∈ os, o.edit.Spares file files) (htold : ∀ o ∈ os, o.Told document) :
    (s.occurAll deliver file os).quiet =
      ((s.presentAll deliver
        (changes last ((os.map Occurrence.edit).filterMap Edit.text?))).withFiles
          ((os.map Occurrence.edit).foldl (Edit.apply file) s.world.files)).quiet := by
  induction os generalizing s last with
  | nil => rfl
  | cons o os ih =>
    have hspare : o.edit.Spares file files := hspares o (by simp)
    have htell : o.Told document := htold o (by simp)
    have hrest := ih (h.occur hblind hwatched hspare htell) (fun o ho => hspares o (by simp [ho]))
      fun o ho => htold o (by simp [ho])
    have hfilter : ((o :: os).map Occurrence.edit).filterMap Edit.text? =
        o.edit.text?.toList ++ (os.map Occurrence.edit).filterMap Edit.text? := by
      cases htext : o.edit.text? <;> simp [htext]
    have hfirst := quiet_presentAll hblind (h.quiet_occur_eq hblind hwatched hspare htell)
      (changes (o.edit.text?.or last) ((os.map Occurrence.edit).filterMap Edit.text?))
    rw [quiet_presentAll_withFiles hblind, ← presentAll_append, ← changes_toList_append,
      ← hfilter] at hfirst
    show ((s.occur deliver file o).occurAll deliver file os).quiet = _
    rw [hrest, quiet_withFiles, hfirst, h.occur_files hblind hwatched hspare htell]
    rfl

end Settled

/-- The first look leaves a watch settled. -/
theorem settled_look (hblind : ∀ rendered, Blind (deliver rendered))
    (hopened : Remembers document none s) :
    Settled document s.world.files (s.loaded document).toOption (s.look deliver) := by
  refine ⟨?_, ?_, current_look hblind hopened.watches⟩
  · refine Remembers.of_quiet ?_ (quiet_look_eq_presentAll hblind hopened).symm
    simpa using hopened.presentAll_changes (s.loaded document).toOption
  · rw [look_files hblind hopened.watches]
    exact .refl _

/-- **A watch comes to delivering the texts of the document**, without stuttering, from the first
    look on. -/
theorem quiet_occurAll_look_eq {content : ByteArray} {os : List Occurrence}
    (hblind : ∀ rendered, Blind (deliver rendered)) (hopened : Remembers document none s)
    (hwatched : WatchedAs s.world.files file document place)
    (hread : s.world.files.read file = .ok content)
    (hspares : ∀ o ∈ os, o.edit.Spares file s.world.files) (htold : ∀ o ∈ os, o.Told document) :
    ((s.look deliver).occurAll deliver file os).quiet =
      ((s.presentAll deliver
        ((textsOf content (os.map Occurrence.edit)).destutter (· ≠ ·))).withFiles
          ((os.map Occurrence.edit).foldl (Edit.apply file) s.world.files)).quiet := by
  have hloaded : (s.loaded document).toOption = textOf? content := by
    rw [loaded, hwatched.read_eq, hread, toOption_decode]
  have hfirst := quiet_presentAll hblind (quiet_look_eq_presentAll hblind hopened)
    (changes (textOf? content) ((os.map Occurrence.edit).filterMap Edit.text?))
  have hlater := (settled_look hblind hopened).quiet_occurAll_eq hblind hwatched hspares htold
  rw [hloaded] at hfirst hlater
  rw [hlater, quiet_withFiles, hfirst, look_files hblind hopened.watches, ← presentAll_append,
    ← changes_none, textsOf_eq, changes_toList_append, Option.or_none]
  rfl

/-- The edits of a history are occurrences that are told. -/
theorem exists_occurrences (hblind : ∀ rendered, Blind (deliver rendered))
    (h : Settled document files last s) (hwatched : WatchedAs files file document place)
    {es : List Edit} (hspares : ∀ e ∈ es, e.Spares file files) :
    ∃ os : List Occurrence, os.map Occurrence.edit = es ∧ (∀ o ∈ os, o.Told document) ∧
      (s.edits deliver file es).2 = s.occurAll deliver file os := by
  induction es generalizing s last with
  | nil => exact ⟨[], rfl, by simp, rfl⟩
  | cons e es ih =>
    have htold : Occurrence.Told document ⟨e, e.events file s.world.files⟩ := by
      intro hsave
      cases e with
      | save content =>
        exact Edit.tellUpdate_save (hwatched.of_sameDirectories h.directories) content
      | remove => exact absurd hsave (by simp [Edit.content?])
      | other path content => exact absurd hsave (by simp [Edit.content?])
    have hsettled := h.occur hblind hwatched (hspares e (by simp)) htold
    obtain ⟨os, rfl, hall, hlast⟩ := ih hsettled fun e he => hspares e (by simp [he])
    exact ⟨⟨e, e.events file s.world.files⟩ :: os, rfl, List.forall_mem_cons.mpr ⟨htold, hall⟩,
      hlast⟩

end Stage

end Flashcards.Watch
