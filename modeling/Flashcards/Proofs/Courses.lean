import Flashcards.Proofs.Files
import Flashcards.World

namespace Flashcards

open Flashcards.Markup

/-!
# Courses of commands

A command does all its work on the files and the log before it prints.  So neither that work nor
what there is to print depends on the output.

* `Utterance`, `Sink.say` — texts that are printed one after the other, up to the first that is
  not taken.
* `spoken` — all that some utterances print.
* `Course` — what some steps come to: the files and the log after them, what is printed at last,
  and the ending.
* `Follows` — steps that follow a course, whatever their output is.
* `Follows.bind_silent`, `Follows.bind_spoken`, `Follows.bind_failed` — steps one after the other.
* `Command.course`, `World.run_eq_perform` — the course of each command.
* `Prints` — a command that ends well, with what it printed and left.
-/

variable {α β : Type} {files files' : FileSystem} {log log' : List Record}

/-! ### Printing -/

/-- A text to print, and the failure that tells that it was not taken. -/
structure Utterance where
  text : String
  failure : OutputError → Failure

/-- Texts written to a sink one after the other, up to the first that it does not take. -/
def Sink.say : Sink → List Utterance → Except Failure Unit × Sink
  | s, [] => (.ok (), s)
  | s, u :: us =>
    match s.write u.text with
    | (.ok (), s') => s'.say us
    | (.error e, s') => (.error (u.failure e), s')

/-- What is said in two parts is said up to the first text that is not taken. -/
theorem Sink.say_append (s : Sink) (us vs : List Utterance) :
    s.say (us ++ vs) =
      match s.say us with
      | (.ok (), s') => s'.say vs
      | (.error e, s') => (.error e, s') := by
  induction us generalizing s with
  | nil => rfl
  | cons u us ih =>
    rw [List.cons_append, say, say]
    rcases s.write u.text with ⟨_ | _, s'⟩
    · rfl
    · exact ih s'

/-- All that some utterances print. -/
def spoken (us : List Utterance) : String :=
  String.join (us.map Utterance.text)

theorem spoken_cons (u : Utterance) (us : List Utterance) :
    spoken (u :: us) = u.text ++ spoken us := by
  simp [spoken]

/-- A sink that takes everything takes all that is said. -/
theorem Sink.say_unlimited (accepted : ByteArray) (us : List Utterance) :
    (⟨none, accepted⟩ : Sink).say us =
      (.ok (), ⟨none, accepted ++ (spoken us).toUTF8⟩) := by
  induction us generalizing accepted with
  | nil => simp [say, spoken]
  | cons u us ih =>
    have hwrite : (⟨none, accepted⟩ : Sink).write u.text =
        (.ok (), ⟨none, accepted ++ u.text.toUTF8⟩) := rfl
    rw [say, hwrite]
    dsimp only
    rw [ih, spoken_cons]
    simp [ByteArray.append_assoc]

/-! ### Courses -/

/-- What some steps come to: the files and the log after them, the texts that they print at last,
    and how they end when these are taken. -/
structure Course (α : Type) where
  files : FileSystem
  log : List Record
  speech : List Utterance
  ending : Except Failure α

/-- A course with a value made of its own. -/
def Course.map (f : α → β) (c : Course α) : Course β :=
  ⟨c.files, c.log, c.speech, c.ending.map f⟩

/-- How a course ends on an output, and the world after it. -/
def Course.perform (c : Course α) (out : Sink) : Except Failure α × World :=
  match out.say c.speech with
  | (.ok (), out') => (c.ending, ⟨c.files, out', c.log⟩)
  | (.error e, out') => (.error e, ⟨c.files, out', c.log⟩)

/-- The files after a course are the same on every output. -/
theorem Course.perform_files (c : Course α) (out : Sink) : (c.perform out).2.files = c.files := by
  rw [perform]
  split <;> rfl

/-- On an output that takes everything a course comes to its end. -/
theorem Course.perform_of_unlimited (c : Course α) (accepted : ByteArray) :
    c.perform ⟨none, accepted⟩ =
      (c.ending, ⟨c.files, ⟨none, accepted ++ (spoken c.speech).toUTF8⟩, c.log⟩) := by
  rw [perform, Sink.say_unlimited]

/-- A new output that takes everything gets all that is spoken. -/
theorem Course.perform_unlimited (c : Course α) :
    c.perform .unlimited = (c.ending, ⟨c.files, ⟨none, (spoken c.speech).toUTF8⟩, c.log⟩) := by
  have hwhole := c.perform_of_unlimited .empty
  rwa [ByteArray.empty_append] at hwhole

/-- Steps that follow a course from some files and a log, whatever their output is. -/
def Follows (act : ExceptT Failure Session α) (files : FileSystem) (log : List Record)
    (c : Course α) : Prop :=
  ∀ out, act.run ⟨files, out, log⟩ = c.perform out

/-- Steps of a session go on from where the first of them came. -/
theorem session_run_bind (act : Session α) (next : α → Session β) (w : World) :
    (act >>= next).run w = (next (act.run w).1).run (act.run w).2 :=
  rfl

/-- Steps that may fail go on from where the first of them came, unless it failed. -/
theorem run_bind (act : ExceptT Failure Session α) (next : α → ExceptT Failure Session β)
    (world : World) :
    (act >>= next).run world =
      match act.run world with
      | (.ok a, world') => (next a).run world'
      | (.error e, world') => (.error e, world') := by
  simp only [ExceptT.run, bind, ExceptT.bind, ExceptT.mk, StateT.bind]
  rcases act world with ⟨_ | _, world'⟩ <;> rfl

section Bind

variable {act : ExceptT Failure Session α} {next : α → ExceptT Failure Session β} {a : α}
  {e : Failure} {speech speech' : List Utterance} {c : Course β}

/-- Nothing comes after a failure. -/
theorem Follows.bind_failed (h : Follows act files log ⟨files', log', speech, .error e⟩) :
    Follows (act >>= next) files log ⟨files', log', speech, .error e⟩ := by
  intro out
  rw [run_bind, h out, Course.perform, Course.perform]
  rcases out.say speech with ⟨_ | _, out'⟩ <;> rfl

/-- Steps that print nothing may be followed by any others. -/
theorem Follows.bind_silent (h : Follows act files log ⟨files', log', [], .ok a⟩)
    (hnext : Follows (next a) files' log' c) : Follows (act >>= next) files log c := by
  intro out
  rw [run_bind, h out]
  exact hnext out

/-- Steps that print may be followed by others that only print. -/
theorem Follows.bind_spoken {ending : Except Failure β}
    (h : Follows act files log ⟨files', log', speech, .ok a⟩)
    (hnext : Follows (next a) files' log' ⟨files', log', speech', ending⟩) :
    Follows (act >>= next) files log ⟨files', log', speech ++ speech', ending⟩ := by
  intro out
  rw [run_bind, h out, Course.perform, Course.perform]
  dsimp only
  rw [Sink.say_append]
  rcases out.say speech with ⟨_ | _, out'⟩
  · -- Nothing more is said, and the files and the log are those of the second part already.
    rfl
  · exact hnext out'

/-- A value made of another one. -/
theorem Follows.bind_pure {c : Course α} (h : Follows act files log c) (f : α → β) :
    Follows (act >>= fun a => pure (f a)) files log (c.map f) := by
  intro out
  rw [run_bind, h out, Course.perform, Course.perform]
  show _ = match out.say c.speech with
    | (.ok (), out') => (c.ending.map f, (⟨c.files, out', c.log⟩ : World))
    | (.error e, out') => (.error e, ⟨c.files, out', c.log⟩)
  rcases out.say c.speech with ⟨_ | _, out'⟩
  · rfl
  · cases c.ending <;> rfl

end Bind

/-! ### Single steps -/

theorem follows_pure (a : α) (files : FileSystem) (log : List Record) :
    Follows (pure a) files log ⟨files, log, [], .ok a⟩ :=
  fun _ => rfl

theorem follows_logRecord (r : Record) (files : FileSystem) (log : List Record) :
    Follows (logRecord r) files log ⟨files, log ++ [r], [], .ok ()⟩ :=
  fun _ => rfl

/-- Entries in the log are made in order. -/
theorem follows_logRecords (rs : List Record) (files : FileSystem) (log : List Record) :
    Follows (logRecords rs) files log ⟨files, log ++ rs, [], .ok ()⟩ := by
  rw [logRecords]
  induction rs generalizing log with
  | nil =>
    rw [List.append_nil]
    exact follows_pure () files log
  | cons r rs ih =>
    rw [List.append_cons]
    exact (follows_logRecord r files log).bind_silent (ih (log ++ [r]))

/-- A text is printed, or its failure is told. -/
theorem follows_print (failure : OutputError → Failure) (text : String) (files : FileSystem)
    (log : List Record) :
    Follows (orFail failure (Host.print text)) files log
      ⟨files, log, [⟨text, failure⟩], .ok ()⟩ := by
  intro out
  show ((out.write text).1.mapError failure, _) = _
  rw [Course.perform, Sink.say]
  rcases out.write text with ⟨_ | _, out'⟩ <;> rfl

theorem follows_printOut (text : String) (files : FileSystem) (log : List Record) :
    Follows (printOut text) files log ⟨files, log, [⟨text, .output⟩], .ok ()⟩ :=
  follows_print .output text files log

/-! ### Documents in files -/

namespace FileSystem

/-- The text of a file, with `\n` for every line end. -/
def load (files : FileSystem) (p : Path) : Except StorageError String :=
  Storage.decode p (files.read p)

/-- The files after a text is written to one of them, whatever stands there. -/
def save (files : FileSystem) (p : Path) (text : String) : Except StorageError FileSystem :=
  (files.write p text.toUTF8).mapError (.unwritable p)

/-- The files after a document is created, whose path ends in `.txt`. -/
def create (files : FileSystem) (p : Path) (text : String) (force : Bool) :
    Except StorageError FileSystem :=
  if files.contains p.withTxt && !force then .error (.alreadyExists p.withTxt)
  else files.save p.withTxt text

/-- A text is saved just if its bytes can be written. -/
theorem save_eq_ok_iff {p : Path} {text : String} :
    files.save p text = .ok files' ↔ files.write p text.toUTF8 = .ok files' :=
  mapError_eq_ok_iff

/-- A text cannot be written where a path leads, or it is all that changes. -/
theorem save_cases (files : FileSystem) (p : Path) (text : String) :
    (∃ cause, files.target p = .error cause ∧ files.save p text = .error (.unwritable p cause)) ∨
      ∃ files' place, Rewritten files files' p text.toUTF8 place ∧
        files.save p text = .ok files' := by
  cases ht : files.target p with
  | error cause => exact .inl ⟨cause, rfl, by rw [save, write, ht]; rfl⟩
  | ok place =>
    have hwrite : files.write p text.toUTF8 = .ok (files.put place (.file text.toUTF8)) := by
      rw [write, ht]
      rfl
    obtain ⟨place, hwritten⟩ := rewritten_of_write hwrite
    exact .inr ⟨_, place, hwritten, save_eq_ok_iff.mpr hwrite⟩

end FileSystem

/-- A file is loaded without a change of anything. -/
theorem follows_load (p : Path) (files : FileSystem) (log : List Record) :
    Follows (orFail .storage (Storage.load p)) files log
      ⟨files, log, [], (files.load p).mapError .storage⟩ :=
  fun _ => rfl

/-- What comes of a change of the files of a world: a value, or why the files stay as they are. -/
def World.changed {ε : Type} (w : World) (a : α) :
    Except ε FileSystem → Except ε α × World
  | .ok files => (.ok a, { w with files := files })
  | .error e => (.error e, w)

/-- A text is saved on a world as it is on the files. -/
theorem save_run (p : Path) (text : String) (w : World) :
    (Storage.save p text : Session (Except StorageError Unit)).run w =
      w.changed () (w.files.save p text) := by
  have hwrite : (Host.writeFile p text.toUTF8 : Session (Except FileError Unit)).run w =
      w.changed () (w.files.write p text.toUTF8) := by
    dsimp only [Host.writeFile, StateT.run]
    cases w.files.write p text.toUTF8 <;> rfl
  rw [Storage.save, session_run_bind, hwrite, FileSystem.save]
  cases w.files.write p text.toUTF8 <;> rfl

/-- A document is created on a world as it is on the files, and its path is given back. -/
theorem create_run (p : Path) (text : String) (force : Bool) (w : World) :
    (Storage.create p text force : Session (Except StorageError Path)).run w =
      w.changed p.withTxt (w.files.create p text force) := by
  have hcontains : (Host.contains p.withTxt : Session Bool).run w =
      (w.files.contains p.withTxt, w) := rfl
  rw [Storage.create, session_run_bind, hcontains, FileSystem.create]
  dsimp only
  split
  · rfl
  · rw [session_run_bind, save_run]
    cases w.files.save p.withTxt text <;> rfl

/-- The course of a change of the files. -/
def Course.ofChange (files : FileSystem) (log : List Record) (a : α) :
    Except StorageError FileSystem → Course α
  | .ok changed => ⟨changed, log, [], .ok a⟩
  | .error e => ⟨files, log, [], .error (.storage e)⟩

/-- A step that changes the files only follows a course without any speech. -/
theorem follows_change {step : Session (Except StorageError α)} {a : α}
    {change : Except StorageError FileSystem}
    (h : ∀ out, step.run ⟨files, out, log⟩ = World.changed ⟨files, out, log⟩ a change) :
    Follows (orFail .storage step) files log (.ofChange files log a change) := by
  intro out
  show ((step.run ⟨files, out, log⟩).1.mapError _, (step.run ⟨files, out, log⟩).2) = _
  rw [h out]
  cases change <;> rfl

theorem follows_save (p : Path) (text : String) (files : FileSystem) (log : List Record) :
    Follows (orFail .storage (Storage.save p text)) files log
      (.ofChange files log () (files.save p text)) :=
  follows_change fun out => save_run p text ⟨files, out, log⟩

theorem follows_create (p : Path) (text : String) (force : Bool) (files : FileSystem)
    (log : List Record) :
    Follows (orFail .storage (Storage.create p text force)) files log
      (.ofChange files log p.withTxt (files.create p text force)) :=
  follows_change fun out => create_run p text force ⟨files, out, log⟩

/-! ### The courses of the commands -/

/-- The course of a report: it is printed, and then a line end. -/
def reportCourse (files : FileSystem) (log : List Record) (result : Except Diagnostic Document) :
    Course Unit :=
  ⟨files, log, [⟨(report result).pretty, .report⟩, ⟨"\n", .output⟩], .ok ()⟩

/-- The report is printed, and then a line end. -/
theorem follows_printReport (result : Except Diagnostic Document) (files : FileSystem)
    (log : List Record) :
    Follows (printReport result) files log (reportCourse files log result) :=
  (follows_print .report _ files log).bind_spoken (follows_printOut "\n" files log)

/-- The course of a delivery: a listing is printed or saved, a diagnostic printed. -/
def deliverCourse (files : FileSystem) (log : List Record) (output : Option Path) :
    Except Diagnostic Document → Course Unit
  | .error d => ⟨files, log, [⟨d.text ++ "\n", .output⟩], .ok ()⟩
  | .ok d =>
    match output with
    | none => ⟨files, log, [⟨d.listing, .output⟩], .ok ()⟩
    | some path =>
      match files.save path d.listing with
      | .error e => ⟨files, log, [], .error (.storage e)⟩
      | .ok saved =>
        ⟨saved, log ++ [⟨.info, "quizlet_cli", "saved listing", [("path", path.text)]⟩], [],
          .ok ()⟩

theorem follows_deliver (output : Option Path) (result : Except Diagnostic Document)
    (files : FileSystem) (log : List Record) :
    Follows (deliver output result) files log (deliverCourse files log output result) := by
  cases result with
  | error d => exact follows_printOut _ files log
  | ok d =>
    cases output with
    | none => exact follows_printOut _ files log
    | some path =>
      have hsave := follows_save path d.listing files log
      rw [deliverCourse]
      cases hsaved : files.save path d.listing with
      | error e =>
        rw [hsaved] at hsave
        exact hsave.bind_failed
      | ok saved =>
        rw [hsaved] at hsave
        exact hsave.bind_silent (follows_logRecord _ saved log)

/-- The course of the command that renders a file. -/
def renderCourse (files : FileSystem) (log : List Record) (file : Path) (output : Option Path)
    (json : Bool) : Course Status :=
  match files.load file with
  | .error e => ⟨files, log, [], .error (.storage e)⟩
  | .ok text =>
    let result := Document.ofText text
    let log := log ++ readingRecords file result
    (if json then reportCourse files log result else deliverCourse files log output result).map
      fun _ => statusOf result

theorem follows_renderFile (file : Path) (output : Option Path) (json : Bool) (files : FileSystem)
    (log : List Record) :
    Follows (renderFile file output json) files log (renderCourse files log file output json) := by
  have hload := follows_load file files log
  rw [renderFile, renderCourse]
  cases hloaded : files.load file with
  | error e =>
    rw [hloaded] at hload
    exact hload.bind_failed
  | ok text =>
    rw [hloaded] at hload
    refine hload.bind_silent ((follows_logRecords _ files log).bind_silent ?_)
    cases json with
    | true => exact (follows_printReport _ files _).bind_pure _
    | false => exact (follows_deliver output _ files _).bind_pure _

/-- The course of the command that writes a new document. -/
def newCourse (files : FileSystem) (log : List Record) (path : Path) (force : Bool) :
    Course Status :=
  match files.create path Template.newDocument force with
  | .error e => ⟨files, log, [], .error (.storage e)⟩
  | .ok created =>
    ⟨created, log ++ [⟨.info, "quizlet_cli", "created document", [("path", path.withTxt.text)]⟩],
      [⟨path.withTxt.text ++ "\n", .output⟩], .ok .clean⟩

theorem follows_newFile (path : Path) (force : Bool) (files : FileSystem) (log : List Record) :
    Follows (newFile path force) files log (newCourse files log path force) := by
  have hcreate := follows_create path Template.newDocument force files log
  unfold newFile newCourse
  cases hcreated : files.create path Template.newDocument force with
  | error e =>
    rw [hcreated] at hcreate
    exact hcreate.bind_failed
  | ok created =>
    rw [hcreated] at hcreate
    refine hcreate.bind_silent ((follows_logRecord _ created log).bind_silent ?_)
    exact (follows_printOut _ created _).bind_spoken (follows_pure Status.clean created _)

/-- The course of a first look at a document: its frame is printed, if it can be loaded. -/
def lookCourse (files : FileSystem) (log : List Record) (document : Path) :
    Course Watch.Watcher :=
  match files.load document with
  | .error e => ⟨files, log ++ [Watch.watchRecord .warn e.message []], [], .ok ⟨document, none⟩⟩
  | .ok text =>
    ⟨files, log ++ faultRecords (Document.ofText text),
      [⟨Watch.separator ++ "\n", .output⟩, ⟨render text, .output⟩], .ok ⟨document, some text⟩⟩

/-- A look leaves the files as they are. -/
theorem lookCourse_files (files : FileSystem) (log : List Record) (document : Path) :
    (lookCourse files log document).files = files := by
  unfold lookCourse
  split <;> rfl

/-- A frame is printed in two parts, the separator and the rendering. -/
theorem follows_printFrame (rendered : String) (files : FileSystem) (log : List Record) :
    Follows (Watch.printFrame rendered) files log
      ⟨files, log, [⟨Watch.separator ++ "\n", .output⟩, ⟨rendered, .output⟩], .ok ()⟩ := by
  have hflush : Follows (orFail .output Host.flush) files log ⟨files, log, [], .ok ()⟩ :=
    fun _ => rfl
  exact (follows_printOut _ files log).bind_spoken
    ((follows_printOut rendered files log).bind_spoken hflush)

/-- The first look at a document prints its frame, or tells the log why it does not. -/
theorem follows_reload (document : Path) (files : FileSystem) (log : List Record) :
    Follows (Watch.Watcher.reload Watch.printFrame ⟨document, none⟩) files log
      (lookCourse files log document) := by
  have hlook : Follows (ExceptT.lift (Storage.load document)) files log
      ⟨files, log, [], .ok (files.load document)⟩ := fun _ => rfl
  refine hlook.bind_silent ?_
  rw [lookCourse]
  cases files.load document with
  | error e => exact (follows_logRecord _ files log).bind_silent (follows_pure _ files _)
  | ok text =>
    dsimp only
    rw [if_neg (by simp)]
    refine (follows_logRecords _ files log).bind_silent ?_
    exact (follows_printFrame _ files _).bind_spoken (follows_pure _ files _)

/-- A file that cannot be found is not watched. -/
theorem follows_open_of_error {file : Path} {e : FileError}
    (h : files.canonicalize file = .error e) (log : List Record) :
    Follows (Watch.Watcher.open? file) files log ⟨files, log, [], .error (.watch e)⟩ := by
  have hfound : Follows (orFail .watch (Host.canonicalize file)) files log
      ⟨files, log, [], (files.canonicalize file).mapError .watch⟩ := fun _ => rfl
  rw [h] at hfound
  exact hfound.bind_failed

/-- A file that is found is watched under its path from the root. -/
theorem follows_open_of_ok {file document : Path} (h : files.canonicalize file = .ok document)
    (log : List Record) :
    Follows (Watch.Watcher.open? file) files log
      ⟨files, log ++ [Watch.watchingRecord document], [], .ok ⟨document, none⟩⟩ := by
  have hfound : Follows (orFail .watch (Host.canonicalize file)) files log
      ⟨files, log, [], (files.canonicalize file).mapError .watch⟩ := fun _ => rfl
  rw [h] at hfound
  exact hfound.bind_silent ((follows_logRecord _ files log).bind_silent (follows_pure _ files _))

/-- Steps that print nothing have more to say of their failure. -/
theorem Follows.inContext {act : ExceptT Failure Session α} {ending : Except Failure α}
    (words : String) (h : Follows act files log ⟨files', log', [], ending⟩) :
    Follows (inContext words act) files log
      ⟨files', log', [], ending.mapError (.context words)⟩ := by
  intro out
  have hrun : act.run ⟨files, out, log⟩ = (ending, ⟨files', out, log'⟩) := h out
  show ((act.run ⟨files, out, log⟩).1.mapError _, (act.run ⟨files, out, log⟩).2) = _
  rw [hrun]
  rfl

section Watch

variable {file document : Path} {text : String}

/-- A file that cannot be loaded is not watched. -/
theorem follows_watchFile_of_not_loaded {e : StorageError}
    (follow : Watch.Watcher → ExceptT Failure Session Unit) (h : files.load file = .error e)
    (log : List Record) :
    Follows (watchFile follow file) files log ⟨files, log, [], .error (.storage e)⟩ := by
  have hload := follows_load file files log
  rw [h] at hload
  exact hload.bind_failed.bind_failed

/-- A file that can be loaded, but not found from the root, is not watched. -/
theorem follows_watchFile_of_not_found {e : FileError}
    (follow : Watch.Watcher → ExceptT Failure Session Unit) (hloaded : files.load file = .ok text)
    (h : files.canonicalize file = .error e) (log : List Record) :
    Follows (watchFile follow file) files log
      ⟨files, log, [], .error (.context ("failed to watch " ++ file.text) (.watch e))⟩ := by
  have hload := follows_load file files log
  rw [hloaded] at hload
  exact (hload.bind_silent ((follows_open_of_error h log).inContext _)).bind_failed

/-- The first look of the command at a file that can be watched. -/
theorem follows_firstLook (hloaded : files.load file = .ok text)
    (hfound : files.canonicalize file = .ok document) (log : List Record) :
    Follows (do (← watcherOf file).reload Watch.printFrame) files log
      (lookCourse files (log ++ [Watch.watchingRecord document]) document) := by
  have hload := follows_load file files log
  rw [hloaded] at hload
  exact (hload.bind_silent ((follows_open_of_ok hfound log).inContext _)).bind_silent
    (follows_reload document files _)

/-- The course of the command that watches a file, when no change of it comes. -/
def watchCourse (files : FileSystem) (log : List Record) (file : Path) : Course Status :=
  match files.load file with
  | .error e => ⟨files, log, [], .error (.storage e)⟩
  | .ok _ =>
    match files.canonicalize file with
    | .error e => ⟨files, log, [], .error (.context ("failed to watch " ++ file.text) (.watch e))⟩
    | .ok document =>
      (lookCourse files (log ++ [Watch.watchingRecord document]) document).map fun _ => .clean

/-- The command that watches a file follows its course, when no change of it comes. -/
theorem follows_watchFile (file : Path) (files : FileSystem) (log : List Record) :
    Follows (watchFile World.settled file) files log (watchCourse files log file) := by
  unfold watchCourse
  cases hloaded : files.load file with
  | error e => exact follows_watchFile_of_not_loaded _ hloaded log
  | ok text =>
    cases hfound : files.canonicalize file with
    | error e => exact follows_watchFile_of_not_found _ hloaded hfound log
    | ok document =>
      rw [watchFile, ← bind_assoc]
      exact (follows_firstLook hloaded hfound log).bind_pure _

end Watch

/-- The course of the command that shows the built-in document. -/
def demoCourse (files : FileSystem) (log : List Record) : Course Status :=
  ⟨files, log, [⟨Template.demo ++ "\n", .output⟩, ⟨render Template.demo, .output⟩], .ok .clean⟩

theorem follows_showDemo (files : FileSystem) (log : List Record) :
    Follows showDemo files log (demoCourse files log) :=
  (follows_printOut _ files log).bind_spoken ((follows_printOut _ files log).bind_pure _)

/-- The course of a command. -/
def Command.course (files : FileSystem) (log : List Record) : Command → Course Status
  | .render file output json => renderCourse files log file output json
  | .watch file => watchCourse files log file
  | .new path force => newCourse files log path force
  | .demo => demoCourse files log

/-- **Every command follows its course**: what it does to the files and the log, what it has to
    print and how it means to end are settled before its output is asked. -/
theorem World.run_eq_perform (w : World) (c : Command) :
    w.run c = (c.course w.files w.log).perform w.out := by
  cases c with
  | render file output json => exact follows_renderFile file output json w.files w.log w.out
  | watch file => exact follows_watchFile file w.files w.log w.out
  | new path force => exact follows_newFile path force w.files w.log w.out
  | demo => exact follows_showDemo w.files w.log w.out

/-! ### Outputs that take everything -/

/-- A command did not fail: how it ended, what it printed and the files that it left. -/
structure Prints (status : Status) (text : String) (files : FileSystem)
    (after : Except Failure Status × World) : Prop where
  ending_eq : after.1 = .ok status
  accepted_eq : after.2.out.accepted = text.toUTF8
  files_eq : after.2.files = files

/-- On an output that takes everything a command follows its course to the end. -/
theorem World.run_ofFiles {c : Command} {us : List Utterance}
    {ending : Except Failure Status} (h : c.course files [] = ⟨files', log, us, ending⟩) :
    (ofFiles files).run c = (ending, ⟨files', ⟨none, (spoken us).toUTF8⟩, log⟩) := by
  rw [run_eq_perform]
  show (c.course files []).perform .unlimited = _
  rw [h, Course.perform_unlimited]

/-- A course that ends well is one of a command that prints. -/
theorem prints_of_course {c : Command} {us : List Utterance} {status : Status}
    (h : c.course files [] = ⟨files', log, us, .ok status⟩) :
    Prints status (spoken us) files' ((World.ofFiles files).run c) := by
  rw [World.run_ofFiles h]
  exact ⟨rfl, rfl, rfl⟩

/-- The course of a command that renders a file which can be loaded. -/
theorem course_render_of_load {file : Path} {text : String} (h : files.load file = .ok text)
    (log : List Record)
    (output : Option Path) (json : Bool) :
    (Command.render file output json).course files log =
      (if json then
        reportCourse files (log ++ readingRecords file (Document.ofText text))
          (Document.ofText text)
      else
        deliverCourse files (log ++ readingRecords file (Document.ofText text)) output
          (Document.ofText text)).map fun _ => statusOf (Document.ofText text) := by
  show renderCourse files log file output json = _
  rw [renderCourse, h]

end Flashcards
