import Flashcards.Proofs.Reports

namespace Flashcards

open Flashcards.Markup Flashcards.Json

/-!
# Three ways to have a file rendered

The listing of a file is printed, printed in a report, or saved to a file.

* `HasMember` — what a printed report says under some key, by the grammar of JSON.
* `World.render_modes_agree` — the three ways tell the same of a file.
-/

/-- A text can be read as one JSON value only, and this is an object of which the only member with
    some key has some value. -/
def HasMember (json key : String) (v : Value) : Prop :=
  ∃ members, (∀ w, IsText json.toList w ↔ w = .object members) ∧
    ∀ w, (key, w) ∈ members ↔ w = v

variable {files files' : FileSystem} {file path : Path} {text : String} {d : Document}
  {e : Diagnostic}

/-! ### One way at a time -/

/-- A report says what it is made to say. -/
theorem hasMember_report {result : Except Diagnostic Document} {members : List (String × Value)}
    {key : String} {v : Value} (h : reportValue result = .object members)
    (hkey : ∀ w, (key, w) ∈ members ↔ w = v) : HasMember (report result).pretty key v :=
  ⟨members, fun w => by rw [isText_pretty_iff, value_report, h], hkey⟩

/-- The report of an accepted document, as it is printed, says what the listing is. -/
theorem hasMember_output (d : Document) :
    HasMember (report (.ok d)).pretty "output" (.string d.listing) :=
  hasMember_report rfl (by simp)

/-- The report of a fault, as it is printed, says what the fault is. -/
theorem hasMember_error (e : Diagnostic) :
    HasMember (report (.error e)).pretty "error" (.object [("line", .number e.line),
      ("raw", .string e.raw), ("message", .string e.message)]) :=
  hasMember_report rfl (by simp)

/-- A file that cannot be loaded is not rendered, whatever was asked for. -/
theorem World.run_render_of_error {e : StorageError} (h : files.load file = .error e)
    (output : Option Path) (json : Bool) :
    (ofFiles files).run (.render file output json) = (.error (.storage e), ofFiles files) := by
  have hcourse : (Command.render file output json).course files [] =
      ⟨files, [], [], .error (.storage e)⟩ := by
    show renderCourse files [] file output json = _
    rw [renderCourse, h]
  rw [run_ofFiles hcourse]
  simp [spoken, ofFiles, Sink.unlimited]

/-- A listing is printed as it is. -/
theorem prints_listing (h : files.load file = .ok text) (hd : Document.ofText text = .ok d) :
    Prints .clean d.listing files ((World.ofFiles files).run (.render file none false)) := by
  have hcourse := course_render_of_load h [] none false
  rw [hd] at hcourse
  simpa [spoken, deliverCourse, statusOf] using prints_of_course hcourse

/-- A diagnostic is printed in place of a listing, also of one that was to be saved. -/
theorem prints_diagnostic (h : files.load file = .ok text) (he : Document.ofText text = .error e)
    (output : Option Path) :
    Prints .documentError (e.text ++ "\n") files
      ((World.ofFiles files).run (.render file output false)) := by
  have hcourse := course_render_of_load h [] output false
  rw [he] at hcourse
  simpa [spoken, deliverCourse, statusOf] using prints_of_course hcourse

/-- A listing that is saved is not printed. -/
theorem prints_nothing (h : files.load file = .ok text) (hd : Document.ofText text = .ok d)
    (hwrite : files.write path d.listing.toUTF8 = .ok files') :
    Prints .clean "" files' ((World.ofFiles files).run (.render file (some path) false)) := by
  have hsave := FileSystem.save_eq_ok_iff.mpr hwrite
  have hcourse := course_render_of_load h [] (some path) false
  rw [hd] at hcourse
  simp only [deliverCourse, hsave] at hcourse
  simpa [spoken, statusOf] using prints_of_course hcourse

/-- A listing that cannot be saved leaves no trace but in the log. -/
theorem World.run_render_of_write_error {cause : FileError} (h : files.load file = .ok text)
    (hd : Document.ofText text = .ok d)
    (hwrite : files.write path d.listing.toUTF8 = .error cause) :
    (ofFiles files).run (.render file (some path) false) =
      (.error (.storage (.unwritable path cause)),
        ⟨files, .unlimited, readingRecords file (.ok d)⟩) := by
  have hsave : files.save path d.listing = .error (.unwritable path cause) := by
    rw [FileSystem.save, hwrite]
    rfl
  have hcourse := course_render_of_load h [] (some path) false
  rw [hd] at hcourse
  simp only [deliverCourse, hsave] at hcourse
  rw [run_ofFiles hcourse]
  simp [spoken, Sink.unlimited, Except.map]

/-! ### All three ways -/

/-- **The three ways to have a file rendered agree.**  A file is given to be printed, to be
    reported on, and to be saved to a path.

    * If it cannot be loaded, all three fail in the same way and do nothing.
    * If it is accepted, all three end well: the listing is printed, is the `output` of the report
      that is printed, or is all that the path's file holds, while nothing is printed and all other
      files are as they were.  Only the last can fail, when the path cannot be written; then it
      prints nothing and all files are as they were.
    * If it has a fault, all three say so: the diagnostic is printed, which is the rendering of the
      text, or is the `error` of the report that is printed.  All files are as they were. -/
theorem World.render_modes_agree (files : FileSystem) (file path : Path) :
    let printed := (ofFiles files).run (.render file none false)
    let reported := (ofFiles files).run (.render file none true)
    let saved := (ofFiles files).run (.render file (some path) false)
    match files.load file with
    | .error e => ∀ mode ∈ [printed, reported, saved], mode = (.error (.storage e), ofFiles files)
    | .ok text =>
      match Document.ofText text with
      | .ok d =>
        Prints .clean d.listing files printed ∧
          (∃ json, Prints .clean (json ++ "\n") files reported ∧
            HasMember json "output" (.string d.listing)) ∧
          match files.write path d.listing.toUTF8 with
          | .ok written =>
            Prints .clean "" written saved ∧
              ∃ place, files.Rewritten written path d.listing.toUTF8 place
          | .error cause =>
            saved = (.error (.storage (.unwritable path cause)),
              ⟨files, .unlimited, readingRecords file (.ok d)⟩)
      | .error e =>
        render text = e.text ∧
          Prints .documentError (e.text ++ "\n") files printed ∧
          Prints .documentError (e.text ++ "\n") files saved ∧
          ∃ json, Prints .documentError (json ++ "\n") files reported ∧
            HasMember json "error" (.object [("line", .number e.line), ("raw", .string e.raw),
              ("message", .string e.message)]) := by
  intro printed reported saved
  cases hload : files.load file with
  | error e =>
    simp only [List.forall_mem_cons]
    exact ⟨run_render_of_error hload none false, run_render_of_error hload none true,
      run_render_of_error hload (some path) false, by simp⟩
  | ok text =>
    dsimp only
    have hreport := prints_report hload none
    cases hresult : Document.ofText text with
    | ok d =>
      rw [hresult] at hreport
      refine ⟨prints_listing hload hresult, ⟨_, hreport, hasMember_output d⟩, ?_⟩
      cases hwrite : files.write path d.listing.toUTF8 with
      | ok written =>
        exact ⟨prints_nothing hload hresult hwrite, FileSystem.rewritten_of_write hwrite⟩
      | error cause => exact run_render_of_write_error hload hresult hwrite
    | error e =>
      rw [hresult] at hreport
      have hrender : render text = e.text := by
        rw [render, listing, hresult]
        rfl
      exact ⟨hrender, prints_diagnostic hload hresult none,
        prints_diagnostic hload hresult (some path), _, hreport, hasMember_error e⟩

end Flashcards
