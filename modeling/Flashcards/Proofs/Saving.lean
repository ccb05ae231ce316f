import Flashcards.Proofs.Delivery
import Flashcards.Proofs.Reading

namespace Flashcards

open Flashcards.Markup

/-!
# Listings that are saved

The listing of a file is saved to a path where that is asked for, unless a report is asked for as
well.  Then the report is printed and nothing is saved, although the command ends well.

* `World.files_of_report` — a report changes no file.
* `World.run_saving_cases` — without a report, the listing is saved or the command fails.
* `World.listing_saved_iff` — after a command that ends well, the listing is where it was to be
  saved just when no report was asked for, or when it stood there before.
* `World.listing_passed_over` — an accepted command line whose listing is not saved.
-/

namespace World

variable {text : String} {d : Document}

/-- A report leaves all files as they are, wherever the listing was to be saved. -/
theorem files_of_report (w : World) (file : Path) (output : Option Path) :
    (w.run (.render file output true)).2.files = w.files := by
  rw [run_eq_perform, Course.perform_files]
  show (renderCourse w.files w.log file output true).files = w.files
  unfold renderCourse
  cases w.files.load file <;> rfl

/-- Without a report, the listing of an accepted file is written or the command fails. -/
theorem run_saving_cases (w : World) {file : Path} (path : Path)
    (hload : w.files.load file = .ok text) (hd : Document.ofText text = .ok d) :
    let after := w.run (.render file (some path) false)
    (∃ cause, w.files.target path = .error cause ∧
      after.1 = .error (.storage (.unwritable path cause))) ∨
    ∃ place, w.files.target path = .ok place ∧ after.1 = .ok .clean ∧
      after.2.files.read path = .ok d.listing.toUTF8 := by
  intro after
  have hcourse := course_render_of_load hload w.log (some path) false
  rw [hd, if_neg (by decide), deliverCourse] at hcourse
  have hafter : after = ((Command.render file (some path) false).course w.files w.log).perform
      w.out := run_eq_perform w _
  rw [hcourse] at hafter
  rcases w.files.save_cases path d.listing with ⟨cause, ht, hsave⟩ | ⟨saved, place, hwritten, hsave⟩
  · -- Nothing was written, and the failure names the path.
    rw [hsave] at hafter
    exact .inl ⟨cause, ht, by rw [hafter]; rfl⟩
  · rw [hsave] at hafter
    refine .inr ⟨place, hwritten.target_eq, by rw [hafter]; rfl, ?_⟩
    rw [hafter, Course.perform_files]
    exact hwritten.read_eq

/-- **A listing is saved unless a report is asked for.**  A file is accepted, and its listing is to
    be saved to a path.  Without a report the command ends well just when the path can be written,
    and the listing is all that the path's file holds then.  With a report all files stay as they
    are; so when the command ends well, the listing is there only if it was there before. -/
theorem listing_saved_iff (w : World) (file path : Path) (json : Bool)
    (hload : w.files.load file = .ok text) (hd : Document.ofText text = .ok d) :
    let after := w.run (.render file (some path) json)
    (json = false → (after.1 = .ok .clean ↔ ∃ place, w.files.target path = .ok place)) ∧
      (json = true → after.2.files = w.files) ∧
      (after.1 = .ok .clean →
        (after.2.files.read path = .ok d.listing.toUTF8 ↔
          json = false ∨ w.files.read path = .ok d.listing.toUTF8)) := by
  intro after
  cases json with
  | true =>
    have hfiles : after.2.files = w.files := files_of_report w file (some path)
    simp [hfiles]
  | false =>
    rcases run_saving_cases w path hload hd with ⟨cause, ht, hfails⟩ | ⟨place, ht, hclean, hread⟩
    · simp [after, hfails, ht]
    · simp [after, hclean, hread, ht]

/-- The files of someone who has written a document. -/
def writtenFiles : FileSystem :=
  FileSystem.empty.overwrite ⟨"words.txt"⟩ Document.sampleText.toUTF8

theorem load_writtenFiles : writtenFiles.load ⟨"words.txt"⟩ = .ok Document.sampleText := by
  rfl

/-- A listing that is saved where nothing stood. -/
theorem listing_saved_sample :
    let after := (ofFiles writtenFiles).run (.render ⟨"words.txt"⟩ (some ⟨"listing.txt"⟩) false)
    after.1 = .ok .clean ∧ after.2.files.read ⟨"listing.txt"⟩ = .ok "一\tyī: one\n".toUTF8 := by
  obtain ⟨hends, -, hsaved⟩ := listing_saved_iff (ofFiles writtenFiles) ⟨"words.txt"⟩
    ⟨"listing.txt"⟩ false load_writtenFiles Document.ofText_sampleText
  have hclean := (hends rfl).mpr ⟨["home", "cards", "listing.txt"], rfl⟩
  exact ⟨hclean, (hsaved hclean).mpr (.inl rfl)⟩

/-- With a report asked for as well, the same command ends well and leaves no file. -/
theorem listing_passed_over :
    let after := (ofFiles writtenFiles).run (.render ⟨"words.txt"⟩ (some ⟨"listing.txt"⟩) true)
    Command.ofWords ["render", "words.txt", "--output", "listing.txt", "--json"] =
        .ok (.render ⟨"words.txt"⟩ (some ⟨"listing.txt"⟩) true) ∧
      Document.ofText Document.sampleText = .ok Document.sample ∧
      after.1 = .ok .clean ∧ after.2.files.read ⟨"listing.txt"⟩ = .error .notFound := by
  intro after
  have hreported : Prints .clean ((report (.ok Document.sample)).pretty ++ "\n") writtenFiles
      after := by
    have hprints := prints_report load_writtenFiles (some ⟨"listing.txt"⟩)
    rwa [Document.ofText_sampleText] at hprints
  refine ⟨by rfl, Document.ofText_sampleText, hreported.ending_eq, ?_⟩
  rw [hreported.files_eq]
  rfl

end World

end Flashcards
