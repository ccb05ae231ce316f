import Flashcards.Proofs.Courses
import Mathlib.Data.List.Induction

namespace Flashcards

/-!
# Requests served one after the other

Commands run on the same files, each on an output of its own, and end well or not.

* `Request`, `FileSystem.serveAll` — commands and the files that they leave.
* `Command.overwrites` — the commands that were asked to replace a file.
* `FileSystem.Keeps` — file systems of which the second has all that the first has.
* `FileSystem.Created` — file systems between which a new document was made.
* `FileSystem.serve_cases` — what one request can do that was not asked to replace a file.
* `FileSystem.serveAll_keeps` — files are replaced only where that was asked for.
-/

/-- A command, and how many bytes its output takes, where there is a limit. -/
structure Request where
  command : Command
  limit : Option Nat
  deriving DecidableEq, Repr

/-- The commands that were asked to replace a file, whether there is one or not. -/
def Command.overwrites : Command → Bool
  | .render _ output _ => output.isSome
  | .new _ force => force
  | _ => false

namespace FileSystem

/-- The files after a request, whether it ended well or not. -/
def serve (fs : FileSystem) (r : Request) : FileSystem :=
  ((⟨fs, ⟨r.limit, .empty⟩, []⟩ : World).run r.command).2.files

/-- The files after some requests. -/
def serveAll (fs : FileSystem) (rs : List Request) : FileSystem :=
  rs.foldl serve fs

theorem serveAll_append (fs : FileSystem) (rs rs' : List Request) :
    fs.serveAll (rs ++ rs') = (fs.serveAll rs).serveAll rs' :=
  List.foldl_append

theorem serveAll_concat (fs : FileSystem) (rs : List Request) (r : Request) :
    fs.serveAll (rs ++ [r]) = (fs.serveAll rs).serve r :=
  fs.serveAll_append rs [r]

/-- A request leaves the files to which the course of its command comes, also when its output is
    closed on the way. -/
theorem serve_eq_course (fs : FileSystem) (r : Request) :
    fs.serve r = (r.command.course fs []).files := by
  rw [serve, World.run_eq_perform, Course.perform_files]

/-! ### File systems that grow -/

/-- All that stands in the first file system stands in the second, and no directory is new. -/
structure Keeps (fs fs' : FileSystem) : Prop where
  find?_eq : ∀ {place entry}, fs.find? place = some entry → fs'.find? place = some entry
  sameDirectories : SameDirectories fs fs'

variable {fs fs' : FileSystem} {p path : Path} {place : Place} {entry : Entry}
  {content : ByteArray} {r : Request} {rs : List Request}

theorem Keeps.refl (fs : FileSystem) : Keeps fs fs :=
  ⟨id, .refl fs⟩

theorem Keeps.trans {fs'' : FileSystem} (h : Keeps fs fs') (h' : Keeps fs' fs'') :
    Keeps fs fs'' :=
  ⟨fun hfound => h'.find?_eq (h.find?_eq hfound), h.sameDirectories.trans h'.sameDirectories⟩

/-- A path that leads to a file still does. -/
theorem Keeps.read_eq (h : Keeps fs fs') (hread : fs.read p = .ok content) :
    fs'.read p = .ok content := by
  obtain ⟨place, ht, hfound⟩ := exists_target_of_read hread
  rw [read_of_target (target_of_sameDirectories h.sameDirectories ht), h.find?_eq hfound]

/-! ### New documents -/

/-- A new document was made at a place where nothing stood, and nothing else changed. -/
structure Created (fs fs' : FileSystem) (path : Path) (place : Place) : Prop where
  create_eq : (Storage.create path Template.newDocument false :
    Session (Except StorageError Path)).run (.ofFiles fs) = (.ok path.withTxt, .ofFiles fs')
  find?_eq_none : fs.find? place = none
  rewritten : Rewritten fs fs' path.withTxt Template.newDocument.toUTF8 place

/-- A document that is created without force is put where nothing stood. -/
theorem created_of_create (h : fs.create path Template.newDocument false = .ok fs') :
    ∃ place, Created fs fs' path place := by
  have hrun := create_run path Template.newDocument false (.ofFiles fs)
  rw [World.ofFiles, h] at hrun
  rw [create] at h
  split at h
  · exact absurd h (by simp)
  case isFalse hcontains =>
    obtain ⟨place, hwritten⟩ := rewritten_of_write (save_eq_ok_iff.mp h)
    refine ⟨place, hrun, ?_, hwritten⟩
    -- The check and the write follow the path to the same place.
    rw [contains, resolve_of_target hwritten.target_eq] at hcontains
    cases hfound : fs.find? place with
    | none => rfl
    | some entry => exact absurd hcontains (by simp [hfound, Except.toBool])

/-- A new file leaves all others as they are. -/
theorem Created.keeps (h : Created fs fs' path place) : Keeps fs fs' where
  find?_eq {other entry} hfound := by
    have hother : other ≠ place := by
      rintro rfl
      exact absurd (h.find?_eq_none.symm.trans hfound) (by simp)
    rw [h.rewritten.find?_eq, if_neg hother, hfound]
  sameDirectories := h.rewritten.sameDirectories

/-! ### Requests that were not asked to replace a file -/

/-- What is printed leaves the files as they are. -/
theorem deliverCourse_none_files (fs : FileSystem) (log : List Record)
    (result : Except Markup.Diagnostic Markup.Document) :
    (deliverCourse fs log none result).files = fs := by
  cases result <;> rfl

/-- Such a request leaves the files as they are, or makes a new document. -/
theorem serve_cases (fs : FileSystem) (h : r.command.overwrites = false) :
    fs.serve r = fs ∨
      ∃ path limit place, r = ⟨.new path false, limit⟩ ∧ Created fs (fs.serve r) path place := by
  obtain ⟨command, limit⟩ := r
  rw [serve_eq_course]
  cases command with
  | render file output json =>
    obtain rfl : output = none := by simpa [Command.overwrites] using h
    left
    show (renderCourse fs [] file none json).files = fs
    unfold renderCourse
    cases fs.load file with
    | error e => rfl
    | ok text =>
      cases json with
      | true => rfl
      | false => exact deliverCourse_none_files fs _ _
  | watch file =>
    left
    show (watchCourse fs [] file).files = fs
    unfold watchCourse
    split
    · rfl
    · split
      · rfl
      · exact lookCourse_files fs _ _
  | new path force =>
    obtain rfl : force = false := h
    show (newCourse fs [] path false).files = fs ∨ ∃ path' limit' place, _ ∧
      Created fs (newCourse fs [] path false).files path' place
    unfold newCourse
    cases hcreated : fs.create path Template.newDocument false with
    | error e => exact .inl rfl
    | ok created =>
      obtain ⟨place, hplace⟩ := created_of_create hcreated
      exact .inr ⟨path, limit, place, rfl, hplace⟩
  | demo => exact .inl rfl

/-- A request that does not ask to overwrite keeps all that is there. -/
theorem keeps_serve (fs : FileSystem) (h : r.command.overwrites = false) :
    Keeps fs (fs.serve r) := by
  rcases serve_cases fs h with hsame | ⟨path, limit, place, -, hcreated⟩
  · rw [hsame]
    exact .refl fs
  · exact hcreated.keeps

/-- So do any number of them. -/
theorem keeps_serveAll (fs : FileSystem) (h : ∀ r ∈ rs, r.command.overwrites = false) :
    Keeps fs (fs.serveAll rs) := by
  induction rs using List.reverseRecOn with
  | nil => exact .refl fs
  | append_singleton rs r ih =>
    rw [serveAll_concat]
    have hrs := ih fun r' hr' => h r' (List.mem_append_left [r] hr')
    exact hrs.trans (keeps_serve (fs.serveAll rs) (h r (by simp)))

/-- What is new was made by one of the requests. -/
theorem exists_created_of_find? (h : ∀ r ∈ rs, r.command.overwrites = false)
    (hnone : fs.find? place = none) (hfound : (fs.serveAll rs).find? place = some entry) :
    ∃ earlier path limit later, earlier ++ ⟨.new path false, limit⟩ :: later = rs ∧
      Created (fs.serveAll earlier) (fs.serveAll (earlier ++ [⟨.new path false, limit⟩])) path
        place := by
  induction rs using List.reverseRecOn with
  | nil => exact absurd (hnone.symm.trans hfound) (by simp)
  | append_singleton rs r ih =>
    have hrs : ∀ r' ∈ rs, r'.command.overwrites = false :=
      fun r' hr' => h r' (List.mem_append_left [r] hr')
    have hstep := serve_cases (fs.serveAll rs) (h r (by simp))
    rw [serveAll_concat] at hfound
    -- Either it was there before the last request, or the last request made it.
    cases hbefore : (fs.serveAll rs).find? place with
    | some entry' =>
      have hkept := (keeps_serve (fs.serveAll rs) (h r (by simp))).find?_eq hbefore
      obtain rfl : entry' = entry := Option.some.inj (hkept.symm.trans hfound)
      obtain ⟨earlier, path, limit, later, rfl, hcreated⟩ := ih hrs hbefore
      exact ⟨earlier, path, limit, later ++ [r], by simp, hcreated⟩
    | none =>
      rcases hstep with hsame | ⟨path, limit, place', rfl, hcreated⟩
      · rw [hsame, hbefore] at hfound
        exact absurd hfound (by simp)
      · -- Only the place of the new document has changed.
        have hplace : place = place' := by
          by_contra hne
          rw [hcreated.rewritten.find?_eq, if_neg hne, hbefore] at hfound
          exact absurd hfound (by simp)
        subst hplace
        refine ⟨rs, path, limit, [], rfl, ?_⟩
        rw [serveAll_concat]
        exact hcreated

/-- **Files are replaced only where that was asked for.**  Requests are served of which none was
    asked to replace a file, each on an output with any room, whether it ends well or not.  Then
    all that stood in the file system stands there still, and every file is read as before.  What is
    new is the file of a document that one of the requests made, where nothing stood: it is where
    the path of that request leads, with `.txt` for an extension, and holds the new document. -/
theorem serveAll_keeps (fs : FileSystem) (rs : List Request)
    (h : ∀ r ∈ rs, r.command.overwrites = false) :
    (∀ place entry, fs.find? place = some entry → (fs.serveAll rs).find? place = some entry) ∧
      (∀ p content, fs.read p = .ok content → (fs.serveAll rs).read p = .ok content) ∧
      ∀ place entry, fs.find? place = none → (fs.serveAll rs).find? place = some entry →
        entry = .file Template.newDocument.toUTF8 ∧
          ∃ earlier path limit later, earlier ++ ⟨.new path false, limit⟩ :: later = rs ∧
            Created (fs.serveAll earlier) (fs.serveAll (earlier ++ [⟨.new path false, limit⟩]))
              path place ∧
            (fs.serveAll rs).target path.withTxt = .ok place := by
  have hkeeps := keeps_serveAll fs h
  refine ⟨fun _ _ => hkeeps.find?_eq, fun _ _ => hkeeps.read_eq, fun place entry hnone hfound => ?_⟩
  obtain ⟨earlier, path, limit, later, rfl, hcreated⟩ := exists_created_of_find? h hnone hfound
  -- The requests after that one leave the new document as it is.
  have hnot : ∀ r ∈ later, r.command.overwrites = false := fun r hr => h r (by simp [hr])
  have hlater : Keeps (fs.serveAll (earlier ++ [⟨.new path false, limit⟩]))
      (fs.serveAll (earlier ++ ⟨.new path false, limit⟩ :: later)) := by
    rw [List.append_cons earlier _ later, serveAll_append fs _ later]
    exact keeps_serveAll _ hnot
  have hplace : (fs.serveAll (earlier ++ [⟨.new path false, limit⟩])).find? place =
      some (.file Template.newDocument.toUTF8) := by
    rw [hcreated.rewritten.find?_eq, if_pos rfl]
  have hkept := hlater.find?_eq hplace
  refine ⟨Option.some.inj (hfound.symm.trans hkept), earlier, path, limit, later, rfl, hcreated, ?_⟩
  have htarget := target_of_sameDirectories hcreated.keeps.sameDirectories
    hcreated.rewritten.target_eq
  exact target_of_sameDirectories hlater.sameDirectories htarget

/-- A file that someone has. -/
def sampleStart : FileSystem :=
  empty.overwrite ⟨"words.txt"⟩ "mine".toUTF8

/-- Requests for a new document where there is a file, and where there is none but the output is
    soon closed. -/
def sampleRequests : List Request :=
  [⟨.new ⟨"words"⟩ false, none⟩, ⟨.new ⟨"notes"⟩ false, some 3⟩,
    ⟨.render ⟨"words.txt"⟩ none true, some 0⟩, ⟨.demo, none⟩]

/-- A file that is there stays as it was, and the new one is made. -/
theorem serveAll_sampleRequests :
    (∀ r ∈ sampleRequests, r.command.overwrites = false) ∧
      (sampleStart.serveAll sampleRequests).read ⟨"words.txt"⟩ = .ok "mine".toUTF8 ∧
      sampleStart.find? ["home", "cards", "notes.txt"] = none ∧
      (sampleStart.serveAll sampleRequests).find? ["home", "cards", "notes.txt"] =
        some (.file Template.newDocument.toUTF8) := by
  have hnot : ∀ r ∈ sampleRequests, r.command.overwrites = false := by decide
  obtain ⟨-, hread, hnew⟩ := serveAll_keeps sampleStart sampleRequests hnot
  have hnone : sampleStart.find? ["home", "cards", "notes.txt"] = none := rfl
  have hfound :
      ((sampleStart.serveAll sampleRequests).find? ["home", "cards", "notes.txt"]).isSome := by
    decide +kernel
  obtain ⟨entry, hentry⟩ := Option.isSome_iff_exists.mp hfound
  refine ⟨hnot, hread _ _ rfl, hnone, ?_⟩
  rw [hentry, (hnew _ _ hnone hentry).1]

end FileSystem

end Flashcards
