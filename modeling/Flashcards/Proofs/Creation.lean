import Flashcards.Proofs.Courses
import Flashcards.Proofs.LineEnds

namespace Flashcards

open Flashcards.Text

/-!
# New documents

A document is created by a look along a path and a write along the same one.  The look decides
whether the write is tried, and the write changes one file or nothing.

* `FileSystem.Exists` — something stands where a path leads.
* `FileSystem.contains_eq_true_iff` — this is what the look finds out.
* `FileSystem.create_cases` — what can come of creating a document.
* `Storage.create_atomic` — it is refused just for what exists, and done as a whole or not at all.
-/

namespace FileSystem

variable {fs fs' : FileSystem} {p : Path} {place directory : Place}

/-! ### What stands where a path leads -/

/-- Something stands at the place that a path leads to. -/
def Exists (fs : FileSystem) (p : Path) : Prop :=
  ∃ place entry, fs.resolve p = .ok place ∧ fs.find? place = some entry

/-- A walk from where something stands ends where something stands: the directories above a place
    are there, and an entry is there when a step to it is taken. -/
theorem isSome_find?_of_walk {pieces : List String} (hgrounded : fs.Grounded place)
    (hfound : (fs.find? place).isSome) (hw : fs.walk place pieces = .ok directory) :
    (fs.find? directory).isSome := by
  refine (walk_preserves (P := fun place => fs.Grounded place ∧ (fs.find? place).isSome)
    (fun h => ⟨h.1.parent, ?_⟩) (fun hdir _ _ hnext h => ⟨h.1.append hdir, ?_⟩)
    ⟨hgrounded, hfound⟩ hw).2
  · exact Option.isSome_of_eq_some (isDirectory_eq_true_iff.mp h.1.isDirectory_parent)
  · exact Option.isSome_of_eq_some hnext

/-- A path leads to something that is there. -/
theorem isSome_find?_of_resolve (h : fs.resolve p = .ok place) : (fs.find? place).isSome := by
  have hstart : fs.find? (fs.start p) = some .directory :=
    isDirectory_eq_true_iff.mp (isDirectory_of_above (fs.start_isPrefix p))
  unfold resolve at h
  split at h
  · exact absurd h (by simp)
  · exact isSome_find?_of_walk (grounded_of_above (fs.start_isPrefix p)) (by simp [hstart]) h

/-- A path leads somewhere just when something stands there. -/
theorem contains_eq_true_iff : fs.contains p = true ↔ fs.Exists p := by
  rw [contains, Exists]
  cases hresolve : fs.resolve p with
  | error e => simp [Except.toBool]
  | ok place =>
    obtain ⟨entry, hentry⟩ := Option.isSome_iff_exists.mp (isSome_find?_of_resolve hresolve)
    exact iff_of_true rfl ⟨place, entry, rfl, hentry⟩

theorem Rewritten.exists {content : ByteArray} (h : Rewritten fs fs' p content place) :
    fs'.Exists p :=
  contains_eq_true_iff.mp (contains_of_read h.read_eq)

/-! ### What can come of creating a document -/

/-- A document is refused for what exists, or it cannot be written, or one file is written. -/
theorem create_cases (fs : FileSystem) (p : Path) (text : String) (force : Bool) :
    (fs.Exists p.withTxt ∧ force = false) ∧
        fs.create p text force = .error (.alreadyExists p.withTxt) ∨
      ¬ (fs.Exists p.withTxt ∧ force = false) ∧
        ((∃ cause, fs.target p.withTxt = .error cause ∧
            fs.create p text force = .error (.unwritable p.withTxt cause)) ∨
          ∃ fs' place, Rewritten fs fs' p.withTxt text.toUTF8 place ∧
            fs.create p text force = .ok fs') := by
  rw [← contains_eq_true_iff]
  by_cases hrefused : fs.contains p.withTxt = true ∧ force = false
  · exact .inl ⟨hrefused, by rw [create, if_pos (by simp [hrefused])]⟩
  · have hsave : fs.create p text force = fs.save p.withTxt text := by
      rw [create, if_neg (by simpa using hrefused)]
    rw [hsave]
    exact .inr ⟨hrefused, fs.save_cases p.withTxt text⟩

end FileSystem

namespace Storage

/-- **A document is created as a whole or not at all**, and refused just for what it should be.
    Without force it is refused when something exists at its path.  When it is not created, for
    this or another reason, the world is as it was.  When it is, the file at its path holds the
    text, and no other file and no directory is changed; the text is loaded from there with `\n` for
    every `\r\n`, and no document is created at the same path without force. -/
theorem create_atomic (p : Path) (text : String) (force : Bool) (w : World) :
    let path := p.withTxt
    let after := (create p text force : Session (Except StorageError Path)).run w
    (after.1 = .error (.alreadyExists path) ↔ w.files.Exists path ∧ force = false) ∧
    (∀ e, after.1 = .error e → after.2 = w) ∧
    (after.1 = .ok path ↔
      ¬ (w.files.Exists path ∧ force = false) ∧ ∃ place, w.files.target path = .ok place) ∧
    ∀ created, after.1 = .ok created →
      created = path ∧ after.2.out = w.out ∧ after.2.log = w.log ∧
      (∃ place, w.files.Rewritten after.2.files path text.toUTF8 place ∧
        ∀ other content, w.files.target other ≠ .ok place → w.files.read other = .ok content →
          after.2.files.read other = .ok content) ∧
      w.files.SameDirectories after.2.files ∧
      (load path : Session (Except StorageError String)).run after.2 =
        (.ok (unifyLineEnds text), after.2) ∧
      ∀ later, (create p later false : Session (Except StorageError Path)).run after.2 =
        (.error (.alreadyExists path), after.2) := by
  intro path after
  have hafter : after = w.changed path (w.files.create p text force) := create_run p text force w
  clear_value after
  rcases w.files.create_cases p text force with ⟨hexists, hcreate⟩ |
    ⟨hexists, ⟨cause, ht, hcreate⟩ | ⟨fs, place, hwritten, hcreate⟩⟩
  · obtain rfl : after = (.error (.alreadyExists path), w) := by rw [hafter, hcreate]; rfl
    simp [path, hexists]
  · obtain rfl : after = (.error (.unwritable path cause), w) := by rw [hafter, hcreate]; rfl
    simp [path, hexists, ht]
  · obtain rfl : after = (.ok path, { w with files := fs }) := by rw [hafter, hcreate]; rfl
    refine ⟨by simpa [path] using hexists, by simp, ?_, ?_⟩
    · exact iff_of_true rfl ⟨hexists, place, hwritten.target_eq⟩
    rintro created hcreated
    obtain rfl : path = created := by simpa using hcreated
    refine ⟨rfl, rfl, rfl, ⟨place, hwritten, fun other content hother hread =>
      hwritten.read_of_ne hread hother⟩, hwritten.sameDirectories, load_of_read hwritten.read_eq,
      fun later => ?_⟩
    -- The document that stands there now is found by the next look.
    rw [create_run]
    rcases fs.create_cases p later false with ⟨-, hlater⟩ | ⟨hnone, -⟩
    · rw [hlater]
      rfl
    · exact absurd ⟨hwritten.exists, rfl⟩ hnone

/-- A first document in an empty directory. -/
theorem create_atomic_sample :
    let after := (create ⟨"words"⟩ "一\r\n" false : Session (Except StorageError Path)).run
      (.ofFiles .empty)
    after.1 = .ok ⟨"words.txt"⟩ ∧
      (load ⟨"words.txt"⟩ : Session (Except StorageError String)).run after.2 =
        (.ok "一\n", after.2) ∧
      (create ⟨"words"⟩ "二\n" false : Session (Except StorageError Path)).run after.2 =
        (.error (.alreadyExists ⟨"words.txt"⟩), after.2) := by
  intro after
  have hpath : (⟨"words"⟩ : Path).withTxt = ⟨"words.txt"⟩ := by decide
  have hnone : ¬ FileSystem.empty.Exists ⟨"words.txt"⟩ := by
    rw [← FileSystem.contains_eq_true_iff]
    decide
  have htarget : FileSystem.empty.target ⟨"words.txt"⟩ = .ok ["home", "cards", "words.txt"] := by
    decide
  obtain ⟨-, -, hok, hcreated⟩ := create_atomic ⟨"words"⟩ "一\r\n" false (.ofFiles .empty)
  rw [hpath] at hok hcreated
  have hdone : after.1 = .ok ⟨"words.txt"⟩ := hok.mpr ⟨fun h => hnone h.1, _, htarget⟩
  obtain ⟨-, -, -, -, -, hload, hagain⟩ := hcreated _ hdone
  exact ⟨hdone, hload, hagain "二\n"⟩

end Storage

end Flashcards
