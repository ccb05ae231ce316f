import Flashcards.FileSystem
import Flashcards.Text.Words
import Mathlib.Data.List.DropRight

namespace Flashcards

open Flashcards.Text

/-!
# Files and the places where they stand

* `FileSystem.find?_put`, `FileSystem.find?_erase` — one entry changes, the others stay.
* `FileSystem.SameDirectories` — file systems that differ in their files only.  A path leads to the
  same place in both.
* `FileSystem.walk_preserves` — what holds of a place holds where a walk from it ends.
* `FileSystem.target_eq_ok_iff` — the paths that lead to a place for a file.
* `FileSystem.read_of_target` — what is read from a path is what stands at that place.
* `FileSystem.exists_target_of_read` — a file that can be read stands at such a place.
* `FileSystem.target_of_canonicalize` — the path from the root leads to the same place.
* `FileSystem.read_overwrite`, `FileSystem.read_remove`, `FileSystem.read_overwrite_of_ne` — what is
  read after a change.
* `FileSystem.Rewritten` — file systems that differ in one file, by a write.
-/

namespace FileSystem

variable {fs fs' : FileSystem} {p q : Path} {place directory : Place} {entry : Entry}
  {content : ByteArray}

/-! ### One entry -/

/-- A directory is found at its place. -/
theorem isDirectory_eq_true_iff :
    fs.isDirectory place = true ↔ fs.find? place = some .directory := by
  unfold isDirectory
  split
  case h_1 h => simp [h]
  case h_2 h =>
    simp only [Bool.false_eq_true, false_iff]
    exact fun hdir => h hdir

/-- The working directory and what is above it are directories. -/
theorem isDirectory_of_above (h : place <+: fs.workingDirectory) :
    fs.isDirectory place = true := by
  rw [isDirectory_eq_true_iff, find?, if_pos (List.isPrefixOf_iff_prefix.mpr h)]

/-- A place without a directory is known by its entry. -/
theorem find?_eq_lookup (h : fs.isDirectory place = false) (fs' : FileSystem)
    (hsame : fs'.workingDirectory = fs.workingDirectory) :
    fs'.find? place = fs'.entries.lookup place := by
  have hout : ¬ place.isPrefixOf fs'.workingDirectory := by
    rw [hsame, List.isPrefixOf_iff_prefix]
    intro habove
    rw [isDirectory_of_above habove] at h
    exact absurd h (by simp)
  rw [find?, if_neg hout]

/-- Nothing is found at a place whose entries were left out, and all else is. -/
theorem lookup_filter_ne (place place' : Place) (l : List (Place × Entry)) :
    (l.filter fun e => e.1 ≠ place).lookup place' =
      if place' = place then none else l.lookup place' := by
  induction l with
  | nil => simp
  | cons e l ih =>
    obtain ⟨key, entry⟩ := e
    by_cases hkey : key = place
    · subst hkey
      by_cases hplace : place' = key
      · simpa [hplace] using ih
      · simpa [hplace, List.lookup_cons, beq_eq_false_iff_ne.mpr hplace] using ih
    · by_cases hplace : place' = key
      · simp [hplace, hkey]
      · simpa [hkey, List.lookup_cons, beq_eq_false_iff_ne.mpr hplace] using ih

/-- An entry put where no directory stands is found there, and nowhere else. -/
theorem find?_put (h : fs.isDirectory place = false) (entry : Entry) (place' : Place) :
    (fs.put place entry).find? place' = if place' = place then some entry else fs.find? place' := by
  by_cases hplace : place' = place
  · -- What is above the working directory is found without an entry, but no directory is here.
    subst hplace
    rw [find?_eq_lookup h (fs.put place' entry) rfl, put, List.lookup_append, lookup_filter_ne]
    simp
  · rw [if_neg hplace, find?, find?, put, List.lookup_append, lookup_filter_ne, if_neg hplace]
    simp [List.lookup_cons, beq_eq_false_iff_ne.mpr hplace]

/-- Nothing is found where an entry that is no directory was erased, and all else is. -/
theorem find?_erase (h : fs.isDirectory place = false) (place' : Place) :
    (fs.erase place).find? place' = if place' = place then none else fs.find? place' := by
  by_cases hplace : place' = place
  · subst hplace
    rw [find?_eq_lookup h (fs.erase place') rfl, erase, lookup_filter_ne, if_pos rfl, if_pos rfl]
  · rw [if_neg hplace, find?, find?, erase, lookup_filter_ne, if_neg hplace]

/-! ### File systems that differ in their files -/

/-- Two file systems have the same directories, and relative paths start at the same of them. -/
structure SameDirectories (fs fs' : FileSystem) : Prop where
  workingDirectory_eq : fs'.workingDirectory = fs.workingDirectory
  isDirectory_eq : ∀ place, fs'.isDirectory place = fs.isDirectory place

theorem SameDirectories.refl (fs : FileSystem) : SameDirectories fs fs :=
  ⟨rfl, fun _ => rfl⟩

theorem SameDirectories.trans {fs'' : FileSystem} (h : SameDirectories fs fs')
    (h' : SameDirectories fs' fs'') : SameDirectories fs fs'' :=
  ⟨h'.workingDirectory_eq.trans h.workingDirectory_eq,
    fun place => (h'.isDirectory_eq place).trans (h.isDirectory_eq place)⟩

theorem SameDirectories.symm (h : SameDirectories fs fs') : SameDirectories fs' fs :=
  ⟨h.workingDirectory_eq.symm, fun place => (h.isDirectory_eq place).symm⟩

/-- Paths start at the same place where the directories are the same. -/
theorem SameDirectories.start_eq (h : SameDirectories fs fs') (p : Path) :
    fs'.start p = fs.start p := by
  rw [start, start, h.workingDirectory_eq]

/-- Where one entry changes that is no directory, before and after, the directories stay. -/
theorem sameDirectories_of_find? (hsame : fs'.workingDirectory = fs.workingDirectory)
    (h : fs.isDirectory place = false) (h' : fs'.isDirectory place = false)
    (hother : ∀ place', place' ≠ place → fs'.find? place' = fs.find? place') :
    SameDirectories fs fs' := by
  refine ⟨hsame, fun place' => ?_⟩
  by_cases hplace : place' = place
  · rw [hplace, h, h']
  · rw [isDirectory, isDirectory, hother place' hplace]

/-- A file that is put where no directory stands changes no directory. -/
theorem sameDirectories_put (h : fs.isDirectory place = false) (content : ByteArray) :
    SameDirectories fs (fs.put place (.file content)) := by
  refine sameDirectories_of_find? rfl h ?_ fun place' hplace => ?_
  · rw [isDirectory, find?_put h, if_pos rfl]
  · rw [find?_put h, if_neg hplace]

theorem sameDirectories_erase (h : fs.isDirectory place = false) :
    SameDirectories fs (fs.erase place) := by
  refine sameDirectories_of_find? rfl h ?_ fun place' hplace => ?_
  · rw [isDirectory, find?_erase h, if_pos rfl]
  · rw [find?_erase h, if_neg hplace]

/-! ### Pieces and names -/

/-- A piece of a path that may be used is a name, if it is no dot name and not too long. -/
theorem isName_of_mem_pieces {name : String} (hrefusal : refusal? p = none) (hmem : name ∈ p.pieces)
    (hname : (name ≠ "" ∧ name ≠ "." ∧ name ≠ "..") ∧ name.utf8ByteSize ≤ nameLimit) :
    IsName name := by
  obtain ⟨cs, hcs, rfl⟩ := List.mem_map.mp hmem
  have hnul : '\x00' ∉ p.text.toList := by
    intro hnul
    rw [refusal?, if_pos (by simpa using hnul)] at hrefusal
    exact absurd hrefusal (by simp)
  refine ⟨hname.1, hname.2, ?_, ?_⟩
  · rw [String.toList_ofList]
    exact not_mem_of_mem_splitOn hcs
  · rw [String.toList_ofList]
    exact fun hmem => hnul (subset_of_mem_splitOn hcs hmem)

/-! ### Walks along directories -/

/-- A walk in two parts. -/
theorem walk_append (fs : FileSystem) (place : Place) (xs ys : List String) :
    fs.walk place (xs ++ ys) = (fs.walk place xs).bind fun d => fs.walk d ys := by
  induction xs generalizing place with
  | nil => rfl
  | cons piece xs ih =>
    rw [List.cons_append, walk, walk]
    split
    · rfl
    split
    · exact ih place
    split
    · exact ih (parent place)
    split
    · rfl
    split
    · rfl
    · exact ih _

/-- What a step up and a step to an entry preserve is preserved by a walk. -/
theorem walk_preserves {P : Place → Prop} {pieces : List String}
    (hparent : ∀ {place}, P place → P (parent place))
    (hname : ∀ {place name entry}, fs.isDirectory place = true → name ∈ pieces →
      (name ≠ "" ∧ name ≠ "." ∧ name ≠ "..") ∧ name.utf8ByteSize ≤ nameLimit →
        fs.find? (place ++ [name]) = some entry → P place → P (place ++ [name]))
    (h : P place) (hw : fs.walk place pieces = .ok directory) : P directory := by
  induction pieces generalizing place with
  | nil =>
    obtain rfl : place = directory := by simpa [walk] using hw
    exact h
  | cons piece pieces ih =>
    have hrest : ∀ {next}, P next → fs.walk next pieces = .ok directory → P directory :=
      ih fun hdir hmem => hname hdir (List.mem_cons_of_mem piece hmem)
    rw [walk] at hw
    split at hw
    · exact absurd hw (by simp)
    case isFalse hdir =>
      split at hw
      · exact hrest h hw
      case isFalse hdot =>
        split at hw
        · exact hrest (hparent h) hw
        case isFalse hdots =>
          split at hw
          · exact absurd hw (by simp)
          case isFalse hlong =>
            split at hw
            · exact absurd hw (by simp)
            case h_2 hnext =>
              obtain ⟨hempty, hdot⟩ := not_or.mp hdot
              exact hrest (hname (by simpa using hdir) List.mem_cons_self
                ⟨⟨hempty, hdot, hdots⟩, Nat.not_lt.mp hlong⟩ hnext h) hw

/-- A walk that ends at a directory starts at one. -/
theorem isDirectory_of_walk {pieces : List String} (hw : fs.walk place pieces = .ok directory)
    (hd : fs.isDirectory directory = true) : fs.isDirectory place = true := by
  cases pieces with
  | nil =>
    obtain rfl : place = directory := by simpa [walk] using hw
    exact hd
  | cons piece pieces =>
    rw [walk] at hw
    split at hw
    · exact absurd hw (by simp)
    case isFalse hplace => simpa using hplace

/-- A walk to a directory depends on directories only. -/
theorem walk_of_sameDirectories (h : SameDirectories fs fs') {pieces : List String}
    (hw : fs.walk place pieces = .ok directory) (hd : fs.isDirectory directory = true) :
    fs'.walk place pieces = .ok directory := by
  induction pieces generalizing place with
  | nil => exact hw
  | cons piece pieces ih =>
    have hplace := isDirectory_of_walk hw hd
    rw [walk, if_neg (by simp [hplace])] at hw
    rw [walk, if_neg (by simp [h.isDirectory_eq place, hplace])]
    split at hw
    case isTrue hpiece => rw [if_pos hpiece, ih hw]
    case isFalse hpiece =>
      rw [if_neg hpiece]
      split at hw
      case isTrue hparent => rw [if_pos hparent, ih hw]
      case isFalse hparent =>
        rw [if_neg hparent]
        split at hw
        · exact absurd hw (by simp)
        case isFalse hlong =>
          rw [if_neg hlong]
          split at hw
          · exact absurd hw (by simp)
          · -- The entry on the way is a directory here, and so it is there.
            have hnext := isDirectory_of_walk hw hd
            rw [← h.isDirectory_eq, isDirectory_eq_true_iff] at hnext
            rw [hnext]
            exact ih hw

/-! ### Paths that lead to a place for a file -/

/-- A name leads to a place in a directory if it is short enough and no directory is there. -/
theorem targetIn_eq_ok_iff {name : String} :
    fs.targetIn directory name = .ok place ↔
      name.utf8ByteSize ≤ nameLimit ∧ directory ++ [name] = place ∧
        fs.isDirectory place = false := by
  unfold targetIn
  by_cases hlong : nameLimit < name.utf8ByteSize
  · simp [hlong, Nat.not_le.mpr hlong]
  · rw [if_neg hlong]
    have hshort : name.utf8ByteSize ≤ nameLimit := Nat.not_lt.mp hlong
    split
    case h_1 hfound =>
      have hdir : fs.isDirectory (directory ++ [name]) = true := isDirectory_eq_true_iff.mpr hfound
      simp only [reduceCtorEq, false_iff, not_and]
      rintro - rfl
      simp [hdir]
    case h_2 hfound =>
      have hdir : fs.isDirectory (directory ++ [name]) = false := by
        rw [Bool.eq_false_iff, ne_eq, isDirectory_eq_true_iff]
        exact hfound
      simp only [Except.ok.injEq, hshort, true_and]
      constructor
      · rintro rfl
        exact ⟨rfl, hdir⟩
      · exact And.left

/-- What is there when a path leads to a place for a file. -/
theorem exists_of_target (ht : fs.target p = .ok place) :
    refusal? p = none ∧ ∃ directory names name, names ++ [name] = p.pieces ∧
      directory ++ [name] = place ∧ (name ≠ "" ∧ name ≠ "." ∧ name ≠ "..") ∧
        name.utf8ByteSize ≤ nameLimit ∧ fs.walk (fs.start p) names = .ok directory ∧
          fs.isDirectory directory = true ∧ fs.isDirectory place = false := by
  unfold target at ht
  split at ht
  · exact absurd ht (by simp)
  case h_2 hrefusal =>
    refine ⟨hrefusal, ?_⟩
    dsimp only at ht
    split at ht
    · exact absurd ht (by simp)
    case h_2 last hlast =>
      cases hw : fs.walk (fs.start p) (dropTrailing (· = "") p.pieces).dropLast with
      | error e =>
        rw [hw] at ht
        exact absurd ht (by simp [bind, Except.bind])
      | ok directory =>
        rw [hw] at ht
        replace ht : (if !fs.isDirectory directory then .error .notADirectory
          else if dropTrailing (· = "") p.pieces ≠ p.pieces ∨ last = "." ∨ last = ".." then
            .error .isADirectory
          else fs.targetIn directory last) = Except.ok place := ht
        split at ht
        · exact absurd ht (by simp)
        case isFalse hdir =>
          split at ht
          · exact absurd ht (by simp)
          case isFalse hlook =>
            obtain ⟨hwhole, hdot, hdots⟩ : dropTrailing (· = "") p.pieces = p.pieces ∧
                last ≠ "." ∧ last ≠ ".." := by
              simpa [not_or] using hlook
            obtain ⟨hshort, hplace, hnodir⟩ := targetIn_eq_ok_iff.mp ht
            rw [hwhole] at hlast hw
            obtain ⟨names, hnames⟩ := List.getLast?_eq_some_iff.mp hlast
            have hempty : last ≠ "" := by
              have hkept := List.rdropWhile_eq_self_iff.mp hwhole (by simp [hnames])
              simpa [hnames] using hkept
            exact ⟨directory, p.pieces.dropLast, last, by simp [hnames], hplace,
              ⟨hempty, hdot, hdots⟩, hshort, hw, by simpa using hdir, hnodir⟩

/-- A path leads to a place for a file when its last piece is a name and the pieces before it lead
    to a directory that has no directory of that name. -/
theorem target_eq_ok_iff :
    fs.target p = .ok place ↔
      refusal? p = none ∧ ∃ directory names name, names ++ [name] = p.pieces ∧
        directory ++ [name] = place ∧ (name ≠ "" ∧ name ≠ "." ∧ name ≠ "..") ∧
          name.utf8ByteSize ≤ nameLimit ∧ fs.walk (fs.start p) names = .ok directory ∧
            fs.isDirectory directory = true ∧ fs.isDirectory place = false := by
  refine ⟨exists_of_target, ?_⟩
  rintro ⟨hrefusal, directory, names, name, hpieces, hplace, ⟨hempty, hdot, hdots⟩, hshort, hw,
    hdir, hnodir⟩
  have hwhole : dropTrailing (· = "") (names ++ [name]) = names ++ [name] := by
    rw [dropTrailing_append_cons (by simpa using hempty)]
    rfl
  have hin := targetIn_eq_ok_iff.mpr ⟨hshort, hplace, hnodir⟩
  simp [target, hrefusal, ← hpieces, hwhole, hw, hdir, hdot, hdots, bind, Except.bind, hin]

/-- Where a path leads depends on directories only. -/
theorem target_of_sameDirectories (h : SameDirectories fs fs') (ht : fs.target p = .ok place) :
    fs'.target p = .ok place := by
  obtain ⟨hrefusal, directory, names, name, hpieces, hplace, hname, hshort, hw, hdir, hnodir⟩ :=
    target_eq_ok_iff.mp ht
  refine target_eq_ok_iff.mpr ⟨hrefusal, directory, names, name, hpieces, hplace, hname, hshort,
    ?_, (h.isDirectory_eq directory).trans hdir, (h.isDirectory_eq place).trans hnodir⟩
  rw [h.start_eq]
  exact walk_of_sameDirectories h hw hdir

/-- No directory stands at a place for a file. -/
theorem isDirectory_of_target (ht : fs.target p = .ok place) : fs.isDirectory place = false := by
  obtain ⟨-, -, -, -, -, -, -, -, -, -, hnodir⟩ := target_eq_ok_iff.mp ht
  exact hnodir

/-- A path that leads to a place for a file finds what stands there. -/
theorem resolve_of_target (ht : fs.target p = .ok place) :
    fs.resolve p = if (fs.find? place).isSome then .ok place else .error .notFound := by
  obtain ⟨hrefusal, directory, names, name, hpieces, rfl, ⟨hempty, hdot, hdots⟩, hshort, hw, hdir,
    -⟩ := target_eq_ok_iff.mp ht
  have hlast : fs.walk directory [name] =
      if (fs.find? (directory ++ [name])).isSome then .ok (directory ++ [name])
      else .error .notFound := by
    rw [walk, if_neg (by simp [hdir]), if_neg (by simp [hempty, hdot]), if_neg hdots,
      if_neg (Nat.not_lt.mpr hshort)]
    cases fs.find? (directory ++ [name]) <;> rfl
  rw [resolve, hrefusal, ← hpieces, walk_append, hw]
  exact hlast

/-- What is read from a path is what stands at its place. -/
theorem read_of_target (ht : fs.target p = .ok place) :
    fs.read p =
      match fs.find? place with
      | some (.file content) => .ok content
      | _ => .error .notFound := by
  have hnodir := isDirectory_of_target ht
  rw [read, resolve_of_target ht]
  rcases hfound : fs.find? place with _ | _ | content
  · rfl
  · rw [isDirectory_eq_true_iff.mpr hfound] at hnodir
    exact absurd hnodir (by simp)
  · simp [hfound]

/-! ### Files that can be read -/

/-- All directories above a place are there. -/
def Grounded (fs : FileSystem) (place : Place) : Prop :=
  ∀ directory, directory <+: place → directory ≠ place → fs.isDirectory directory = true

/-- The working directory is well founded, and so is what is above it. -/
theorem grounded_of_above (h : place <+: fs.workingDirectory) : fs.Grounded place :=
  fun _ hdirectory _ => isDirectory_of_above (hdirectory.trans h)

/-- A path starts at the root or at the working directory. -/
theorem start_isPrefix (fs : FileSystem) (p : Path) : fs.start p <+: fs.workingDirectory := by
  unfold start
  split
  · exact List.nil_prefix
  · exact List.prefix_rfl

/-- What holds a well-founded place is well founded. -/
theorem Grounded.parent (h : fs.Grounded place) : fs.Grounded (parent place) := by
  intro directory habove hne
  refine h directory (habove.trans (List.dropLast_prefix place)) ?_
  rintro rfl
  exact hne (habove.eq_of_length_le (List.dropLast_prefix directory).length_le)

/-- The place that holds an entry is a directory. -/
theorem Grounded.isDirectory_parent (h : fs.Grounded place) :
    fs.isDirectory (FileSystem.parent place) = true := by
  rcases List.eq_nil_or_concat place with rfl | ⟨directory, name, rfl⟩
  · exact isDirectory_of_above List.nil_prefix
  · exact h _ (List.dropLast_prefix _) (by simp [FileSystem.parent])

/-- What stands in a directory is as well founded as the directory. -/
theorem Grounded.append {name : String} (h : fs.Grounded place)
    (hdir : fs.isDirectory place = true) : fs.Grounded (place ++ [name]) := by
  intro directory habove hne
  rcases List.prefix_concat_iff.mp habove with heq | habove
  · exact absurd heq hne
  · by_cases hplace : directory = place
    · rw [hplace, hdir]
    · exact h directory habove hplace

theorem Grounded.walk {pieces : List String} (h : fs.Grounded place)
    (hw : fs.walk place pieces = .ok directory) : fs.Grounded directory :=
  walk_preserves (fun hplace => hplace.parent)
    (fun hdir _ _ _ hplace => hplace.append hdir) h hw

/-- A content is read from the file to which the path leads. -/
theorem read_eq_ok_iff :
    fs.read p = .ok content ↔
      ∃ place, fs.resolve p = .ok place ∧ fs.find? place = some (.file content) := by
  unfold read
  cases fs.resolve p with
  | error e => simp
  | ok place => rcases hfound : fs.find? place with _ | _ | found <;> simp [hfound]

theorem contains_of_read (h : fs.read p = .ok content) : fs.contains p = true := by
  obtain ⟨place, hresolve, -⟩ := read_eq_ok_iff.mp h
  rw [contains, hresolve]
  rfl

/-- A last step to a place that is no directory is a step into a directory, by a name. -/
theorem walk_singleton_eq_ok {name : String} (hgrounded : fs.Grounded directory)
    (hw : fs.walk directory [name] = .ok place) (hnodir : fs.isDirectory place = false) :
    fs.isDirectory directory = true ∧ directory ++ [name] = place ∧
      (name ≠ "" ∧ name ≠ "." ∧ name ≠ "..") ∧ name.utf8ByteSize ≤ nameLimit := by
  rw [walk] at hw
  split at hw
  · exact absurd hw (by simp)
  case isFalse hdir =>
    have hdir : fs.isDirectory directory = true := by simpa using hdir
    -- A step that stays, or goes up, ends at a directory, so it is neither.
    split at hw
    · obtain rfl : directory = place := by simpa [walk] using hw
      exact absurd (hdir.symm.trans hnodir) (by simp)
    case isFalse hdot =>
      split at hw
      · obtain rfl : parent directory = place := by simpa [walk] using hw
        exact absurd (hgrounded.isDirectory_parent.symm.trans hnodir) (by simp)
      case isFalse hdots =>
        split at hw
        · exact absurd hw (by simp)
        case isFalse hlong =>
          split at hw
          · exact absurd hw (by simp)
          · obtain rfl : directory ++ [name] = place := by simpa [walk] using hw
            obtain ⟨hempty, hdot⟩ := not_or.mp hdot
            exact ⟨hdir, rfl, ⟨hempty, hdot, hdots⟩, Nat.not_lt.mp hlong⟩

/-- A file that can be read stands at the place to which its path leads. -/
theorem exists_target_of_read (h : fs.read p = .ok content) :
    ∃ place, fs.target p = .ok place ∧ fs.find? place = some (.file content) := by
  obtain ⟨place, hresolve, hfound⟩ := read_eq_ok_iff.mp h
  have hnodir : fs.isDirectory place = false := by rw [isDirectory, hfound]
  refine ⟨place, target_eq_ok_iff.mpr ?_, hfound⟩
  unfold resolve at hresolve
  split at hresolve
  · exact absurd hresolve (by simp)
  case h_2 hrefusal =>
    obtain ⟨names, name, hpieces⟩ : ∃ names name, p.pieces = names ++ [name] := by
      have hne : p.pieces ≠ [] := by simp [Path.pieces, List.splitOn_ne_nil]
      exact ⟨_, _, (List.dropLast_concat_getLast hne).symm⟩
    rw [hpieces, walk_append] at hresolve
    cases hw : fs.walk (fs.start p) names with
    | error e =>
      rw [hw] at hresolve
      exact absurd hresolve (by simp [Except.bind])
    | ok directory =>
      rw [hw] at hresolve
      have hgrounded := (grounded_of_above (fs.start_isPrefix p)).walk hw
      obtain ⟨hdir, hplace, hname, hshort⟩ := walk_singleton_eq_ok hgrounded hresolve hnodir
      exact ⟨hrefusal, directory, names, name, hpieces.symm, hplace, hname, hshort, hw, hdir,
        hnodir⟩

/-! ### Paths from the root -/

/-- The pieces of the path to a place are the names that lead there, behind the leading slash. -/
theorem pieces_pathTo {name : String} (h : ∀ n ∈ directory ++ [name], IsName n) :
    (pathTo (directory ++ [name])).pieces = "" :: (directory ++ [name]) := by
  have hslash : ∀ cs ∈ (directory ++ [name]).map String.toList, '/' ∉ cs := by
    rw [List.forall_mem_map]
    exact fun n hn => (h n hn).2.2.1
  have hsplit : (String.intercalate "/" (directory ++ [name])).toList.splitOn '/' =
      (directory ++ [name]).map String.toList := by
    rw [String.toList_intercalate]
    exact List.splitOn_intercalate '/' hslash (by simp)
  have htext : ("/" ++ String.intercalate "/" (directory ++ [name])).toList =
      '/' :: (String.intercalate "/" (directory ++ [name])).toList := by
    rw [String.toList_append]
    rfl
  rw [Path.pieces, pathTo, htext, List.splitOn_cons_eq_if_modifyHead, if_pos (by simp), hsplit,
    List.map_cons, List.map_map]
  simp [Function.comp_def]

/-- The path to a place starts at the root. -/
theorem start_pathTo (fs : FileSystem) (place : Place) : fs.start (pathTo place) = [] := by
  rw [start, pathTo, String.toList_append]
  rfl

/-- The names on the way to a place are names, also when the way goes up and down. -/
theorem isName_of_walk_start {names : List String} (hrefusal : refusal? p = none)
    (hnames : names ⊆ p.pieces) (hw : fs.walk (fs.start p) names = .ok directory) :
    ∀ name ∈ directory, IsName name := by
  have hstart : ∀ name ∈ fs.start p, IsName name :=
    fun name hname => fs.isName_of_mem name ((fs.start_isPrefix p).subset hname)
  refine walk_preserves (P := fun place => ∀ name ∈ place, IsName name)
    (fun h name hname => h name (List.dropLast_subset _ hname)) ?_ hstart hw
  intro place name entry _ hmem hname _ h
  rw [List.forall_mem_append, List.forall_mem_singleton]
  exact ⟨h, isName_of_mem_pieces hrefusal (hnames hmem) hname⟩

/-- The names that lead to a place are a way to it. -/
theorem walk_root (hgrounded : fs.Grounded directory) (hnames : ∀ name ∈ directory, IsName name)
    (hdir : fs.isDirectory directory = true) : fs.walk [] directory = .ok directory := by
  -- The induction is on the names still to go, so the walk starts anywhere on the way.
  suffices h : ∀ before rest, before ++ rest = directory → fs.walk before rest = .ok directory from
    h [] directory rfl
  intro before rest hcut
  induction rest generalizing before with
  | nil => rw [walk, ← hcut, List.append_nil]
  | cons name rest ih =>
    have hdirs : ∀ place, place <+: directory → fs.isDirectory place = true := by
      intro place hplace
      by_cases hend : place = directory
      · rw [hend, hdir]
      · exact hgrounded place hplace hend
    obtain ⟨⟨hempty, hdot, hdots⟩, hshort, -⟩ := hnames name (by simp [← hcut])
    have hcut' : before ++ [name] ++ rest = directory := by simp [← hcut]
    have hnext := isDirectory_eq_true_iff.mp (hdirs _ ⟨rest, hcut'⟩)
    rw [walk, hdirs before ⟨name :: rest, hcut⟩, if_neg (by simp), if_neg (by simp [hempty, hdot]),
      if_neg hdots, if_neg (Nat.not_lt.mpr hshort), hnext]
    exact ih _ hcut'

/-- The path to a place leads there, unless it is too long. -/
theorem target_pathTo (ht : fs.target p = .ok place) (hrefusal : refusal? (pathTo place) = none) :
    fs.target (pathTo place) = .ok place := by
  obtain ⟨hrefusal', directory, names, name, hpieces, rfl, hname, hshort, hw, hdir, hnodir⟩ :=
    target_eq_ok_iff.mp ht
  have hnames : ∀ n ∈ directory ++ [name], IsName n := by
    rw [List.forall_mem_append, List.forall_mem_singleton]
    refine ⟨isName_of_walk_start hrefusal' ?_ hw,
      isName_of_mem_pieces hrefusal' (by simp [← hpieces]) ⟨hname, hshort⟩⟩
    simp [← hpieces]
  have hgrounded := (grounded_of_above (fs.start_isPrefix p)).walk hw
  refine target_eq_ok_iff.mpr ⟨hrefusal, directory, "" :: directory, name,
    (pieces_pathTo hnames).symm, rfl, hname, hshort, ?_, hdir, hnodir⟩
  rw [start_pathTo, walk, isDirectory_of_above List.nil_prefix, if_neg (by simp), if_pos (.inl rfl)]
  exact walk_root hgrounded (fun n hn => hnames n (by simp [hn])) hdir

/-- The path from the root to the file of a path leads to the same place. -/
theorem target_of_canonicalize (ht : fs.target p = .ok place) (hq : fs.canonicalize p = .ok q) :
    q = pathTo place ∧ fs.target q = .ok place := by
  unfold canonicalize at hq
  rw [resolve_of_target ht] at hq
  split at hq
  · exact absurd hq (by simp)
  case h_2 place' hplace =>
    split at hplace
    case isFalse => exact absurd hplace (by simp)
    case isTrue =>
      obtain rfl : place = place' := by simpa using hplace
      split at hq
      · exact absurd hq (by simp)
      case h_2 hrefusal =>
        obtain rfl : pathTo place = q := by simpa using hq
        exact ⟨rfl, target_pathTo ht hrefusal⟩

/-! ### Changes of files -/

/-- A write to a path changes no directory. -/
theorem sameDirectories_overwrite (fs : FileSystem) (p : Path) (content : ByteArray) :
    SameDirectories fs (fs.overwrite p content) := by
  rw [overwrite, write]
  cases ht : fs.target p with
  | error e => exact .refl fs
  | ok place => exact sameDirectories_put (isDirectory_of_target ht) content

/-- A write to a path puts the content at its place. -/
theorem overwrite_of_target (ht : fs.target p = .ok place) (content : ByteArray) :
    fs.overwrite p content = fs.put place (.file content) := by
  rw [overwrite, write, ht]
  rfl

/-- What was written is read from every path to the place. -/
theorem read_overwrite (ht : fs.target p = .ok place) (hq : fs.target q = .ok place)
    (content : ByteArray) : (fs.overwrite p content).read q = .ok content := by
  have hq' := target_of_sameDirectories (sameDirectories_overwrite fs p content) hq
  rw [read_of_target hq', overwrite_of_target ht, find?_put (isDirectory_of_target ht), if_pos rfl]

/-- A write to another file changes nothing in a file. -/
theorem read_overwrite_of_ne (ht : fs.target p = .ok place) (hq : fs.target q ≠ .ok place)
    (content : ByteArray) : (fs.overwrite q content).read p = fs.read p := by
  have ht' := target_of_sameDirectories (sameDirectories_overwrite fs q content) ht
  rw [read_of_target ht', read_of_target ht, overwrite, write]
  cases hother : fs.target q with
  | error e => rfl
  | ok other =>
    have hne : place ≠ other := fun heq => hq (heq ▸ hother)
    show (match (fs.put other (.file content)).find? place with
      | some (.file content) => Except.ok content
      | _ => Except.error FileError.notFound) = _
    rw [find?_put (isDirectory_of_target hother), if_neg hne]

/-- One file is written: the path leads to a place that holds the content now, and all other places
    are as they were. -/
structure Rewritten (fs fs' : FileSystem) (p : Path) (content : ByteArray) (place : Place) :
    Prop where
  workingDirectory_eq : fs'.workingDirectory = fs.workingDirectory
  target_eq : fs.target p = .ok place
  read_eq : fs'.read p = .ok content
  find?_eq : ∀ other,
    fs'.find? other = if other = place then some (.file content) else fs.find? other

/-- A write that is not refused writes one file. -/
theorem rewritten_of_write (h : fs.write p content = .ok fs') :
    ∃ place, Rewritten fs fs' p content place := by
  have hwritten : fs.overwrite p content = fs' := by rw [overwrite, h]
  rw [write] at h
  cases ht : fs.target p with
  | error e =>
    rw [ht] at h
    exact absurd h (by simp [Except.map])
  | ok place =>
    have hsame := sameDirectories_overwrite fs p content
    rw [hwritten] at hsame
    refine ⟨place, hsame.workingDirectory_eq, ht, hwritten ▸ read_overwrite ht ht content,
      fun other => ?_⟩
    rw [← hwritten, overwrite_of_target ht, find?_put (isDirectory_of_target ht)]

/-- A write changes no directory. -/
theorem Rewritten.sameDirectories (h : Rewritten fs fs' p content place) :
    SameDirectories fs fs' := by
  refine sameDirectories_of_find? h.workingDirectory_eq (isDirectory_of_target h.target_eq) ?_
    fun other hother => ?_
  · rw [isDirectory, h.find?_eq, if_pos rfl]
  · rw [h.find?_eq, if_neg hother]

/-- What is read from another file stays. -/
theorem Rewritten.read_of_ne {found : ByteArray} (h : Rewritten fs fs' p content place)
    (hread : fs.read q = .ok found) (hq : fs.target q ≠ .ok place) : fs'.read q = .ok found := by
  obtain ⟨other, ht, hfound⟩ := exists_target_of_read hread
  have hne : other ≠ place := fun heq => hq (heq ▸ ht)
  have ht' := target_of_sameDirectories h.sameDirectories ht
  rw [read_of_target ht', h.find?_eq, if_neg hne, hfound]

/-- A removal erases the file at the place of its path, if there is one. -/
theorem remove_of_target (ht : fs.target p = .ok place) :
    fs.remove p = if (fs.find? place).isSome then fs.erase place else fs := by
  have hnodir := isDirectory_of_target ht
  rw [remove, resolve_of_target ht]
  rcases hfound : fs.find? place with _ | _ | content
  · rfl
  · rw [isDirectory_eq_true_iff.mpr hfound] at hnodir
    exact absurd hnodir (by simp)
  · simp [hfound]

/-- The removal of a file changes no directory. -/
theorem sameDirectories_remove (ht : fs.target p = .ok place) :
    SameDirectories fs (fs.remove p) := by
  rw [remove_of_target ht]
  split
  · exact sameDirectories_erase (isDirectory_of_target ht)
  · exact .refl fs

/-- What was removed cannot be read from any path to the place. -/
theorem read_remove (ht : fs.target p = .ok place) (hq : fs.target q = .ok place) :
    (fs.remove p).read q = .error .notFound := by
  have hq' := target_of_sameDirectories (sameDirectories_remove ht) hq
  have hnone : (fs.remove p).find? place = none := by
    rw [remove_of_target ht]
    split
    · rw [find?_erase (isDirectory_of_target ht), if_pos rfl]
    case isFalse hfound => simpa using hfound
  rw [read_of_target hq', hnone]

end FileSystem

end Flashcards
