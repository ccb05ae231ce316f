import Flashcards.Path
import Mathlib.Data.List.Basic

namespace Flashcards

/-!
# Extensions of paths

The extension of a path is looked for among its parts, where slashes and dots at the end do not
count, while `.txt` is put behind the text of a path as it stands.

* `Path.HasExtension` — what an extension is, in terms of the texts between the slashes.
* `Path.extension?_eq_some_iff` — that is what is found.
* `Path.exists_pieces_append` — a text without slashes that is put behind a path goes on with its
  last piece.
* `Path.withTxt_withTxt_iff` — `.txt` is not put behind a path twice, unless that path is empty or
  ends in a slash.
-/

/-- An element of a list stands in it for a last time. -/
theorem exists_last_of_mem {α : Type} {a : α} {l : List α} (h : a ∈ l) :
    ∃ before behind, l = before ++ a :: behind ∧ a ∉ behind := by
  obtain ⟨xs, ys, hcut, hxs⟩ := List.eq_append_cons_of_mem (List.mem_reverse.mpr h)
  refine ⟨ys.reverse, xs.reverse, ?_, by simpa using hxs⟩
  rw [← List.reverse_reverse l, hcut]
  simp

namespace Path

variable {p : Path} {name piece e : String}

/-! ### The extension of a name -/

/-- A name is not cut just if it has no dot. -/
theorem splitLastDot?_eq_none_iff {cs : List Char} : splitLastDot? cs = none ↔ '.' ∉ cs := by
  induction cs with
  | nil => simp [splitLastDot?]
  | cons c cs ih =>
    rw [splitLastDot?, List.mem_cons, not_or, ← ih]
    cases splitLastDot? cs with
    | none => by_cases hc : c = '.' <;> simp [hc, Ne.symm]
    | some cut => simp

/-- A name is cut at its last dot. -/
theorem splitLastDot?_append {behind : List Char} (h : '.' ∉ behind) (before : List Char) :
    splitLastDot? (before ++ '.' :: behind) = some (before, behind) := by
  induction before with
  | nil => simp [splitLastDot?, splitLastDot?_eq_none_iff.mpr h]
  | cons c before ih => rw [List.cons_append, splitLastDot?, ih]

/-- A name is cut at the dot that has no other one behind it. -/
theorem splitLastDot?_eq_some_iff {cs before behind : List Char} :
    splitLastDot? cs = some (before, behind) ↔ cs = before ++ '.' :: behind ∧ '.' ∉ behind := by
  constructor
  · intro h
    have hmem : '.' ∈ cs := by
      by_contra hnone
      rw [splitLastDot?_eq_none_iff.mpr hnone] at h
      exact absurd h (by simp)
    obtain ⟨xs, ys, rfl, hys⟩ := exists_last_of_mem hmem
    rw [splitLastDot?_append hys] at h
    obtain ⟨rfl, rfl⟩ : xs = before ∧ ys = behind := by simpa using h
    exact ⟨rfl, hys⟩
  · rintro ⟨rfl, h⟩
    exact splitLastDot?_append h before

/-- An extension stands behind the last dot, with something before that dot. -/
theorem extensionOfName?_eq_some_iff :
    extensionOfName? name = some e ↔
      ∃ stem, name = stem ++ "." ++ e ∧ stem ≠ "" ∧ '.' ∉ e.toList := by
  have hcut : extensionOfName? name = some e ↔
      ∃ before, before ≠ [] ∧ splitLastDot? name.toList = some (before, e.toList) := by
    rw [extensionOfName?]
    rcases splitLastDot? name.toList with _ | ⟨_ | ⟨c, before⟩, behind⟩
    · simp
    · simp
    · simp [← String.toList_inj]
  rw [hcut]
  constructor
  · rintro ⟨before, hne, h⟩
    obtain ⟨htext, hdot⟩ := splitLastDot?_eq_some_iff.mp h
    exact ⟨String.ofList before, by simp [← String.toList_inj, htext], by simpa using hne, hdot⟩
  · rintro ⟨stem, rfl, hne, hdot⟩
    exact ⟨stem.toList, by simpa using hne, splitLastDot?_eq_some_iff.mpr (by simp [hdot])⟩

/-! ### The extension of a path -/

/-- A text between slashes that is a name. -/
def IsName (piece : String) : Prop :=
  piece ≠ "" ∧ piece ≠ "." ∧ piece ≠ ".."

/-- A piece stands for a name just if it is one. -/
theorem Component.ofPiece?_eq_name_iff :
    Component.ofPiece? piece = some (.name name) ↔ piece = name ∧ IsName name := by
  unfold Component.ofPiece? IsName
  split
  case isTrue h => grind
  case isFalse h =>
    split
    case isTrue hparent => grind
    case isFalse hparent => grind

/-- A piece stands for nothing just if it is empty or a dot. -/
theorem Component.ofPiece?_eq_none_iff :
    Component.ofPiece? piece = none ↔ piece = "" ∨ piece = "." := by
  unfold Component.ofPiece?
  split
  case isTrue h => simp [h]
  case isFalse h => split <;> simp [h]

/-- The last part of a path is a name just when its last piece that means anything is one. -/
theorem getLast?_components_eq_name_iff :
    p.components.getLast? = some (.name name) ↔
      ∃ before behind, p.pieces = before ++ name :: behind ∧ IsName name ∧
        ∀ piece ∈ behind, piece = "" ∨ piece = "." := by
  have hlast : p.components.getLast? = some (.name name) ↔
      (p.pieces.filterMap Component.ofPiece?).getLast? = some (.name name) := by
    rw [components]
    rcases p.pieces with _ | ⟨first, rest⟩
    · rfl
    have hcons : (first :: rest).filterMap Component.ofPiece? =
        (Component.ofPiece? first).toList ++ rest.filterMap Component.ofPiece? := by
      cases h : Component.ofPiece? first <;> simp [h]
    rw [hcons]
    dsimp only
    rw [List.getLast?_append, List.getLast?_append]
    cases (rest.filterMap Component.ofPiece?).getLast? with
    | some last => rfl
    | none =>
      -- A first piece that is empty or a dot may stand for a part, which is not a name.
      rw [Option.none_or, Option.none_or]
      split
      case isTrue hempty => cases hrest : rest.isEmpty <;> simp [hempty, Component.ofPiece?]
      case isFalse hempty =>
        split
        case isTrue hdot => simp [hdot, Component.ofPiece?]
        case isFalse => rfl
  rw [hlast, List.getLast?_filterMap, List.findSome?_eq_some_iff]
  simp only [Component.ofPiece?_eq_name_iff, Component.ofPiece?_eq_none_iff]
  constructor
  · rintro ⟨behind, piece, before, hcut, ⟨rfl, hname⟩, hbehind⟩
    refine ⟨before.reverse, behind.reverse, ?_, hname, by simpa using hbehind⟩
    rw [← List.reverse_reverse p.pieces, hcut]
    simp
  · rintro ⟨before, behind, hcut, hname, hbehind⟩
    refine ⟨behind.reverse, name, before.reverse, ?_, ⟨rfl, hname⟩, by simpa using hbehind⟩
    rw [hcut]
    simp

/-- The last name of a path is its last part, if that is a name. -/
theorem fileName?_eq_some_iff :
    p.fileName? = some name ↔ p.components.getLast? = some (.name name) := by
  rw [fileName?]
  split
  case h_1 text h => simp [h]
  case h_2 h =>
    simp only [reduceCtorEq, false_iff]
    exact h name

/-- The last name of a path is a text that is not empty, a dot and an extension without dots.
    Behind the name stand only pieces that mean nothing. -/
def HasExtension (p : Path) (e : String) : Prop :=
  ∃ before stem behind, p.pieces = before ++ (stem ++ "." ++ e) :: behind ∧ stem ≠ "" ∧
    '.' ∉ e.toList ∧ stem ++ "." ++ e ≠ ".." ∧ ∀ piece ∈ behind, piece = "" ∨ piece = "."

theorem length_extended (stem e : String) :
    (stem ++ "." ++ e).length = stem.length + 1 + e.length := by
  rw [String.length_append, String.length_append]
  rfl

/-- The extension that is found is the one that there is. -/
theorem extension?_eq_some_iff : p.extension? = some e ↔ p.HasExtension e := by
  rw [extension?, Option.bind_eq_some_iff]
  simp only [fileName?_eq_some_iff, getLast?_components_eq_name_iff, extensionOfName?_eq_some_iff]
  constructor
  · rintro ⟨_, ⟨before, behind, hcut, hname, hbehind⟩, stem, rfl, hstem, he⟩
    exact ⟨before, stem, behind, hcut, hstem, he, hname.2.2, hbehind⟩
  · rintro ⟨before, stem, behind, hcut, hstem, he, hparent, hbehind⟩
    have hdot : stem ++ "." ++ e ≠ "." := by
      intro hdot
      have hlength : stem.length + 1 + e.length = 1 :=
        (length_extended stem e).symm.trans (congrArg String.length hdot)
      exact hstem (String.length_eq_zero_iff.mp (by omega))
    have hname : IsName (stem ++ "." ++ e) := ⟨by simp, hdot, hparent⟩
    exact ⟨_, ⟨before, behind, hcut, hname, hbehind⟩, stem, rfl, hstem, he⟩

/-! ### What is put behind a path -/

/-- A text without slashes that is put behind a path goes on with its last piece.  That piece is
    empty when the path is, and when it ends in a slash. -/
theorem exists_pieces_append (p : Path) :
    ∃ before last, (last = "" ↔ p.text = "" ∨ p.text.toList.getLast? = some '/') ∧
      ∀ suffix, '/' ∉ suffix.toList →
        (⟨p.text ++ suffix⟩ : Path).pieces = before ++ [last ++ suffix] := by
  by_cases hslash : '/' ∈ p.text.toList
  · obtain ⟨front, last, htext, hlast⟩ := exists_last_of_mem hslash
    refine ⟨(front.splitOn '/').map String.ofList, String.ofList last, ?_, ?_⟩
    · have hends : p.text.toList.getLast? = some '/' ↔ last = [] := by
        rw [htext, List.getLast?_append, List.getLast?_cons]
        rcases List.eq_nil_or_concat last with rfl | ⟨cs, c, rfl⟩
        · simp
        · have hc : c ≠ '/' := by
            rintro rfl
            exact hlast (by simp)
          simp [hc]
      have hne : p.text ≠ "" := by
        rintro hempty
        simp [hempty] at hslash
      simp [hends, hne]
    · intro suffix hsuffix
      have hmem : '/' ∉ last ++ suffix.toList := by simp [hlast, hsuffix]
      rw [pieces, String.toList_append, htext, List.append_assoc, List.cons_append,
        List.splitOn_append_cons_self, List.splitOn_eq_singleton hmem, List.map_append]
      simp
  · refine ⟨[], p.text, ?_, ?_⟩
    · have hends : p.text.toList.getLast? ≠ some '/' :=
        fun hlast => hslash (List.mem_of_getLast? hlast)
      simp [hends]
    · intro suffix hsuffix
      rw [pieces, List.splitOn_eq_singleton (by simp [hslash, hsuffix])]
      simp

/-- `.txt` behind a last piece that is not empty is its extension. -/
theorem hasExtension_append (h : ¬ (p.text = "" ∨ p.text.toList.getLast? = some '/')) :
    (⟨p.text ++ ".txt"⟩ : Path).HasExtension "txt" := by
  obtain ⟨before, last, hempty, happend⟩ := p.exists_pieces_append
  have hpieces := happend ".txt" (by simp)
  refine ⟨before, last, [], ?_, fun hlast => h (hempty.mp hlast), by decide, ?_, by simp⟩
  · rw [hpieces, String.append_assoc]
    rfl
  · intro hparent
    have hlength : last.length + 1 + 3 = 2 :=
      (length_extended last "txt").symm.trans (congrArg String.length hparent)
    omega

/-- `.txt` behind an empty last piece is a name of its own. -/
theorem getLast?_components_append (h : p.text = "" ∨ p.text.toList.getLast? = some '/') :
    (⟨p.text ++ ".txt"⟩ : Path).components.getLast? = some (.name ".txt") := by
  obtain ⟨before, last, hempty, happend⟩ := p.exists_pieces_append
  obtain rfl : last = "" := hempty.mpr h
  rw [getLast?_components_eq_name_iff]
  exact ⟨before, [], by simpa using happend ".txt" (by simp), by simp [IsName], by simp⟩

/-- A name whose only dot is its first character has no extension. -/
theorem not_hasExtension_of_hidden (h : p.components.getLast? = some (.name ".txt"))
    (e : String) : ¬ p.HasExtension e := by
  have hhidden : extensionOfName? ".txt" = none := by decide
  rw [← extension?_eq_some_iff, extension?, fileName?_eq_some_iff.mpr h]
  simp [hhidden]

/-- A path stays as it is just if it has the extension already. -/
theorem withTxt_eq_self_iff : p.withTxt = p ↔ p.HasExtension "txt" := by
  rw [← extension?_eq_some_iff, withTxt]
  split
  case isTrue h => simp [h]
  case isFalse h =>
    simp only [h, iff_false]
    intro heq
    have hlength := congrArg (fun q : Path => q.text.length) heq
    simp at hlength

/-- **`.txt` is put behind a path at most once**, unless the path is empty or ends in a slash.  The
    path that comes of it has the extension `txt`.  What comes of an empty path and of one that ends
    in a slash has no extension: its last name is `.txt`, which is hidden. -/
theorem withTxt_withTxt_iff (p : Path) :
    let marked := p.withTxt
    let once := p.HasExtension "txt" ∨ p.text ≠ "" ∧ p.text.toList.getLast? ≠ some '/'
    (marked.withTxt = marked ↔ once) ∧ (once → marked.HasExtension "txt") ∧
      (¬ once → marked.text = p.text ++ ".txt" ∧
        marked.components.getLast? = some (.name ".txt") ∧ ∀ e, ¬ marked.HasExtension e) := by
  intro marked once
  rw [withTxt_eq_self_iff]
  by_cases htxt : p.HasExtension "txt"
  · have hmarked : marked = p := withTxt_eq_self_iff.mpr htxt
    simp [hmarked, htxt, once]
  · have hmarked : marked = ⟨p.text ++ ".txt"⟩ := by
      rw [← extension?_eq_some_iff] at htxt
      exact if_neg htxt
    by_cases hlast : p.text = "" ∨ p.text.toList.getLast? = some '/'
    · -- The suffix is a name of its own, so the next one is put behind it as well.
      have hname : marked.components.getLast? = some (.name ".txt") := by
        rw [hmarked, getLast?_components_append hlast]
      have hnone := not_hasExtension_of_hidden hname
      have honce : ¬ once := by
        rintro (h | ⟨hne, hslash⟩)
        · exact htxt h
        · exact hlast.elim hne hslash
      exact ⟨iff_of_false (hnone _) honce, fun h => absurd h honce,
        fun _ => ⟨by rw [hmarked], hname, hnone⟩⟩
    · have hextension : marked.HasExtension "txt" := by
        rw [hmarked]
        exact hasExtension_append hlast
      have honce : once := .inr (not_or.mp hlast)
      exact ⟨iff_of_true hextension honce, fun _ => hextension, fun h => absurd honce h⟩

/-- A directory given with its slash gets a hidden name that grows each time.  A dot behind the
    slash is the beginning of a name. -/
theorem withTxt_withTxt_directory :
    (⟨"lists/"⟩ : Path).withTxt.withTxt ≠ (⟨"lists/"⟩ : Path).withTxt ∧
      (⟨"lists/"⟩ : Path).withTxt.components.getLast? = some (.name ".txt") ∧
      (⟨"lists/."⟩ : Path).withTxt.HasExtension "txt" := by
  have hslash : ¬ ((⟨"lists/"⟩ : Path).HasExtension "txt" ∨
      "lists/" ≠ "" ∧ "lists/".toList.getLast? ≠ some '/') := by
    rw [← extension?_eq_some_iff]
    decide
  obtain ⟨honce, -, hhidden⟩ := withTxt_withTxt_iff ⟨"lists/"⟩
  obtain ⟨-, hdot, -⟩ := withTxt_withTxt_iff ⟨"lists/."⟩
  exact ⟨fun h => hslash (honce.mp h), (hhidden hslash).2.1, hdot (.inr (by decide))⟩

end Path

end Flashcards
