import Flashcards.Proofs.Contents
import Flashcards.Proofs.Prefixes

namespace Flashcards.Markup

open Flashcards.Text

/-!
# Documents joined

Two texts with a line end between them are one text, and the second is read when there are groups
already.  So its own groups stand further back than they would, and fewer names are free.

* `Registry.behind` — a registry behind the groups of another one.
* `Registry.Step.behind`, `Registry.readLines_behind` — lines that are accepted at the start are
  accepted behind other groups, and do the same, when they open no group whose name is taken there.
* `Registry.accept_behind_of_taken` — a line that opens a group whose name is taken is refused.
* `Document.ofLines_cutLines` — a joined text has the parts of both texts, and empty parts at the
  end of the first do not matter either.
* `Document.ofText_join` — a joined text is accepted when no name is used twice.
-/

/-! ### A registry behind other groups -/

namespace Registry

/-- The registry `s` with the groups and names of `r` before its own. -/
def behind (r s : Registry) : Registry :=
  ⟨r.groups ++ s.groups, s.places.map (fun e => (e.1, r.groups.size + e.2)) ++ r.places,
    s.current.map (r.groups.size + ·)⟩

variable {r s next : Registry} {n m : Nat} {line name printed : String} {ls texts : List String}

/-- At the start of the second text no group is open. -/
theorem behind_empty (hc : r.current = none) : r.behind empty = r := by
  obtain ⟨groups, places, current⟩ := r
  obtain rfl : current = none := hc
  simp [behind, empty]

/-- A name is found at its place after all places were moved. -/
theorem lookup_map_places (f : Nat → Nat) (places : List (String × Nat)) (name : String) :
    (places.map fun e => (e.1, f e.2)).lookup name = (places.lookup name).map f := by
  induction places with
  | nil => rfl
  | cons e places ih =>
    rw [List.map_cons, List.lookup_cons, List.lookup_cons, ih]
    cases name == e.1 <;> rfl

/-- A name is looked up in the second registry first. -/
theorem lookup_behind (r s : Registry) (name : String) :
    (r.behind s).places.lookup name =
      ((s.places.lookup name).map (r.groups.size + ·)).or (r.places.lookup name) := by
  rw [behind, List.lookup_append, lookup_map_places]

/-- The groups of the second registry stand behind those of the first. -/
theorem getElem?_behind (r s : Registry) (place : Nat) :
    (r.behind s).groups[r.groups.size + place]? = s.groups[place]? := by
  rw [behind, Array.getElem?_append_right (Nat.le_add_right ..), Nat.add_sub_cancel_left]

/-- No group is open behind another registry just if none was open before. -/
theorem current_behind_eq_none_iff : (r.behind s).current = none ↔ s.current = none :=
  Option.map_eq_none_iff

/-- The open group is still the open one. -/
theorem current_behind_of_eq_some {place : Nat} (hc : s.current = some place) :
    (r.behind s).current = some (r.groups.size + place) := by
  rw [behind, hc]
  rfl

/-- A line does behind other groups what it does without them, unless it opens a group whose name
    is taken. -/
theorem Step.behind (hs : s.Step line next printed)
    (hfree : ∀ name, words line = ["#group", name] → r.places.lookup name = none) :
    (r.behind s).Step line (r.behind next) printed := by
  cases hs with
  | blank => exact .blank
  | comment hw => exact .comment hw
  | endFile hw hc => exact .endFile hw (current_behind_eq_none_iff.mpr hc)
  | @opening _ name hw hc hn =>
    have hnone : (r.behind s).places.lookup name = none := by
      rw [lookup_behind, hn, hfree name hw]
      rfl
    have hopen := Step.opening hw (current_behind_eq_none_iff.mpr hc) hnone
    -- The new group stands as far behind those of `r` as it stood behind none.
    simpa [Registry.behind, Array.push_append] using hopen
  | @closing _ place g hw hc hg hd =>
    exact .closing hw (current_behind_of_eq_some hc) ((getElem?_behind r s place).trans hg) hd
  | @showing _ name _ formats place g hw hc hn hg hp =>
    have hplace : (r.behind s).places.lookup name = some (r.groups.size + place) := by
      rw [lookup_behind, hn]
      rfl
    exact .showing hw (current_behind_eq_none_iff.mpr hc) hplace
      ((getElem?_behind r s place).trans hg) hp
  | @content _ place g hl hc hg =>
    have hadd := Step.content hl (current_behind_of_eq_some hc)
      ((getElem?_behind r s place).trans hg)
    simpa [Registry.behind, Array.setIfInBounds_append_right] using hadd

/-- The same of several lines, whatever their numbers are. -/
theorem readLines_behind (hr : s.readLines n ls = .ok (next, texts))
    (hfree : ∀ line ∈ ls, ∀ name, words line = ["#group", name] → r.places.lookup name = none)
    (m : Nat) : (r.behind s).readLines m ls = .ok (r.behind next, texts) := by
  -- The lines have other numbers in the joined text, so both counts are general.
  induction ls generalizing s n m texts with
  | nil =>
    obtain ⟨rfl, rfl⟩ := readLines_nil_eq_ok_iff.mp hr
    rfl
  | cons line ls ih =>
    obtain ⟨s', printed, more, ha, hrest, rfl⟩ := readLines_cons_eq_ok_iff.mp hr
    have hs := (accept_eq_ok_iff.mp ha).behind (hfree line (by simp))
    have hls := ih hrest (fun l hl => hfree l (by simp [hl])) (m + 1)
    exact readLines_cons_eq_ok_iff.mpr ⟨_, _, _, accept_eq_ok_iff.mpr hs, hls, rfl⟩

/-- Two texts are read one after the other. -/
theorem readLines_join {as bs : List String} {ts us : List String} {ra rb : Registry}
    (ha : empty.readLines 1 as = .ok (ra, ts)) (hc : ra.current = none)
    (hb : empty.readLines 1 bs = .ok (rb, us))
    (hfree : ∀ line ∈ bs, ∀ name, words line = ["#group", name] → ra.places.lookup name = none) :
    empty.readLines 1 (as ++ bs) = .ok (ra.behind rb, ts ++ us) := by
  have hbs := readLines_behind hb hfree (1 + as.length)
  rw [behind_empty hc] at hbs
  exact readLines_append_eq_ok_iff.mpr ⟨ra, ts, us, ha, hbs, rfl⟩

/-- A group is opened outside all groups. -/
theorem Step.current_of_group (hs : s.Step line next printed) (hw : words line = ["#group", name]) :
    s.current = none := by
  have ha := accept_eq_ok_iff.mpr hs
  rw [accept, Line.ofText_of_words hw (by decide)] at ha
  obtain ⟨_, hopen, -⟩ := map_eq_ok_iff.mp ha
  obtain ⟨_, -, hc, -⟩ := openGroup_eq_ok_iff.mp hopen
  exact hc

/-- Behind a registry where its name is taken, a group cannot be opened. -/
theorem accept_behind_of_taken (hs : s.Step line next printed)
    (hw : words line = ["#group", name]) (htaken : r.places.lookup name ≠ none) :
    (r.behind s).accept line = .error (.fault (.nameTaken name)) := by
  have hc : (r.behind s).current = none :=
    current_behind_eq_none_iff.mpr (hs.current_of_group hw)
  have hlookup : (r.behind s).places.lookup name ≠ none := by
    rw [lookup_behind, ne_eq, Option.or_eq_none_iff]
    exact fun h => htaken h.2
  have hopen : (r.behind s).openGroup [name] = .error (.fault (.nameTaken name)) :=
    openGroup_eq_fault_iff.mpr (.inr ⟨hc, .inr (.inr ⟨name, rfl, hlookup, rfl⟩)⟩)
  rw [accept, Line.ofText_of_words hw (by decide)]
  exact map_eq_error_iff.mpr hopen

/-- Empty lines do nothing. -/
theorem readLines_blank (r : Registry) (n : Nat) (h : ∀ line ∈ ls, line.isEmpty = true) :
    ∃ texts, r.readLines n ls = .ok (r, texts) ∧ String.join texts = "" := by
  induction ls generalizing n with
  | nil => exact ⟨[], rfl, rfl⟩
  | cons line ls ih =>
    obtain rfl : line = "" := by simpa using h line (by simp)
    obtain ⟨texts, hread, hjoin⟩ := ih (n + 1) fun l hl => h l (by simp [hl])
    refine ⟨"" :: texts, ?_, by simpa using hjoin⟩
    exact readLines_cons_eq_ok_iff.mpr ⟨r, "", texts, accept_eq_ok_iff.mpr .blank, hread, rfl⟩

end Registry

/-! ### The lines of a joined text -/

/-- A text is cut into as many lines as it has segments. -/
theorem length_cutLines (text : String) : (cutLines text).length = (segments text).length := by
  simp [cutLines, cutLineChars, segments]

/-- The lines of the second text come after the parts of the first. -/
theorem lines_join {a b line : String} {before after : List String}
    (hcut : before ++ line :: after = lines b) (hline : line ≠ "") :
    ∃ rest, lines (a ++ "\n" ++ b) = (cutLines a ++ before) ++ line :: rest := by
  obtain ⟨blanks, -, hparts⟩ := exists_lines_append b
  have hkept : line.isEmpty = false := by simpa [String.isEmpty_eq_false_iff] using hline
  refine ⟨dropTrailing String.isEmpty (after ++ blanks), ?_⟩
  rw [lines_eq_dropTrailing, cutLines_join, ← hparts, ← hcut, ← dropTrailing_append_cons hkept]
  simp

namespace Document

variable {a b text : String} {d da db : Document}

/-- The names of the groups of a document. -/
def names (d : Document) : List String :=
  d.groups.map Group.name

/-- Empty lines at the end do not matter. -/
theorem ofLines_append_blank {ls blanks : List String}
    (h : ∀ line ∈ blanks, line.isEmpty = true) :
    ofLines (ls ++ blanks) = .ok d ↔ ofLines ls = .ok d := by
  rw [ofLines_eq_ok_iff, ofLines_eq_ok_iff]
  constructor
  · rintro ⟨r, _, hread, hc, rfl⟩
    obtain ⟨r', texts, more, hls, hrest, rfl⟩ := Registry.readLines_append_eq_ok_iff.mp hread
    obtain ⟨more', hmore, hjoin⟩ := r'.readLines_blank (1 + ls.length) h
    obtain ⟨rfl, rfl⟩ : r' = r ∧ more' = more := by simpa [hmore] using hrest
    exact ⟨r', texts, hls, hc, by simp [hjoin]⟩
  · rintro ⟨r, texts, hls, hc, rfl⟩
    obtain ⟨more, hmore, hjoin⟩ := r.readLines_blank (1 + ls.length) h
    refine ⟨r, texts ++ more, ?_, hc, by simp [hjoin]⟩
    exact Registry.readLines_append_eq_ok_iff.mpr ⟨r, texts, more, hls, hmore, rfl⟩

/-- A text is accepted when all its parts are, those at the end included. -/
theorem ofLines_cutLines : ofLines (cutLines text) = .ok d ↔ ofText text = .ok d := by
  obtain ⟨blanks, hblanks, hcut⟩ := exists_lines_append text
  rw [← hcut]
  exact ofLines_append_blank hblanks

/-- The names of the groups are those that the lines open groups with. -/
theorem mem_names_iff {ls : List String} {name : String} (h : ofLines ls = .ok d) :
    name ∈ d.names ↔ ∃ line ∈ ls, words line = ["#group", name] := by
  obtain ⟨items, hwf, rfl, hgroups⟩ := exists_items h
  have hnames : d.names = (blocks items).map Block.name := by
    simp [names, hgroups, groupsOf, Function.comp_def]
  rw [hnames, ← mem_argumentsOf_iff, hwf.layout.argumentsOf_group]
  simp

/-- When two documents share a name, some first line of the second opens a group whose name is
    taken. -/
theorem exists_first_shared (hb : ofText b = .ok db) (h : ¬ da.names.Disjoint db.names) :
    ∃ before line after name, before ++ line :: after = lines b ∧
      words line = ["#group", name] ∧ name ∈ da.names ∧
      ∀ l ∈ before, ∀ other ∈ da.names, words l ≠ ["#group", other] := by
  have hshared : ∃ line ∈ lines b, ∃ name ∈ da.names, words line = ["#group", name] := by
    by_contra hnone
    refine h fun name hname hname' => ?_
    obtain ⟨line, hline, hw⟩ := (mem_names_iff hb).mp hname'
    exact hnone ⟨line, hline, name, hname, hw⟩
  have hfind : ((lines b).find? fun line => ∃ name ∈ da.names, words line = ["#group", name]).isSome
      := List.find?_isSome.mpr (by simpa using hshared)
  obtain ⟨line, hline⟩ := Option.isSome_iff_exists.mp hfind
  obtain ⟨hopens, before, after, hcut, hbefore⟩ := List.find?_eq_some_iff_append.mp hline
  obtain ⟨name, hname, hw⟩ : ∃ name ∈ da.names, words line = ["#group", name] := by
    simpa using hopens
  exact ⟨before, line, after, name, hcut.symm, hw, hname, by simpa using hbefore⟩

/-- Documents that share no name stand one after the other. -/
theorem ofText_join_eq_ok (ha : ofText a = .ok da) (hb : ofText b = .ok db)
    (h : da.names.Disjoint db.names) :
    ofText (a ++ "\n" ++ b) = .ok ⟨da.listing ++ db.listing, da.groups ++ db.groups⟩ := by
  have hb' := ofLines_cutLines.mpr hb
  obtain ⟨ra, ts, hreada, hca, rfl⟩ := ofLines_eq_ok_iff.mp (ofLines_cutLines.mpr ha)
  obtain ⟨rb, us, hreadb, hcb, rfl⟩ := ofLines_eq_ok_iff.mp hb'
  have hfree : ∀ line ∈ cutLines b, ∀ name, words line = ["#group", name] →
      ra.places.lookup name = none := by
    intro line hline name hw
    have hname := (mem_names_iff hb').mpr ⟨line, hline, hw⟩
    exact (Registry.empty_sound.readLines hreada).lookup_eq_none_iff.mpr fun hname' =>
      h hname' hname
  have hread := Registry.readLines_join hreada hca hreadb hfree
  rw [← cutLines_join] at hread
  refine ofLines_cutLines.mp (ofLines_eq_ok_iff.mpr ⟨_, _, hread, ?_, ?_⟩)
  · exact Registry.current_behind_eq_none_iff.mpr hcb
  · simp [Registry.behind]

/-- The first line of the second text that opens a group of a taken name is refused. -/
theorem ofText_join_eq_error {before after : List String} {line name : String}
    (ha : ofText a = .ok da) (hb : ofText b = .ok db) (hcut : before ++ line :: after = lines b)
    (hw : words line = ["#group", name]) (hname : name ∈ da.names)
    (hfirst : ∀ l ∈ before, ∀ other ∈ da.names, words l ≠ ["#group", other]) :
    ofText (a ++ "\n" ++ b) =
      .error ⟨(segments a).length + (before.length + 1), line, .nameTaken name⟩ := by
  obtain ⟨ra, ts, hreada, hca, rfl⟩ := ofLines_eq_ok_iff.mp (ofLines_cutLines.mpr ha)
  obtain ⟨rb, us, hreadb, -, -⟩ := ofLines_eq_ok_iff.mp hb
  rw [← hcut] at hreadb
  obtain ⟨s, _, _, hbefore, hrest, -⟩ := Registry.readLines_append_eq_ok_iff.mp hreadb
  obtain ⟨_, _, _, haccept, -, -⟩ := Registry.readLines_cons_eq_ok_iff.mp hrest
  have hsound := Registry.empty_sound.readLines hreada
  -- The lines before it go the way they go without the first text.
  have hfree : ∀ l ∈ before, ∀ other, words l = ["#group", other] →
      ra.places.lookup other = none := fun l hl other hw' =>
    hsound.lookup_eq_none_iff.mpr fun hother => hfirst l hl other hother hw'
  have hread := Registry.readLines_join hreada hca hbefore hfree
  have htaken : ra.places.lookup name ≠ none := fun hnone =>
    hsound.lookup_eq_none_iff.mp hnone hname
  have hrefused := Registry.accept_behind_of_taken (Registry.accept_eq_ok_iff.mp haccept) hw htaken
  have hline := Registry.ne_empty_of_accept_eq_fault hrefused
  obtain ⟨rest, hlines⟩ := lines_join (a := a) hcut hline
  refine ofLines_eq_error_iff.mpr
    ⟨cutLines a ++ before, rest ++ [endOfFile], by simp [hlines], ?_, _, _, hread, hrefused⟩
  simp only [List.length_append, length_cutLines]
  omega

/-- **Documents compose.**  Two accepted texts are joined by a line end.  If their documents share
    no name, the joined text is accepted, its listing is the one after the other, and so are its
    groups.  Else it fails at the first line of the second text that opens a group whose name is
    taken by the first.  Lines are counted on from the parts of the first text, of which the empty
    ones at the end are now lines as well. -/
theorem ofText_join (ha : ofText a = .ok da) (hb : ofText b = .ok db) :
    (da.names.Disjoint db.names →
        ofText (a ++ "\n" ++ b) = .ok ⟨da.listing ++ db.listing, da.groups ++ db.groups⟩) ∧
      (¬ da.names.Disjoint db.names →
        ∃ before line after name, before ++ line :: after = lines b ∧
          words line = ["#group", name] ∧ name ∈ da.names ∧
          (∀ l ∈ before, ∀ other ∈ da.names, words l ≠ ["#group", other]) ∧
          ofText (a ++ "\n" ++ b) =
            .error ⟨(segments a).length + (before.length + 1), line, .nameTaken name⟩) := by
  refine ⟨ofText_join_eq_ok ha hb, fun h => ?_⟩
  obtain ⟨before, line, after, name, hcut, hw, hname, hfirst⟩ := exists_first_shared hb h
  exact ⟨before, line, after, name, hcut, hw, hname, hfirst,
    ofText_join_eq_error ha hb hcut hw hname hfirst⟩

/-- A text with empty lines at its end. -/
def spacedText : String :=
  "#group colors\n#endgroup\n\n"

/-- The document of that text. -/
def spaced : Document :=
  ⟨"", [Group.empty "colors"]⟩

theorem ofText_spacedText : ofText spacedText = .ok spaced := by
  have hread : Registry.empty.readLines 1 (lines spacedText) =
      .ok (⟨#[Group.empty "colors"], [("colors", 0)], none⟩, ["", ""]) := by
    rfl
  exact ofLines_eq_ok_iff.mpr ⟨_, _, hread, rfl, rfl⟩

/-- Two documents are joined, and one joined to itself takes a name twice. -/
theorem ofText_join_spacedText :
    ofText spacedText = .ok spaced ∧ ofText sampleText = .ok sample ∧
      ofText (spacedText ++ "\n" ++ sampleText) =
        .ok ⟨sample.listing, spaced.groups ++ sample.groups⟩ ∧
      ofText (spacedText ++ "\n" ++ spacedText) =
        .error ⟨5, "#group colors", .nameTaken "colors"⟩ := by
  refine ⟨ofText_spacedText, ofText_sampleText, ?_, ?_⟩
  · have hother : spaced.names.Disjoint sample.names := by
      simp [names, spaced, sample, Group.empty]
    simpa [spaced] using (ofText_join ofText_spacedText ofText_sampleText).1 hother
  · have hnames : spaced.names = ["colors"] := rfl
    have hlines : lines spacedText = ["#group colors", "#endgroup"] := rfl
    have hwords : words "#group colors" = ["#group", "colors"] := by decide
    have hsame : ¬ spaced.names.Disjoint spaced.names := by simp [hnames]
    obtain ⟨before, line, after, name, hcut, -, hname, hfirst, herror⟩ :=
      (ofText_join ofText_spacedText ofText_spacedText).2 hsame
    obtain rfl : name = "colors" := by simpa [hnames] using hname
    rw [hlines] at hcut
    -- The first line opens the group, so there is no line before it.
    cases before with
    | nil =>
      obtain ⟨rfl, -⟩ := List.cons.inj hcut
      exact herror
    | cons l before =>
      obtain ⟨rfl, -⟩ := List.cons.inj hcut
      exact absurd hwords (hfirst _ (by simp) "colors" hname)

end Document

end Flashcards.Markup
