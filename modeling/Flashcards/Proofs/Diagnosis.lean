import Flashcards.Proofs.Contents
import Flashcards.Proofs.Refusal

namespace Flashcards.Markup

open Flashcards.Text

/-!
# What a diagnosis says of the document

A fault is found by a reader who remembers groups.  What it says can be checked by someone who has
nothing but the lines before it and counts commands among them.

* `Inside`, `Outside` — whether a group is open after some lines.
* `announced` — the groups that some lines open, with their lines of content.
* `Fault.Explains` — what each fault says of a line and of the lines before it.
* `accept_eq_fault_iff_explains` — a line is refused for a fault exactly when that is true of it.
* `Document.fault_eq_iff_explains` — the fault of a document is the only one that is true of it.
-/

/-! ### Lines without their reader -/

/-- One group more is opened than closed. -/
def Inside (ls : List String) : Prop :=
  (argumentsOf "#group" ls).length = (argumentsOf "#endgroup" ls).length + 1

/-- As many groups are closed as opened. -/
def Outside (ls : List String) : Prop :=
  (argumentsOf "#group" ls).length = (argumentsOf "#endgroup" ls).length

/-- The groups that some lines open: the words behind each `#group`, and the lines of content up to
    the end of the group. -/
def announced (ls : List String) : List (List String × List String) :=
  (argumentsOf "#group" ls).zip (groupContents ls)

/-- The lines behind the last one that opens a group. -/
def lastBody (ls : List String) : List String :=
  (ls.reverse.takeWhile fun line => (words line).head? ≠ some "#group").reverse

/-- The names of formats. -/
def IsFormatName (name : String) : Prop :=
  name = "reading" ∨ name = "writing"

/-- The names of commands. -/
def commandNames : List String :=
  ["##", "#group", "#endgroup", "#showgroup", endOfFile]

/-- What a fault says of a line and of the lines before it. -/
def Fault.Explains (before : List String) (line : String) : Fault → Prop
  | .nestedGroup => Inside before ∧ (words line).head? = some "#group"
  | .missingName => Outside before ∧ (words line = ["#group"] ∨ words line = ["#showgroup"])
  | .tooManyWords allowed =>
    Outside before ∧ allowed = 1 ∧
        (∃ arguments, words line = "#group" :: arguments ∧ 2 ≤ arguments.length) ∨
      allowed = 0 ∧ ∃ arguments, arguments ≠ [] ∧
        (Inside before ∧ words line = "#endgroup" :: arguments ∨
          Outside before ∧ words line = endOfFile :: arguments)
  | .nameTaken name =>
    Outside before ∧ words line = ["#group", name] ∧ [name] ∈ argumentsOf "#group" before
  | .noOpenGroup => Outside before ∧ (words line).head? = some "#endgroup"
  | .unfinishedTerm =>
    Inside before ∧ words line = ["#endgroup"] ∧ ¬ 3 ∣ (contents (lastBody before)).length
  | .showInsideGroup => Inside before ∧ (words line).head? = some "#showgroup"
  | .unknownGroup name =>
    Outside before ∧ (∃ formats, words line = "#showgroup" :: name :: formats) ∧
      [name] ∉ argumentsOf "#group" before
  | .noFormats =>
    Outside before ∧
      ∃ name, words line = ["#showgroup", name] ∧ [name] ∈ argumentsOf "#group" before
  | .unknownFormat format =>
    Outside before ∧
      ∃ name ls good rest, words line = "#showgroup" :: name :: (good ++ format :: rest) ∧
        ([name], ls) ∈ announced before ∧ ls ≠ [] ∧ (∀ f ∈ good, IsFormatName f) ∧
          ¬ IsFormatName format
  | .unknownCommand word =>
    (words line).head? = some word ∧ word.toList.head? = some '#' ∧ word ∉ commandNames
  | .strayContent => Outside before ∧ IsContent line
  | .unclosedGroup => Inside before ∧ (words line).head? = some endOfFile

/-! ### Open groups are counted -/

namespace Registry

variable {r next : Registry} {n : Nat} {line printed : String} {ls texts : List String}

/-- The number of open groups, none or one. -/
def depth (r : Registry) : Nat :=
  if r.current = none then 0 else 1

theorem depth_eq_zero_iff : r.depth = 0 ↔ r.current = none := by
  by_cases hc : r.current = none <;> simp [depth, hc]

theorem depth_eq_one_iff : r.depth = 1 ↔ r.current ≠ none := by
  by_cases hc : r.current = none <;> simp [depth, hc]

/-- A line opens or closes as many groups as it has commands that do. -/
theorem Step.count_groups (hs : r.Step line next printed) :
    (argumentsOf "#group" [line]).length + r.depth =
      (argumentsOf "#endgroup" [line]).length + next.depth := by
  cases hs with
  | blank => rfl
  | comment hw => simp [argumentsOf, hw]
  | endFile hw => simp [argumentsOf, hw, endOfFile]
  | opening hw hc => simp [argumentsOf, hw, depth, hc]
  | closing hw hc => simp [argumentsOf, hw, depth, hc]
  | showing hw => simp [argumentsOf, hw]
  | content hl hc =>
    have hopen : (words line).head? ≠ some "#group" := hl.head?_words_ne rfl
    have hclose : (words line).head? ≠ some "#endgroup" := hl.head?_words_ne rfl
    simp [argumentsOf, hopen, hclose, depth]

/-- The same of several lines. -/
theorem readLines_count_groups (hr : r.readLines n ls = .ok (next, texts)) :
    (argumentsOf "#group" ls).length + r.depth =
      (argumentsOf "#endgroup" ls).length + next.depth := by
  induction ls generalizing r n texts with
  | nil =>
    obtain ⟨rfl, -⟩ := readLines_nil_eq_ok_iff.mp hr
    rfl
  | cons line ls ih =>
    obtain ⟨r', printed, more, ha, hr, -⟩ := readLines_cons_eq_ok_iff.mp hr
    have hline := (accept_eq_ok_iff.mp ha).count_groups
    have hrest := ih hr
    rw [← List.singleton_append, argumentsOf_append, argumentsOf_append, List.length_append,
      List.length_append]
    omega

/-- A group is open when one more was opened than closed. -/
theorem inside_iff (hr : empty.readLines n ls = .ok (r, texts)) :
    Inside ls ↔ r.current ≠ none := by
  have hcount := readLines_count_groups hr
  have hempty : empty.depth = 0 := rfl
  rw [Inside, ← depth_eq_one_iff]
  omega

/-- Lines that are read end outside all groups just if no group is open then. -/
theorem outside_iff (hr : empty.readLines n ls = .ok (r, texts)) :
    Outside ls ↔ r.current = none := by
  have hcount := readLines_count_groups hr
  have hempty : empty.depth = 0 := rfl
  rw [Outside, ← depth_eq_zero_iff]
  omega

end Registry

/-! ### Groups are found in the lines -/

namespace Outline.Describes

variable {items : List Item} {b : Block} {ls : List String} {r : Registry} {name : String}

/-- Outside groups, the lines and the blocks in them. -/
theorem layout (hd : Describes ⟨items, none⟩ ls r) : Layout ls (blocks items) := by
  have hlines : items.flatMap Item.lines = ls := by simpa [Outline.lines] using hd.lines_eq
  exact hlines ▸ hd.wellFormed.layout

/-- Outside groups, a name is taken when a line opens a group of that name. -/
theorem lookup_ne_none_iff (hd : Describes ⟨items, none⟩ ls r) :
    r.places.lookup name ≠ none ↔ [name] ∈ argumentsOf "#group" ls := by
  rw [ne_eq, hd.lookup_eq_none_iff, hd.layout.argumentsOf_group]
  simp

/-- Outside groups, the groups of the registry are those that the lines announce. -/
theorem exists_lookup_iff_announced (hd : Describes ⟨items, none⟩ ls r) {g : Group} :
    (∃ place, r.places.lookup name = some place ∧ r.groups[place]? = some g) ↔
      ∃ cs, ([name], cs) ∈ announced ls ∧ Group.ofLines name cs = g := by
  rw [hd.exists_lookup_iff, announced, hd.layout.argumentsOf_group, hd.layout.groupContents_eq,
    List.zip_map']
  constructor
  · rintro ⟨b, hb, rfl, rfl⟩
    exact ⟨contents b.body, List.mem_map.mpr ⟨b, hb, rfl⟩, rfl⟩
  · rintro ⟨cs, hcs, rfl⟩
    obtain ⟨b, hb, heq⟩ := List.mem_map.mp hcs
    obtain ⟨hname, rfl⟩ : b.name = name ∧ contents b.body = cs := by simpa using heq
    exact ⟨b, hb, hname, hname ▸ rfl⟩

/-- Outside all groups, a group is announced just if it was opened by its name. -/
theorem exists_announced_iff (hd : Describes ⟨items, none⟩ ls r) :
    (∃ cs, ([name], cs) ∈ announced ls) ↔ [name] ∈ argumentsOf "#group" ls := by
  rw [announced, hd.layout.groupContents_eq, hd.layout.argumentsOf_group, List.zip_map']
  simp

/-- Outside groups, the lines of content of every group come in threes. -/
theorem dvd_of_announced (hd : Describes ⟨items, none⟩ ls r) {names cs : List String}
    (h : (names, cs) ∈ announced ls) : 3 ∣ cs.length := by
  rw [announced, hd.layout.argumentsOf_group, hd.layout.groupContents_eq, List.zip_map'] at h
  obtain ⟨b, hb, heq⟩ := List.mem_map.mp h
  obtain ⟨-, rfl⟩ := Prod.mk.inj heq
  exact hd.wellFormed.dvd_of_mem hb

/-- Inside a group, its lines are the last ones. -/
theorem lastBody_eq (hd : Describes ⟨items, some b⟩ ls r) : lastBody ls = b.body := by
  obtain ⟨hw, -, hbody⟩ := hd.opened_fits b rfl
  have hreverse : ls.reverse =
      b.body.reverse ++ b.opening :: (items.flatMap Item.lines).reverse := by
    simp [← hd.lines_eq, Outline.lines, Block.lines]
  -- No line of the body opens a group; the one before it does.
  have hplain : ∀ line ∈ b.body.reverse, (words line).head? ≠ some "#group" := fun line hline =>
    (hbody line (List.mem_reverse.mp hline)).head?_words_ne (by decide) rfl
  rw [lastBody, hreverse, List.takeWhile_append_of_pos (by simpa using hplain),
    List.takeWhile_cons_of_neg (by simp [hw]), List.append_nil, List.reverse_reverse]

end Outline.Describes

/-! ### What each command is told -/

section Commands

variable {before arguments : List String} {line : String} {f : Fault}

/-- The faults of a line that opens a group. -/
theorem explains_openGroup_iff (hw : words line = "#group" :: arguments) :
    f.Explains before line ↔
      Inside before ∧ .nestedGroup = f ∨
        Outside before ∧
          (arguments = [] ∧ .missingName = f ∨ 2 ≤ arguments.length ∧ .tooManyWords 1 = f ∨
            ∃ name, arguments = [name] ∧ [name] ∈ argumentsOf "#group" before ∧
              .nameTaken name = f) := by
  have hcontent : ¬ IsContent line := not_isContent_of_words hw rfl
  cases f <;> simp [Fault.Explains, hw, hcontent, endOfFile, commandNames]
  all_goals grind

/-- The faults of a line that closes a group. -/
theorem explains_closeGroup_iff (hw : words line = "#endgroup" :: arguments) :
    f.Explains before line ↔
      Outside before ∧ .noOpenGroup = f ∨
        Inside before ∧
          (arguments ≠ [] ∧ .tooManyWords 0 = f ∨
            arguments = [] ∧ ¬ 3 ∣ (contents (lastBody before)).length ∧ .unfinishedTerm = f) := by
  have hcontent : ¬ IsContent line := not_isContent_of_words hw rfl
  cases f <;> simp [Fault.Explains, hw, hcontent, endOfFile, commandNames]
  all_goals grind

/-- The faults of a line that shows a group. -/
theorem explains_showGroup_iff (hw : words line = "#showgroup" :: arguments) :
    f.Explains before line ↔
      Inside before ∧ .showInsideGroup = f ∨
        Outside before ∧
          (arguments = [] ∧ .missingName = f ∨
            ∃ name formats, arguments = name :: formats ∧
              ([name] ∉ argumentsOf "#group" before ∧ .unknownGroup name = f ∨
                formats = [] ∧ [name] ∈ argumentsOf "#group" before ∧ .noFormats = f ∨
                  ∃ cs, ([name], cs) ∈ announced before ∧ cs ≠ [] ∧
                    ∃ good format rest, good ++ format :: rest = formats ∧
                      (∀ f ∈ good, IsFormatName f) ∧ ¬ IsFormatName format ∧
                        .unknownFormat format = f)) := by
  have hcontent : ¬ IsContent line := not_isContent_of_words hw rfl
  cases f <;> simp [Fault.Explains, hw, hcontent, endOfFile, commandNames]
  all_goals grind

/-- The faults of a line that ends the document. -/
theorem explains_endFile_iff (hw : words line = endOfFile :: arguments) :
    f.Explains before line ↔
      Inside before ∧ .unclosedGroup = f ∨
        Outside before ∧ arguments ≠ [] ∧ .tooManyWords 0 = f := by
  have hcontent : ¬ IsContent line := not_isContent_of_words hw rfl
  cases f <;> simp [Fault.Explains, hw, hcontent, endOfFile, commandNames]
  all_goals grind

/-- A comment has no fault. -/
theorem not_explains_comment (hw : words line = "##" :: arguments) : ¬ f.Explains before line := by
  have hcontent : ¬ IsContent line := not_isContent_of_words hw rfl
  cases f <;> simp [Fault.Explains, hw, hcontent, endOfFile, commandNames]
  all_goals grind

/-- A line that has none of the commands. -/
theorem explains_other_iff {word : String} (hw : words line = word :: arguments)
    (hword : word ∉ commandNames) :
    f.Explains before line ↔
      word.toList.head? = some '#' ∧ .unknownCommand word = f ∨
        Outside before ∧ IsContent line ∧ .strayContent = f := by
  obtain ⟨-, hgroup, hend, hshow, hfile⟩ : word ≠ "##" ∧ word ≠ "#group" ∧ word ≠ "#endgroup" ∧
      word ≠ "#showgroup" ∧ word ≠ endOfFile := by
    simpa [commandNames] using hword
  cases f <;> simp [Fault.Explains, hw, hgroup, hend, hshow, hfile]
  all_goals grind

end Commands

/-! ### What is refused -/

namespace Outline.Describes

variable {o : Outline} {ls texts : List String} {r : Registry} {line : String} {f : Fault}
  {arguments : List String}

/-- A group is not opened for the fault that the lines before explain. -/
theorem openGroup_eq_fault_iff_explains (hd : o.Describes ls r)
    (hr : Registry.empty.readLines 1 ls = .ok (r, texts))
    (hw : words line = "#group" :: arguments) :
    r.openGroup arguments = .error (.fault f) ↔ f.Explains ls line := by
  rw [Registry.openGroup_eq_fault_iff, explains_openGroup_iff hw, Registry.inside_iff hr,
    Registry.outside_iff hr]
  refine or_congr_right (and_congr_right fun hc => ?_)
  obtain ⟨items, opened⟩ := o
  obtain rfl : opened = none := hd.opened_eq_none_iff.mpr hc
  simp only [hd.lookup_ne_none_iff]

/-- A group is not closed for the fault that the lines before explain. -/
theorem closeGroup_eq_fault_iff_explains (hd : o.Describes ls r)
    (hr : Registry.empty.readLines 1 ls = .ok (r, texts))
    (hw : words line = "#endgroup" :: arguments) :
    r.closeGroup arguments = .error (.fault f) ↔ f.Explains ls line := by
  rw [Registry.closeGroup_eq_fault_iff, explains_closeGroup_iff hw, Registry.inside_iff hr,
    Registry.outside_iff hr]
  obtain ⟨items, _ | b⟩ := o
  · have hc : r.current = none := hd.opened_eq_none_iff.mp rfl
    simp [hc]
  · have hc : r.current = some (groupsOf items).length := hd.current_eq
    -- The open group is unfinished when its lines of content do not come in threes.
    have hdirty : b.group.isDirty = true ↔ ¬ 3 ∣ (contents (lastBody ls)).length := by
      rw [hd.lastBody_eq, ← Group.ofLines_isDirty_eq_false_iff b.name, Bool.not_eq_false]
      rfl
    simp [hc, hd.getElem?_current, hdirty]

/-- A group is not shown for the fault that the lines before explain. -/
theorem showGroup_eq_fault_iff_explains (hd : o.Describes ls r)
    (hr : Registry.empty.readLines 1 ls = .ok (r, texts))
    (hw : words line = "#showgroup" :: arguments) :
    r.showGroup arguments = .error (.fault f) ↔ f.Explains ls line := by
  rw [Registry.showGroup_eq_fault_iff, explains_showGroup_iff hw, Registry.inside_iff hr,
    Registry.outside_iff hr]
  refine or_congr_right (and_congr_right fun hc => or_congr_right ?_)
  obtain ⟨items, opened⟩ := o
  obtain rfl : opened = none := hd.opened_eq_none_iff.mpr hc
  refine exists_congr fun name => exists_congr fun formats => and_congr_right fun _ => ?_
  have hunknown : r.places.lookup name = none ↔ [name] ∉ argumentsOf "#group" ls := by
    rw [← hd.lookup_ne_none_iff, ne_eq, not_not]
  have hdisplay : (∃ place g, r.places.lookup name = some place ∧ r.groups[place]? = some g ∧
      g.display formats = .error f) ↔
        ∃ cs, ([name], cs) ∈ announced ls ∧ (Group.ofLines name cs).display formats = .error f := by
    constructor
    · rintro ⟨place, g, hn, hg, hf⟩
      obtain ⟨cs, hcs, rfl⟩ := hd.exists_lookup_iff_announced.mp ⟨place, hn, hg⟩
      exact ⟨cs, hcs, hf⟩
    · rintro ⟨cs, hcs, hf⟩
      obtain ⟨place, hn, hg⟩ := hd.exists_lookup_iff_announced.mpr ⟨cs, hcs, rfl⟩
      exact ⟨place, _, hn, hg, hf⟩
  -- A closed group has terms exactly when it has content.
  have hterms : ∀ cs, ([name], cs) ∈ announced ls →
      ((Group.ofLines name cs).terms ≠ [] ↔ cs ≠ []) := by
    intro cs hcs
    rw [Group.ofLines_terms, ne_eq, Group.triples_eq_nil_iff (hd.dvd_of_announced hcs)]
  rw [hunknown, hdisplay, ← hd.exists_announced_iff]
  simp only [Group.display_eq_error_iff]
  constructor
  · rintro (hn | ⟨cs, hcs, ⟨hformats, hf⟩ | ⟨hts, hformat⟩⟩)
    · exact .inl hn
    · exact .inr (.inl ⟨hformats, ⟨cs, hcs⟩, hf⟩)
    · exact .inr (.inr ⟨cs, hcs, (hterms cs hcs).mp hts, hformat⟩)
  · rintro (hn | ⟨hformats, ⟨cs, hcs⟩, hf⟩ | ⟨cs, hcs, hne, hformat⟩)
    · exact .inl hn
    · exact .inr ⟨cs, hcs, .inl ⟨hformats, hf⟩⟩
    · exact .inr ⟨cs, hcs, .inr ⟨(hterms cs hcs).mpr hne, hformat⟩⟩

end Outline.Describes

/-- A command is refused for a fault exactly when the fault is true of it. -/
theorem acceptLine_ofCommand_eq_fault_iff {ls texts arguments : List String} {r : Registry}
    {line name : String} {f : Fault} (hr : Registry.empty.readLines 1 ls = .ok (r, texts))
    (hw : words line = name :: arguments) (hname : name.toList.head? = some '#') :
    r.acceptLine (.ofCommand name arguments) = .error (.fault f) ↔ f.Explains ls line := by
  obtain ⟨o, hd⟩ := Outline.exists_describes hr
  by_cases hmem : name ∈ commandNames
  · have hcases : name = "##" ∨ name = "#group" ∨ name = "#endgroup" ∨ name = "#showgroup" ∨
        name = endOfFile := by
      simpa [commandNames] using hmem
    rcases hcases with rfl | rfl | rfl | rfl | rfl
    · simpa [Line.ofCommand, Registry.acceptLine] using not_explains_comment hw
    · exact map_eq_error_iff.trans (hd.openGroup_eq_fault_iff_explains hr hw)
    · exact map_eq_error_iff.trans (hd.closeGroup_eq_fault_iff_explains hr hw)
    · exact map_eq_error_iff.trans (hd.showGroup_eq_fault_iff_explains hr hw)
    · rw [explains_endFile_iff hw, Registry.inside_iff hr, Registry.outside_iff hr,
        ← Registry.endFile_eq_fault_iff]
      exact map_eq_error_iff
  · have hunknown : Line.ofCommand name arguments = .unknown name := by
      simp only [commandNames, List.mem_cons, List.not_mem_nil, not_or] at hmem
      simp [Line.ofCommand, hmem]
    have hcontent : ¬ IsContent line := not_isContent_of_words hw hname
    rw [hunknown, explains_other_iff hw hmem]
    simp [Registry.acceptLine, hname, hcontent]

/-- A line is refused for a fault exactly when the fault is true of it. -/
theorem accept_eq_fault_iff_explains {ls texts : List String} {r : Registry} {line : String}
    {f : Fault} (hr : Registry.empty.readLines 1 ls = .ok (r, texts)) :
    r.accept line = .error (.fault f) ↔ f.Explains ls line := by
  rw [Registry.accept]
  rcases Line.ofText_cases line with ⟨rfl, hl⟩ | ⟨hcontent, hl⟩ | ⟨name, arguments, hw, hname, hl⟩
  · have hw : words "" = [""] := by decide
    rw [hl, explains_other_iff hw (by decide)]
    simp [Registry.acceptLine, not_isContent_empty]
  · obtain ⟨word, arguments, hw⟩ := List.exists_cons_of_ne_nil (words_ne_nil line)
    have hhead : word.toList.head? ≠ some '#' := fun h =>
      hcontent.2 ((head?_of_words hw (by decide)).mp h)
    have hword : word ∉ commandNames := fun h =>
      hhead ((by decide : ∀ name ∈ commandNames, name.toList.head? = some '#') word h)
    rw [hl, explains_other_iff hw hword, Registry.outside_iff hr]
    simp [Registry.acceptLine, map_eq_error_iff, Registry.addContent_eq_fault_iff, hhead, hcontent]
  · rw [hl]
    exact acceptLine_ofCommand_eq_fault_iff hr hw hname

end Flashcards.Markup
