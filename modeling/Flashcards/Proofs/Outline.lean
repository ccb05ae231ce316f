import Flashcards.Proofs.Grammar
import Flashcards.Proofs.Groups
import Flashcards.Proofs.Reading
import Mathlib.Data.List.Induction

namespace Flashcards.Markup

open Flashcards.Text

/-!
# Outlines

An outline is what the grammar makes of the first lines of a document: some items and, inside a
group, the block that is not closed yet.  The registry after these lines is the same thing in the
eyes of the reader.

* `Outline.Next` — an outline with one more line.
* `Outline.Describes` — an outline, the lines it stands for and the registry they lead to.
* `Outline.Describes.exists_step`, `Outline.Describes.exists_next` — one more line is right for
  the outline exactly when the registry accepts it.
* `exists_describes` — accepted lines have an outline.
-/

/-- What the grammar makes of the first lines of a document. -/
structure Outline where
  items : List Item
  /-- The block that is not closed yet. -/
  opened : Option Block

/-- The group that a block becomes. -/
def Block.group (b : Block) : Group :=
  Group.ofLines b.name (contents b.body)

/-- The groups that the blocks among some items become. -/
def groupsOf (items : List Item) : List Group :=
  (blocks items).map Block.group

@[simp] theorem Block.group_name (b : Block) : b.group.name = b.name :=
  Group.ofLines_name b.name _

/-- A last item adds its group, if it is one. -/
theorem groupsOf_concat (items : List Item) (item : Item) :
    groupsOf (items ++ [item]) = groupsOf items ++ (item.block?.map Block.group).toList := by
  rw [groupsOf, blocks_append, List.map_append]
  cases h : item.block? <;> simp [groupsOf, blocks, h]

namespace Outline

/-- The lines of an outline. -/
def lines (o : Outline) : List String :=
  o.items.flatMap Item.lines ++ o.opened.elim [] Block.lines

/-- An outline, one more line and the outline with that line. -/
inductive Next : Outline → String → Outline → Prop
  | item {items : List Item} {line : String} (item : Item) (hl : item.lines = [line])
      (hf : item.Fits items) : Next ⟨items, none⟩ line ⟨items ++ [item], none⟩
  | opening {items : List Item} {b : Block} (hb : b.body = []) (hf : b.Fits items) :
      Next ⟨items, none⟩ b.opening ⟨items, some b⟩
  | plain {items : List Item} {b : Block} {line : String} (hp : IsPlain line) :
      Next ⟨items, some b⟩ line ⟨items, some { b with body := b.body ++ [line] }⟩
  | closing {items : List Item} {b : Block} {line : String} (hf : (Item.block b line).Fits items) :
      Next ⟨items, some b⟩ line ⟨items ++ [.block b line], none⟩

/-- An outline of some lines that lead to a registry. -/
structure Describes (o : Outline) (ls : List String) (r : Registry) : Prop where
  wellFormed : WellFormed o.items
  opened_fits : ∀ b, o.opened = some b → b.Fits o.items
  lines_eq : o.lines = ls
  sound : r.Sound
  groups_eq : r.groups.toList = groupsOf o.items ++ o.opened.toList.map Block.group
  current_eq : r.current = o.opened.map fun _ => (groupsOf o.items).length

variable {o o' : Outline} {items : List Item} {b : Block} {ls : List String}
  {r next : Registry} {line printed name : String}

/-- Before all lines nothing was opened. -/
theorem describes_empty : Describes ⟨[], none⟩ [] Registry.empty where
  wellFormed := wellFormed_nil
  opened_fits := by simp
  lines_eq := rfl
  sound := Registry.empty_sound
  groups_eq := rfl
  current_eq := rfl

namespace Describes

/-! ### Groups of the registry and blocks of the outline -/

/-- The open group is the open block. -/
theorem getElem?_current (hd : Describes ⟨items, some b⟩ ls r) :
    r.groups[(groupsOf items).length]? = some b.group := by
  rw [← Array.getElem?_toList, hd.groups_eq]
  simp

/-- Outside groups, the group of a name is the block of that name. -/
theorem exists_lookup_iff (hd : Describes ⟨items, none⟩ ls r) {g : Group} :
    (∃ place, r.places.lookup name = some place ∧ r.groups[place]? = some g) ↔
      ∃ b ∈ blocks items, b.name = name ∧ b.group = g := by
  have hgroups : r.groups.toList = (blocks items).map Block.group := by
    simpa [groupsOf] using hd.groups_eq
  have hmem : ∀ g, (∃ place : Nat, r.groups[place]? = some g) ↔
      ∃ b ∈ blocks items, b.group = g := by
    intro g
    rw [← List.mem_map, ← hgroups, List.mem_iff_getElem?]
    simp
  constructor
  · rintro ⟨place, hn, hg⟩
    obtain ⟨g', hg', rfl⟩ := (hd.sound.lookup_eq_some_iff name place).mp hn
    obtain rfl : g = g' := Option.some.inj (hg.symm.trans hg')
    obtain ⟨b, hb, rfl⟩ := (hmem g).mp ⟨place, hg⟩
    exact ⟨b, hb, b.group_name.symm, rfl⟩
  · rintro ⟨b, hb, rfl, rfl⟩
    obtain ⟨place, hg⟩ := (hmem b.group).mpr ⟨b, hb, rfl⟩
    exact ⟨place, (hd.sound.lookup_eq_some_iff _ place).mpr ⟨_, hg, b.group_name⟩, hg⟩

/-- Outside groups, a name is free when no block has it. -/
theorem lookup_eq_none_iff (hd : Describes ⟨items, none⟩ ls r) :
    r.places.lookup name = none ↔ ∀ b ∈ blocks items, b.name ≠ name := by
  have hnames : r.groups.toList.map Group.name = (blocks items).map Block.name := by
    simp [hd.groups_eq, groupsOf, Function.comp_def]
  rw [hd.sound.lookup_eq_none_iff, hnames]
  simp

/-! ### A line that is right for the outline is accepted -/

/-- An item of one line. -/
theorem step_item (hd : Describes ⟨items, none⟩ ls r) {item : Item} (hl : item.lines = [line])
    (hf : item.Fits items) :
    ∃ printed, r.Step line r printed ∧ Describes ⟨items ++ [item], none⟩ (ls ++ [line]) r := by
  -- An item that is no block leaves the groups and hence the registry as they are.
  have hdescribes : item.block? = none → Describes ⟨items ++ [item], none⟩ (ls ++ [line]) r :=
    fun hb => {
      wellFormed := wellFormed_concat_iff.mpr ⟨hd.wellFormed, hf⟩
      opened_fits := by simp
      lines_eq := by simp [← hd.lines_eq, Outline.lines, hl]
      sound := hd.sound
      groups_eq := by simp [groupsOf_concat, hb, hd.groups_eq]
      current_eq := hd.current_eq }
  cases item with
  | blank =>
    obtain rfl : "" = line := by simpa [Item.lines] using hl
    exact ⟨"", .blank, hdescribes rfl⟩
  | comment l =>
    obtain rfl : l = line := by simpa [Item.lines] using hl
    exact ⟨"", .comment hf, hdescribes rfl⟩
  | endFile l =>
    obtain rfl : l = line := by simpa [Item.lines] using hl
    exact ⟨"", .endFile hf hd.current_eq, hdescribes rfl⟩
  | block b closing => simp [Item.lines, Block.lines] at hl
  | showGroup l name formats =>
    obtain rfl : l = line := by simpa [Item.lines] using hl
    obtain ⟨hw, hformats, b, hb, hname, hcontents⟩ := hf
    obtain ⟨place, hn, hg⟩ := hd.exists_lookup_iff.mpr ⟨b, hb, hname, rfl⟩
    -- A block without content has no terms, and then any format will do.
    have hcards : (b.group.cards? formats).isSome := by
      rw [Group.cards?_isSome_iff, Block.group, Group.ofLines_terms]
      intro hterms
      refine hcontents fun hnil => hterms ?_
      rw [hnil]
      rfl
    obtain ⟨cards, hcards⟩ := Option.isSome_iff_exists.mp hcards
    have hp := Group.display_eq_ok_iff.mpr ⟨hformats, cards, hcards, rfl⟩
    exact ⟨_, .showing hw hd.current_eq hn hg hp, hdescribes rfl⟩

/-- A line that opens a block. -/
theorem step_opening (hd : Describes ⟨items, none⟩ ls r) (hb : b.body = [])
    (hf : b.Fits items) :
    ∃ next, r.Step b.opening next "" ∧ Describes ⟨items, some b⟩ (ls ++ [b.opening]) next := by
  have hs := Registry.Step.opening hf.1 hd.current_eq (hd.lookup_eq_none_iff.mpr hf.2.1)
  have hgroups : r.groups.toList = groupsOf items := by simpa using hd.groups_eq
  have hnew : b.group = Group.empty b.name := by
    rw [Block.group, hb]
    rfl
  refine ⟨_, hs, ?_⟩
  exact {
    wellFormed := hd.wellFormed
    opened_fits := by simpa using hf
    lines_eq := by simp [← hd.lines_eq, Outline.lines, Block.lines, hb]
    sound := hd.sound.step hs
    groups_eq := by simp [hgroups, hnew]
    current_eq := by simp [← hgroups] }

/-- A line that is no command stays in the block. -/
theorem step_plain (hd : Describes ⟨items, some b⟩ ls r) (hp : IsPlain line) :
    ∃ next, r.Step line next "" ∧
      Describes ⟨items, some { b with body := b.body ++ [line] }⟩ (ls ++ [line]) next := by
  -- Whatever the line is, the body grows by it; the groups tell the three cases apart.
  have hdescribes : ∀ next, r.Step line next "" → next.current = r.current →
      next.groups.toList =
        groupsOf items ++ [Block.group { b with body := b.body ++ [line] }] →
      Describes ⟨items, some { b with body := b.body ++ [line] }⟩ (ls ++ [line]) next :=
    fun next hs hc hg => {
      wellFormed := hd.wellFormed
      opened_fits := by
        obtain ⟨hw, hname, hbody⟩ := hd.opened_fits b rfl
        intro b' hb'
        obtain rfl := Option.some.inj hb'
        refine ⟨hw, hname, fun l hl => ?_⟩
        rcases List.mem_append.mp hl with hl | hl
        · exact hbody l hl
        · obtain rfl : l = line := by simpa using hl
          exact hp
      lines_eq := by simp [← hd.lines_eq, Outline.lines, Block.lines]
      sound := hd.sound.step hs
      groups_eq := hg
      current_eq := hc.trans hd.current_eq }
  have hsame : ¬ IsContent line →
      r.groups.toList = groupsOf items ++ [Block.group { b with body := b.body ++ [line] }] := by
    intro hl
    rw [hd.groups_eq, Block.group, contents_append, contents_singleton, if_neg hl,
      List.append_nil]
    rfl
  rcases hp with rfl | hcomment | hcontent
  · exact ⟨r, .blank, hdescribes r .blank rfl (hsame not_isContent_empty)⟩
  · exact ⟨r, .comment hcomment,
      hdescribes r (.comment hcomment) rfl (hsame hcomment.not_isContent)⟩
  · have hs := Registry.Step.content hcontent hd.current_eq hd.getElem?_current
    refine ⟨_, hs, hdescribes _ hs rfl ?_⟩
    have hadd : Block.group { b with body := b.body ++ [line] } = b.group.addLine line := by
      rw [Block.group, contents_append, contents_singleton, if_pos hcontent,
        Group.ofLines_append]
      rfl
    rw [hadd, Array.toList_setIfInBounds, hd.groups_eq]
    simp

/-- A line that closes a block. -/
theorem step_closing (hd : Describes ⟨items, some b⟩ ls r)
    (hf : (Item.block b line).Fits items) :
    ∃ next, r.Step line next "" ∧
      Describes ⟨items ++ [.block b line], none⟩ (ls ++ [line]) next := by
  have hdirty : b.group.isDirty = false :=
    (Group.ofLines_isDirty_eq_false_iff _ _).mpr hf.2.1
  have hs := Registry.Step.closing hf.2.2 hd.current_eq hd.getElem?_current hdirty
  refine ⟨_, hs, ?_⟩
  exact {
    wellFormed := wellFormed_concat_iff.mpr ⟨hd.wellFormed, hf⟩
    opened_fits := by simp
    lines_eq := by simp [← hd.lines_eq, Outline.lines, Item.lines]
    sound := hd.sound.step hs
    groups_eq := by simp [groupsOf_concat, Item.block?, hd.groups_eq]
    current_eq := rfl }

/-- A line that is right for the outline is accepted. -/
theorem exists_step (hd : o.Describes ls r) (hn : o.Next line o') :
    ∃ next printed, r.Step line next printed ∧ o'.Describes (ls ++ [line]) next := by
  cases hn with
  | item _ hl hf =>
    obtain ⟨printed, hs, hd'⟩ := hd.step_item hl hf
    exact ⟨r, printed, hs, hd'⟩
  | opening hb hf =>
    obtain ⟨next, hs, hd'⟩ := hd.step_opening hb hf
    exact ⟨next, "", hs, hd'⟩
  | plain hp =>
    obtain ⟨next, hs, hd'⟩ := hd.step_plain hp
    exact ⟨next, "", hs, hd'⟩
  | closing hf =>
    obtain ⟨next, hs, hd'⟩ := hd.step_closing hf
    exact ⟨next, "", hs, hd'⟩

/-! ### An accepted line is right for the outline -/

/-- An outline has an open group just if the registry has one. -/
theorem opened_eq_none_iff (hd : o.Describes ls r) : o.opened = none ↔ r.current = none := by
  rw [hd.current_eq, Option.map_eq_none_iff]

/-- Where the registry has an open group, the outline has one. -/
theorem exists_opened {place : Nat} (hd : o.Describes ls r) (hc : r.current = some place) :
    ∃ b, o.opened = some b := by
  rw [hd.current_eq, Option.map_eq_some_iff] at hc
  obtain ⟨b, hb, -⟩ := hc
  exact ⟨b, hb⟩

/-- An accepted line is right for the outline. -/
theorem exists_next (hd : o.Describes ls r) (hs : r.Step line next printed) :
    ∃ o', o.Next line o' := by
  obtain ⟨items, opened⟩ := o
  cases hs with
  | blank =>
    cases opened with
    | none => exact ⟨_, .item .blank rfl trivial⟩
    | some b => exact ⟨_, .plain (.inl rfl)⟩
  | comment hw =>
    cases opened with
    | none => exact ⟨_, .item (.comment line) rfl hw⟩
    | some b => exact ⟨_, .plain (.inr (.inl hw))⟩
  | endFile hw hc =>
    obtain rfl : opened = none := hd.opened_eq_none_iff.mpr hc
    exact ⟨_, .item (.endFile line) rfl hw⟩
  | @opening _ name hw hc hn =>
    obtain rfl : opened = none := hd.opened_eq_none_iff.mpr hc
    have hfresh := hd.lookup_eq_none_iff.mp hn
    exact ⟨_, .opening (b := ⟨line, name, []⟩) rfl ⟨hw, hfresh, by simp⟩⟩
  | @closing _ place g hw hc hg hdirty =>
    obtain ⟨b, rfl⟩ := hd.exists_opened hc
    obtain rfl : (groupsOf items).length = place := Option.some.inj (hd.current_eq.symm.trans hc)
    obtain rfl : b.group = g := Option.some.inj (hd.getElem?_current.symm.trans hg)
    have hdvd := (Group.ofLines_isDirty_eq_false_iff _ _).mp hdirty
    exact ⟨_, .closing ⟨hd.opened_fits b rfl, hdvd, hw⟩⟩
  | @showing _ name _ formats place g hw hc hn hg hp =>
    obtain rfl : opened = none := hd.opened_eq_none_iff.mpr hc
    obtain ⟨b, hb, hname, rfl⟩ := hd.exists_lookup_iff.mp ⟨place, hn, hg⟩
    -- The block is closed, so it has content exactly when its group has terms.
    obtain ⟨hformats, cards, hcards, -⟩ := Group.display_eq_ok_iff.mp hp
    have hvalid := (Group.cards?_isSome_iff b.group formats).mp (by simp [hcards])
    refine ⟨_, .item (.showGroup line name formats) rfl ⟨hw, hformats, b, hb, hname, ?_⟩⟩
    intro hcontents
    refine hvalid ?_
    rw [Block.group, Group.ofLines_terms, ne_eq,
      Group.triples_eq_nil_iff (hd.wellFormed.dvd_of_mem hb)]
    exact hcontents
  | content hl hc hg =>
    obtain ⟨b, rfl⟩ := hd.exists_opened hc
    exact ⟨_, .plain (.inr (.inr hl))⟩

/-- The outline follows the registry. -/
theorem step (hd : o.Describes ls r) (hs : r.Step line next printed) :
    ∃ o' : Outline, o'.Describes (ls ++ [line]) next := by
  -- The outline has a step for the line, and the registry takes no other.
  obtain ⟨o', hn⟩ := hd.exists_next hs
  obtain ⟨next', printed', hs', hd'⟩ := hd.exists_step hn
  obtain ⟨rfl, -⟩ := hs.unique hs'
  exact ⟨o', hd'⟩

end Describes

/-- Accepted lines have an outline. -/
theorem exists_describes {texts : List String} {n : Nat}
    (h : Registry.empty.readLines n ls = .ok (r, texts)) : ∃ o : Outline, o.Describes ls r := by
  -- The last line is split off, since an outline grows at its end.
  induction ls using List.reverseRecOn generalizing r texts with
  | nil =>
    obtain ⟨rfl, -⟩ := Registry.readLines_nil_eq_ok_iff.mp h
    exact ⟨_, describes_empty⟩
  | append_singleton ls line ih =>
    obtain ⟨r', ts, printed, hls, hs, -⟩ := Registry.readLines_concat_eq_ok_iff.mp h
    obtain ⟨o, hd⟩ := ih hls
    exact hd.step hs

end Outline

end Flashcards.Markup
