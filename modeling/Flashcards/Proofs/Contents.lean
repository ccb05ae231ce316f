import Flashcards.Proofs.Acceptance
import Mathlib.Algebra.BigOperators.Ring.List
import Mathlib.Algebra.Ring.Nat

namespace Flashcards.Markup

open Flashcards.Text

/-!
# No line is lost

The groups of an accepted document are compared with its lines, without reference to how the lines
are read.

* `groupContents` — the lines of content of each group, found line by line.
* `markReadings` — lines of content as a group keeps them.
* `Layout` — lines and the blocks in them, as far as groups are concerned.
* `Document.groups_contents` — the groups are those of the lines, and they keep every line.
-/

/-- The lines of content of each group: those between a line that opens a group and the first line
    after it that closes one. -/
def groupContents : List String → List (List String)
  | [] => []
  | line :: rest =>
    if (words line).head? = some "#group" then
      contents (rest.takeWhile fun l => (words l).head? ≠ some "#endgroup") :: groupContents rest
    else groupContents rest

/-- Lines of content as a group keeps them: the second of every three lines is a reading. -/
def markReadings : List String → List String
  | h :: r :: d :: rest => h :: Pinyin.markTones r :: d :: markReadings rest
  | ls => ls

/-- The lines of a term as a group keeps them. -/
def termLines (t : Term) : List String :=
  [t.headword, t.reading, t.definition]

/-- The terms of some lines have all these lines. -/
theorem flatMap_termLines_triples {ls : List String} (h : 3 ∣ ls.length) :
    (triples ls).flatMap termLines = markReadings ls := by
  fun_induction triples ls with
  | case1 => rfl
  | case2 => simp at h
  | case3 => simp at h
  | case4 h₁ r d rest ih =>
    have hrest : 3 ∣ rest.length := (Nat.dvd_add_left (Nat.dvd_refl 3)).mp h
    rw [List.flatMap_cons, ih hrest]
    rfl

/-! ### Lines and the blocks in them -/

/-- Lines and the blocks in them.  A line outside blocks opens no group and has no content. -/
inductive Layout : List String → List Block → Prop
  | nil : Layout [] []
  | line {line : String} {ls : List String} {bs : List Block}
      (ho : (words line).head? ≠ some "#group") (hl : ¬ IsContent line) (h : Layout ls bs) :
      Layout (line :: ls) bs
  | block {b : Block} {closing : String} {ls : List String} {bs : List Block}
      (hw : words b.opening = ["#group", b.name]) (hp : ∀ line ∈ b.body, IsPlain line)
      (hc : words closing = ["#endgroup"]) (h : Layout ls bs) :
      Layout (b.lines ++ closing :: ls) (b :: bs)

/-- Well-formed items are such lines. -/
theorem WellFormed.layout {items : List Item} (h : WellFormed items) :
    Layout (items.flatMap Item.lines) (blocks items) := by
  -- Being well-formed is not kept when the first item goes, but what each item is by itself is.
  have hfits : ∀ item ∈ items, ∃ earlier, item.Fits earlier := fun item => h.exists_fits
  clear h
  induction items with
  | nil => exact .nil
  | cons item items ih =>
    obtain ⟨earlier, hitem⟩ := hfits item (by simp)
    have hrest := ih fun i hi => hfits i (by simp [hi])
    cases item with
    | blank => exact .line (by decide) not_isContent_empty hrest
    | comment line =>
      have hw : IsComment line := hitem
      exact .line (by simp [show (words line).head? = some "##" from hw]) hw.not_isContent hrest
    | endFile line =>
      have hw : words line = [endOfFile] := hitem
      exact .line (by simp [hw, endOfFile]) (not_isContent_of_words hw rfl) hrest
    | showGroup line name formats =>
      have hw : words line = "#showgroup" :: name :: formats := hitem.1
      exact .line (by simp [hw]) (not_isContent_of_words hw rfl) hrest
    | block b closing =>
      obtain ⟨⟨hw, -, hp⟩, -, hc⟩ := hitem
      simpa [Item.lines, blocks, Item.block?] using hrest.block hw hp hc

/-- Lines before the first group have none. -/
theorem groupContents_append {body rest : List String}
    (h : ∀ line ∈ body, (words line).head? ≠ some "#group") :
    groupContents (body ++ rest) = groupContents rest := by
  induction body with
  | nil => rfl
  | cons line body ih =>
    rw [List.cons_append, groupContents, if_neg (h line (by simp))]
    exact ih fun l hl => h l (by simp [hl])

namespace Layout

variable {ls : List String} {bs : List Block}

/-- The names that the lines announce are those of the blocks. -/
theorem argumentsOf_group (h : Layout ls bs) :
    argumentsOf "#group" ls = bs.map fun b => [b.name] := by
  induction h with
  | nil => rfl
  | line ho hl h ih =>
    rw [← List.singleton_append, argumentsOf_append, argumentsOf_eq_nil (by simpa using ho), ih]
    rfl
  | @block b closing ls bs hw hp hc h ih =>
    -- After its first line a block opens no group.
    have hbody : argumentsOf "#group" (b.body ++ [closing]) = [] := by
      refine argumentsOf_eq_nil fun line hline => ?_
      rcases List.mem_append.mp hline with hline | hline
      · exact (hp line hline).head?_words_ne (by decide) rfl
      · obtain rfl : line = closing := by simpa using hline
        simp [hc]
    have hlines : b.lines ++ closing :: ls = [b.opening] ++ ((b.body ++ [closing]) ++ ls) := by
      simp [Block.lines]
    rw [hlines, argumentsOf_append, argumentsOf_append, argumentsOf_singleton hw, hbody, ih]
    rfl

/-- The lines of content of each group are those of each block. -/
theorem groupContents_eq (h : Layout ls bs) :
    groupContents ls = bs.map fun b => contents b.body := by
  induction h with
  | nil => rfl
  | line ho hl h ih => rwa [groupContents, if_neg ho]
  | @block b closing ls bs hw hp hc h ih =>
    -- No line of the body closes the group; `closing` is the first that does.
    have htake : (b.body ++ closing :: ls).takeWhile
        (fun l => (words l).head? ≠ some "#endgroup") = b.body := by
      rw [List.takeWhile_append_of_pos, List.takeWhile_cons_of_neg, List.append_nil]
      · simp [hc]
      · intro line hline
        simpa using (hp line hline).head?_words_ne (by decide) rfl
    rw [Block.lines, List.cons_append, groupContents, if_pos (by simp [hw]), htake,
      groupContents_append fun line hline => (hp line hline).head?_words_ne (by decide) rfl,
      groupContents, if_neg (by simp [hc]), ih]
    rfl

/-- All content is that of the blocks. -/
theorem contents_eq (h : Layout ls bs) :
    contents ls = (bs.map fun b => contents b.body).flatten := by
  induction h with
  | nil => rfl
  | line ho hl h ih =>
    rw [← List.singleton_append, contents_append, contents_singleton, if_neg hl, ih]
    rfl
  | @block b closing ls bs hw hp hc h ih =>
    have hlines : b.lines ++ closing :: ls = [b.opening] ++ (b.body ++ ([closing] ++ ls)) := by
      simp [Block.lines]
    rw [hlines, contents_append, contents_append, contents_append, contents_singleton,
      contents_singleton, if_neg (not_isContent_of_words hw rfl),
      if_neg (not_isContent_of_words hc rfl), ih]
    rfl

end Layout

/-! ### The groups of an accepted document -/

/-- A third of the lines of a block are headwords. -/
theorem Block.three_mul_length_terms {b : Block} (h : 3 ∣ (contents b.body).length) :
    3 * b.group.terms.length = (contents b.body).length := by
  rw [Block.group, Group.ofLines_terms, length_triples]
  exact Nat.mul_div_cancel' h

/-- **No line is lost, repeated, moved or filed under another name.**  The names of the groups are
    those that the lines announce, no term is unfinished, and the terms of the groups are their
    lines of content, with tone marks for tone numbers in each reading.  There are a third as many
    terms as lines of content. -/
theorem Document.groups_contents {text : String} {d : Document} (h : ofText text = .ok d) :
    (d.groups.map fun g => [g.name]) = argumentsOf "#group" (lines text) ∧
      (∀ g ∈ d.groups, g.isDirty = false) ∧
      (d.groups.map fun g => g.terms.flatMap termLines) =
        (groupContents (lines text)).map markReadings ∧
      3 * (d.groups.map fun g => g.terms.length).sum = (contents (lines text)).length := by
  obtain ⟨items, hwf, hlines, hgroups⟩ := exists_items h
  have hlayout := hwf.layout
  have hdvd := fun b hb => hwf.dvd_of_mem (b := b) hb
  rw [hlines] at hlayout
  rw [hgroups, groupsOf, hlayout.argumentsOf_group, hlayout.groupContents_eq, hlayout.contents_eq,
    List.length_flatten]
  simp only [List.map_map, Function.comp_def, List.forall_mem_map, Block.group_name]
  refine ⟨trivial, fun b hb => ?_, List.map_congr_left fun b hb => ?_, ?_⟩
  · exact (Group.ofLines_isDirty_eq_false_iff _ _).mpr (hdvd b hb)
  · rw [Block.group, Group.ofLines_terms]
    exact flatMap_termLines_triples (hdvd b hb)
  · have hterms : ∀ b ∈ blocks items, 3 * b.group.terms.length = (contents b.body).length :=
      fun b hb => Block.three_mul_length_terms (hdvd b hb)
    rw [← List.sum_map_mul_left (blocks items) (fun b => b.group.terms.length) 3,
      List.map_congr_left hterms]

/-- The one group of the sample has its name and its content. -/
theorem Document.groups_contents_sample :
    ofText sampleText = .ok sample ∧
      [["numbers"]] = argumentsOf "#group" (lines sampleText) ∧
      [["一", "yī", "one"]] = (groupContents (lines sampleText)).map markReadings := by
  obtain ⟨hnames, -, hcontents, -⟩ := groups_contents ofText_sampleText
  exact ⟨ofText_sampleText, hnames, hcontents⟩

end Flashcards.Markup
