import Flashcards.Markup.Line
import Mathlib.Data.List.Basic

namespace Flashcards.Markup

open Flashcards.Text

/-!
# The grammar of documents

A document is a list of items.  An item is one line, but for a block, which is a group from the
line that opens it to the line that closes it.  What an item may be depends on the items before it
only through the blocks among them.

* `Item.lines` — the lines of an item.
* `Item.Fits` — an item is right after some other items.
* `WellFormed` — each item of a document is right after those before it.
-/

/-! ### Lines -/

/-- A line whose first word is `##`. -/
def IsComment (line : String) : Prop :=
  (words line).head? = some "##"

/-- A line that may stand anywhere, but for content, which stands in groups. -/
def IsPlain (line : String) : Prop :=
  line = "" ∨ IsComment line ∨ IsContent line

/-- The lines of content among some lines. -/
def contents (ls : List String) : List String :=
  ls.filter fun line => IsContent line

/-- The arguments of each command of some name among some lines. -/
def argumentsOf (name : String) (ls : List String) : List (List String) :=
  (ls.filter fun line => (words line).head? = some name).map fun line => (words line).tail

/-! ### Items -/

/-- A group as it is written, up to the line that closes it. -/
structure Block where
  /-- The line that opens the group. -/
  opening : String
  name : String
  /-- The lines after it. -/
  body : List String

/-- The lines of a block. -/
def Block.lines (b : Block) : List String :=
  b.opening :: b.body

/-- A part of a document. -/
inductive Item where
  | blank
  | comment (line : String)
  | endFile (line : String)
  | block (b : Block) (closing : String)
  | showGroup (line name : String) (formats : List String)

namespace Item

/-- The lines of an item. -/
def lines : Item → List String
  | blank => [""]
  | comment line => [line]
  | endFile line => [line]
  | block b closing => b.lines ++ [closing]
  | showGroup line _ _ => [line]

/-- The block that an item is. -/
def block? : Item → Option Block
  | block b _ => some b
  | _ => none

end Item

/-- The blocks among some items. -/
def blocks (items : List Item) : List Block :=
  items.filterMap Item.block?

/-- A block is right after some items: it has a new name and no commands in its body. -/
def Block.Fits (earlier : List Item) (b : Block) : Prop :=
  words b.opening = ["#group", b.name] ∧ (∀ e ∈ blocks earlier, e.name ≠ b.name) ∧
    ∀ line ∈ b.body, IsPlain line

/-- An item is right after some other items.  Content comes in threes, and the formats of a group
    matter when it has any content. -/
def Item.Fits (earlier : List Item) : Item → Prop
  | blank => True
  | comment line => IsComment line
  | endFile line => words line = [endOfFile]
  | block b closing =>
    b.Fits earlier ∧ 3 ∣ (contents b.body).length ∧ words closing = ["#endgroup"]
  | showGroup line name formats =>
    words line = "#showgroup" :: name :: formats ∧ formats ≠ [] ∧
      ∃ b ∈ blocks earlier, b.name = name ∧
        (contents b.body ≠ [] → ∀ f ∈ formats, f = "reading" ∨ f = "writing")

/-- Each item is right after those before it. -/
def WellFormed (items : List Item) : Prop :=
  ∀ earlier item later, items = earlier ++ item :: later → item.Fits earlier

/-! ### Content and commands of lines, blocks of items -/

/-- The content of two parts is that of the one and then of the other. -/
theorem contents_append (xs ys : List String) : contents (xs ++ ys) = contents xs ++ contents ys :=
  List.filter_append ..

/-- A single line is content or not. -/
theorem contents_singleton (line : String) :
    contents [line] = if IsContent line then [line] else [] := by
  by_cases h : IsContent line <;> simp [contents, h]

theorem argumentsOf_append (name : String) (xs ys : List String) :
    argumentsOf name (xs ++ ys) = argumentsOf name xs ++ argumentsOf name ys := by
  simp [argumentsOf]

/-- What stands behind the first word of a single line. -/
theorem argumentsOf_singleton {name line : String} {arguments : List String}
    (hw : words line = name :: arguments) : argumentsOf name [line] = [arguments] := by
  simp [argumentsOf, hw]

/-- Nothing stands behind a word that is the first of no line. -/
theorem argumentsOf_eq_nil {name : String} {ls : List String}
    (h : ∀ line ∈ ls, (words line).head? ≠ some name) : argumentsOf name ls = [] := by
  simpa [argumentsOf] using h

/-- The arguments of a command are the words behind its name. -/
theorem mem_argumentsOf_iff {name : String} {arguments ls : List String} :
    arguments ∈ argumentsOf name ls ↔ ∃ line ∈ ls, words line = name :: arguments := by
  simp only [argumentsOf, List.mem_map, List.mem_filter, decide_eq_true_eq, and_assoc]
  refine exists_congr fun line => and_congr_right fun _ => ?_
  constructor
  · rintro ⟨hhead, rfl⟩
    obtain ⟨rest, hrest⟩ := List.head?_eq_some_iff.mp hhead
    simp [hrest]
  · intro hw
    simp [hw]

theorem not_isContent_empty : ¬ IsContent "" :=
  fun h => h.1 rfl

/-- A comment is no content. -/
theorem IsComment.not_isContent {line : String} (h : IsComment line) : ¬ IsContent line :=
  fun hl => hl.head?_words_ne rfl h

/-- The only command that may stand anywhere is the comment. -/
theorem IsPlain.head?_words_ne {line name : String} (h : IsPlain line) (hname : name ≠ "##")
    (hn : name.toList.head? = some '#') : (words line).head? ≠ some name := by
  intro hw
  rcases h with rfl | hcomment | hcontent
  · obtain rfl : "" = name := Option.some.inj hw
    exact absurd hn (by decide)
  · exact hname (Option.some.inj (hw.symm.trans hcomment))
  · exact hcontent.head?_words_ne hn hw

theorem blocks_append (xs ys : List Item) : blocks (xs ++ ys) = blocks xs ++ blocks ys :=
  List.filterMap_append ..

/-- A document can be judged item by item. -/
theorem wellFormed_concat_iff {items : List Item} {item : Item} :
    WellFormed (items ++ [item]) ↔ WellFormed items ∧ item.Fits items := by
  constructor
  · intro h
    refine ⟨fun earlier i later heq => h earlier i (later ++ [item]) ?_, h items item [] rfl⟩
    simp [heq]
  · rintro ⟨hitems, hitem⟩ earlier i later heq
    -- A cut of `items ++ [item]` is before `item` or within `items`.
    rcases List.eq_nil_or_concat later with rfl | ⟨later, last, rfl⟩
    · obtain ⟨rfl, hi⟩ := List.append_inj' heq rfl
      obtain rfl : item = i := by simpa using hi
      exact hitem
    · have hsplit : items ++ [item] = (earlier ++ i :: later) ++ [last] := by simpa using heq
      obtain ⟨hfront, -⟩ := List.append_inj' hsplit rfl
      exact hitems earlier i later hfront

theorem wellFormed_nil : WellFormed [] := by
  intro earlier item later heq
  exact absurd heq.symm (by simp)

/-- Every item of a well-formed document fits the items before it. -/
theorem WellFormed.exists_fits {items : List Item} {item : Item} (h : WellFormed items)
    (hitem : item ∈ items) : ∃ earlier, item.Fits earlier := by
  obtain ⟨earlier, later, heq⟩ := List.append_of_mem hitem
  exact ⟨earlier, h earlier item later heq⟩

/-- Every block of a well-formed document has its content in threes. -/
theorem WellFormed.dvd_of_mem {items : List Item} {b : Block} (h : WellFormed items)
    (hb : b ∈ blocks items) : 3 ∣ (contents b.body).length := by
  obtain ⟨item, hitem, hblock⟩ := List.mem_filterMap.mp hb
  obtain ⟨earlier, hfits⟩ := h.exists_fits hitem
  cases item with
  | block b' closing =>
    obtain rfl : b' = b := Option.some.inj hblock
    exact hfits.2.1
  | blank => exact absurd hblock (by simp [Item.block?])
  | comment => exact absurd hblock (by simp [Item.block?])
  | endFile => exact absurd hblock (by simp [Item.block?])
  | showGroup => exact absurd hblock (by simp [Item.block?])

end Flashcards.Markup
