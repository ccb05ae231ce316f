import Flashcards.Proofs.Grammar
import Flashcards.Proofs.Groups
import Flashcards.Proofs.Reading
import Mathlib.Data.List.Nodup

namespace Flashcards.Markup

open Flashcards.Text

/-!
# The listing of a document

A group is shown while the document is read, so what is printed is what the group holds at that
line.  It is also what the group holds in the end, since shown groups are closed.

* `Registry.closed` — the groups that are not being written.
* `Registry.Step.closed_isPrefix` — an accepted line only adds to them.
* `cardsOf?` — the flashcards that a command asks for, taken from given groups.
* `Document.listing_eq_join_cardsOf` — the listing is made of the groups of the document.
-/

/-- The flashcards that a command with some arguments asks for, from the first group of the name
    that comes first. -/
def cardsOf? (gs : List Group) : List String → Option (List String)
  | [] => none
  | name :: formats => (gs.find? fun g => g.name = name).bind fun g => g.cards? formats

/-- A group is found by its name if no other group has it. -/
theorem find?_name_of_mem {gs : List Group} {g : Group} (h : (gs.map Group.name).Nodup)
    (hg : g ∈ gs) : (gs.find? fun g' => g'.name = g.name) = some g := by
  have hfound : (gs.find? fun g' => g'.name = g.name).isSome :=
    List.find?_isSome.mpr ⟨g, hg, by simp⟩
  obtain ⟨g', hg'⟩ := Option.isSome_iff_exists.mp hfound
  have hname : g'.name = g.name := by simpa using List.find?_some hg'
  obtain rfl : g' = g := List.inj_on_of_nodup_map h (List.mem_of_find?_eq_some hg') hg hname
  exact hg'

namespace Registry

/-- The groups that are not being written. -/
def closed (r : Registry) : List Group :=
  r.groups.toList.take (r.current.getD r.groups.size)

variable {r next : Registry} {line printed : String} {gs : List Group}

/-- With no group open, all groups are closed. -/
theorem closed_of_current_eq_none (hc : r.current = none) : r.closed = r.groups.toList := by
  rw [closed, hc]
  exact List.take_of_length_le (by simp)

/-- Groups that are closed stay as they are. -/
theorem Step.closed_isPrefix (hs : r.Step line next printed) : r.closed <+: next.closed := by
  cases hs with
  | blank => exact List.prefix_rfl
  | comment => exact List.prefix_rfl
  | endFile => exact List.prefix_rfl
  | showing => exact List.prefix_rfl
  | opening hw hc hn =>
    rw [closed_of_current_eq_none hc]
    simp [closed]
  | closing hw hc hg hd =>
    -- The group that is closed joins the others at their end.
    rw [closed_of_current_eq_none (r := { r with current := none }) rfl]
    exact List.take_prefix ..
  | content hl hc hg => simp [closed, hc, List.take_set_of_le]

/-- Lines leave the groups that are closed before them as they are. -/
theorem readLines_closed_isPrefix {ls texts : List String} {n : Nat}
    (hr : r.readLines n ls = .ok (next, texts)) : r.closed <+: next.closed := by
  induction ls generalizing r n texts with
  | nil =>
    obtain ⟨rfl, -⟩ := readLines_nil_eq_ok_iff.mp hr
    exact List.prefix_rfl
  | cons line ls ih =>
    obtain ⟨r', printed, more, ha, hr, -⟩ := readLines_cons_eq_ok_iff.mp hr
    exact (accept_eq_ok_iff.mp ha).closed_isPrefix.trans (ih hr)

/-- A line that prints anything shows a group that is closed. -/
theorem Sound.printed_cases (h : r.Sound) (hs : r.Step line next printed) :
    (words line).head? ≠ some "#showgroup" ∧ printed = "" ∨
      ∃ g formats, words line = "#showgroup" :: g.name :: formats ∧ g ∈ r.closed ∧
        g.display formats = .ok printed := by
  cases hs with
  | blank => exact .inl ⟨by decide, rfl⟩
  | comment hw => exact .inl ⟨by simp [hw], rfl⟩
  | endFile hw => exact .inl ⟨by simp [hw, endOfFile], rfl⟩
  | opening hw => exact .inl ⟨by simp [hw], rfl⟩
  | closing hw => exact .inl ⟨by simp [hw], rfl⟩
  | content hl => exact .inl ⟨hl.head?_words_ne rfl, rfl⟩
  | showing hw hc hn hg hp =>
    obtain ⟨g, hg', rfl⟩ := (h.lookup_eq_some_iff _ _).mp hn
    obtain rfl := Option.some.inj (hg.symm.trans hg')
    refine .inr ⟨_, _, hw, ?_, hp⟩
    rw [closed_of_current_eq_none hc, Array.mem_toList_iff]
    exact Array.mem_of_getElem? hg

/-- What a line prints can be read off any groups that begin with those closed so far. -/
theorem Sound.printed_eq_join (h : r.Sound) (hs : r.Step line next printed)
    (hgs : r.closed <+: gs) (hnodup : (gs.map Group.name).Nodup) :
    ∃ pieces, (argumentsOf "#showgroup" [line]).mapM (cardsOf? gs) = some pieces ∧
      printed = String.join pieces.flatten := by
  rcases h.printed_cases hs with ⟨hw, rfl⟩ | ⟨g, formats, hw, hg, hp⟩
  · refine ⟨[], ?_, rfl⟩
    rw [argumentsOf_eq_nil (by simpa using hw)]
    rfl
  · obtain ⟨-, cards, hcards, rfl⟩ := Group.display_eq_ok_iff.mp hp
    have hfound := find?_name_of_mem hnodup (hgs.subset hg)
    refine ⟨[cards], ?_, by simp⟩
    rw [argumentsOf_singleton hw, List.mapM_cons, cardsOf?, hfound, Option.bind_some, hcards]
    rfl

/-- What lines print can be read off any groups that begin with those closed in the end. -/
theorem Sound.join_printed {ls texts : List String} {n : Nat} (h : r.Sound)
    (hr : r.readLines n ls = .ok (next, texts)) (hgs : next.closed <+: gs)
    (hnodup : (gs.map Group.name).Nodup) :
    ∃ pieces, (argumentsOf "#showgroup" ls).mapM (cardsOf? gs) = some pieces ∧
      String.join texts = String.join pieces.flatten := by
  induction ls generalizing r n texts with
  | nil =>
    obtain ⟨-, rfl⟩ := readLines_nil_eq_ok_iff.mp hr
    exact ⟨[], rfl, rfl⟩
  | cons line ls ih =>
    obtain ⟨r', printed, more, ha, hrest, rfl⟩ := readLines_cons_eq_ok_iff.mp hr
    have hs := accept_eq_ok_iff.mp ha
    -- The groups closed so far are still among `gs`, whatever the other lines do.
    have hprefix := (readLines_closed_isPrefix hr).trans hgs
    obtain ⟨first, hfirst, rfl⟩ := h.printed_eq_join hs hprefix hnodup
    obtain ⟨others, hothers, hmore⟩ := ih (h.step hs) hrest
    refine ⟨first ++ others, ?_, by simp [hmore]⟩
    rw [← List.singleton_append, argumentsOf_append, List.mapM_append, hfirst, hothers]
    rfl

end Registry

/-- **The listing is that of the final groups.**  No two groups have the same name, what is printed
    is, one command after the other, the flashcards of the final groups, and a group that is closed
    after some of the lines is a final group. -/
theorem Document.listing_eq_join_cardsOf {text : String} {d : Document} (h : ofText text = .ok d) :
    (d.groups.map Group.name).Nodup ∧
      (∃ pieces, (argumentsOf "#showgroup" (lines text)).mapM (cardsOf? d.groups) = some pieces ∧
        d.listing = String.join pieces.flatten) ∧
      ∀ xs ys, xs ++ ys = lines text → ∃ r texts,
        Registry.empty.readLines 1 xs = .ok (r, texts) ∧ r.closed <+: d.groups := by
  obtain ⟨r, texts, hread, hc, rfl⟩ := ofLines_eq_ok_iff.mp h
  have hsound := Registry.empty_sound.readLines hread
  have hclosed := Registry.closed_of_current_eq_none hc
  refine ⟨hsound.names_nodup, ?_, ?_⟩
  · exact Registry.empty_sound.join_printed hread (hclosed ▸ List.prefix_rfl) hsound.names_nodup
  · intro xs ys hcut
    rw [← hcut] at hread
    obtain ⟨r', ts, us, hxs, hys, -⟩ := Registry.readLines_append_eq_ok_iff.mp hread
    exact ⟨r', ts, hxs, hclosed ▸ Registry.readLines_closed_isPrefix hys⟩

/-- The listing of the sample is read off its one group. -/
theorem Document.listing_sample :
    ofText sampleText = .ok sample ∧
      ∃ pieces, (argumentsOf "#showgroup" (lines sampleText)).mapM (cardsOf? sample.groups) =
        some pieces ∧ "一\tyī: one\n" = String.join pieces.flatten := by
  obtain ⟨-, hlisting, -⟩ := listing_eq_join_cardsOf ofText_sampleText
  exact ⟨ofText_sampleText, hlisting⟩

end Flashcards.Markup
