import Flashcards.Proofs.Groups

namespace Flashcards

open Flashcards.Markup

/-!
# What a group displays

A group is displayed term by term, format by format, and a name is looked up at each term.  Said of
the names alone: the first one that is no format's decides, if there is a term to show.

* `firstWrong?` — the first of some names that is no format's.
* `Group.display_eq` — what a group displays.
* `Group.display_append` — the formats of a list can be displayed one part after the other.
* `Group.display_all_or_none` — all formats are displayed, or the first wrong name is told.
-/

/-- The first of some names that is not `reading` or `writing`. -/
def firstWrong? (names : List String) : Option String :=
  names.find? fun name => !(name = "reading" || name = "writing")

/-- The format that one of the names `reading` and `writing` stands for. -/
def formatOf (name : String) : Format :=
  if name = "reading" then .reading else .writing

/-- The first wrong name has only good ones before it. -/
theorem firstWrong?_eq_some_iff {names : List String} {name : String} :
    firstWrong? names = some name ↔
      ∃ good rest, good ++ name :: rest = names ∧ (∀ n ∈ good, n = "reading" ∨ n = "writing") ∧
        ¬ (name = "reading" ∨ name = "writing") := by
  rw [firstWrong?, List.find?_eq_some_iff_append]
  constructor
  · rintro ⟨hname, good, rest, rfl, hgood⟩
    exact ⟨good, rest, rfl, by simpa using hgood, by simpa using hname⟩
  · rintro ⟨good, rest, rfl, hgood, hname⟩
    exact ⟨by simpa using hname, good, rest, rfl, by simpa using hgood⟩

/-- No name is wrong just if all are good. -/
theorem firstWrong?_eq_none_iff {names : List String} :
    firstWrong? names = none ↔ ∀ n ∈ names, n = "reading" ∨ n = "writing" := by
  simp [firstWrong?, or_iff_not_imp_left]

/-- A good name is that of a format. -/
theorem Format.ofName?_of_good {name : String} (h : name = "reading" ∨ name = "writing") :
    Format.ofName? name = some (formatOf name) := by
  rcases h with rfl | rfl <;> decide

namespace Group

/-- The flashcards of a group in some formats, formats outermost. -/
def cardsIn (g : Group) (formats : List Format) : List String :=
  formats.flatMap fun f => g.terms.map fun t => t.render f

/-- The flashcards of a group, if the names at which its terms are met are those of formats. -/
theorem cards?_eq_cardsIn (g : Group) {names : List String}
    (h : g.terms ≠ [] → ∀ n ∈ names, n = "reading" ∨ n = "writing") :
    g.cards? names = some (g.cardsIn (names.map formatOf)) := by
  have hterms : ∀ n ∈ names, (g.terms.mapM fun t => (Format.ofName? n).map t.render) =
      some (g.terms.map fun t => t.render (formatOf n)) := by
    intro n hn
    rw [mapM_eq_some_iff, List.map_map]
    refine List.map_congr_left fun t ht => ?_
    rw [Format.ofName?_of_good (h (List.ne_nil_of_mem ht) n hn)]
    rfl
  have hnames : (names.mapM fun n => g.terms.mapM fun t => (Format.ofName? n).map t.render) =
      some (names.map fun n => g.terms.map fun t => t.render (formatOf n)) := by
    rw [mapM_eq_some_iff, List.map_map]
    exact List.map_congr_left hterms
  rw [cards?, hnames, Option.map_some, cardsIn, List.flatMap_map, List.flatMap_def]

/-- What a group displays is settled by the names, read from left to right. -/
theorem display_eq (g : Group) (names : List String) :
    g.display names =
      if names = [] then .error .noFormats
      else if g.terms = [] then .ok ""
      else
        match firstWrong? names with
        | some name => .error (.unknownFormat name)
        | none => .ok (String.join (g.cardsIn (names.map formatOf))) := by
  split
  case isTrue hnames => exact display_eq_error_iff.mpr (.inl ⟨hnames, rfl⟩)
  case isFalse hnames =>
    split
    case isTrue hterms =>
      -- No name is met, so even a wrong one does no harm.
      have hcards : g.cards? names = some (g.cardsIn (names.map formatOf)) :=
        g.cards?_eq_cardsIn (absurd hterms)
      have hnone : g.cardsIn (names.map formatOf) = [] :=
        List.flatMap_eq_nil_iff.mpr (by simp [hterms])
      rw [hnone] at hcards
      exact display_eq_ok_iff.mpr ⟨hnames, [], hcards, rfl⟩
    case isFalse hterms =>
      cases hwrong : firstWrong? names with
      | some name =>
        obtain ⟨good, rest, hcut, hgood, hname⟩ := firstWrong?_eq_some_iff.mp hwrong
        exact display_eq_error_iff.mpr
          (.inr ⟨hterms, good, name, rest, hcut, hgood, hname, rfl⟩)
      | none =>
        have hcards := g.cards?_eq_cardsIn fun _ => firstWrong?_eq_none_iff.mp hwrong
        exact display_eq_ok_iff.mpr ⟨hnames, _, hcards, rfl⟩

/-- The formats of a list are displayed one part after the other, and the first part that fails
    decides. -/
theorem display_append (g : Group) {a b : List String} (ha : a ≠ []) (hb : b ≠ []) :
    g.display (a ++ b) =
      match g.display a, g.display b with
      | .error f, _ => .error f
      | .ok _, .error f => .error f
      | .ok first, .ok second => .ok (first ++ second) := by
  have hab : a ++ b ≠ [] := by simp [ha]
  have hwrong : firstWrong? (a ++ b) = (firstWrong? a).or (firstWrong? b) := List.find?_append
  have hcards : g.cardsIn ((a ++ b).map formatOf) =
      g.cardsIn (a.map formatOf) ++ g.cardsIn (b.map formatOf) := by simp [cardsIn]
  rw [display_eq, display_eq, display_eq, if_neg hab, if_neg ha, if_neg hb, hwrong, hcards]
  by_cases hterms : g.terms = []
  · simp [hterms]
  · simp only [if_neg hterms]
    cases firstWrong? a with
    | some name => rfl
    | none =>
      cases firstWrong? b with
      | some name => rfl
      | none => simp

/-- **A group is displayed in all formats of a list or in none.**  It is refused for the empty list.
    A group without terms shows nothing, whatever the names are.  Another one is refused for the
    first name that is no format's; if there is none, its flashcards are shown in every format, one
    format after the other. -/
theorem display_all_or_none (g : Group) (names : List String) :
    (g.display names = .error .noFormats ↔ names = []) ∧
      (names ≠ [] → g.terms = [] → g.display names = .ok "") ∧
      (names ≠ [] → g.terms ≠ [] →
        (∀ name, g.display names = .error (.unknownFormat name) ↔ firstWrong? names = some name) ∧
        (firstWrong? names = none →
          g.display names = .ok (String.join (g.cardsIn (names.map formatOf))))) ∧
      ∀ a b, a ≠ [] → b ≠ [] →
        g.display (a ++ b) =
          match g.display a, g.display b with
          | .error f, _ => .error f
          | .ok _, .error f => .error f
          | .ok first, .ok second => .ok (first ++ second) := by
  refine ⟨?_, ?_, ?_, fun a b => g.display_append⟩
  · rw [display_eq_error_iff]
    simp
  · intro hnames hterms
    rw [display_eq, if_neg hnames, if_pos hterms]
  · intro hnames hterms
    rw [display_eq, if_neg hnames, if_neg hterms]
    cases firstWrong? names with
    | some first => simp
    | none => simp

/-- A group with one term and the headword of another.  The wrong name behind a good one is met, and
    two formats are shown as each of them is. -/
theorem display_unfinished :
    let g : Group := ⟨"numbers", [⟨"一", "yī", "one"⟩], some "二", none⟩
    g.isDirty = true ∧
      g.display ["reading", "Writing", "none"] = .error (.unknownFormat "Writing") ∧
      g.display ["writing", "reading"] = .ok "one\tyī: 一\n一\tyī: one\n" ∧
      (empty "numbers").display ["none"] = .ok "" := by
  intro g
  obtain ⟨-, -, hwrong, -⟩ := display_all_or_none g ["reading", "Writing", "none"]
  obtain ⟨-, -, hshown, happend⟩ := display_all_or_none g ["writing"]
  obtain ⟨-, hempty, -⟩ := display_all_or_none (empty "numbers") ["none"]
  obtain ⟨-, -, hother, -⟩ := display_all_or_none g ["reading"]
  have hterms : g.terms ≠ [] := by decide
  have happend := happend ["writing"] ["reading"] (by decide) (by decide)
  rw [(hshown (by decide) hterms).2 (by decide), (hother (by decide) hterms).2 (by decide)]
    at happend
  exact ⟨rfl, ((hwrong (by decide) hterms).1 _).mpr (by decide), happend,
    hempty (by decide) (by decide)⟩

end Group

end Flashcards
