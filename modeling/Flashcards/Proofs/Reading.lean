import Flashcards.Markup.Document

namespace Flashcards.Markup

open Flashcards.Text

/-!
# Reading lines

* `Registry.sound_of_readLines` — whatever lines are accepted, the registry after them is sound and
  can take any line.
* `Registry.readLines_append_eq_ok_iff` — lines are accepted when their first part is accepted and
  the rest is accepted by the registry that the first part leaves.
* `Document.ofLines_eq_ok_iff` — a document is accepted when its lines are and leave no group open.
-/

namespace Registry

variable {r next : Registry} {n : Nat} {line printed : String} {texts : List String}

/-- **Accepted lines lead to a sound registry.**  Any further line has a first word and finds each
    group that it refers to, and no group is about to lose a reading that has no headword. -/
theorem sound_of_readLines {ls : List String} (h : empty.readLines n ls = .ok (r, texts)) :
    r.Sound ∧ (∀ line, words line ≠ [] ∧ r.accept line ≠ .error .lost) ∧
      ∀ g ∈ r.groups, ¬ (g.pendingHeadword = none ∧ g.pendingReading.isSome) := by
  have hsound := empty_sound.readLines h
  refine ⟨hsound, fun line => ⟨words_ne_nil line, hsound.accept_ne_lost line⟩, ?_⟩
  rintro g hg ⟨hhead, hread⟩
  obtain ⟨place, hplace⟩ := Array.getElem?_of_mem hg
  -- In the open group a reading comes after its headword; in the others nothing waits.
  by_cases hc : r.current = some place
  · have hordered := hsound.current_ordered place g hplace hc hread
    simp [hhead] at hordered
  · obtain ⟨-, hnone⟩ := hsound.others_complete place g hplace hc
    simp [hnone] at hread

/-- A group may be left in the middle of a term. -/
theorem sound_unfinished :
    empty.readLines 1 ["#group numbers", "一", "yi1"] =
        .ok (⟨#[⟨"numbers", [], some "一", some "yi1"⟩], [("numbers", 0)], some 0⟩, ["", "", ""]) ∧
      Sound ⟨#[⟨"numbers", [], some "一", some "yi1"⟩], [("numbers", 0)], some 0⟩ := by
  have hread : empty.readLines 1 ["#group numbers", "一", "yi1"] =
      .ok (⟨#[⟨"numbers", [], some "一", some "yi1"⟩], [("numbers", 0)], some 0⟩, ["", "", ""]) := by
    rfl
  exact ⟨hread, (sound_of_readLines hread).1⟩

/-! ### Lines in parts -/

/-- Lines are read in two parts as in one. -/
theorem readLines_append_eq_ok_iff {xs ys : List String} :
    r.readLines n (xs ++ ys) = .ok (next, texts) ↔
      ∃ r' ts us, r.readLines n xs = .ok (r', ts) ∧
        r'.readLines (n + xs.length) ys = .ok (next, us) ∧ ts ++ us = texts := by
  induction xs generalizing r n texts with
  | nil =>
    constructor
    · intro h
      exact ⟨r, [], texts, rfl, h, rfl⟩
    · rintro ⟨_, _, _, hnil, h, rfl⟩
      obtain ⟨rfl, rfl⟩ := readLines_nil_eq_ok_iff.mp hnil
      exact h
  | cons line xs ih =>
    simp only [List.cons_append, readLines_cons_eq_ok_iff, ih, List.length_cons]
    constructor
    · rintro ⟨r₁, t, _, ha, ⟨r₂, ts, us, hxs, hys, rfl⟩, rfl⟩
      refine ⟨r₂, t :: ts, us, ⟨r₁, t, ts, ha, hxs, rfl⟩, ?_, rfl⟩
      rwa [Nat.add_right_comm] at hys
    · rintro ⟨r₂, _, us, ⟨r₁, t, ts, ha, hxs, rfl⟩, hys, rfl⟩
      refine ⟨r₁, t, ts ++ us, ha, ⟨r₂, ts, us, hxs, ?_, rfl⟩, rfl⟩
      rwa [Nat.add_right_comm]

/-- One more line. -/
theorem readLines_concat_eq_ok_iff {ls : List String} :
    r.readLines n (ls ++ [line]) = .ok (next, texts) ↔
      ∃ r' ts printed, r.readLines n ls = .ok (r', ts) ∧ r'.Step line next printed ∧
        ts ++ [printed] = texts := by
  simp only [readLines_append_eq_ok_iff, readLines_cons_eq_ok_iff, accept_eq_ok_iff]
  constructor
  · rintro ⟨r', ts, _, hls, ⟨_, printed, _, hs, hnil, rfl⟩, rfl⟩
    obtain ⟨rfl, rfl⟩ := readLines_nil_eq_ok_iff.mp hnil
    exact ⟨r', ts, printed, hls, hs, rfl⟩
  · rintro ⟨r', ts, printed, hls, hs, rfl⟩
    exact ⟨r', ts, [printed], hls, ⟨next, printed, [], hs, rfl, rfl⟩, rfl⟩

/-- The end of a document is accepted when no group is open. -/
theorem step_endFile_iff (hw : words line = [endOfFile]) :
    r.Step line next printed ↔ r.current = none ∧ r = next ∧ "" = printed := by
  constructor
  · intro hs
    cases hs with
    | blank => exact absurd hw (by decide)
    | comment h => simp [hw, endOfFile] at h
    | endFile _ hc => exact ⟨hc, rfl, rfl⟩
    | opening h => simp [hw] at h
    | closing h => simp [hw, endOfFile] at h
    | showing h => simp [hw] at h
    | content hl => exact absurd hl (not_isContent_of_words hw rfl)
  · rintro ⟨hc, rfl, rfl⟩
    exact .endFile hw hc

end Registry

namespace Document

/-- A document is accepted when its lines are and leave no group open. -/
theorem ofLines_eq_ok_iff {ls : List String} {d : Document} :
    ofLines ls = .ok d ↔
      ∃ r texts, Registry.empty.readLines 1 ls = .ok (r, texts) ∧ r.current = none ∧
        ⟨String.join texts, r.groups.toList⟩ = d := by
  have hread : ofLines ls = .ok d ↔
      ∃ r texts, Registry.empty.readLines 1 (ls ++ [endOfFile]) = .ok (r, texts) ∧
        ⟨String.join texts, r.groups.toList⟩ = d := by
    unfold ofLines
    split
    case h_1 r texts h =>
      simp only [h, Except.ok.injEq, Prod.mk.injEq]
      constructor
      · intro hd
        exact ⟨r, texts, ⟨rfl, rfl⟩, hd⟩
      · rintro ⟨_, _, ⟨rfl, rfl⟩, hd⟩
        exact hd
    case h_2 e h => simp [h]
    case h_3 h => exact absurd h (Registry.empty_sound.readLines_ne_lost 1 _)
  -- The end of the document is one more line, which changes nothing and prints nothing.
  have hend : words endOfFile = [endOfFile] := by decide
  simp only [hread, Registry.readLines_concat_eq_ok_iff, Registry.step_endFile_iff hend]
  constructor
  · rintro ⟨_, _, ⟨r, ts, _, hls, ⟨hc, rfl, rfl⟩, rfl⟩, rfl⟩
    exact ⟨r, ts, hls, hc, by simp⟩
  · rintro ⟨r, ts, hls, hc, rfl⟩
    exact ⟨r, _, ⟨r, ts, _, hls, ⟨hc, rfl, rfl⟩, rfl⟩, by simp⟩

/-- A text with an empty line and a comment inside a term. -/
def sampleText : String :=
  "#group numbers\n一\nyi1\n\n## its definition:\none\n#endgroup\n#showgroup numbers reading"

/-- The document of that text. -/
def sample : Document :=
  ⟨"一\tyī: one\n", [⟨"numbers", [⟨"一", "yī", "one"⟩], none, none⟩]⟩

/-- The sample is accepted. -/
theorem ofText_sampleText : ofText sampleText = .ok sample := by
  have hlines : lines sampleText = ["#group numbers", "一", "yi1", "", "## its definition:", "one",
      "#endgroup", "#showgroup numbers reading"] := by
    rfl
  have hread : Registry.empty.readLines 1 (lines sampleText) =
      .ok (⟨#[⟨"numbers", [⟨"一", "yī", "one"⟩], none, none⟩], [("numbers", 0)], none⟩,
        ["", "", "", "", "", "", "", "一\tyī: one\n"]) := by
    rw [hlines]
    rfl
  exact ofLines_eq_ok_iff.mpr ⟨_, _, hread, rfl, rfl⟩

end Document

end Flashcards.Markup
