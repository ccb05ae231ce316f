import Flashcards.Proofs.LiveDigits
import Mathlib.Data.Set.Function

namespace Flashcards.Pinyin

/-!
# The way back from tone marks

A reading whose runs of letters stand apart is got back from what is written of it: the mark of a
run becomes a digit behind the run again.

* `markOf?`, `unmarkLetter` — the vowel and the tone of a marked letter, and the letter without
  its mark.
* `unmarkTones` — a written reading with tone numbers for tone marks.
* `spacedReadings` — the readings without marks, and without a letter right behind a live digit.
* `unmarkTones_leftInvOn` — such readings are got back, so that no two of them are written alike.
-/

/-! ### Written letters -/

/-- The vowel and the tone that a marked letter shows. -/
def markOf? (c : Char) : Option (Vowel × Tone) :=
  toneTokens.find? fun p => p.1.marked p.2 = c

/-- A letter as it may stand in what is written: plain, marked, or `ü`. -/
def isWrittenLetter (c : Char) : Bool :=
  c.isAlpha || (markOf? c).isSome || c = 'ü'

/-- A written letter as it is typed, without its mark. -/
def unmarkLetter (c : Char) : Char :=
  match markOf? c with
  | some (w, _) => w.letter
  | none => if c = 'ü' then 'v' else c

/-- A run of written letters as it is typed: without its mark, and with the tone of the mark behind
    it. -/
def unmarkRun (run : List Char) : List Char :=
  run.map unmarkLetter ++ (run.findSome? markOf?).toList.map fun p => p.2.digit

/-- The characters of a written reading with tone numbers for tone marks. -/
def unmarkToneChars (cs : List Char) : List Char :=
  (cs.splitBy fun b c => isWrittenLetter b && isWrittenLetter c).flatMap unmarkRun

/-- A written reading with tone numbers for tone marks. -/
def unmarkTones (written : String) : String :=
  String.ofList (unmarkToneChars written.toList)

/-! ### Readings that can be got back -/

/-- No character is a marked letter or `ü`. -/
def IsUnmarked (cs : List Char) : Prop :=
  ∀ c ∈ cs, (∀ (w : Vowel) (t : Tone), w.marked t ≠ c) ∧ c ≠ 'ü'

/-- No live digit has a letter right behind it. -/
def RunsApart (cs : List Char) : Prop :=
  ∀ i, IsLiveAt cs i → cs[i + 1]?.any Char.isAlpha = false

/-- The readings that have no marks yet, and no letter right behind a live digit. -/
def spacedReadings : Set String :=
  {s | IsUnmarked s.toList ∧ RunsApart s.toList}

variable {run before after cs as bs : List Char} {c : Char}

/-! ### Marks and letters -/

/-- A marked letter shows its vowel and its tone. -/
theorem markOf?_marked (w : Vowel) (t : Tone) : markOf? (w.marked t) = some (w, t) := by
  cases w <;> cases t <;> decide

/-- A character shows no mark just if it is none of the marked letters. -/
theorem markOf?_eq_none_iff : markOf? c = none ↔ ∀ (w : Vowel) (t : Tone), w.marked t ≠ c := by
  constructor
  · rintro h w t rfl
    rw [markOf?_marked] at h
    exact absurd h (by simp)
  · intro h
    rw [markOf?, List.find?_eq_none]
    simpa using fun w t _ => h w t

/-- A letter is not marked. -/
theorem markOf?_of_isAlpha (h : c.isAlpha = true) : markOf? c = none := by
  rw [markOf?_eq_none_iff]
  rintro w t rfl
  revert h
  cases w <;> cases t <;> decide

/-- A marked letter is spelled as it is. -/
theorem spellUmlaut_marked (w : Vowel) (t : Tone) : spellUmlaut (w.marked t) = w.marked t := by
  cases w <;> cases t <;> decide

/-- A plain letter shows no mark, also where it is spelled `ü`. -/
theorem markOf?_spellUmlaut (h : c.isAlpha = true) : markOf? (spellUmlaut c) = none := by
  unfold spellUmlaut
  split
  · decide
  · exact markOf?_of_isAlpha h

/-- A marked letter is typed as its vowel. -/
theorem unmarkLetter_marked (w : Vowel) (t : Tone) : unmarkLetter (w.marked t) = w.letter := by
  rw [unmarkLetter, markOf?_marked]

/-- A letter without a mark is typed as it is, unless it is `ü`. -/
theorem unmarkLetter_of_ne (h : markOf? c = none) (hc : c ≠ 'ü') : unmarkLetter c = c := by
  rw [unmarkLetter, h]
  exact if_neg hc

/-- A letter is spelled so that it is known again. -/
theorem unmarkLetter_spellUmlaut (h : c.isAlpha = true) : unmarkLetter (spellUmlaut c) = c := by
  by_cases hv : c = 'v'
  · subst hv
    decide
  · have hsame : spellUmlaut c = c := if_neg hv
    have hc : c ≠ 'ü' := by
      rintro rfl
      exact absurd h (by decide)
    rw [hsame, unmarkLetter_of_ne (markOf?_of_isAlpha h) hc]

/-- Marked letters may stand in what is written. -/
theorem isWrittenLetter_marked (w : Vowel) (t : Tone) : isWrittenLetter (w.marked t) = true := by
  simp [isWrittenLetter, markOf?_marked]

theorem isWrittenLetter_spelled (hrun : ∀ x ∈ run, x.isAlpha = true) :
    ∀ x ∈ run.map spellUmlaut, isWrittenLetter x = true := by
  rw [List.forall_mem_map]
  intro x hx
  unfold spellUmlaut
  split
  · decide
  · simp [isWrittenLetter, hrun x hx]

/-- The characters of a reading without marks that are no letters. -/
theorem isWrittenLetter_eq_false (hc : c.isAlpha = false) (hm : markOf? c = none) (hu : c ≠ 'ü') :
    isWrittenLetter c = false := by
  simp [isWrittenLetter, hc, hm, hu]

/-! ### Runs of written letters -/

/-- Plain letters are got back from their spelling. -/
theorem map_unmarkLetter_spelled (hrun : ∀ x ∈ run, x.isAlpha = true) :
    (run.map spellUmlaut).map unmarkLetter = run := by
  rw [List.map_map]
  exact (List.map_congr_left fun x hx => unmarkLetter_spellUmlaut (hrun x hx)).trans
    (List.map_id run)

/-- No mark is found among plain letters. -/
theorem findSome?_markOf?_spelled (hrun : ∀ x ∈ run, x.isAlpha = true) :
    (run.map spellUmlaut).findSome? markOf? = none := by
  rw [List.findSome?_eq_none_iff, List.forall_mem_map]
  exact fun x hx => markOf?_spellUmlaut (hrun x hx)

/-- A run without a mark is got back as it was. -/
theorem unmarkRun_spelled (hrun : ∀ x ∈ run, x.isAlpha = true) :
    unmarkRun (run.map spellUmlaut) = run := by
  rw [unmarkRun, map_unmarkLetter_spelled hrun, findSome?_markOf?_spelled hrun]
  simp

/-- The mark of a run becomes a digit behind it. -/
theorem unmarkRun_marked (hb : ∀ x ∈ before, x.isAlpha = true)
    (ha : ∀ x ∈ after, x.isAlpha = true) (w : Vowel) (t : Tone) :
    unmarkRun (before.map spellUmlaut ++ w.marked t :: after.map spellUmlaut) =
      before ++ w.letter :: after ++ [t.digit] := by
  rw [unmarkRun, List.map_append, List.map_cons, map_unmarkLetter_spelled hb,
    map_unmarkLetter_spelled ha, unmarkLetter_marked, List.findSome?_append,
    findSome?_markOf?_spelled hb, List.findSome?_cons, markOf?_marked]
  rfl

/-! ### Written readings cut into runs -/

/-- What is written may be cut where two letters do not meet. -/
theorem unmarkToneChars_append
    (h : ∀ x ∈ as.getLast?, ∀ y ∈ bs.head?, (isWrittenLetter x && isWrittenLetter y) = false) :
    unmarkToneChars (as ++ bs) = unmarkToneChars as ++ unmarkToneChars bs := by
  rw [unmarkToneChars, List.splitBy_append h, List.flatMap_append]
  rfl

theorem unmarkToneChars_of_letters (hrun : ∀ x ∈ run, isWrittenLetter x = true) :
    unmarkToneChars run = unmarkRun run := by
  by_cases hne : run = []
  · subst hne
    rfl
  · have hpairs : run.Pairwise fun b c => (isWrittenLetter b && isWrittenLetter c) = true := by
      refine List.pairwise_of_forall_mem_list fun b hb c hc => ?_
      rw [hrun b hb, hrun c hc]
      rfl
    rw [unmarkToneChars, List.splitBy_of_isChain hne hpairs.isChain, List.flatMap_singleton]

/-- A character that is no written letter stays, and cuts the reading in two. -/
theorem unmarkToneChars_append_cons (hc : c.isAlpha = false) (hm : markOf? c = none) (hu : c ≠ 'ü')
    (as bs : List Char) :
    unmarkToneChars (as ++ c :: bs) = unmarkToneChars as ++ c :: unmarkToneChars bs := by
  have hother : isWrittenLetter c = false := isWrittenLetter_eq_false hc hm hu
  have hsingle : unmarkToneChars [c] = [c] := by
    show unmarkRun [c] ++ [] = [c]
    simp [unmarkRun, unmarkLetter_of_ne hm hu, hm]
  have hbehind : unmarkToneChars (c :: bs) = c :: unmarkToneChars bs := by
    rw [← List.singleton_append, unmarkToneChars_append (by simp [hother]), hsingle]
    rfl
  rw [unmarkToneChars_append (by simp [hother]), hbehind]

/-! ### Readings got back -/

/-- What is written begins as the reading does, where that is no letter. -/
theorem head?_markToneChars (h : cs.head?.any Char.isAlpha = false) :
    (markToneChars cs).head? = cs.head? := by
  cases cs with
  | nil => rfl
  | cons c cs =>
    have hc : c.isAlpha = false := h
    have hclose : closeRun [] c = [c] := closeRun_of_toneless (.inl (by simp))
    have hnone : ∀ x ∈ ([] : List Char), x.isAlpha = true := by simp
    have hfirst := markToneChars_append_cons hnone hc cs
    rw [hclose, List.map_singleton, spellUmlaut_of_isAlpha_eq_false hc] at hfirst
    rw [← List.nil_append (c :: cs), hfirst]
    rfl

/-- Runs that stand apart do so behind any character that is no letter. -/
theorem RunsApart.behind (h : RunsApart (run ++ c :: cs)) (hc : c.isAlpha = false) :
    RunsApart cs := by
  intro i hi
  have hnext := h (run.length + 1 + i) ((isLiveAt_behind_iff hc).mpr hi)
  rwa [Nat.add_assoc, getElem?_length_add] at hnext

/-- Behind a run that takes a tone, and its digit, there is no letter. -/
theorem RunsApart.head (h : RunsApart (run ++ c :: cs)) (hrun : ∀ x ∈ run, x.isAlpha = true)
    (htone : TakesTone run c) : cs.head?.any Char.isAlpha = false := by
  have hnext := h run.length ((isLiveAt_length_iff hrun).mpr htone)
  rwa [← Nat.add_zero (run.length + 1), getElem?_length_add, ← List.head?_eq_getElem?] at hnext

/-- **A reading whose runs stand apart is got back from what is written of it.** -/
theorem unmarkToneChars_markToneChars (hu : IsUnmarked cs) (ha : RunsApart cs) :
    unmarkToneChars (markToneChars cs) = cs := by
  induction cs using pieceInduction with
  | last run hrun =>
    rw [markToneChars, moveTones_of_letters hrun,
      unmarkToneChars_of_letters (isWrittenLetter_spelled hrun), unmarkRun_spelled hrun]
  | more run c cs hrun hc ih =>
    have hrest : unmarkToneChars (markToneChars cs) = cs :=
      ih (fun x hx => hu x (by simp [hx])) (ha.behind hc)
    rw [markToneChars_append_cons hrun hc]
    by_cases htone : TakesTone run c
    · -- The digit is gone, but what follows does not go on with the run.
      have hhead : ∀ y ∈ (markToneChars cs).head?, isWrittenLetter y = false := by
        intro y hy
        have hother := ha.head hrun htone
        rw [head?_markToneChars hother] at hy
        have hletter : y.isAlpha = false := by simpa [Option.mem_def.mp hy] using hother
        obtain ⟨hmark, hne⟩ := hu y (by simp [List.mem_of_head? hy])
        exact isWrittenLetter_eq_false hletter (markOf?_eq_none_iff.mpr hmark) hne
      obtain ⟨before, v, after, w, t, rfl, hm, hw, ht⟩ := exists_mainVowel_of_takesTone htone
      have hbefore : ∀ x ∈ before, x.isAlpha = true := fun x hx => hrun x (by simp [hx])
      have hafter : ∀ x ∈ after, x.isAlpha = true := fun x hx => hrun x (by simp [hx])
      have hwritten : (closeRun (before ++ v :: after) c).map spellUmlaut =
          before.map spellUmlaut ++ w.marked t :: after.map spellUmlaut := by
        rw [closeRun_of_isMainVowel hm hw ht, List.map_append, List.map_cons, spellUmlaut_marked]
      have hletters : ∀ x ∈ before.map spellUmlaut ++ w.marked t :: after.map spellUmlaut,
          isWrittenLetter x = true := by
        rw [List.forall_mem_append, List.forall_mem_cons]
        exact ⟨isWrittenLetter_spelled hbefore, isWrittenLetter_marked w t,
          isWrittenLetter_spelled hafter⟩
      rw [hwritten, unmarkToneChars_append fun x _ y hy => by rw [hhead y hy, Bool.and_false],
        unmarkToneChars_of_letters hletters, unmarkRun_marked hbefore hafter, hrest,
        Vowel.ofChar?_eq_some_iff.mp hw, Tone.ofDigit?_eq_some_iff.mp ht]
      simp
    · obtain ⟨hmark, hne⟩ := hu c (by simp)
      rw [closeRun_of_not_takesTone htone, List.map_append, List.map_singleton,
        spellUmlaut_of_isAlpha_eq_false hc, List.append_assoc, List.singleton_append,
        unmarkToneChars_append_cons hc (markOf?_eq_none_iff.mpr hmark) hne,
        unmarkToneChars_of_letters (isWrittenLetter_spelled hrun), unmarkRun_spelled hrun, hrest]

/-- **Readings whose runs stand apart are got back from what is written of them**, so that no two of
    them are written alike. -/
theorem unmarkTones_leftInvOn :
    Set.LeftInvOn unmarkTones markTones spacedReadings ∧ Set.InjOn markTones spacedReadings := by
  have hback : Set.LeftInvOn unmarkTones markTones spacedReadings := by
    rintro s ⟨hu, ha⟩
    rw [unmarkTones, markTones, String.toList_ofList, unmarkToneChars_markToneChars hu ha,
      String.ofList_toList]
  exact ⟨hback, hback.injOn⟩

/-- A reading with a digit that is left behind a mark, a `v` without a tone, and capital letters. -/
def sampleReading : String := "hao33 nv3 lve LV4"

theorem sampleReading_spaced : sampleReading ∈ spacedReadings := by
  constructor
  · have hall : sampleReading.toList.all fun c => decide (markOf? c = none ∧ c ≠ 'ü') := by decide
    intro c hc
    obtain ⟨hmark, hne⟩ := of_decide_eq_true (List.all_eq_true.mp hall c hc)
    exact ⟨markOf?_eq_none_iff.mp hmark, hne⟩
  · intro i hi
    obtain ⟨d, -, hd, -⟩ := isToneAt_iff.mp hi.1
    have hall : ∀ i < 17, IsLiveAt sampleReading.toList i →
        sampleReading.toList[i + 1]?.any Char.isAlpha = false := by decide
    exact hall i (List.getElem?_eq_some_iff.mp hd).1 hi

/-- A reading with live and with dead digits is got back from what is written. -/
theorem unmarkTones_leftInvOn_sample :
    markTones sampleReading = "hǎo3 nǚ lüe LV4" ∧ unmarkTones "hǎo3 nǚ lüe LV4" = sampleReading := by
  have hwritten : markTones sampleReading = "hǎo3 nǚ lüe LV4" := by decide
  have hback := unmarkTones_leftInvOn.1 sampleReading_spaced
  rw [hwritten] at hback
  exact ⟨hwritten, hback⟩

-- With a letter right behind its digit, a run is written like another one.
example : markTones "xie4xie" = markTones "xiexie4" := by decide

end Flashcards.Pinyin
