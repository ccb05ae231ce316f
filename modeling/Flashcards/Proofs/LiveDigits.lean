import Flashcards.Proofs.Replacements
import Flashcards.Proofs.Signs
import Mathlib.Data.List.DropRight

namespace Flashcards.Pinyin

/-!
# Live digits

A tone digit is live when the run of letters right before it has a vowel.  Setting the tone marks of
a reading takes its live digits away and nothing else.

* `IsLiveAt`, `liveDigits` — a live digit stands at an index of a reading, and how many do.
* `isLiveAt_length_iff`, `isLiveAt_behind_iff` — live digits are found run by run.
* `length_moveTones` — a reading loses as many characters as it has live digits.
* `markTones_eq_self_iff` — the readings that stay as they are.
* `markTones_leaves` — all of this, and when marks may be set twice.
-/

/-- A tone digit stands at an index. -/
def IsToneAt (cs : List Char) (i : Nat) : Prop :=
  (cs[i]?.bind Tone.ofDigit?).isSome

instance (cs : List Char) (i : Nat) : Decidable (IsToneAt cs i) :=
  inferInstanceAs (Decidable (_ = true))

/-- A live digit stands at an index: a tone digit, where the longest run of letters right before it
    has a vowel. -/
def IsLiveAt (cs : List Char) (i : Nat) : Prop :=
  IsToneAt cs i ∧ ((cs.take i).rtakeWhile Char.isAlpha).any isVowel

instance (cs : List Char) (i : Nat) : Decidable (IsLiveAt cs i) :=
  inferInstanceAs (Decidable (_ ∧ _))

/-- How many live digits a reading has. -/
def liveDigits (cs : List Char) : Nat :=
  (List.range cs.length).countP fun i => IsLiveAt cs i

/-- A run takes the tone of the character behind it: it has a vowel, and that is a tone digit. -/
def TakesTone (run : List Char) (c : Char) : Prop :=
  (Tone.ofDigit? c).isSome ∧ run.any isVowel

instance (run : List Char) (c : Char) : Decidable (TakesTone run c) :=
  inferInstanceAs (Decidable (_ ∧ _))

variable {run cs : List Char} {c d : Char} {i : Nat}

/-! ### Where live digits stand -/

/-- At a place stands a tone digit, with the tone that it stands for. -/
theorem isToneAt_iff : IsToneAt cs i ↔ ∃ d t, cs[i]? = some d ∧ Tone.ofDigit? d = some t := by
  rw [IsToneAt, Option.isSome_iff_exists]
  simp only [Option.bind_eq_some_iff]
  exact exists_comm

/-- No letter is a tone digit. -/
theorem not_isLiveAt_of_isAlpha (hc : cs[i]? = some c) (halpha : c.isAlpha = true) :
    ¬ IsLiveAt cs i := by
  intro hlive
  obtain ⟨d, t, hd, ht⟩ := isToneAt_iff.mp hlive.1
  obtain rfl : c = d := Option.some.inj (hc.symm.trans hd)
  rw [ofDigit?_of_isAlpha halpha] at ht
  exact absurd ht (by simp)

/-- Among letters no digit is live. -/
theorem not_isLiveAt_of_letters (hrun : ∀ x ∈ run, x.isAlpha = true) (i : Nat) :
    ¬ IsLiveAt run i := by
  intro hlive
  obtain ⟨d, -, hd, -⟩ := isToneAt_iff.mp hlive.1
  exact not_isLiveAt_of_isAlpha hd (hrun d (List.mem_of_getElem? hd)) hlive

/-- The letters right before a place begin behind the last character that is none. -/
theorem rtakeWhile_append_cons (hc : c.isAlpha = false) (as bs : List Char) :
    (as ++ c :: bs).rtakeWhile Char.isAlpha = bs.rtakeWhile Char.isAlpha := by
  induction bs using List.reverseRecOn with
  | nil => exact List.rtakeWhile_concat_neg _ _ _ (by simp [hc])
  | append_singleton bs b ih =>
    rw [← List.cons_append, ← List.append_assoc, List.rtakeWhile_concat, List.rtakeWhile_concat, ih]

/-- In a run of letters no digit is live, whatever comes behind it. -/
theorem not_isLiveAt_of_lt (hrun : ∀ x ∈ run, x.isAlpha = true) (hi : i < run.length)
    (cs : List Char) : ¬ IsLiveAt (run ++ cs) i := by
  have hletter : (run ++ cs)[i]? = some run[i] := by
    rw [List.getElem?_append_left hi, List.getElem?_eq_getElem hi]
  exact not_isLiveAt_of_isAlpha hletter (hrun _ (List.getElem_mem hi))

/-- The character behind a run of letters is live when the run takes its tone. -/
theorem isLiveAt_length_iff (hrun : ∀ x ∈ run, x.isAlpha = true) :
    IsLiveAt (run ++ c :: cs) run.length ↔ TakesTone run c := by
  have hwhole : run.rtakeWhile Char.isAlpha = run := List.rtakeWhile_eq_self_iff.mpr hrun
  simp [IsLiveAt, IsToneAt, TakesTone, hwhole]

/-- What stands behind a run and its character. -/
theorem getElem?_length_add (run : List Char) (c : Char) (cs : List Char) (i : Nat) :
    (run ++ c :: cs)[run.length + 1 + i]? = cs[i]? := by
  rw [List.append_cons, List.getElem?_append_right (by simp)]
  simp

/-- A tone digit behind a run and its character is one of the rest. -/
theorem isToneAt_behind_iff : IsToneAt (run ++ c :: cs) (run.length + 1 + i) ↔ IsToneAt cs i := by
  rw [IsToneAt, IsToneAt, getElem?_length_add]

/-- What stands before a character that is no letter does not matter to the live digits behind
    it. -/
theorem isLiveAt_behind_iff (hc : c.isAlpha = false) :
    IsLiveAt (run ++ c :: cs) (run.length + 1 + i) ↔ IsLiveAt cs i := by
  have htake : (run ++ c :: cs).take (run.length + 1 + i) = run ++ c :: cs.take i := by
    rw [Nat.add_assoc, List.take_length_add_append, Nat.add_comm, List.take_succ_cons]
  rw [IsLiveAt, IsLiveAt, isToneAt_behind_iff, htake, rtakeWhile_append_cons hc]

theorem liveDigits_of_letters (hrun : ∀ x ∈ run, x.isAlpha = true) : liveDigits run = 0 := by
  rw [liveDigits, List.countP_eq_zero]
  intro i _
  simpa using not_isLiveAt_of_letters hrun i

/-- Live digits are counted run by run. -/
theorem liveDigits_append_cons (hrun : ∀ x ∈ run, x.isAlpha = true) (hc : c.isAlpha = false) :
    liveDigits (run ++ c :: cs) = (if TakesTone run c then 1 else 0) + liveDigits cs := by
  -- The places of the run come first, then that of the character, then those behind it.
  have hindices : List.range (run ++ c :: cs).length =
      List.range run.length ++ run.length :: (List.range cs.length).map (run.length + 1 + ·) := by
    rw [List.length_append, List.length_cons, List.range_add, List.range_succ_eq_map,
      List.map_cons, List.map_map]
    congr 2
    exact List.map_congr_left fun j _ => by simp only [Function.comp_apply]; omega
  have hbefore : (List.range run.length).countP (fun i => IsLiveAt (run ++ c :: cs) i) = 0 := by
    rw [List.countP_eq_zero]
    intro i hi
    simpa using not_isLiveAt_of_lt hrun (List.mem_range.mp hi) (c :: cs)
  have hbehind : ((List.range cs.length).map (run.length + 1 + ·)).countP
      (fun i => IsLiveAt (run ++ c :: cs) i) = liveDigits cs := by
    rw [List.countP_map, liveDigits]
    exact List.countP_congr fun j _ => by simp [isLiveAt_behind_iff hc]
  rw [liveDigits, hindices, List.countP_append, hbefore, List.countP_cons, hbehind]
  simp only [isLiveAt_length_iff hrun, decide_eq_true_eq]
  omega

/-! ### What becomes of a run and the character behind it -/

/-- A run that takes a tone has a main vowel. -/
theorem exists_mainVowel_of_takesTone (h : TakesTone run c) :
    ∃ before v after w t, before ++ v :: after = run ∧ IsMainVowel before v after ∧
      Vowel.ofChar? v = some w ∧ Tone.ofDigit? c = some t := by
  rcases tone_cases run c with hmain | hrun | hc
  · exact hmain
  · obtain ⟨x, hx, hvowel⟩ := List.any_eq_true.mp h.2
    rw [hrun x hx] at hvowel
    exact absurd hvowel (by simp)
  · exact absurd h.1 (by simp [hc])

/-- A run that takes no tone stays, with the character behind it. -/
theorem closeRun_of_not_takesTone (h : ¬ TakesTone run c) : closeRun run c = run ++ [c] := by
  refine closeRun_of_toneless ?_
  by_cases hc : (Tone.ofDigit? c).isSome
  · refine .inl fun x hx => ?_
    by_contra hvowel
    exact h ⟨hc, List.any_eq_true.mpr ⟨x, hx, by simpa using hvowel⟩⟩
  · exact .inr (by simpa using hc)

/-- A run loses the digit behind it just if it takes its tone. -/
theorem length_closeRun (run : List Char) (c : Char) :
    (closeRun run c).length + (if TakesTone run c then 1 else 0) = run.length + 1 := by
  by_cases h : TakesTone run c
  · obtain ⟨before, v, after, w, t, rfl, hm, hw, ht⟩ := exists_mainVowel_of_takesTone h
    rw [if_pos h, closeRun_of_isMainVowel hm hw ht]
    simp
  · rw [if_neg h, closeRun_of_not_takesTone h]
    simp

/-- What is written of a run: its letters, a marked vowel, or the character behind it. -/
theorem mem_closeRun (hd : d ∈ closeRun run c) :
    d ∈ run ∨ (∃ w t, Vowel.marked w t = d) ∨ ¬ TakesTone run c ∧ d = c := by
  by_cases h : TakesTone run c
  · obtain ⟨before, v, after, w, t, rfl, hm, hw, ht⟩ := exists_mainVowel_of_takesTone h
    rw [closeRun_of_isMainVowel hm hw ht] at hd
    rcases List.mem_append.mp hd with hd | hd
    · exact .inl (by simp [hd])
    · rcases List.mem_cons.mp hd with rfl | hd
      · exact .inr (.inl ⟨w, t, rfl⟩)
      · exact .inl (by simp [hd])
  · rw [closeRun_of_not_takesTone h] at hd
    rcases List.mem_append.mp hd with hd | hd
    · exact .inl hd
    · exact .inr (.inr ⟨h, List.mem_singleton.mp hd⟩)

/-! ### Whole readings -/

/-- **Every live digit goes, and nothing else does.** -/
theorem length_moveTones (cs : List Char) :
    (moveTones [] cs).length + liveDigits cs = cs.length := by
  induction cs using pieceInduction with
  | last run hrun => rw [moveTones_of_letters hrun, liveDigits_of_letters hrun, Nat.add_zero]
  | more run c cs hrun hc ih =>
    have hfirst := length_closeRun run c
    rw [moveTones_append_cons hrun hc, liveDigits_append_cons hrun hc, List.length_append,
      List.length_append, List.length_cons]
    omega

/-- A reading without live digits has no tones to move. -/
theorem moveTones_of_not_isLiveAt (h : ∀ i, ¬ IsLiveAt cs i) : moveTones [] cs = cs := by
  induction cs using pieceInduction with
  | last run hrun => exact moveTones_of_letters hrun
  | more run c cs hrun hc ih =>
    have htone : ¬ TakesTone run c := fun ht => h run.length ((isLiveAt_length_iff hrun).mpr ht)
    have hrest : ∀ j, ¬ IsLiveAt cs j := fun j hj =>
      h (run.length + 1 + j) ((isLiveAt_behind_iff hc).mpr hj)
    rw [moveTones_append_cons hrun hc, closeRun_of_not_takesTone htone, ih hrest,
      List.append_assoc, List.singleton_append]

/-- Where all tone digits are live, none is left. -/
theorem ofDigit?_of_mem_moveTones (h : ∀ i, IsToneAt cs i → IsLiveAt cs i)
    (hd : d ∈ moveTones [] cs) : Tone.ofDigit? d = none := by
  induction cs using pieceInduction with
  | last run hrun =>
    rw [moveTones_of_letters hrun] at hd
    exact ofDigit?_of_isAlpha (hrun d hd)
  | more run c cs hrun hc ih =>
    rw [moveTones_append_cons hrun hc] at hd
    rcases List.mem_append.mp hd with hd | hd
    · rcases mem_closeRun hd with hd | ⟨w, t, rfl⟩ | ⟨htone, rfl⟩
      · exact ofDigit?_of_isAlpha (hrun d hd)
      · exact ofDigit?_marked w t
      · -- A tone digit that was left would be one that is not live.
        by_contra hsome
        rw [← ne_eq, Option.ne_none_iff_isSome] at hsome
        exact htone ((isLiveAt_length_iff hrun).mp (h run.length (by simpa [IsToneAt])))
    · refine ih (fun i hi => ?_) hd
      rw [← isLiveAt_behind_iff hc]
      exact h (run.length + 1 + i) (isToneAt_behind_iff.mpr hi)

/-- Spelling makes no tone digit and takes none away. -/
theorem ofDigit?_spellUmlaut (c : Char) : Tone.ofDigit? (spellUmlaut c) = Tone.ofDigit? c := by
  unfold spellUmlaut
  split
  case isTrue h => rw [h]; rfl
  case isFalse => rfl

/-- No live digits are counted just if there is none. -/
theorem liveDigits_eq_zero_iff : liveDigits cs = 0 ↔ ∀ i, ¬ IsLiveAt cs i := by
  rw [liveDigits, List.countP_eq_zero]
  simp only [List.mem_range, decide_eq_true_eq]
  refine ⟨fun h i hlive => h i ?_ hlive, fun h i _ => h i⟩
  obtain ⟨d, -, hd, -⟩ := isToneAt_iff.mp hlive.1
  exact (List.getElem?_eq_some_iff.mp hd).1

/-- No `v` is left in what is written. -/
theorem v_not_mem_markToneChars (cs : List Char) : 'v' ∉ markToneChars cs := by
  intro hv
  obtain ⟨c, -, hc⟩ := List.mem_map.mp hv
  unfold spellUmlaut at hc
  split at hc
  · exact absurd hc (by decide)
  · contradiction

/-- **A reading is left as it is when it has neither live digits nor a `v`.** -/
theorem markToneChars_eq_self_iff :
    markToneChars cs = cs ↔ 'v' ∉ cs ∧ ∀ i, ¬ IsLiveAt cs i := by
  constructor
  · intro h
    -- Nothing was taken away, so no live digit was there.
    have hlength := length_moveTones cs
    have hsame : (moveTones [] cs).length = cs.length := by
      simpa [markToneChars] using congrArg List.length h
    refine ⟨h ▸ v_not_mem_markToneChars cs, liveDigits_eq_zero_iff.mp ?_⟩
    omega
  · rintro ⟨hv, hlive⟩
    rw [markToneChars, moveTones_of_not_isLiveAt hlive]
    refine (List.map_congr_left fun c hc => ?_).trans (List.map_id cs)
    refine if_neg ?_
    rintro rfl
    exact hv hc

/-- A reading is written as it is just if it has no `v` and no live digit. -/
theorem markTones_eq_self_iff (s : String) :
    markTones s = s ↔ 'v' ∉ s.toList ∧ ∀ i, ¬ IsLiveAt s.toList i := by
  rw [← markToneChars_eq_self_iff, markTones, ← String.toList_inj, String.toList_ofList]

/-- **What tone marks leave of a reading, exactly.**

    * No `v` is left.
    * As many characters are gone as there are live digits.
    * The reading stays as it is just when it has no `v` and no live digit.
    * Setting the marks once more changes nothing just when no live digit is left, which is so
      when all tone digits of the reading are live. -/
theorem markTones_leaves (s : String) :
    'v' ∉ (markTones s).toList ∧
    (markTones s).length + liveDigits s.toList = s.length ∧
    (markTones s = s ↔ 'v' ∉ s.toList ∧ ∀ i, ¬ IsLiveAt s.toList i) ∧
    (markTones (markTones s) = markTones s ↔ ∀ i, ¬ IsLiveAt (markTones s).toList i) ∧
    ((∀ i, IsToneAt s.toList i → IsLiveAt s.toList i) →
      markTones (markTones s) = markTones s) := by
  have hv : 'v' ∉ (markTones s).toList := by
    rw [markTones, String.toList_ofList]
    exact v_not_mem_markToneChars s.toList
  have htwice : markTones (markTones s) = markTones s ↔
      ∀ i, ¬ IsLiveAt (markTones s).toList i := by
    rw [markTones_eq_self_iff, and_iff_right hv]
  refine ⟨hv, ?_, markTones_eq_self_iff s, htwice, fun h => htwice.mpr fun i hlive => ?_⟩
  · have hlength := length_moveTones s.toList
    simpa [markTones, markToneChars, ← String.length_toList] using hlength
  · -- A live digit of what is written would be a tone digit that is left.
    obtain ⟨d, t, hd, ht⟩ := isToneAt_iff.mp hlive.1
    rw [markTones, String.toList_ofList, markToneChars] at hd
    obtain ⟨b, hb, rfl⟩ := List.mem_map.mp (List.mem_of_getElem? hd)
    rw [ofDigit?_spellUmlaut, ofDigit?_of_mem_moveTones h hb] at ht
    exact absurd ht (by simp)

/-- A mark cuts a run in two, so that a digit that was left may come to life. -/
theorem markTones_leaves_sample :
    markTones (markTones "lv4se4") = markTones "lv4se4" ∧
      markTones "hao33" = "hǎo3" ∧ markTones "hǎo3" ≠ "hǎo3" := by
  have hlive : ∀ i, IsToneAt "lv4se4".toList i → IsLiveAt "lv4se4".toList i := by
    intro i hi
    obtain ⟨d, -, hd, -⟩ := isToneAt_iff.mp hi
    have hall : ∀ i < 6, IsToneAt "lv4se4".toList i → IsLiveAt "lv4se4".toList i := by decide
    exact hall i (List.getElem?_eq_some_iff.mp hd).1 hi
  have hwritten : markTones "hao33" = "hǎo3" := by decide
  have hleft : IsLiveAt "hǎo3".toList 3 := by decide
  obtain ⟨-, -, -, -, hstays⟩ := markTones_leaves "lv4se4"
  obtain ⟨-, -, -, htwice, -⟩ := markTones_leaves "hao33"
  rw [hwritten] at htwice
  exact ⟨hstays hlive, hwritten, fun h => htwice.mp h 3 hleft⟩

end Flashcards.Pinyin
