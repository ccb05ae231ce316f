import Flashcards.Proofs.Syllables

namespace Flashcards.Pinyin

/-!
# Tone marks, piece by piece

What a reading is written as is told from its pieces alone: a run of letters, the character behind
it, and nothing further away.

* `Marks` — pieces and what they are written as, while `v` still stands for `ü`.
* `closeRun_of_isMainVowel`, `closeRun_of_toneless` — what a run and the character behind it become.
* `marks_pieces_iff` — the pieces of a reading are written in exactly one way, that of `moveTones`.
* `markTones_eq_marks` — tone marks as they are described by `Marks`, and what follows for the
  digits that stay.
-/

/-- Pieces and what they are written as.  A run that has a main vowel takes the tone of a digit
    right behind it, and the digit goes.  All else stays. -/
inductive Marks : List (List Char) → List Char → Prop
  | nil : Marks [] []
  | marked {before after out : List Char} {c d : Char} {w : Vowel} {t : Tone}
      {ps : List (List Char)} (hm : IsMainVowel before c after) (hw : Vowel.ofChar? c = some w)
      (ht : Tone.ofDigit? d = some t) (h : Marks ps out) :
      Marks ((before ++ c :: after) :: [d] :: ps) (before ++ w.marked t :: after ++ out)
  | kept {p out : List Char} {ps : List (List Char)}
      (hk : (∀ x ∈ p, isVowel x = false) ∨ ∀ d qs, ps = [d] :: qs → Tone.ofDigit? d = none)
      (h : Marks ps out) : Marks (p :: ps) (p ++ out)

variable {run before after out cs : List Char} {c d : Char} {w : Vowel} {t : Tone}
  {ps : List (List Char)}

/-! ### A run and the character behind it -/

theorem isVowel_of_isMainVowel (hm : IsMainVowel before c after) : isVowel c = true := by
  rw [isVowel_iff]
  cases hm with
  | wide hc => exact .inl hc
  | ou => exact .inr (by simp)
  | last _ _ hc => exact .inr hc

/-- A syllable is marked at its main vowel. -/
theorem markSyllable?_of_isMainVowel (hm : IsMainVowel before c after)
    (hw : Vowel.ofChar? c = some w) (t : Tone) :
    markSyllable? t (before ++ c :: after) = some (before ++ w.marked t :: after) := by
  have hfound : mainVowel? (before ++ c :: after) = some before.length :=
    mainVowel?_eq_some_iff.mpr ⟨before, c, after, rfl, rfl, hm⟩
  have hletter : markLetter t c = w.marked t := by rw [markLetter, hw]
  rw [markSyllable?, hfound, Option.map_some, ← hletter]
  simp [List.modify_eq_take_drop]

/-- A tone digit behind a run marks its main vowel. -/
theorem closeRun_of_isMainVowel (hm : IsMainVowel before c after)
    (hw : Vowel.ofChar? c = some w) (ht : Tone.ofDigit? d = some t) :
    closeRun (before ++ c :: after) d = before ++ w.marked t :: after := by
  rw [closeRun, ht, Option.bind_some, markSyllable?_of_isMainVowel hm hw]

/-- A run without vowels stays, and so does every character that is no tone digit. -/
theorem closeRun_of_toneless (h : (∀ x ∈ run, isVowel x = false) ∨ Tone.ofDigit? d = none) :
    closeRun run d = run ++ [d] := by
  have hnone : (Tone.ofDigit? d).bind (markSyllable? · run) = none := by
    rcases h with hrun | hd
    · rw [Option.bind_eq_none_iff]
      intro t _
      rw [markSyllable?, mainVowel?_eq_none_iff.mpr hrun, Option.map_none]
    · rw [hd, Option.bind_none]
  rw [closeRun, hnone]

/-- Either a run has a main vowel and a tone digit behind it, or nothing happens to it. -/
theorem tone_cases (run : List Char) (d : Char) :
    (∃ before c after w t, before ++ c :: after = run ∧ IsMainVowel before c after ∧
        Vowel.ofChar? c = some w ∧ Tone.ofDigit? d = some t) ∨
      ((∀ x ∈ run, isVowel x = false) ∨ Tone.ofDigit? d = none) := by
  cases ht : Tone.ofDigit? d with
  | none => exact .inr (.inr rfl)
  | some t =>
    cases hm : mainVowel? run with
    | none => exact .inr (.inl (mainVowel?_eq_none_iff.mp hm))
    | some i =>
      obtain ⟨before, c, after, rfl, -, hmain⟩ := mainVowel?_eq_some_iff.mp hm
      obtain ⟨w, hw⟩ := Option.isSome_iff_exists.mp (isVowel_of_isMainVowel hmain)
      exact .inl ⟨before, c, after, w, t, rfl, hmain, hw, rfl⟩

/-! ### A reading run by run -/

/-- Letters are held back until it is known what stands behind them. -/
theorem moveTones_letters (hrun : ∀ x ∈ run, x.isAlpha = true) (held cs : List Char) :
    moveTones held (run ++ cs) = moveTones (run.reverse ++ held) cs := by
  induction run generalizing held with
  | nil => rfl
  | cons b run ih =>
    obtain ⟨hb, hrun⟩ := List.forall_mem_cons.mp hrun
    rw [List.cons_append, moveTones, if_pos hb, ih hrun]
    simp

/-- Letters with nothing behind them stay. -/
theorem moveTones_of_letters (hrun : ∀ x ∈ run, x.isAlpha = true) : moveTones [] run = run := by
  have h := moveTones_letters hrun [] []
  simpa [moveTones] using h

/-- A run and the character behind it are written first, and then the rest. -/
theorem moveTones_append_cons (hrun : ∀ x ∈ run, x.isAlpha = true) (hc : c.isAlpha = false)
    (cs : List Char) : moveTones [] (run ++ c :: cs) = closeRun run c ++ moveTones [] cs := by
  rw [moveTones_letters hrun, List.append_nil, moveTones, if_neg (by simp [hc]),
    List.reverse_reverse]

/-- A character that is no letter parts a reading in two. -/
theorem moveTones_concat_append (hc : c.isAlpha = false) (as bs : List Char) :
    moveTones [] (as ++ c :: bs) = moveTones [] (as ++ [c]) ++ moveTones [] bs := by
  induction as using pieceInduction with
  | last run hrun =>
    rw [moveTones_append_cons hrun hc, moveTones_append_cons hrun hc]
    simp [moveTones]
  | more run b as hrun hb ih =>
    rw [List.append_assoc, List.cons_append, moveTones_append_cons hrun hb, ih,
      List.append_assoc run, List.cons_append, moveTones_append_cons hrun hb, List.append_assoc]

/-- A reading may be cut behind a character that is no letter. -/
theorem moveTones_append {as : List Char}
    (h : ∀ x, as.getLast? = some x → x.isAlpha = false) (bs : List Char) :
    moveTones [] (as ++ bs) = moveTones [] as ++ moveTones [] bs := by
  rcases List.eq_nil_or_concat as with rfl | ⟨as, c, rfl⟩
  · rfl
  · have hc : c.isAlpha = false := h c (by simp)
    rw [List.concat_eq_append, List.append_assoc, List.singleton_append, moveTones_concat_append hc]

/-- What is written of a run without vowels and a character that is no letter. -/
theorem moveTones_of_toneless (hrun : ∀ x ∈ run, x.isAlpha = true ∧ isVowel x = false)
    (hc : c.isAlpha = false) (cs : List Char) :
    moveTones [] (run ++ c :: cs) = run ++ c :: moveTones [] cs := by
  rw [moveTones_append_cons (fun x hx => (hrun x hx).1) hc,
    closeRun_of_toneless (.inl fun x hx => (hrun x hx).2)]
  simp

/-! ### Pieces -/

theorem isAlpha_of_isVowel (h : isVowel c = true) : c.isAlpha = true := by
  have hall : ∀ x ∈ ['a', 'e', 'i', 'o', 'u', 'v'], x.isAlpha = true := by simp
  rw [isVowel_iff] at h
  exact hall c (by simpa [or_assoc] using h)

theorem marks_nil_iff : Marks [] out ↔ out = [] := by
  constructor
  · rintro ⟨⟩
    rfl
  · rintro rfl
    exact .nil

/-- What is no letter is no vowel. -/
theorem isVowel_of_isAlpha_eq_false (hc : c.isAlpha = false) : isVowel c = false := by
  by_contra h
  rw [Bool.not_eq_false] at h
  rw [isAlpha_of_isVowel h] at hc
  simp at hc

/-- The first piece takes a tone or stays. -/
theorem marks_cons_iff {p : List Char} :
    Marks (p :: ps) out ↔
      (∃ before c after d w t qs rest, before ++ c :: after = p ∧ [d] :: qs = ps ∧
        IsMainVowel before c after ∧ Vowel.ofChar? c = some w ∧ Tone.ofDigit? d = some t ∧
        Marks qs rest ∧ before ++ w.marked t :: after ++ rest = out) ∨
      ((∀ x ∈ p, isVowel x = false) ∨ ∀ d qs, ps = [d] :: qs → Tone.ofDigit? d = none) ∧
        ∃ rest, Marks ps rest ∧ p ++ rest = out := by
  constructor
  · intro h
    generalize hl : p :: ps = l at h
    cases h with
    | nil => simp at hl
    | @marked before after rest c d w t qs hm hw ht h =>
      obtain ⟨rfl, rfl⟩ := List.cons.inj hl
      exact .inl ⟨before, c, after, d, w, t, qs, rest, rfl, rfl, hm, hw, ht, h, rfl⟩
    | @kept p' rest ps' hk h =>
      obtain ⟨rfl, rfl⟩ := List.cons.inj hl
      exact .inr ⟨hk, rest, h, rfl⟩
  · rintro (⟨before, c, after, d, w, t, qs, rest, rfl, rfl, hm, hw, ht, h, rfl⟩ |
      ⟨hk, rest, h, rfl⟩)
    · exact .marked hm hw ht h
    · exact .kept hk h

/-- A piece that is no letter stays. -/
theorem marks_other_iff (hc : c.isAlpha = false) :
    Marks ([c] :: ps) out ↔ ∃ rest, Marks ps rest ∧ c :: rest = out := by
  have hvowel : isVowel c = false := isVowel_of_isAlpha_eq_false hc
  rw [marks_cons_iff]
  constructor
  · rintro (⟨before, v, after, d, w, t, qs, rest, hp, -, hm, -⟩ | ⟨-, hrest⟩)
    · have hmem : v ∈ [c] := hp ▸ by simp
      have hv : isVowel v = true := isVowel_of_isMainVowel hm
      rw [List.mem_singleton.mp hmem, hvowel] at hv
      simp at hv
    · exact hrest
  · rintro ⟨rest, h, rfl⟩
    exact .inr ⟨.inl (by simpa using hvowel), rest, h, rfl⟩

/-- A run and the character behind it are written as the reader writes them. -/
theorem marks_run_iff (hc : c.isAlpha = false) :
    Marks (run :: [c] :: ps) out ↔ ∃ rest, Marks ps rest ∧ closeRun run c ++ rest = out := by
  rw [marks_cons_iff]
  constructor
  · rintro (⟨before, v, after, d, w, t, qs, rest, rfl, hps, hm, hw, ht, h, rfl⟩ |
      ⟨hk, rest, h, rfl⟩)
    · obtain ⟨hd, rfl⟩ := List.cons.inj hps
      obtain rfl : d = c := List.singleton_inj.mp hd
      exact ⟨rest, h, by rw [closeRun_of_isMainVowel hm hw ht]⟩
    · obtain ⟨rest, hrest, rfl⟩ := (marks_other_iff hc).mp h
      have htoneless : (∀ x ∈ run, isVowel x = false) ∨ Tone.ofDigit? c = none :=
        hk.imp_right fun hd => hd c ps rfl
      exact ⟨rest, hrest, by simp [closeRun_of_toneless htoneless]⟩
  · rintro ⟨rest, h, rfl⟩
    rcases tone_cases run c with ⟨before, v, after, w, t, rfl, hm, hw, ht⟩ | htoneless
    · refine .inl ⟨before, v, after, c, w, t, ps, rest, rfl, rfl, hm, hw, ht, h, ?_⟩
      rw [closeRun_of_isMainVowel hm hw ht]
    · refine .inr ⟨htoneless.imp_right fun hd d qs hps => ?_, c :: rest, ?_, ?_⟩
      · obtain ⟨hcd, -⟩ := List.cons.inj hps
        rwa [← List.singleton_inj.mp hcd]
      · exact (marks_other_iff hc).mpr ⟨rest, h, rfl⟩
      · simp [closeRun_of_toneless htoneless]

/-- The pieces of a reading are written in one way only. -/
theorem marks_pieces_iff : Marks (pieces cs) out ↔ out = moveTones [] cs := by
  induction cs using pieceInduction generalizing out with
  | last run hrun =>
    rw [moveTones_of_letters hrun]
    by_cases hne : run = []
    · subst hne
      exact marks_nil_iff
    · rw [pieces_of_letters hne hrun, marks_cons_iff]
      constructor
      · rintro (⟨before, v, after, d, w, t, qs, rest, -, hps, -⟩ | ⟨-, rest, h, rfl⟩)
        · simp at hps
        · rw [marks_nil_iff.mp h, List.append_nil]
      · rintro rfl
        exact .inr ⟨.inr (by simp), [], .nil, List.append_nil _⟩
  | more run c cs hrun hc ih =>
    by_cases hne : run = []
    · subst hne
      rw [List.nil_append, pieces_cons hc, marks_other_iff hc]
      have htoneless : moveTones [] ([] ++ c :: cs) = [] ++ c :: moveTones [] cs :=
        moveTones_of_toneless (by simp) hc cs
      rw [List.nil_append] at htoneless
      simp [ih, htoneless, eq_comm]
    · rw [pieces_append_cons hne hrun hc, marks_run_iff hc, moveTones_append_cons hrun hc]
      simp [ih, eq_comm]

/-- Of each run and the character behind it at most one character goes. -/
theorem Marks.length_le (h : Marks ps out) :
    ps.flatten.length ≤ out.length + ps.countP fun p => p.any Char.isAlpha := by
  induction h with
  | nil => simp
  | @marked before after out c d w t ps hm hw ht h ih =>
    have hc : c.isAlpha = true := isAlpha_of_isVowel (isVowel_of_isMainVowel hm)
    have hrun : (before ++ c :: after).any Char.isAlpha = true :=
      List.any_eq_true.mpr ⟨c, by simp, hc⟩
    simp only [List.flatten_cons, List.length_append, List.length_cons, List.length_nil,
      List.countP_cons, hrun, if_true]
    omega
  | kept hk h ih =>
    simp only [List.flatten_cons, List.length_append, List.countP_cons]
    omega

/-! ### Readings -/

/-- With `ü` for `v` a reading may still be cut behind a character that is no letter. -/
theorem markToneChars_append {as : List Char}
    (h : ∀ x, as.getLast? = some x → x.isAlpha = false) (bs : List Char) :
    markToneChars (as ++ bs) = markToneChars as ++ markToneChars bs := by
  rw [markToneChars, moveTones_append h, List.map_append]
  rfl

/-- A run without vowels is written as it is, and so is the character behind it. -/
theorem markToneChars_of_toneless (hrun : ∀ x ∈ run, x.isAlpha = true ∧ isVowel x = false)
    (hc : c.isAlpha = false) (cs : List Char) :
    markToneChars (run ++ c :: cs) = run ++ c :: markToneChars cs := by
  -- The letter `v` is a vowel, so that none is left to be spelled `ü`.
  have hv : ∀ x ∈ run ++ [c], spellUmlaut x = x := by
    intro x hx
    refine if_neg ?_
    rintro rfl
    rcases List.mem_append.mp hx with hx | hx
    · exact absurd (hrun _ hx).2 (by decide)
    · rw [← List.mem_singleton.mp hx] at hc
      exact absurd hc (by decide)
  have hspelled : (run ++ [c]).map spellUmlaut = run ++ [c] :=
    (List.map_congr_left hv).trans (List.map_id _)
  rw [markToneChars, moveTones_of_toneless hrun hc, ← List.singleton_append, ← List.append_assoc,
    List.map_append, hspelled]
  simp [markToneChars]

/-- **Tone marks, said without a scan.**

    * The pieces of a reading are written in exactly one way, and with `ü` for every `v` that is
      left this is the reading with tone marks.
    * A reading may be cut behind any character that is no letter.
    * At the start or behind a character that is no letter, a run without vowels stays, and so does
      the character behind it; the run may be empty.
    * Each run of letters costs one character at most. -/
theorem markTones_eq_marks (s : String) :
    (∃ out, (∀ out', Marks (pieces s.toList) out' ↔ out' = out) ∧
      markTones s = String.ofList (out.map fun c => if c = 'v' then 'ü' else c)) ∧
    (∀ (a b : String) (c : Char), c.isAlpha = false →
      markTones (a.push c ++ b) = markTones (a.push c) ++ markTones b) ∧
    (∀ (a run b : String) (c : Char), (∀ x, a.toList.getLast? = some x → x.isAlpha = false) →
      (∀ x ∈ run.toList, x.isAlpha = true ∧ isVowel x = false) → c.isAlpha = false →
      markTones (a ++ run.push c ++ b) = markTones a ++ run.push c ++ markTones b) ∧
    s.length ≤ (markTones s).length + (pieces s.toList).countP fun p => p.any Char.isAlpha := by
  refine ⟨⟨moveTones [] s.toList, fun out' => marks_pieces_iff, rfl⟩, ?_, ?_, ?_⟩
  · intro a b c hc
    have hlast : ∀ x, (a.toList ++ [c]).getLast? = some x → x.isAlpha = false := by
      simp [hc]
    apply String.ext
    simp only [markTones, String.toList_append, String.toList_push, String.toList_ofList]
    exact markToneChars_append hlast b.toList
  · intro a run b c ha hrun hc
    apply String.ext
    simp only [markTones, String.toList_append, String.toList_push, String.toList_ofList,
      List.append_assoc, List.singleton_append]
    rw [markToneChars_append ha, markToneChars_of_toneless hrun hc]
  · have hlength := (marks_pieces_iff.mpr (rfl : moveTones [] s.toList = _)).length_le
    rw [pieces, List.flatten_splitBy, ← pieces] at hlength
    simpa [markTones, markToneChars, ← String.length_toList] using hlength

-- All vowels under all four tones.
example : markTones "a1a2a3a4 e1e2e3e4 i1i2i3i4 o1o2o3o4 u1u2u3u4 v1v2v3v4" =
    "āáǎà ēéěè īíǐì ōóǒò ūúǔù ǖǘǚǜ" := by decide

-- A mark moves back to the main vowel, the digit `5` is no tone, and `A` is no vowel.
example : markTones "ha3o xie4xie lve4 ma5 A1" = "hǎo xièxie lüè ma5 A1" := by decide

end Flashcards.Pinyin
