import Flashcards.Pinyin.Reading
import Mathlib.Data.List.SplitBy
import Mathlib.Data.List.Infix

namespace Flashcards.Pinyin

/-!
# Syllables and their main vowels

A tone belongs to a run of letters.  Here a reading is cut into such runs, and the vowel that
carries the tone of a run is described by what stands before and after it.

* `pieces` — a reading as its longest runs of letters and its other characters.
* `pieceInduction` — a reading ends within a run, or goes on after a character that is no letter.
* `IsMainVowel` — the letter of a run that carries the tone.
* `mainVowel?_eq_some_iff` — it is what `mainVowel?` looks for.
-/

/-- A reading cut into its longest runs of letters and its other characters, one by one. -/
def pieces (cs : List Char) : List (List Char) :=
  cs.splitBy fun b c => b.isAlpha && c.isAlpha

variable {run cs : List Char} {c : Char}

theorem pieces_of_letters (hne : run ≠ []) (hrun : ∀ x ∈ run, x.isAlpha = true) :
    pieces run = [run] := by
  have hpairs : run.Pairwise fun b c => (b.isAlpha && c.isAlpha) = true := by
    refine List.pairwise_of_forall_mem_list fun b hb c hc => ?_
    rw [hrun b hb, hrun c hc]
    rfl
  exact List.splitBy_of_isChain hne hpairs.isChain

/-- A character that is no letter is a piece of its own. -/
theorem pieces_cons (hc : c.isAlpha = false) (cs : List Char) :
    pieces (c :: cs) = [c] :: pieces cs := by
  have hsplit : pieces ([c] ++ cs) = pieces [c] ++ pieces cs := by
    refine List.splitBy_append ?_
    simp [hc]
  exact hsplit

/-- A run of letters is a piece, and so is the character behind it. -/
theorem pieces_append_cons (hne : run ≠ []) (hrun : ∀ x ∈ run, x.isAlpha = true)
    (hc : c.isAlpha = false) (cs : List Char) :
    pieces (run ++ c :: cs) = run :: [c] :: pieces cs := by
  have hsplit : pieces (run ++ c :: cs) = pieces run ++ pieces (c :: cs) := by
    refine List.splitBy_append_cons cs ?_
    simp [hc]
  rw [hsplit, pieces_of_letters hne hrun, pieces_cons hc]
  rfl

/-- A reading is letters to its end, or it has a first character that is no letter. -/
theorem pieceInduction {P : List Char → Prop}
    (last : ∀ run, (∀ x ∈ run, x.isAlpha = true) → P run)
    (more : ∀ run c cs, (∀ x ∈ run, x.isAlpha = true) → c.isAlpha = false → P cs →
      P (run ++ c :: cs))
    (cs : List Char) : P cs := by
  suffices h : ∀ run : List Char, (∀ x ∈ run, x.isAlpha = true) → P (run ++ cs) from
    h [] (by simp)
  induction cs with
  | nil =>
    intro run hrun
    rw [List.append_nil]
    exact last run hrun
  | cons c cs ih =>
    intro run hrun
    by_cases hc : c.isAlpha = true
    · have hmore : ∀ x ∈ run ++ [c], x.isAlpha = true := by
        intro x hx
        rcases List.mem_append.mp hx with hx | hx
        · exact hrun x hx
        · rwa [List.mem_singleton.mp hx]
      simpa using ih (run ++ [c]) hmore
    · exact more run c cs hrun (by simpa using hc) (ih [] (by simp))

/-! ### The main vowel -/

/-- Which letter of a run carries its tone, given the letters before it and those after it: the
    first `a` or `e`; if there is none, the `o` of the first `ou`; if there is none either, the
    last vowel. -/
inductive IsMainVowel : List Char → Char → List Char → Prop
  | wide {before after : List Char} {c : Char} (hc : c = 'a' ∨ c = 'e')
      (hb : 'a' ∉ before ∧ 'e' ∉ before) : IsMainVowel before c after
  | ou {before after : List Char}
      (hn : 'a' ∉ before ++ 'o' :: 'u' :: after ∧ 'e' ∉ before ++ 'o' :: 'u' :: after)
      (hb : ¬ ['o', 'u'] <:+: before) : IsMainVowel before 'o' ('u' :: after)
  | last {before after : List Char} {c : Char}
      (hn : 'a' ∉ before ++ c :: after ∧ 'e' ∉ before ++ c :: after)
      (ho : ¬ ['o', 'u'] <:+: before ++ c :: after) (hc : c ∈ ['i', 'o', 'u', 'v'])
      (ha : ∀ x ∈ after, x ∉ ['i', 'o', 'u', 'v']) : IsMainVowel before c after

/-- The vowels are `a` and `e` and the other four. -/
theorem isVowel_iff (c : Char) :
    isVowel c = true ↔ (c = 'a' ∨ c = 'e') ∨ c ∈ ['i', 'o', 'u', 'v'] := by
  unfold isVowel Vowel.ofChar?
  split <;> simp_all

/-- A search stops at the first element that is looked for. -/
theorem findIdx?_eq_some_iff_append {α : Type} {p : α → Bool} {l : List α} {i : Nat} :
    l.findIdx? p = some i ↔
      ∃ before a after, before ++ a :: after = l ∧ before.length = i ∧ p a = true ∧
        ∀ b ∈ before, p b = false := by
  rw [List.findIdx?_eq_some_iff_getElem]
  constructor
  · rintro ⟨hi, ha, hbefore⟩
    refine ⟨l.take i, l[i], l.drop (i + 1), ?_, by simp; omega, ha, fun b hb => ?_⟩
    · rw [List.getElem_cons_drop, List.take_append_drop]
    · obtain ⟨j, hj, rfl⟩ := List.mem_take_iff_getElem.mp hb
      simpa using hbefore j (by omega)
  · rintro ⟨before, a, after, rfl, rfl, ha, hbefore⟩
    refine ⟨by simp, by simpa using ha, fun j hj => ?_⟩
    rw [List.getElem_append_left hj]
    simp [hbefore]

/-- Where `ou` does not stand at once, it is looked for one letter later. -/
theorem findOu?_cons (h : ¬ ['o', 'u'] <+: c :: cs) :
    findOu? (c :: cs) = (findOu? cs).map (· + 1) := by
  rw [findOu?]
  rintro rest rfl rfl
  exact h ⟨rest, rfl⟩

/-- No `ou` is found just if there is none. -/
theorem findOu?_eq_none_iff : findOu? cs = none ↔ ¬ ['o', 'u'] <:+: cs := by
  induction cs with
  | nil => simp [findOu?]
  | cons c cs ih =>
    rw [List.infix_cons_iff]
    by_cases h : ['o', 'u'] <+: c :: cs
    · obtain ⟨rest, hrest⟩ := h
      simp [← hrest, findOu?]
    · rw [findOu?_cons h, Option.map_eq_none_iff, ih]
      simp [h]

/-- The `ou` that is found is the first one. -/
theorem findOu?_eq_some_iff {i : Nat} :
    findOu? cs = some i ↔
      ∃ before after, before ++ 'o' :: 'u' :: after = cs ∧ before.length = i ∧
        ¬ ['o', 'u'] <:+: before := by
  constructor
  · intro hi
    induction cs generalizing i with
    | nil => simp [findOu?] at hi
    | cons c cs ih =>
      by_cases h : ['o', 'u'] <+: c :: cs
      · obtain ⟨rest, hrest⟩ := h
        obtain rfl : 0 = i := by simpa [← hrest, findOu?] using hi
        exact ⟨[], rest, hrest, rfl, by simp⟩
      · rw [findOu?_cons h, Option.map_eq_some_iff] at hi
        obtain ⟨j, hj, rfl⟩ := hi
        obtain ⟨before, after, rfl, rfl, hbefore⟩ := ih hj
        refine ⟨c :: before, after, rfl, rfl, ?_⟩
        rw [List.infix_cons_iff]
        rintro (hstart | hinfix)
        · exact h (hstart.trans (List.prefix_append _ _))
        · exact hbefore hinfix
  · rintro ⟨before, after, rfl, rfl, hbefore⟩
    induction before with
    | nil => rfl
    | cons b before ih =>
      rw [List.infix_cons_iff, not_or] at hbefore
      -- The first `ou` of the whole does not begin with `b`.
      have hb : ¬ ['o', 'u'] <+: b :: (before ++ 'o' :: 'u' :: after) := by
        intro hstart
        cases before with
        | nil => simp at hstart
        | cons b' before => exact hbefore.1 (by simpa using hstart)
      rw [List.cons_append, findOu?_cons hb, ih hbefore.2]
      rfl

/-- No last vowel is found just if there is no vowel. -/
theorem findLastVowel?_eq_none_iff :
    findLastVowel? cs = none ↔ ∀ c ∈ cs, isVowel c = false := by
  induction cs with
  | nil => simp [findLastVowel?]
  | cons c cs ih =>
    rw [findLastVowel?, List.forall_mem_cons, ← ih]
    cases findLastVowel? cs <;> simp

/-- The vowel that is found has no other one behind it. -/
theorem findLastVowel?_eq_some_iff {i : Nat} :
    findLastVowel? cs = some i ↔
      ∃ before c after, before ++ c :: after = cs ∧ before.length = i ∧ isVowel c = true ∧
        ∀ x ∈ after, isVowel x = false := by
  constructor
  · intro hi
    induction cs generalizing i with
    | nil => simp [findLastVowel?] at hi
    | cons c cs ih =>
      rw [findLastVowel?] at hi
      cases hcs : findLastVowel? cs with
      | some j =>
        obtain rfl : j + 1 = i := by simpa [hcs] using hi
        obtain ⟨before, w, after, rfl, rfl, hw, hafter⟩ := ih hcs
        exact ⟨c :: before, w, after, rfl, rfl, hw, hafter⟩
      | none =>
        obtain ⟨hc, rfl⟩ : isVowel c = true ∧ 0 = i := by simpa [hcs] using hi
        exact ⟨[], c, cs, rfl, rfl, hc, findLastVowel?_eq_none_iff.mp hcs⟩
  · rintro ⟨before, c, after, rfl, rfl, hc, hafter⟩
    induction before with
    | nil =>
      rw [List.nil_append, findLastVowel?, findLastVowel?_eq_none_iff.mpr hafter]
      simp [hc]
    | cons b before ih =>
      rw [List.cons_append, findLastVowel?, ih]
      rfl

/-- A run without any vowel has no main vowel. -/
theorem mainVowel?_eq_none_iff : mainVowel? run = none ↔ ∀ c ∈ run, isVowel c = false := by
  rw [mainVowel?, Option.or_eq_none_iff, Option.or_eq_none_iff, findLastVowel?_eq_none_iff,
    findOu?_eq_none_iff, List.findIdx?_eq_none_iff]
  constructor
  · rintro ⟨-, -, hvowels⟩
    exact hvowels
  · intro hvowels
    refine ⟨fun c hc => ?_, fun hou => ?_, hvowels⟩
    · have hnot := hvowels c hc
      by_contra hwide
      have hvowel : isVowel c = true := (isVowel_iff c).mpr (.inl (by grind))
      simp [hnot] at hvowel
    · have ho : 'o' ∈ run := hou.subset (by simp)
      exact absurd (hvowels 'o' ho) (by decide)

/-- Among letters that are neither `a` nor `e` the vowels are the other four. -/
theorem isVowel_iff_of_not_mem (h : 'a' ∉ run ∧ 'e' ∉ run) (hc : c ∈ run) :
    isVowel c = true ↔ c ∈ ['i', 'o', 'u', 'v'] := by
  have hwide : ¬ (c = 'a' ∨ c = 'e') := by
    rintro (rfl | rfl)
    · exact h.1 hc
    · exact h.2 hc
  rw [isVowel_iff, or_iff_right hwide]

/-- The search finds the main vowel. -/
theorem mainVowel?_eq_some_iff {i : Nat} :
    mainVowel? run = some i ↔
      ∃ before c after, before ++ c :: after = run ∧ before.length = i ∧
        IsMainVowel before c after := by
  have hwide : ∀ l : List Char, (∀ x ∈ l, (decide (x = 'a') || decide (x = 'e')) = false) ↔
      'a' ∉ l ∧ 'e' ∉ l := by
    intro l
    simp only [Bool.or_eq_false_iff, decide_eq_false_iff_not]
    constructor
    · intro h
      exact ⟨fun ha => (h 'a' ha).1 rfl, fun he => (h 'e' he).2 rfl⟩
    · rintro ⟨ha, he⟩ x hx
      exact ⟨fun hxa => ha (hxa ▸ hx), fun hxe => he (hxe ▸ hx)⟩
  rw [mainVowel?, Option.or_eq_some_iff, Option.or_eq_some_iff, findIdx?_eq_some_iff_append,
    List.findIdx?_eq_none_iff, findOu?_eq_some_iff, findOu?_eq_none_iff,
    findLastVowel?_eq_some_iff]
  simp only [hwide]
  constructor
  · rintro (⟨before, c, after, rfl, rfl, hc, hb⟩ | ⟨hn, hrest⟩)
    · exact ⟨before, c, after, rfl, rfl, .wide (by simpa using hc) hb⟩
    · rcases hrest with ⟨before, after, rfl, rfl, hb⟩ | ⟨ho, before, c, after, rfl, rfl, hc, ha⟩
      · exact ⟨before, 'o', 'u' :: after, rfl, rfl, .ou hn hb⟩
      · refine ⟨before, c, after, rfl, rfl, .last hn ho ?_ fun x hx => ?_⟩
        · exact (isVowel_iff_of_not_mem hn (by simp)).mp hc
        · rw [← isVowel_iff_of_not_mem hn (by simp [hx]), ha x hx]
          simp
  · rintro ⟨before, c, after, rfl, rfl, hm⟩
    cases hm with
    | wide hc hb => exact .inl ⟨before, c, after, rfl, rfl, by simpa using hc, hb⟩
    | @ou after hn hb => exact .inr ⟨hn, .inl ⟨before, after, rfl, rfl, hb⟩⟩
    | last hn ho hc ha =>
      refine .inr ⟨hn, .inr ⟨ho, before, c, after, rfl, rfl, ?_, fun x hx => ?_⟩⟩
      · exact (isVowel_iff_of_not_mem hn (by simp)).mpr hc
      · have hx' := isVowel_iff_of_not_mem hn (c := x) (by simp [hx])
        simpa [ha x hx] using hx'

end Flashcards.Pinyin
