import Flashcards.Proofs.ToneMarks

namespace Flashcards.Pinyin

/-!
# The rule of replaced pairs

By the literal rule a tone digit marks the letter right before it: each of the 24 pairs of a vowel
and a digit is replaced everywhere, one pair after the other, and then `v` by `ü`.  It is compared
with tone marks that go to the main vowel.

* `literalTones` — a reading under the literal rule.
* `foldl_replaceToken` — pairs replaced one after the other are replaced as in one pass.
* `TonesInPlace` — every tone digit that counts stands right behind a main vowel.
* `markTones_eq_literalTones_iff` — this is when the two rules agree.
-/

/-- The letter of a vowel. -/
def Vowel.letter : Vowel → Char
  | .a => 'a'
  | .e => 'e'
  | .i => 'i'
  | .o => 'o'
  | .u => 'u'
  | .v => 'v'

/-- The digit of a tone. -/
def Tone.digit : Tone → Char
  | .first => '1'
  | .second => '2'
  | .third => '3'
  | .fourth => '4'

/-- Characters with every two in a row that are `b` and `c` written as `new`, from left to right. -/
def replacePair (b c new : Char) : List Char → List Char
  | x :: y :: cs =>
    if x = b ∧ y = c then new :: replacePair b c new cs else x :: replacePair b c new (y :: cs)
  | cs => cs

/-- The pairs that are replaced, in order: all tones of a vowel, then those of the next. -/
def toneTokens : List (Vowel × Tone) :=
  [.a, .e, .i, .o, .u, .v].flatMap fun w => [.first, .second, .third, .fourth].map fun t => (w, t)

/-- Characters with the vowel of a pair under its tone wherever letter and digit meet. -/
def replaceToken (p : Vowel × Tone) : List Char → List Char :=
  replacePair p.1.letter p.2.digit (p.1.marked p.2)

/-- A reading under the literal rule. -/
def literalTones (s : String) : String :=
  String.ofList ((toneTokens.foldl (fun cs p => replaceToken p cs) s.toList).map fun c =>
    if c = 'v' then 'ü' else c)

variable {run cs : List Char} {c d x y : Char} {w : Vowel} {t : Tone} {ps : List (Vowel × Tone)}

/-- A letter stands for the vowel of which it is the letter. -/
theorem Vowel.ofChar?_eq_some_iff : Vowel.ofChar? c = some w ↔ w.letter = c := by
  constructor
  · intro h
    unfold Vowel.ofChar? at h
    split at h <;> cases h <;> rfl
  · rintro rfl
    cases w <;> rfl

/-- A digit stands for the tone of which it is the digit. -/
theorem Tone.ofDigit?_eq_some_iff : Tone.ofDigit? c = some t ↔ t.digit = c := by
  constructor
  · intro h
    unfold Tone.ofDigit? at h
    split at h <;> cases h <;> rfl
  · rintro rfl
    cases t <;> rfl

/-- A marked vowel is no vowel that could be marked. -/
theorem isVowel_marked (w : Vowel) (t : Tone) : isVowel (w.marked t) = false := by
  cases w <;> cases t <;> rfl

/-- A marked vowel is no tone digit. -/
theorem ofDigit?_marked (w : Vowel) (t : Tone) : Tone.ofDigit? (w.marked t) = none := by
  cases w <;> cases t <;> rfl

/-- A marked vowel is the letter of no vowel. -/
theorem letter_ne_marked (w' w : Vowel) (t : Tone) : w'.letter ≠ w.marked t := by
  intro heq
  have hletter : Vowel.ofChar? (w.marked t) = some w' := Vowel.ofChar?_eq_some_iff.mpr heq
  have hmarked := isVowel_marked w t
  rw [isVowel, hletter] at hmarked
  simp at hmarked

theorem digit_ne_marked (s t : Tone) (w : Vowel) : s.digit ≠ w.marked t := by
  intro heq
  have hdigit : Tone.ofDigit? (w.marked t) = some s := Tone.ofDigit?_eq_some_iff.mpr heq
  rw [ofDigit?_marked] at hdigit
  simp at hdigit

theorem letter_ne_digit (w : Vowel) (t : Tone) : w.letter ≠ t.digit := by
  cases w <;> cases t <;> decide

/-! ### One pair after the other -/

/-- The first of some pairs that is made up of two given characters. -/
def findToken? (ps : List (Vowel × Tone)) (x y : Char) : Option (Vowel × Tone) :=
  ps.find? fun p => p.1.letter = x ∧ p.2.digit = y

/-- Characters with all of some pairs replaced in one pass. -/
def markPairs (ps : List (Vowel × Tone)) : List Char → List Char
  | x :: y :: cs =>
    match findToken? ps x y with
    | some p => p.1.marked p.2 :: markPairs ps cs
    | none => x :: markPairs ps (y :: cs)
  | cs => cs

/-- The pair that is found is made up of the two characters. -/
theorem findToken?_eq_some {p : Vowel × Tone} (h : findToken? ps x y = some p) :
    p.1.letter = x ∧ p.2.digit = y := by
  simpa using List.find?_some h

/-- The first pair of two lists is that of the one list or else of the other. -/
theorem findToken?_append (ps qs : List (Vowel × Tone)) (x y : Char) :
    findToken? (ps ++ qs) x y = (findToken? ps x y).or (findToken? qs x y) :=
  List.find?_append

/-- No digit is the letter of a pair. -/
theorem findToken?_digit (ps : List (Vowel × Tone)) (t : Tone) (y : Char) :
    findToken? ps t.digit y = none := by
  rw [findToken?, List.find?_eq_none]
  intro p _
  simp [letter_ne_digit]

/-- A pair is replaced by its marked vowel. -/
theorem markPairs_of_some {p : Vowel × Tone} (h : findToken? ps x y = some p) (cs : List Char) :
    markPairs ps (x :: y :: cs) = p.1.marked p.2 :: markPairs ps cs := by
  rw [markPairs, h]

/-- A character stays that makes no pair with the one behind it. -/
theorem markPairs_of_none (h : ∀ y, cs.head? = some y → findToken? ps x y = none) :
    markPairs ps (x :: cs) = x :: markPairs ps cs := by
  cases cs with
  | nil => rfl
  | cons y cs => rw [markPairs, h y rfl]

/-- What is left of a character: itself, or a marked vowel in its place. -/
theorem head?_markPairs (ps : List (Vowel × Tone)) (y : Char) (cs : List Char) :
    (markPairs ps (y :: cs)).head? = some y ∨
      ∃ w t, (markPairs ps (y :: cs)).head? = some (Vowel.marked w t) := by
  cases cs with
  | nil => exact .inl rfl
  | cons z cs =>
    cases h : findToken? ps y z with
    | none => exact .inl (by rw [markPairs, h]; rfl)
    | some p => exact .inr ⟨p.1, p.2, by rw [markPairs_of_some h]; rfl⟩

/-- A character stays that is not the letter of the pair or has not its digit behind it. -/
theorem replaceToken_cons {p : Vowel × Tone}
    (h : p.1.letter = x → cs.head? ≠ some p.2.digit) :
    replaceToken p (x :: cs) = x :: replaceToken p cs := by
  cases cs with
  | nil => rfl
  | cons y cs =>
    rw [replaceToken, replacePair, if_neg]
    rintro ⟨rfl, rfl⟩
    exact h rfl rfl

/-- One more pair: what the earlier ones have left makes no pair that was not there before. -/
theorem replaceToken_markPairs (p : Vowel × Tone) (ps : List (Vowel × Tone)) (cs : List Char) :
    replaceToken p (markPairs ps cs) = markPairs (ps ++ [p]) cs := by
  fun_induction markPairs ps cs with
  | case1 x y cs q hq ih =>
    have hmore : findToken? (ps ++ [p]) x y = some q := by rw [findToken?_append, hq]; rfl
    have hne : p.1.letter ≠ q.1.marked q.2 := letter_ne_marked p.1 q.1 q.2
    rw [markPairs_of_some hmore, replaceToken_cons fun heq => absurd heq hne, ih]
  | case2 x y cs hnone ih =>
    by_cases hp : p.1.letter = x ∧ p.2.digit = y
    · obtain ⟨rfl, rfl⟩ := hp
      have hfound : findToken? (ps ++ [p]) p.1.letter p.2.digit = some p := by
        rw [findToken?_append, hnone]
        simp [findToken?]
      -- The digit begins no pair, so that it is out of the way of what comes behind it.
      have hdigit : ∀ qs, markPairs qs (p.2.digit :: cs) = p.2.digit :: markPairs qs cs :=
        fun qs => markPairs_of_none fun y _ => findToken?_digit qs p.2 y
      have hrest : replaceToken p (markPairs ps cs) = markPairs (ps ++ [p]) cs := by
        rw [hdigit, hdigit, replaceToken_cons fun heq => absurd heq (letter_ne_digit _ _)] at ih
        exact List.cons.inj ih |>.2
      rw [markPairs_of_some hfound, ← hrest, hdigit, replaceToken, replacePair,
        if_pos ⟨rfl, rfl⟩]
    · have hmore : findToken? (ps ++ [p]) x y = none := by
        rw [findToken?_append, hnone]
        simpa [findToken?] using hp
      have hhead : p.1.letter = x → (markPairs ps (y :: cs)).head? ≠ some p.2.digit := by
        intro hx hdigit
        rcases head?_markPairs ps y cs with hy | ⟨w, t, hmarked⟩
        · exact hp ⟨hx, Option.some.inj (hdigit.symm.trans hy)⟩
        · exact digit_ne_marked p.2 t w (Option.some.inj (hdigit.symm.trans hmarked))
      rw [markPairs, hmore, replaceToken_cons hhead, ih]
  | case3 cs hshort =>
    match cs with
    | [] => rfl
    | [x] => rfl
    | x :: y :: cs => exact absurd rfl (hshort x y cs)

/-- **Pairs that are replaced one after the other do not feed each other.** -/
theorem foldl_replaceToken (ps : List (Vowel × Tone)) (cs : List Char) :
    ps.foldl (fun cs p => replaceToken p cs) cs = markPairs ps cs := by
  induction ps using List.reverseRecOn with
  | nil =>
    induction cs with
    | nil => rfl
    | cons x cs ih =>
      rw [markPairs_of_none fun y _ => rfl, ← ih]
      rfl
  | append_singleton ps p ih =>
    rw [List.foldl_append, ih, ← replaceToken_markPairs]
    rfl

/-! ### Runs of letters under the literal rule -/

/-- Every vowel under every tone is one of the pairs. -/
theorem mem_toneTokens (p : Vowel × Tone) : p ∈ toneTokens := by
  obtain ⟨w, t⟩ := p
  cases w <;> cases t <;> decide

/-- A vowel and the digit behind it make one of the pairs. -/
theorem markPairs_tone (hw : Vowel.ofChar? x = some w) (ht : Tone.ofDigit? y = some t)
    (cs : List Char) :
    markPairs toneTokens (x :: y :: cs) = w.marked t :: markPairs toneTokens cs := by
  have hw' := Vowel.ofChar?_eq_some_iff.mp hw
  have ht' := Tone.ofDigit?_eq_some_iff.mp ht
  have hsome : (findToken? toneTokens x y).isSome := by
    rw [findToken?, List.find?_isSome]
    exact ⟨(w, t), mem_toneTokens (w, t), by simp [hw', ht']⟩
  obtain ⟨p, hp⟩ := Option.isSome_iff_exists.mp hsome
  obtain ⟨hletter, hdigit⟩ := findToken?_eq_some hp
  have hvowel : p.1 = w := by
    have h := Vowel.ofChar?_eq_some_iff.mpr hletter
    exact Option.some.inj (h.symm.trans hw)
  have htone : p.2 = t := by
    have h := Tone.ofDigit?_eq_some_iff.mpr hdigit
    exact Option.some.inj (h.symm.trans ht)
  rw [markPairs_of_some hp, hvowel, htone]

/-- A character stays that is no vowel or has no tone digit behind it. -/
theorem markPairs_toneless
    (h : isVowel x = false ∨ ∀ y, cs.head? = some y → Tone.ofDigit? y = none) :
    markPairs toneTokens (x :: cs) = x :: markPairs toneTokens cs := by
  refine markPairs_of_none fun y hy => ?_
  cases hfound : findToken? toneTokens x y with
  | none => rfl
  | some p =>
    obtain ⟨hletter, hdigit⟩ := findToken?_eq_some hfound
    rcases h with hx | hcs
    · rw [isVowel, Vowel.ofChar?_eq_some_iff.mpr hletter] at hx
      simp at hx
    · have hnone := hcs y hy
      rw [Tone.ofDigit?_eq_some_iff.mpr hdigit] at hnone
      simp at hnone

/-- A letter is no tone digit. -/
theorem ofDigit?_of_isAlpha (h : c.isAlpha = true) : Tone.ofDigit? c = none := by
  cases ht : Tone.ofDigit? c with
  | none => rfl
  | some t =>
    obtain rfl := Tone.ofDigit?_eq_some_iff.mp ht
    revert h
    cases t <;> decide

/-- Letters stay that have a letter behind them. -/
theorem markPairs_letters {xs ys : List Char} (hxs : ∀ x ∈ xs, x.isAlpha = true)
    (hys : ∀ y, ys.head? = some y → y.isAlpha = true) :
    markPairs toneTokens (xs ++ ys) = xs ++ markPairs toneTokens ys := by
  induction xs with
  | nil => rfl
  | cons x xs ih =>
    obtain ⟨-, hxs⟩ := List.forall_mem_cons.mp hxs
    have hhead : ∀ y, (xs ++ ys).head? = some y → Tone.ofDigit? y = none := by
      intro y hy
      refine ofDigit?_of_isAlpha ?_
      cases xs with
      | nil => exact hys y hy
      | cons x' xs =>
        obtain rfl : x' = y := by simpa using hy
        exact hxs x' (by simp)
    rw [List.cons_append, markPairs_toneless (.inr hhead), ih hxs]
    rfl

/-! ### Where the tones stand -/

/-- A tone digit behind a run with a vowel stands right behind the main vowel of the run. -/
def ToneInPlace (run : List Char) (d : Char) : Prop :=
  (Tone.ofDigit? d).isSome → (∃ x ∈ run, isVowel x = true) →
    ∃ start c, start ++ [c] = run ∧ IsMainVowel start c []

/-- So it is for every tone digit of a reading and the run before it. -/
def TonesInPlace (cs : List Char) : Prop :=
  ∀ run d, [run, [d]] <:+: pieces cs → ToneInPlace run d

theorem tonesInPlace_of_letters (hrun : ∀ x ∈ run, x.isAlpha = true) : TonesInPlace run := by
  intro run' d h
  have hlength := h.length_le
  by_cases hne : run = []
  · subst hne
    simp [pieces] at hlength
  · rw [pieces_of_letters hne hrun] at hlength
    simp at hlength

/-- A first character that is no letter is a piece of its own and does not matter. -/
theorem tonesInPlace_cons (hc : c.isAlpha = false) (cs : List Char) :
    TonesInPlace (c :: cs) ↔ TonesInPlace cs := by
  rw [TonesInPlace, pieces_cons hc]
  constructor
  · intro h run d hinfix
    exact h run d (List.infix_cons_iff.mpr (.inr hinfix))
  · intro h run d hinfix
    rcases List.infix_cons_iff.mp hinfix with hstart | hinfix
    · obtain ⟨rfl, -⟩ := List.cons_prefix_cons.mp hstart
      rintro - ⟨x, hx, hvowel⟩
      rw [List.mem_singleton.mp hx, isVowel_of_isAlpha_eq_false hc] at hvowel
      simp at hvowel
    · exact h run d hinfix

/-- Tones are in place if the first one is, and those behind it are. -/
theorem tonesInPlace_append_cons (hrun : ∀ x ∈ run, x.isAlpha = true) (hc : c.isAlpha = false) :
    TonesInPlace (run ++ c :: cs) ↔ ToneInPlace run c ∧ TonesInPlace cs := by
  by_cases hne : run = []
  · subst hne
    have hempty : ToneInPlace [] c := by simp [ToneInPlace]
    rw [List.nil_append, tonesInPlace_cons hc, and_iff_right hempty]
  · rw [← tonesInPlace_cons hc cs, TonesInPlace, TonesInPlace,
      pieces_append_cons hne hrun hc, pieces_cons hc]
    constructor
    · intro h
      refine ⟨h run c ⟨[], pieces cs, rfl⟩, fun run' d hinfix => ?_⟩
      exact h run' d (List.infix_cons_iff.mpr (.inr hinfix))
    · rintro ⟨hfirst, hrest⟩ run' d hinfix
      rcases List.infix_cons_iff.mp hinfix with hstart | hinfix
      · obtain ⟨rfl, hbehind⟩ := List.cons_prefix_cons.mp hstart
        obtain ⟨hd, -⟩ := List.cons_prefix_cons.mp hbehind
        rwa [List.singleton_inj.mp hd]
      · exact hrest run' d hinfix

/-! ### The two rules compared -/

/-- Where a tone digit is in place, both rules do the same. -/
theorem markPairs_of_inPlace (hrun : ∀ x ∈ run, x.isAlpha = true) (hc : c.isAlpha = false)
    (h : ToneInPlace run c) (cs : List Char) :
    markPairs toneTokens (run ++ c :: cs) = closeRun run c ++ markPairs toneTokens cs := by
  -- The character behind the run begins no pair, for it is no vowel.
  have hbehind : markPairs toneTokens (c :: cs) = c :: markPairs toneTokens cs :=
    markPairs_toneless (.inl (isVowel_of_isAlpha_eq_false hc))
  rcases List.eq_nil_or_concat run with rfl | ⟨start, z, rfl⟩
  · rw [closeRun_of_toneless (.inl (by simp)), List.nil_append, hbehind]
    rfl
  · rw [List.concat_eq_append] at hrun h ⊢
    have hstart : ∀ x ∈ start, x.isAlpha = true := fun x hx => hrun x (by simp [hx])
    have hz : z.isAlpha = true := hrun z (by simp)
    rw [List.append_assoc, List.singleton_append,
      markPairs_letters hstart (by simpa using hz)]
    rcases tone_cases (start ++ [z]) c with ⟨before, v, after, w, t, hcut, hm, hw, ht⟩ | htoneless
    · have hvowels : ∃ x ∈ start ++ [z], isVowel x = true :=
        ⟨v, hcut ▸ by simp, isVowel_of_isMainVowel hm⟩
      obtain ⟨start', z', heq, hmain⟩ := h (by rw [ht]; rfl) hvowels
      obtain ⟨rfl, hz'⟩ := List.append_inj' heq rfl
      obtain rfl : z' = z := List.singleton_inj.mp hz'
      obtain ⟨w', hw'⟩ := Option.isSome_iff_exists.mp (isVowel_of_isMainVowel hmain)
      rw [closeRun_of_isMainVowel hmain hw' ht, markPairs_tone hw' ht]
      simp
    · have hlast : isVowel z = false ∨
          ∀ y, (c :: cs).head? = some y → Tone.ofDigit? y = none := by
        refine htoneless.imp (fun hrun => hrun z (by simp)) fun hd y hy => ?_
        obtain rfl : c = y := by simpa using hy
        exact hd
      rw [closeRun_of_toneless htoneless, markPairs_toneless hlast, hbehind]
      simp

/-- A marked vowel is spelled unlike its letter, also where that becomes `ü`. -/
theorem spellUmlaut_marked_ne (hw : Vowel.ofChar? c = some w) (t : Tone) :
    spellUmlaut (w.marked t) ≠ spellUmlaut c := by
  obtain rfl := Vowel.ofChar?_eq_some_iff.mp hw
  cases w <;> cases t <;> decide

/-- Where a tone digit is out of place, the main vowel is marked by one rule only. -/
theorem markPairs_ne_of_not_inPlace (hrun : ∀ x ∈ run, x.isAlpha = true)
    (h : ¬ ToneInPlace run c) (cs rest : List Char) :
    (closeRun run c ++ rest).map spellUmlaut ≠
      (markPairs toneTokens (run ++ c :: cs)).map spellUmlaut := by
  have hnot : ¬ ((∀ x ∈ run, isVowel x = false) ∨ Tone.ofDigit? c = none) := by
    rintro (hvowels | hnone)
    · refine h fun _ => ?_
      rintro ⟨x, hx, hvowel⟩
      simp [hvowels x hx] at hvowel
    · exact h (by simp [ToneInPlace, hnone])
  obtain ⟨before, v, after, w, t, rfl, hm, hw, ht⟩ := (tone_cases run c).resolve_right hnot
  obtain ⟨b, after, rfl⟩ : ∃ b as, after = b :: as := by
    refine List.exists_cons_of_ne_nil ?_
    rintro rfl
    exact h fun _ _ => ⟨before, v, rfl, hm⟩
  -- The main vowel is a letter with another letter behind it.
  have hfront : ∀ x ∈ before ++ [v], x.isAlpha = true := by
    intro x hx
    refine hrun x ?_
    rw [← List.singleton_append, ← List.append_assoc]
    exact List.mem_append_left _ hx
  have hb : b.isAlpha = true := hrun b (by simp)
  have hliteral : markPairs toneTokens (before ++ [v] ++ (b :: after ++ c :: cs)) =
      before ++ [v] ++ markPairs toneTokens (b :: after ++ c :: cs) :=
    markPairs_letters hfront (by simpa using hb)
  have hassoc : before ++ v :: b :: after ++ c :: cs =
      before ++ [v] ++ (b :: after ++ c :: cs) := by simp
  rw [closeRun_of_isMainVowel hm hw ht, hassoc, hliteral]
  simp only [List.append_assoc, List.map_append, List.cons_append, List.map_cons, ne_eq,
    List.append_cancel_left_eq, List.cons.injEq, not_and]
  intro heq
  exact absurd heq (spellUmlaut_marked_ne hw t)

/-- On characters the two rules agree just where the tones are in place. -/
theorem map_moveTones_eq_iff :
    (moveTones [] cs).map spellUmlaut = (markPairs toneTokens cs).map spellUmlaut ↔
      TonesInPlace cs := by
  induction cs using pieceInduction with
  | last run hrun =>
    have hliteral : markPairs toneTokens (run ++ []) = run ++ markPairs toneTokens [] :=
      markPairs_letters hrun (by simp)
    rw [List.append_nil] at hliteral
    rw [moveTones_of_letters hrun, hliteral]
    exact iff_of_true (by simp [markPairs]) (tonesInPlace_of_letters hrun)
  | more run c cs hrun hc ih =>
    rw [tonesInPlace_append_cons hrun hc, moveTones_append_cons hrun hc]
    by_cases h : ToneInPlace run c
    · rw [markPairs_of_inPlace hrun hc h, List.map_append, List.map_append,
        List.append_right_inj, ih, and_iff_right h]
    · exact iff_of_false (markPairs_ne_of_not_inPlace hrun h cs _) fun hplaces => h hplaces.1

/-- **The two rules agree just where every tone digit stands right behind a main vowel.** -/
theorem markTones_eq_literalTones_iff (s : String) :
    markTones s = literalTones s ↔ TonesInPlace s.toList := by
  rw [markTones, literalTones, foldl_replaceToken, String.ofList_inj, markToneChars]
  exact map_moveTones_eq_iff

-- A digit behind a vowel that is not the main one, behind a consonant, and in place.
example : literalTones "ai4 ban4 ni3" = "aì ban4 nǐ" ∧
    markTones "ai4 ban4 ni3" = "ài bàn nǐ" := by decide

end Flashcards.Pinyin
