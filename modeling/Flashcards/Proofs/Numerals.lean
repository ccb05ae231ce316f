import Flashcards.Settings
import Mathlib.Data.List.DropRight
import Mathlib.Data.Nat.Digits.Lemmas

namespace Flashcards

open Flashcards.Text

/-!
# Numbers among the settings

A number is written in decimal digits, with a plus sign or none before them and blank characters
around.  It is read exactly if it is less than `2 ^ 64`, however many zeros it starts with, and
nothing else is read as a number.

* `decimalValue` — what digits denote, each with its power of ten.
* `whiteSpace` — the blank characters, one by one.
* `Numeral` — a number as it may be written.
* `le_digitsValue_of_length` — digits that are too many denote too much, leading zeros apart.
* `digits64?_of_digits` — the number that is read from digits.
* `trim_eq` — what is left of a text between blank characters.
* `readWord64?_eq_some_iff` — the numbers that are read are those of numerals.
* `Settings.ofLookup_exact` — the settings that are numbers.
-/

namespace Text

variable {cs ds : List Char} {n : Nat}

/-! ### Digits -/

/-- What decimal digits denote: the last one counts once, the one before it ten times, and so on. -/
def decimalValue (ds : List Char) : Nat :=
  Nat.ofDigits 10 (ds.reverse.map fun d => d.toNat - '0'.toNat)

/-- One more digit at the end makes ten times the number and that digit. -/
theorem digitsValue_concat (ds : List Char) (d : Char) :
    digitsValue (ds ++ [d]) = 10 * digitsValue ds + (d.toNat - '0'.toNat) := by
  rw [digitsValue, List.foldl_append]
  rfl

/-- Reading digits from the left gives each of them its power of ten. -/
theorem digitsValue_eq_decimalValue (ds : List Char) : digitsValue ds = decimalValue ds := by
  induction ds using List.reverseRecOn with
  | nil => rfl
  | append_singleton ds d ih =>
    rw [digitsValue_concat, ih, decimalValue, decimalValue, List.reverse_concat, List.map_cons,
      Nat.ofDigits_cons, Nat.add_comm]

/-- Zeros at the start do not count. -/
theorem digitsValue_dropZeros (ds : List Char) :
    digitsValue (ds.dropWhile (· = '0')) = digitsValue ds := by
  induction ds with
  | nil => rfl
  | cons d ds ih =>
    by_cases hd : d = '0'
    · rw [List.dropWhile_cons_of_pos (by simpa using hd), ih, hd]
      rfl
    · rw [List.dropWhile_cons_of_neg (by simpa using hd)]

/-- The decimal digits have the code points 48 to 57. -/
theorem isDigit_iff_toNat {c : Char} : c.isDigit = true ↔ 48 ≤ c.toNat ∧ c.toNat ≤ 57 := by
  simp only [Char.isDigit, Bool.and_eq_true, decide_eq_true_eq, ge_iff_le, UInt32.le_iff_toNat_le]
  rfl

theorem isBlank_of_isDigit {c : Char} (h : c.isDigit = true) : isBlank c = false := by
  obtain ⟨hlow, hhigh⟩ := isDigit_iff_toNat.mp h
  simp only [isBlank, liesIn, blankRanges, List.any_cons, List.any_nil, Bool.or_eq_false_iff,
    Bool.and_eq_false_iff, decide_eq_false_iff_not, and_true]
  omega

/-- Digits that do not start with a zero denote at least a power of ten. -/
theorem pow_le_digitsValue {d : Char} (hd : d.isDigit = true) (h0 : d ≠ '0') (ds : List Char) :
    10 ^ ds.length ≤ digitsValue (d :: ds) := by
  have hvalue : d.toNat - '0'.toNat ≠ 0 := by
    obtain ⟨hlow, -⟩ := isDigit_iff_toNat.mp hd
    have hne : d.toNat ≠ '0'.toNat := fun h => h0 (Char.toNat_inj.mp h)
    have hzero : '0'.toNat = 48 := rfl
    omega
  have hlast : (((d :: ds).reverse.map fun d => d.toNat - '0'.toNat).getLast (by simp)) ≠ 0 := by
    simpa using hvalue
  have hpow : 10 ^ ((d :: ds).reverse.map fun d => d.toNat - '0'.toNat).length ≤
      10 * decimalValue (d :: ds) := Nat.pow_length_le_mul_ofDigits (by simp) hlast
  rw [List.length_map, List.length_reverse, List.length_cons, Nat.pow_succ] at hpow
  rw [digitsValue_eq_decimalValue]
  omega

/-- Digits that are too many for a word without the zeros at their start denote too much for it. -/
theorem le_digitsValue_of_length (hdigits : ∀ c ∈ cs, c.isDigit = true)
    (hlong : wordDigits < (cs.dropWhile (· = '0')).length) : 2 ^ 64 ≤ digitsValue cs := by
  rw [← digitsValue_dropZeros]
  cases hcut : cs.dropWhile (· = '0') with
  | nil => simp [hcut] at hlong
  | cons d ds =>
    have hmem : d ∈ cs := by
      have hsuffix : d :: ds <:+ cs := hcut ▸ List.dropWhile_suffix _
      exact hsuffix.subset List.mem_cons_self
    -- `d` is the first digit that counts, and there are twenty behind it.
    have hd : d ≠ '0' := by
      have hnot := List.head?_dropWhile_not (· = '0') cs
      simpa [hcut] using hnot
    have hlength : 20 ≤ ds.length := by
      rw [hcut, List.length_cons, wordDigits] at hlong
      omega
    calc 2 ^ 64 ≤ 10 ^ 20 := by decide
      _ ≤ 10 ^ ds.length := Nat.pow_le_pow_right (by omega) hlength
      _ ≤ digitsValue (d :: ds) := pow_le_digitsValue (hdigits d hmem) hd ds

/-- Digits are read just if what they denote fits in a word. -/
theorem digits64?_of_digits (hne : cs ≠ []) (hdigits : ∀ c ∈ cs, c.isDigit = true) :
    digits64? cs = if decimalValue cs < 2 ^ 64 then some (decimalValue cs) else none := by
  have hread : ¬ (cs.isEmpty || !cs.all Char.isDigit) = true := by simpa using ⟨hne, hdigits⟩
  have hsize : wordSize = 2 ^ 64 := by decide
  rw [← digitsValue_eq_decimalValue, digits64?, if_neg hread]
  simp only [digitsValue_dropZeros, hsize]
  split
  case isTrue hlong =>
    -- Digits are given up for their number alone, before they are evaluated.
    have hlarge := le_digitsValue_of_length hdigits hlong
    rw [if_neg (by omega)]
  case isFalse => rfl

/-- Nothing but digits is read. -/
theorem digits_of_digits64? (h : digits64? cs = some n) :
    cs ≠ [] ∧ ∀ c ∈ cs, c.isDigit = true := by
  unfold digits64? at h
  split at h
  case isTrue => exact absurd h (by simp)
  case isFalse hread => simpa using hread

/-! ### Numerals -/

/-- The characters with the Unicode property `White_Space`. -/
def whiteSpace : List Char :=
  ['\t', '\n', '\x0b', '\x0c', '\r', ' ', '\u0085', '\u00a0', '\u1680', '\u2000', '\u2001',
    '\u2002', '\u2003', '\u2004', '\u2005', '\u2006', '\u2007', '\u2008', '\u2009', '\u200a',
    '\u2028', '\u2029', '\u202f', '\u205f', '\u3000']

/-- These are the blank characters. -/
theorem isBlank_iff_mem_whiteSpace {c : Char} : isBlank c = true ↔ c ∈ whiteSpace := by
  have hcodes : whiteSpace.map Char.toNat =
      [9, 10, 11, 12, 13, 32, 133, 160, 5760, 8192, 8193, 8194, 8195, 8196, 8197, 8198, 8199, 8200,
        8201, 8202, 8232, 8233, 8239, 8287, 12288] := by decide
  rw [← List.mem_map_of_injective fun _ _ => Char.toNat_inj.mp, hcodes]
  simp only [isBlank, liesIn, blankRanges, List.any_cons, List.any_nil, List.mem_cons,
    List.not_mem_nil, Bool.or_eq_true, Bool.and_eq_true, decide_eq_true_eq, or_false,
    Bool.false_eq_true]
  omega

/-- The plus sign, if it is written. -/
def plusSign (written : Bool) : List Char :=
  if written then ['+'] else []

/-- A number as it may be written: digits, with a plus sign or none before them and white space
    around. -/
structure Numeral where
  before : List Char
  signed : Bool
  digits : List Char
  after : List Char
  mem_whiteSpace_of_mem_before : ∀ c ∈ before, c ∈ whiteSpace
  digits_ne_nil : digits ≠ []
  isDigit_of_mem : ∀ d ∈ digits, d.isDigit = true
  mem_whiteSpace_of_mem_after : ∀ c ∈ after, c ∈ whiteSpace

namespace Numeral

/-- A numeral as a text. -/
def text (w : Numeral) : String :=
  String.ofList (w.before ++ (plusSign w.signed ++ w.digits) ++ w.after)

/-- The number of a numeral. -/
def value (w : Numeral) : Nat :=
  decimalValue w.digits

/-- Neither the sign nor the digits of a numeral are blank. -/
theorem isBlank_of_mem_signed (w : Numeral) :
    ∀ c ∈ plusSign w.signed ++ w.digits, isBlank c = false := by
  intro c hc
  rcases List.mem_append.mp hc with hc | hc
  · cases hs : w.signed with
    | true =>
      obtain rfl : c = '+' := by simpa [hs, plusSign] using hc
      decide
    | false => simp [hs, plusSign] at hc
  · exact isBlank_of_isDigit (w.isDigit_of_mem c hc)

/-- A numeral with the digits of a number in place of its own, and with zeros before them. -/
def withNumber (w : Numeral) (zeros n : Nat) : Numeral :=
  { w with
    digits := List.replicate zeros '0' ++ Nat.toDigits 10 n
    digits_ne_nil := List.append_ne_nil_of_right_ne_nil _ Nat.toDigits_ne_nil
    isDigit_of_mem := by
      intro d hd
      rcases List.mem_append.mp hd with hd | hd
      · rw [List.eq_of_mem_replicate hd]
        rfl
      · exact Nat.isDigit_of_mem_toDigits (by omega) (by omega) hd }

/-- Zeros before the digits of a number do not change it. -/
theorem value_withNumber (w : Numeral) (zeros n : Nat) : (w.withNumber zeros n).value = n := by
  have hdrop : (List.replicate zeros '0' ++ Nat.toDigits 10 n).dropWhile (· = '0') =
      (Nat.toDigits 10 n).dropWhile (· = '0') :=
    List.dropWhile_append_of_pos fun c hc => decide_eq_true (List.eq_of_mem_replicate hc)
  rw [value, withNumber, ← digitsValue_eq_decimalValue, ← digitsValue_dropZeros, hdrop,
    digitsValue_dropZeros]
  exact Nat.ofDigitChars_toDigits (by omega) (by omega)

end Numeral

/-- A text is cut down to what stands between blank characters. -/
theorem trim_eq {before mid after : List Char} (hb : ∀ c ∈ before, isBlank c = true)
    (ha : ∀ c ∈ after, isBlank c = true) (hne : mid ≠ []) (hm : ∀ c ∈ mid, isBlank c = false) :
    trim (before ++ mid ++ after) = mid := by
  obtain ⟨c, rest, rfl⟩ := List.exists_cons_of_ne_nil hne
  have hstart : trimStart (before ++ (c :: rest) ++ after) = (c :: rest) ++ after := by
    rw [trimStart, List.append_assoc, List.dropWhile_append_of_pos hb, List.cons_append]
    exact List.dropWhile_cons_of_neg (by simp [hm c (by simp)])
  rw [trim, hstart, trimEnd, dropTrailing_append_of_all ha]
  refine List.rdropWhile_eq_self_iff.mpr fun hne => ?_
  simp [hm _ (List.getLast_mem hne)]

/-- Nothing but blank characters is cut off. -/
theorem exists_trim_append (cs : List Char) :
    ∃ before after, (∀ c ∈ before, isBlank c = true) ∧ (∀ c ∈ after, isBlank c = true) ∧
      before ++ trim cs ++ after = cs := by
  obtain ⟨after, hafter, hcut⟩ := exists_dropTrailing_append isBlank (trimStart cs)
  refine ⟨cs.takeWhile isBlank, after, fun c hc => ?_, hafter, ?_⟩
  · exact List.all_eq_true.mp List.all_takeWhile c hc
  · rw [trim, trimEnd, List.append_assoc, hcut, trimStart, List.takeWhile_append_dropWhile]

/-- What is read behind a plus sign is read without it. -/
theorem unsigned64?_signed (signed : Bool) (hdigits : ∀ d ∈ ds, d.isDigit = true) :
    unsigned64? (plusSign signed ++ ds) = digits64? ds := by
  cases signed with
  | true => rfl
  | false =>
    show unsigned64? ds = digits64? ds
    unfold unsigned64?
    split
    -- A plus sign is no digit, so it is not the first of them.
    case h_1 rest => exact absurd (hdigits '+' (by simp)) (by decide)
    case h_2 => rfl

/-- What is read is digits, with a plus sign before them or none. -/
theorem exists_of_unsigned64? (h : unsigned64? cs = some n) :
    ∃ signed ds, plusSign signed ++ ds = cs ∧ digits64? ds = some n := by
  unfold unsigned64? at h
  split at h
  case h_1 ds => exact ⟨true, ds, rfl, h⟩
  case h_2 => exact ⟨false, cs, rfl, h⟩

/-- A numeral is read just if its number fits in a word. -/
theorem readWord64?_text (w : Numeral) :
    readWord64? w.text = if w.value < 2 ^ 64 then some w.value else none := by
  have htrim := trim_eq
    (fun c hc => isBlank_iff_mem_whiteSpace.mpr (w.mem_whiteSpace_of_mem_before c hc))
    (fun c hc => isBlank_iff_mem_whiteSpace.mpr (w.mem_whiteSpace_of_mem_after c hc))
    (List.append_ne_nil_of_right_ne_nil _ w.digits_ne_nil) w.isBlank_of_mem_signed
  rw [readWord64?, Numeral.text, String.toList_ofList, htrim, unsigned64?_signed _ w.isDigit_of_mem,
    digits64?_of_digits w.digits_ne_nil w.isDigit_of_mem, Numeral.value]

/-- Nothing but numerals is read. -/
theorem exists_numeral_of_readWord64? {text : String} (h : readWord64? text = some n) :
    ∃ w : Numeral, w.text = text := by
  obtain ⟨signed, ds, hcut, hread⟩ := exists_of_unsigned64? h
  obtain ⟨hne, hdigits⟩ := digits_of_digits64? hread
  obtain ⟨before, after, hbefore, hafter, htext⟩ := exists_trim_append text.toList
  refine ⟨⟨before, signed, ds, after,
    fun c hc => isBlank_iff_mem_whiteSpace.mp (hbefore c hc), hne, hdigits,
    fun c hc => isBlank_iff_mem_whiteSpace.mp (hafter c hc)⟩, ?_⟩
  rw [Numeral.text, hcut, htext, String.ofList_toList]

/-- The numbers that are read are those of numerals that fit in a word. -/
theorem readWord64?_eq_some_iff {text : String} :
    readWord64? text = some n ↔ ∃ w : Numeral, w.text = text ∧ w.value = n ∧ n < 2 ^ 64 := by
  constructor
  · intro h
    obtain ⟨w, rfl⟩ := exists_numeral_of_readWord64? h
    rw [readWord64?_text, Option.ite_none_right_eq_some] at h
    obtain ⟨hlt, hvalue⟩ := h
    obtain rfl := Option.some.inj hvalue
    exact ⟨w, rfl, rfl, hlt⟩
  · rintro ⟨w, rfl, rfl, hlt⟩
    rw [readWord64?_text, if_pos hlt]

end Text

namespace Settings

variable {lookup : String → Option String} {key : String} {n : Nat}

/-- What stands under a key is a numeral of a number that fits in a word. -/
def Gives (lookup : String → Option String) (key : String) (n : Nat) : Prop :=
  ∃ w : Numeral, lookup key = some w.text ∧ w.value = n ∧ n < 2 ^ 64

/-- A number is given under a key just if it is read there. -/
theorem gives_iff : Gives lookup key n ↔ (lookup key).bind readWord64? = some n := by
  rw [Option.bind_eq_some_iff, Gives]
  constructor
  · rintro ⟨w, htext, hvalue⟩
    exact ⟨w.text, htext, readWord64?_eq_some_iff.mpr ⟨w, rfl, hvalue⟩⟩
  · rintro ⟨text, htext, hn⟩
    obtain ⟨w, rfl, hvalue⟩ := readWord64?_eq_some_iff.mp hn
    exact ⟨w, htext, hvalue⟩

/-- A setting is the number that is given under its key.  If none is given, or one that does not fit
    in a word, it is the default. -/
structure IsRead (lookup : String → Option String) (key : String) (fallback setting : Nat) :
    Prop where
  eq_iff : ∀ n, setting = n ↔ Gives lookup key n ∨ (¬ ∃ m, Gives lookup key m) ∧ n = fallback
  eq_of_numeral : ∀ w : Numeral, lookup key = some w.text →
    setting = if w.value < 2 ^ 64 then w.value else fallback
  eq_of_number : ∀ (w : Numeral) (zeros n : Nat), lookup key = some (w.withNumber zeros n).text →
    setting = if n < 2 ^ 64 then n else fallback

/-- A numeral is read as its number, if that fits in a word. -/
theorem numberOr_of_numeral (fallback : Nat) {w : Numeral} (hw : lookup key = some w.text) :
    numberOr lookup key fallback = if w.value < 2 ^ 64 then w.value else fallback := by
  rw [numberOr, hw, Option.bind_some, readWord64?_text]
  split <;> rfl

/-- Every number among the settings is read in the same way. -/
theorem numberOr_isRead (lookup : String → Option String) (key : String) (fallback : Nat) :
    IsRead lookup key fallback (numberOr lookup key fallback) where
  eq_iff n := by
    simp only [gives_iff, numberOr]
    cases (lookup key).bind readWord64? with
    | none => simp [eq_comm]
    | some m => simp
  eq_of_numeral _ hw := numberOr_of_numeral fallback hw
  eq_of_number w zeros n hw := by
    rw [numberOr_of_numeral fallback hw, w.value_withNumber]

/-- **Numbers among the settings are read exactly or not at all.**  A setting is the number of the
    numeral that stands under its key, if this number is less than `2 ^ 64`, and the default for any
    other text.  Blank characters around a numeral, its plus sign and zeros before the digits of a
    number do not matter, nor does what stands under other keys. -/
theorem ofLookup_exact (lookup : String → Option String) :
    IsRead lookup "QUIZLET_POLL_INTERVAL_MS" 2000 (ofLookup lookup).pollInterval ∧
      IsRead lookup "QUIZLET_DEBOUNCE_MS" 100 (ofLookup lookup).debounce ∧
      ∀ other : String → Option String,
        (other "QUIZLET_POLL_INTERVAL_MS" = lookup "QUIZLET_POLL_INTERVAL_MS" →
          (ofLookup other).pollInterval = (ofLookup lookup).pollInterval) ∧
        (other "QUIZLET_DEBOUNCE_MS" = lookup "QUIZLET_DEBOUNCE_MS" →
          (ofLookup other).debounce = (ofLookup lookup).debounce) ∧
        (other "QUIZLET_LOG" = lookup "QUIZLET_LOG" →
          (ofLookup other).logFilter = (ofLookup lookup).logFilter) := by
  refine ⟨numberOr_isRead lookup _ _, numberOr_isRead lookup _ _,
    fun other => ⟨fun h => ?_, fun h => ?_, fun h => ?_⟩⟩
  · simp only [ofLookup, numberOr, h]
  · simp only [ofLookup, numberOr, h]
  · simp only [ofLookup, h]

/-- The number one, with a plus sign before it and a blank character behind it. -/
def signedOne : Numeral where
  before := []
  signed := true
  digits := ['1']
  after := ['\u3000']
  mem_whiteSpace_of_mem_before := by simp
  digits_ne_nil := by simp
  isDigit_of_mem := by simp
  mem_whiteSpace_of_mem_after := by simp [whiteSpace]

/-- The greatest number of a word, written with a sign, a zero and a blank character, and the number
    after it. -/
theorem ofLookup_exact_greatest :
    let w : Numeral := signedOne.withNumber 1 18446744073709551615
    let v : Numeral := signedOne.withNumber 0 18446744073709551616
    let lookup : String → Option String := fun key =>
      if key = "QUIZLET_POLL_INTERVAL_MS" then some w.text else some v.text
    w.text = "+018446744073709551615\u3000" ∧ v.text = "+18446744073709551616\u3000" ∧
      (ofLookup lookup).pollInterval = 2 ^ 64 - 1 ∧ (ofLookup lookup).debounce = 100 := by
  intro w v lookup
  obtain ⟨hpoll, hdebounce, -⟩ := ofLookup_exact lookup
  refine ⟨by decide, by decide, ?_, ?_⟩
  · rw [hpoll.eq_of_number signedOne 1 18446744073709551615 rfl]
    rfl
  · rw [hdebounce.eq_of_number signedOne 0 18446744073709551616 rfl]
    rfl

end Settings

end Flashcards
