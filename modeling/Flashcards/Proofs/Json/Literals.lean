import Flashcards.Json
import Mathlib.Algebra.Field.Rat

namespace Flashcards.Json

/-!
# Literals of JSON

How numbers and strings are written in a JSON text.  Each relation reads a text from the front:
it relates characters, what they begin with, and the characters that are left behind it.

* `Blanks` — spaces and line ends that carry no meaning.
* `Number` — a number: sign, whole part, fraction and exponent.
* `Character`, `Characters` — one character of a string, and a string up to its closing quote.
* `Number.unique`, `Characters.unique` — a literal can be read in one way only.
-/

/-- A text that starts with a character of some kind. -/
def Starts (p : Char → Bool) (cs : List Char) : Prop :=
  cs.head?.any p = true

variable {c d : Char} {cs cs' ds ds' rest rest' : List Char}

@[simp] theorem not_starts_nil (p : Char → Bool) : ¬ Starts p [] :=
  Bool.false_ne_true

@[simp] theorem starts_cons (p : Char → Bool) : Starts p (c :: cs) ↔ p c = true :=
  Iff.rfl

/-- The characters of some kind that a text begins with are known when no more of them follow. -/
theorem eq_of_append_eq_append {p : Char → Bool} (hds : ∀ d ∈ ds, p d = true)
    (hds' : ∀ d ∈ ds', p d = true) (hrest : ¬ Starts p rest) (hrest' : ¬ Starts p rest')
    (h : ds ++ rest = ds' ++ rest') : ds = ds' ∧ rest = rest' := by
  have hnone : ∀ {cs : List Char}, ¬ Starts p cs → cs.takeWhile p = [] := by
    intro cs hcs
    cases cs with
    | nil => rfl
    | cons c cs => exact List.takeWhile_cons_of_neg hcs
  have htake := congrArg (List.takeWhile p) h
  rw [List.takeWhile_append_of_pos hds, List.takeWhile_append_of_pos hds', hnone hrest,
    hnone hrest', List.append_nil, List.append_nil] at htake
  rw [htake] at h
  exact ⟨htake, List.append_cancel_left h⟩

/-! ### Blanks -/

/-- The characters that may stand between the words of a text. -/
def isBlank (c : Char) : Bool :=
  c ∈ [' ', '\t', '\n', '\r']

/-- A text that begins with blanks, or with none. -/
def Blanks (cs rest : List Char) : Prop :=
  ∃ w, (∀ c ∈ w, isBlank c = true) ∧ w ++ rest = cs

theorem Blanks.refl (cs : List Char) : Blanks cs cs :=
  ⟨[], by simp, rfl⟩

/-- Blank characters are left out in one way only, when none follows. -/
theorem Blanks.unique (h : Blanks cs rest) (h' : Blanks cs rest') (hr : ¬ Starts isBlank rest)
    (hr' : ¬ Starts isBlank rest') : rest = rest' := by
  obtain ⟨w, hw, rfl⟩ := h
  obtain ⟨w', hw', heq⟩ := h'
  exact (eq_of_append_eq_append hw hw' hr hr' heq.symm).2

/-! ### Numbers -/

/-- A text that begins with some digits, at least one. -/
structure Digits (cs ds rest : List Char) : Prop where
  ne_nil : ds ≠ []
  isDigit : ∀ d ∈ ds, d.isDigit = true
  append_eq : ds ++ rest = cs

/-- A text that may begin with one of the allowed signs. -/
inductive Sign (allowed : List Char) : List Char → ℤ → List Char → Prop
  | none {cs : List Char} : Sign allowed cs 1 cs
  | plus {cs : List Char} (ha : '+' ∈ allowed) : Sign allowed ('+' :: cs) 1 cs
  | minus {cs : List Char} (ha : '-' ∈ allowed) : Sign allowed ('-' :: cs) (-1) cs

/-- A text that begins with the whole part of a number.  Only zero starts with the digit zero. -/
inductive Whole : List Char → ℕ → List Char → Prop
  | zero {cs : List Char} : Whole ('0' :: cs) 0 cs
  | digits {cs ds rest : List Char} (h : Digits cs ds rest) (h0 : ds.head? ≠ some '0') :
      Whole cs (Nat.ofDigitChars 10 ds 0) rest

/-- A text that may begin with the fraction of a number. -/
inductive Fraction : List Char → ℚ → List Char → Prop
  | none {cs : List Char} : Fraction cs 0 cs
  | digits {cs ds rest : List Char} (h : Digits cs ds rest) :
      Fraction ('.' :: cs) (Nat.ofDigitChars 10 ds 0 / 10 ^ ds.length) rest

/-- A text that may begin with the exponent of a number; what is read is the power of ten. -/
inductive Exponent : List Char → ℚ → List Char → Prop
  | none {cs : List Char} : Exponent cs 1 cs
  | digits {e : Char} {cs cs' ds rest : List Char} {σ : ℤ} (he : e = 'e' ∨ e = 'E')
      (hs : Sign ['+', '-'] cs σ cs') (h : Digits cs' ds rest) :
      Exponent (e :: cs) (10 ^ (σ * Nat.ofDigitChars 10 ds 0)) rest

/-- A text that begins with a number. -/
inductive Number : List Char → ℚ → List Char → Prop
  | mk {cs cs₁ cs₂ cs₃ rest : List Char} {σ : ℤ} {n : ℕ} {f e : ℚ} (hs : Sign ['-'] cs σ cs₁)
      (hw : Whole cs₁ n cs₂) (hf : Fraction cs₂ f cs₃) (he : Exponent cs₃ e rest) :
      Number cs (σ * (n + f) * e) rest

/-- The characters of numbers. -/
def isNumeric (c : Char) : Bool :=
  c.isDigit || c ∈ ['-', '+', '.', 'e', 'E']

theorem Digits.starts (h : Digits cs ds rest) : Starts Char.isDigit cs := by
  obtain ⟨hne, hdigits, rfl⟩ := h
  obtain ⟨d, ds, rfl⟩ := List.exists_cons_of_ne_nil hne
  exact hdigits d (by simp)

/-- Digits are read in one way only, when none follows. -/
theorem Digits.unique (h : Digits cs ds rest) (h' : Digits cs ds' rest')
    (hr : ¬ Starts Char.isDigit rest) (hr' : ¬ Starts Char.isDigit rest') :
    ds = ds' ∧ rest = rest' :=
  eq_of_append_eq_append h.isDigit h'.isDigit hr hr' (h.append_eq.trans h'.append_eq.symm)

/-- Signs are told from digits. -/
theorem Sign.unique {allowed : List Char} {σ σ' : ℤ} (h : Sign allowed cs σ rest)
    (h' : Sign allowed cs σ' rest') (hr : Starts Char.isDigit rest)
    (hr' : Starts Char.isDigit rest') : σ = σ' ∧ rest = rest' := by
  cases h with
  | none =>
    cases h' with
    | none => exact ⟨rfl, rfl⟩
    | plus => exact absurd hr (by simp)
    | minus => exact absurd hr (by simp)
  | plus =>
    cases h' with
    | none => exact absurd hr' (by simp)
    | plus => exact ⟨rfl, rfl⟩
  | minus =>
    cases h' with
    | none => exact absurd hr' (by simp)
    | minus => exact ⟨rfl, rfl⟩

theorem Whole.starts {n : ℕ} (h : Whole cs n rest) : Starts Char.isDigit cs := by
  cases h with
  | zero => simp
  | digits h => exact h.starts

/-- Digits that are read from a zero on start with it. -/
theorem not_digits_zero (h : Digits ('0' :: cs) ds rest) (h0 : ds.head? ≠ some '0') : False := by
  obtain ⟨d, ds, rfl⟩ := List.exists_cons_of_ne_nil h.ne_nil
  obtain ⟨rfl, -⟩ := List.cons.inj h.append_eq
  exact h0 rfl

/-- A whole number is read in one way only, when no digit follows. -/
theorem Whole.unique {n n' : ℕ} (h : Whole cs n rest) (h' : Whole cs n' rest')
    (hr : ¬ Starts Char.isDigit rest) (hr' : ¬ Starts Char.isDigit rest') :
    n = n' ∧ rest = rest' := by
  cases h with
  | zero =>
    cases h' with
    | zero => exact ⟨rfl, rfl⟩
    | digits hd h0 => exact (not_digits_zero hd h0).elim
  | digits hd h0 =>
    cases h' with
    | zero => exact (not_digits_zero hd h0).elim
    | digits hd' h0' =>
      obtain ⟨rfl, rfl⟩ := hd.unique hd' hr hr'
      exact ⟨rfl, rfl⟩

/-- What may not stand behind a fraction. -/
def goesOn (c : Char) : Bool :=
  c.isDigit || c = '.'

/-- A fraction, also one that is left out, does not start with a digit. -/
theorem Fraction.not_starts {f : ℚ} (h : Fraction cs f rest) (hr : ¬ Starts goesOn rest) :
    ¬ Starts Char.isDigit cs := by
  cases h with
  | none =>
    cases cs with
    | nil => simp
    | cons c cs =>
      intro hc
      exact hr (by simp_all [goesOn])
  | digits => simp

/-- A fraction is read in one way only, when no number goes on behind it. -/
theorem Fraction.unique {f f' : ℚ} (h : Fraction cs f rest) (h' : Fraction cs f' rest')
    (hr : ¬ Starts goesOn rest) (hr' : ¬ Starts goesOn rest') : f = f' ∧ rest = rest' := by
  cases h with
  | none =>
    cases h' with
    | none => exact ⟨rfl, rfl⟩
    | digits => exact absurd (by simp [goesOn]) hr
  | digits hd =>
    cases h' with
    | none => exact absurd (by simp [goesOn]) hr'
    | digits hd' =>
      obtain ⟨rfl, rfl⟩ := hd.unique hd' (Fraction.none.not_starts hr)
        (Fraction.none.not_starts hr')
      exact ⟨rfl, rfl⟩

/-- Where no number goes on, no part of one does. -/
theorem not_starts_of_not_numeric {p : Char → Bool} (hp : ∀ c, p c = true → isNumeric c = true)
    (h : ¬ Starts isNumeric cs) : ¬ Starts p cs := by
  cases cs with
  | nil => simp
  | cons c cs => exact fun hc => h (hp c hc)

/-- An exponent, also one that is left out, starts with no digit and no point. -/
theorem Exponent.not_starts {e : ℚ} (h : Exponent cs e rest) (hr : ¬ Starts isNumeric rest) :
    ¬ Starts goesOn cs := by
  cases h with
  | none => exact not_starts_of_not_numeric (by simp [goesOn, isNumeric]; tauto) hr
  | digits he => rcases he with rfl | rfl <;> simp [goesOn]

/-- An exponent is read in one way only, when no number goes on behind it. -/
theorem Exponent.unique {e e' : ℚ} (h : Exponent cs e rest) (h' : Exponent cs e' rest')
    (hr : ¬ Starts isNumeric rest) (hr' : ¬ Starts isNumeric rest') : e = e' ∧ rest = rest' := by
  have hdigit : ∀ c : Char, c.isDigit = true → isNumeric c = true := by
    simp +contextual [isNumeric]
  cases h with
  | none =>
    cases h' with
    | none => exact ⟨rfl, rfl⟩
    | digits he => rcases he with rfl | rfl <;> exact absurd (by simp [isNumeric]) hr
  | digits he hs hd =>
    cases h' with
    | none => rcases he with rfl | rfl <;> exact absurd (by simp [isNumeric]) hr'
    | digits _ hs' hd' =>
      obtain ⟨rfl, rfl⟩ := hs.unique hs' hd.starts hd'.starts
      obtain ⟨rfl, rfl⟩ := hd.unique hd' (not_starts_of_not_numeric hdigit hr)
        (not_starts_of_not_numeric hdigit hr')
      exact ⟨rfl, rfl⟩

/-- A number ends where no more of its characters follow, and it can be read in one way only. -/
theorem Number.unique {q q' : ℚ} (h : Number cs q rest) (h' : Number cs q' rest')
    (hr : ¬ Starts isNumeric rest) (hr' : ¬ Starts isNumeric rest') : q = q' ∧ rest = rest' := by
  obtain ⟨hs, hw, hf, he⟩ := h
  obtain ⟨hs', hw', hf', he'⟩ := h'
  obtain ⟨rfl, rfl⟩ := hs.unique hs' hw.starts hw'.starts
  -- No part can end early, for what stands behind it would not start with a digit or a point.
  have hf₁ := he.not_starts hr
  have hf₂ := he'.not_starts hr'
  obtain ⟨rfl, rfl⟩ := hw.unique hw' (hf.not_starts hf₁) (hf'.not_starts hf₂)
  obtain ⟨rfl, rfl⟩ := hf.unique hf' hf₁ hf₂
  obtain ⟨rfl, rfl⟩ := he.unique he' hr hr'
  exact ⟨rfl, rfl⟩

/-! ### Strings -/

/-- The characters that are written as one letter behind a backslash. -/
def shortEscapes : List (Char × Char) :=
  [('"', '"'), ('\\', '\\'), ('/', '/'), ('b', '\x08'), ('f', '\x0C'), ('n', '\n'), ('r', '\r'),
    ('t', '\t')]

/-- The value of a hexadecimal digit. -/
def hexDigit? (c : Char) : Option Nat :=
  if c.isDigit then some (c.toNat - '0'.toNat)
  else if 'a' ≤ c ∧ c ≤ 'f' then some (c.toNat - 'a'.toNat + 10)
  else if 'A' ≤ c ∧ c ≤ 'F' then some (c.toNat - 'A'.toNat + 10)
  else none

/-- The value of four hexadecimal digits. -/
def codeUnit? (a b c d : Char) : Option Nat := do
  let w ← hexDigit? a
  let x ← hexDigit? b
  let y ← hexDigit? c
  let z ← hexDigit? d
  return ((w * 16 + x) * 16 + y) * 16 + z

/-- A text inside a string that begins with one character.  It stands for itself, or it is written
    as a short escape, as its number, or as the two halves of its number; a half that stands alone
    stands for no character. -/
inductive Character : List Char → Char → List Char → Prop
  | plain {c : Char} {rest : List Char} (hc : 0x20 ≤ c.toNat) (hquote : c ≠ '"')
      (hescape : c ≠ '\\') : Character (c :: rest) c rest
  | short {e c : Char} {rest : List Char} (he : (e, c) ∈ shortEscapes) :
      Character ('\\' :: e :: rest) c rest
  | code {w x y z : Char} {n : Nat} {rest : List Char} (hn : codeUnit? w x y z = some n)
      (hvalid : n.isValidChar) : Character ('\\' :: 'u' :: w :: x :: y :: z :: rest) (.ofNat n) rest
  | pair {w x y z w' x' y' z' : Char} {high low : Nat} {rest : List Char}
      (hh : codeUnit? w x y z = some (0xD800 + high)) (hhigh : high < 0x400)
      (hl : codeUnit? w' x' y' z' = some (0xDC00 + low)) (hlow : low < 0x400) :
      Character ('\\' :: 'u' :: w :: x :: y :: z :: '\\' :: 'u' :: w' :: x' :: y' :: z' :: rest)
        (.ofNat (0x10000 + high * 0x400 + low)) rest

/-- A text inside a string, up to and with the closing quote. -/
inductive Characters : List Char → List Char → List Char → Prop
  | close {rest : List Char} : Characters ('"' :: rest) [] rest
  | more {cs cs' s rest : List Char} {c : Char} (hc : Character cs c cs')
      (h : Characters cs' s rest) : Characters cs (c :: s) rest

/-- No short escape is written with `u`. -/
theorem not_shortEscape_u (c : Char) : ('u', c) ∉ shortEscapes := by
  simp [shortEscapes]

/-- The first half of a surrogate pair is no character of its own. -/
theorem not_isValidChar_high {n : Nat} (h : n < 0x400) : ¬ (0xD800 + n).isValidChar := by
  rintro (hlow | ⟨hhigh, -⟩) <;> omega

/-- A character of a text is read in one way only. -/
theorem Character.unique (h : Character cs c rest) (h' : Character cs d rest') :
    c = d ∧ rest = rest' := by
  cases h with
  | plain hc hquote hescape =>
    cases h' with
    | plain => exact ⟨rfl, rfl⟩
    | short | code | pair => exact absurd rfl hescape
  | short he =>
    cases h' with
    | plain _ _ hescape => exact absurd rfl hescape
    | short he' =>
      have hone : ∀ p ∈ shortEscapes, ∀ q ∈ shortEscapes, p.1 = q.1 → p.2 = q.2 := by decide
      exact ⟨hone _ he _ he' rfl, rfl⟩
    | code | pair => exact absurd he (not_shortEscape_u _)
  | code hn hvalid =>
    cases h' with
    | plain _ _ hescape => exact absurd rfl hescape
    | short he' => exact absurd he' (not_shortEscape_u _)
    | code hn' =>
      obtain rfl := Option.some.inj (hn.symm.trans hn')
      exact ⟨rfl, rfl⟩
    | pair hh hhigh =>
      obtain rfl := Option.some.inj (hn.symm.trans hh)
      exact absurd hvalid (not_isValidChar_high hhigh)
  | pair hh hhigh hl =>
    cases h' with
    | plain _ _ hescape => exact absurd rfl hescape
    | short he' => exact absurd he' (not_shortEscape_u _)
    | code hn' hvalid =>
      obtain rfl := Option.some.inj (hn'.symm.trans hh)
      exact absurd hvalid (not_isValidChar_high hhigh)
    | pair hh' _ hl' =>
      have hhighs := Option.some.inj (hh.symm.trans hh')
      have hlows := Option.some.inj (hl.symm.trans hl')
      obtain rfl := Nat.add_left_cancel hhighs
      obtain rfl := Nat.add_left_cancel hlows
      exact ⟨rfl, rfl⟩

/-- A closing quote is not part of a string. -/
theorem not_character_quote : ¬ Character ('"' :: cs) c rest := by
  rintro ⟨⟩
  contradiction

/-- A string can be read in one way only. -/
theorem Characters.unique {s s' : List Char} (h : Characters cs s rest)
    (h' : Characters cs s' rest') : s = s' ∧ rest = rest' := by
  induction h generalizing s' with
  | close =>
    cases h' with
    | close => exact ⟨rfl, rfl⟩
    | more hc => exact absurd hc not_character_quote
  | more hc h ih =>
    cases h' with
    | close => exact absurd hc not_character_quote
    | more hc' h' =>
      obtain ⟨rfl, rfl⟩ := hc.unique hc'
      obtain ⟨rfl, rfl⟩ := ih h'
      exact ⟨rfl, rfl⟩

end Flashcards.Json
