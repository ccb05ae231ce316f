import Flashcards.Proofs.Json.Grammar

namespace Flashcards.Json

/-!
# The layout of a value is JSON

* `Json.value` — what a value of a report says.
* `character_escape`, `number_repr` — a character is read as it was, and so is a number.
* `WrittenAs`, `reads_lines` — items on lines of their own, and a list of them.
* `reads_chars` — the text of a value is read as this value.
* `isText_pretty_iff` — the text of a value names this value and no other.
-/

mutual

/-- What a value of a report says. -/
def value : Json → Value
  | .bool b => .bool b
  | .number n => .number n
  | .string s => .string s
  | .array es => .array (values es)
  | .object ms => .object (memberValues ms)

/-- What the elements of an array say. -/
def values : List Json → List Value
  | [] => []
  | e :: es => e.value :: values es

/-- What the members of an object say. -/
def memberValues : List (String × Json) → List (String × Value)
  | [] => []
  | (key, v) :: ms => (key, v.value) :: memberValues ms

end

theorem values_eq_map (es : List Json) : values es = es.map value := by
  induction es with
  | nil => simp [values]
  | cons e es ih => simp [values, ih]

/-! ### Strings -/

/-- A hexadecimal digit is read as its number. -/
theorem hexDigit?_digitChar {n : Nat} (h : n < 16) : hexDigit? (Nat.digitChar n) = some n := by
  have hall : ∀ n < 16, hexDigit? (Nat.digitChar n) = some n := by decide
  exact hall n h

/-- Two hexadecimal digits are read as the number that they were written for. -/
theorem codeUnit?_digitChar {n : Nat} (h : n < 0x100) :
    codeUnit? '0' '0' (Nat.digitChar (n / 16)) (Nat.digitChar (n % 16)) = some n := by
  have hzero : hexDigit? '0' = some 0 := by decide
  have hhigh : hexDigit? (Nat.digitChar (n / 16)) = some (n / 16) :=
    hexDigit?_digitChar (by omega)
  have hlow : hexDigit? (Nat.digitChar (n % 16)) = some (n % 16) := hexDigit?_digitChar (by omega)
  have hsum : n / 16 * 16 + n % 16 = n := by omega
  simp [codeUnit?, hzero, hhigh, hlow, hsum]

/-- A character is read as it was, whichever way it is written. -/
theorem character_escape (c : Char) (rest : List Char) : Character (escape c ++ rest) c rest := by
  unfold escape
  split_ifs with hquote hescape hline hreturn htab hback hfeed hcontrol
  iterate 7
    · subst c
      exact .short (by decide)
  · have hread : Character (['\\', 'u', '0', '0', Nat.digitChar (c.toNat / 16),
        Nat.digitChar (c.toNat % 16)] ++ rest) (.ofNat c.toNat) rest :=
      .code (codeUnit?_digitChar (by omega)) c.valid
    rwa [Char.ofNat_toNat] at hread
  · exact .plain (by omega) hquote hescape

/-- An escaped text is read as the text, up to the quotation mark. -/
theorem characters_flatMap_escape (s rest : List Char) :
    Characters (s.flatMap escape ++ '"' :: rest) s rest := by
  induction s with
  | nil => exact .close
  | cons c s ih =>
    rw [List.flatMap_cons, List.append_assoc]
    exact .more (character_escape c _) ih

/-! ### Numbers -/

/-- Only zero is written with the digit zero in front. -/
theorem eq_zero_of_head?_toDigits {n : Nat} (h : (Nat.toDigits 10 n).head? = some '0') :
    n = 0 := by
  induction n using Nat.strong_induction_on with
  | _ n ih =>
    by_cases hn : n < 10
    · rw [Nat.toDigits_of_lt_base hn] at h
      have hall : ∀ n < 10, [Nat.digitChar n].head? = some '0' → n = 0 := by decide
      exact hall n hn h
    · rw [Nat.toDigits_of_base_le (by omega) (by omega), List.head?_append] at h
      have hfirst : (Nat.toDigits 10 (n / 10)).head? = some '0' := by
        have hne : Nat.toDigits 10 (n / 10) ≠ [] := Nat.toDigits_ne_nil
        obtain ⟨d, ds, hds⟩ := List.exists_cons_of_ne_nil hne
        rw [hds] at h ⊢
        exact h
      have hzero := ih (n / 10) (by omega) hfirst
      omega

/-- The decimal digits of a number are read as such. -/
theorem digits_toDigits (n : Nat) (rest : List Char) :
    Digits (Nat.toDigits 10 n ++ rest) (Nat.toDigits 10 n) rest where
  ne_nil := Nat.toDigits_ne_nil
  isDigit _ hd := Nat.isDigit_of_mem_toDigits (by omega) (by omega) hd
  append_eq := rfl

/-- A number is read as it was. -/
theorem number_repr (n : Nat) (rest : List Char) : Number (n.repr.toList ++ rest) n rest := by
  have hwhole : Whole (n.repr.toList ++ rest) n rest := by
    rw [Nat.toList_repr]
    by_cases h0 : (Nat.toDigits 10 n).head? = some '0'
    · rw [eq_zero_of_head?_toDigits h0]
      exact .zero
    · have hread := Whole.digits (digits_toDigits n rest) h0
      rwa [Nat.ofDigitChars_toDigits (by omega) (by omega)] at hread
  have hread := Number.mk .none hwhole .none .none
  simpa using hread

/-! ### Values -/

/-- A line end and what indents the next line are blank. -/
theorem blanks_newline (level : Nat) (rest : List Char) :
    Blanks ((newline level).toList ++ rest) rest := by
  refine ⟨(newline level).toList, fun c hc => ?_, rfl⟩
  have hblank : c = '\n' ∨ c = ' ' := by
    rw [newline, String.toList_ofList] at hc
    exact (List.mem_cons.mp hc).imp_right List.eq_of_mem_replicate
  rcases hblank with rfl | rfl <;> decide

/-- The text of a value that starts at some level. -/
def chars (level : Nat) (v : Json) : List Char :=
  (v.layout level).flatMap String.toList

/-- The text of a member that starts at some level. -/
def memberChars (level : Nat) (m : String × Json) : List Char :=
  (quote m.1).toList ++ ':' :: ' ' :: m.2.chars level

/-- A text that is read as an item when it stands on a line of its own at some level. -/
def WrittenAs (i : Item) (level : Nat) (text : List Char) (m : i.Meaning) : Prop :=
  ∀ cs rest, Blanks cs rest → Reads (.item i) ((newline level).toList ++ (text ++ cs)) m rest

/-- The elements of a list are laid out one below the other, behind commas. -/
theorem flatMap_layoutElements (level : Nat) (es : List Json) :
    (layoutElements level es).flatMap String.toList =
      (es.map (chars level)).flatMap fun text => ',' :: (newline level).toList ++ text := by
  induction es with
  | nil => rfl
  | cons e es ih => simp [layoutElements, ih, chars]

theorem flatMap_layoutMembers (level : Nat) (ms : List (String × Json)) :
    (layoutMembers level ms).flatMap String.toList =
      (ms.map (memberChars level)).flatMap fun text => ',' :: (newline level).toList ++ text := by
  induction ms with
  | nil => rfl
  | cons m ms ih => simp [layoutMembers, ih, chars, memberChars]

/-- A string in quotes is read as it was. -/
theorem reads_quote (s : String) (rest : List Char) :
    ∃ cs, (quote s).toList ++ rest = '"' :: cs ∧ Characters cs s.toList rest := by
  refine ⟨s.toList.flatMap escape ++ '"' :: rest, ?_, characters_flatMap_escape _ _⟩
  simp [quote]

theorem writtenAs_element {level : Nat} {text : List Char} {v : Value}
    (h : ∀ rest, Reads .value (text ++ rest) v rest) : WrittenAs .element level text v :=
  fun cs _ hb => .element (blanks_newline level _) (h cs) hb

/-- A member is written as its key and its value. -/
theorem writtenAs_member {level : Nat} {text : List Char} {v : Value} (key : String)
    (h : ∀ rest, Reads .value (text ++ rest) v rest) :
    WrittenAs .member level ((quote key).toList ++ ':' :: ' ' :: text) (key, v) := by
  intro cs rest hb
  obtain ⟨name, hname, hread⟩ := reads_quote key (':' :: ' ' :: (text ++ cs))
  have hspace : Blanks (' ' :: (text ++ cs)) (text ++ cs) := ⟨[' '], by simp [isBlank], rfl⟩
  have hmember := Reads.member (blanks_newline level _) hread (.refl _)
    (.element hspace (h cs) hb)
  rw [← hname, String.ofList_toList] at hmember
  rwa [List.append_assoc]

/-- Items on lines of their own are read one by one. -/
theorem reads_lines {i : Item} {level : Nat} {text cs rest : List Char} {m : i.Meaning}
    {texts : List (List Char)} {ms : List i.Meaning} (h : WrittenAs i level text m)
    (hs : List.Forall₂ (WrittenAs i level) texts ms) (hb : Blanks cs rest) :
    Reads (.list i) ((newline level).toList ++ (text ++
      ((texts.flatMap fun text => ',' :: (newline level).toList ++ text) ++ cs)))
      (m :: ms) rest := by
  induction hs generalizing text m with
  | nil => exact .last (h cs rest hb)
  | @cons next m' texts ms hnext hs ih =>
    have hfirst := h (',' :: ((newline level).toList ++ (next ++
      ((texts.flatMap fun text => ',' :: (newline level).toList ++ text) ++ cs)))) _ (.refl _)
    have hlist := Reads.next hfirst (ih hnext)
    simpa using hlist

mutual

/-- The text of a value is read as this value, whatever stands behind it. -/
theorem reads_chars (level : Nat) (rest : List Char) :
    ∀ v : Json, Reads .value (v.chars level ++ rest) v.value rest
  | .bool true => .yes
  | .bool false => .no
  | .number n => by
    have hread := Reads.number (number_repr n rest)
    simpa [chars, layout, value] using hread
  | .string s => by
    obtain ⟨cs, hcs, hread⟩ := reads_quote s rest
    have hstring := Reads.string hread
    rw [← hcs, String.ofList_toList] at hstring
    simpa [chars, layout, value] using hstring
  | .array [] => .array (.none (.refl _))
  | .array (e :: es) => by
    -- The line end before the closing bracket belongs to the last element.
    have hitems := reads_lines (writtenAs_element fun rest => reads_chars (level + 1) rest e)
      (writtenAs_elements (level + 1) es) (blanks_newline level (']' :: rest))
    have harray := Reads.array hitems
    rw [← flatMap_layoutElements] at harray
    simpa [chars, layout, value, values] using harray
  | .object [] => .object (.none (.refl _))
  | .object ((key, v) :: ms) => by
    have hitems := reads_lines (writtenAs_member key fun rest => reads_chars (level + 1) rest v)
      (writtenAs_members (level + 1) ms) (blanks_newline level ('\x7d' :: rest))
    have hobject := Reads.object hitems
    rw [← flatMap_layoutMembers] at hobject
    simpa [chars, layout, value, memberValues] using hobject

/-- All elements of a list are written as their values. -/
theorem writtenAs_elements (level : Nat) :
    ∀ es : List Json, List.Forall₂ (WrittenAs .element level) (es.map (chars level)) (values es)
  | [] => .nil
  | e :: es =>
    .cons (writtenAs_element fun rest => reads_chars level rest e) (writtenAs_elements level es)

theorem writtenAs_members (level : Nat) :
    ∀ ms : List (String × Json),
      List.Forall₂ (WrittenAs .member level) (ms.map (memberChars level)) (memberValues ms)
  | [] => .nil
  | (key, v) :: ms =>
    .cons (writtenAs_member key fun rest => reads_chars level rest v) (writtenAs_members level ms)

end

/-- **The text of a value names this value and no other.** -/
theorem isText_pretty_iff (v : Json) (w : Value) : IsText v.pretty.toList w ↔ w = v.value := by
  have hread : IsText v.pretty.toList v.value := by
    have hvalue := reads_chars 0 [] v
    rw [List.append_nil, chars, ← String.toList_join] at hvalue
    exact .element (.refl _) hvalue (.refl _)
  constructor
  · intro h
    exact h.unique hread
  · rintro rfl
    exact hread

end Flashcards.Json
