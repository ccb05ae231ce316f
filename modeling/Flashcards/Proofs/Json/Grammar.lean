import Flashcards.Proofs.Json.Literals

namespace Flashcards.Json

/-!
# The grammar of JSON

What a JSON text says, whoever wrote it.  `Json` has just the values that reports are made of;
`Value` has all values that a text can name.

* `Value` — the values of JSON texts.
* `Reads` — the grammar: characters, what they begin with, and the characters behind it.
* `IsText` — a whole text with the value that it names.
* `Reads.unique`, `IsText.unique` — the grammar is unambiguous.
-/

/-- A value that a JSON text names.  Members keep their order, and a name may come twice. -/
inductive Value where
  | null
  | bool (value : Bool)
  | number (value : ℚ)
  | string (value : String)
  | array (elements : List Value)
  | object (members : List (String × Value))

/-- What stands in a list: elements in an array, members in an object. -/
inductive Item where
  | element
  | member

/-- What an item says. -/
abbrev Item.Meaning : Item → Type
  | .element => Value
  | .member => String × Value

/-- The bracket behind a list. -/
def Item.closer : Item → Char
  | .element => ']'
  | .member => '\x7d'

/-- The kinds of phrases of which texts are made. -/
inductive Phrase where
  | value
  | item (i : Item)
  | list (i : Item)

/-- What a phrase says. -/
abbrev Phrase.Meaning : Phrase → Type
  | .value => Value
  | .item i => i.Meaning
  | .list i => List i.Meaning

/-- A text that begins with a phrase, with what the phrase says and what stands behind it.  Blanks
    may stand around elements, around names and around the members of an object, hence also in
    empty brackets. -/
inductive Reads : (p : Phrase) → List Char → p.Meaning → List Char → Prop
  | null {rest : List Char} : Reads .value ('n' :: 'u' :: 'l' :: 'l' :: rest) Value.null rest
  | yes {rest : List Char} :
      Reads .value ('t' :: 'r' :: 'u' :: 'e' :: rest) (Value.bool true) rest
  | no {rest : List Char} :
      Reads .value ('f' :: 'a' :: 'l' :: 's' :: 'e' :: rest) (Value.bool false) rest
  | number {cs rest : List Char} {q : ℚ} (h : Number cs q rest) :
      Reads .value cs (Value.number q) rest
  | string {cs s rest : List Char} (h : Characters cs s rest) :
      Reads .value ('"' :: cs) (Value.string (String.ofList s)) rest
  | array {cs rest : List Char} {vs : List Value} (h : Reads (.list .element) cs vs (']' :: rest)) :
      Reads .value ('[' :: cs) (Value.array vs) rest
  | object {cs rest : List Char} {ms : List (String × Value)}
      (h : Reads (.list .member) cs ms ('\x7d' :: rest)) :
      Reads .value ('\x7b' :: cs) (Value.object ms) rest
  | element {cs cs₁ cs₂ rest : List Char} {v : Value} (hb : Blanks cs cs₁)
      (h : Reads .value cs₁ v cs₂) (ha : Blanks cs₂ rest) : Reads (.item .element) cs v rest
  | member {cs cs₁ cs₂ cs₃ s rest : List Char} {v : Value} (hb : Blanks cs ('"' :: cs₁))
      (hs : Characters cs₁ s cs₂) (ha : Blanks cs₂ (':' :: cs₃))
      (h : Reads (.item .element) cs₃ v rest) :
      Reads (.item .member) cs (String.ofList s, v) rest
  | none {i : Item} {cs rest : List Char} (hb : Blanks cs rest) : Reads (.list i) cs [] rest
  | last {i : Item} {cs rest : List Char} {m : i.Meaning} (h : Reads (.item i) cs m rest) :
      Reads (.list i) cs [m] rest
  | next {i : Item} {cs cs' rest : List Char} {m m' : i.Meaning} {ms : List i.Meaning}
      (h : Reads (.item i) cs m (',' :: cs')) (hs : Reads (.list i) cs' (m' :: ms) rest) :
      Reads (.list i) cs (m :: m' :: ms) rest

/-- A whole JSON text is one value with blanks around it. -/
def IsText (cs : List Char) (v : Value) : Prop :=
  Reads (.item .element) cs v []

/-! ### The grammar is unambiguous -/

variable {p : Phrase} {i : Item} {c : Char} {cs rest rest' : List Char}

/-- What must stand behind a phrase so that it is known where the phrase ends. -/
def Phrase.Ends : Phrase → List Char → Prop
  | .value, rest => ¬ Starts isNumeric rest
  | .item _, rest => ¬ Starts isBlank rest ∧ ¬ Starts isNumeric rest
  | .list i, rest => rest.head? = some i.closer

/-- The characters that values and names start with. -/
def isOpening (c : Char) : Bool :=
  isNumeric c || c ∈ ['n', 't', 'f', '"', '[', '\x7b']

/-- Nothing starts with characters of two kinds that have none in common. -/
theorem not_starts_of_starts {p q : Char → Bool} (h : Starts p cs)
    (hpq : ∀ c, p c = true → q c = false) : ¬ Starts q cs := by
  cases cs with
  | nil => simp
  | cons c cs => simp [hpq c h]

/-- A number starts with one of the characters of numbers. -/
theorem Number.starts {q : ℚ} (h : Number cs q rest) : Starts isNumeric cs := by
  obtain ⟨hs, hw, -, -⟩ := h
  cases hs with
  | none =>
    have hdigit : Starts Char.isDigit cs := hw.starts
    cases cs with
    | nil => simp at hdigit
    | cons c cs => simp_all [isNumeric]
  | plus | minus => simp [isNumeric]

theorem not_number {q : ℚ} (hc : isNumeric c = false) : ¬ Number (c :: cs) q rest := by
  intro h
  have hstarts := h.starts
  simp [hc] at hstarts

/-- A value starts with one of the characters that open it. -/
theorem Reads.starts_value {v : Value} (h : Reads .value cs v rest) : Starts isOpening cs := by
  cases h with
  | number h =>
    have hstarts := h.starts
    cases cs with
    | nil => simp at hstarts
    | cons c cs => simp_all [isOpening]
  | null | yes | no | string | array | object => simp [isOpening]

/-- No value or name starts with a blank or with a bracket that closes something. -/
theorem not_mem_of_isOpening (h : isOpening c = true) :
    c ∉ [' ', '\t', '\n', '\r', ']', '\x7d'] := by
  have hother : ∀ c ∈ [' ', '\t', '\n', '\r', ']', '\x7d'], isOpening c = false := by
    simp [isOpening, isNumeric]
  intro hc
  simp [hother c hc] at h

/-- What opens a value is not blank. -/
theorem not_starts_isBlank (h : Starts isOpening cs) : ¬ Starts isBlank cs := by
  refine not_starts_of_starts h fun c hc => ?_
  have hnot := not_mem_of_isOpening hc
  simp_all [isBlank]

/-- Blanks do not belong to a number. -/
theorem Blanks.not_starts_isNumeric (h : Blanks cs rest) (hr : ¬ Starts isNumeric rest) :
    ¬ Starts isNumeric cs := by
  obtain ⟨w, hw, rfl⟩ := h
  cases w with
  | nil => exact hr
  | cons c w =>
    have hblank : ∀ c, isBlank c = true → isNumeric c = false := by
      have hall : ∀ c ∈ [' ', '\t', '\n', '\r'], isNumeric c = false := by simp [isNumeric]
      exact fun c hc => hall c (by simpa [isBlank] using hc)
    exact not_starts_of_starts (p := isBlank) (hw c (by simp)) hblank

/-- Behind its blanks an item starts with a character that closes no bracket. -/
theorem Reads.starts_item {m : i.Meaning} (h : Reads (.item i) cs m rest) :
    ∃ cs', Blanks cs cs' ∧ Starts isOpening cs' := by
  cases h with
  | element hb h => exact ⟨_, hb, h.starts_value⟩
  | member hb => exact ⟨_, hb, by simp [isOpening]⟩

/-- What closes a list or an object is of no kind without brackets. -/
theorem not_starts_of_closer {q : Char → Bool} (hq : q ']' = false ∧ q '\x7d' = false)
    (h : rest.head? = some i.closer) : ¬ Starts q rest := by
  obtain ⟨tail, rfl⟩ := List.head?_eq_some_iff.mp h
  cases i <;> simp [Item.closer, hq]

/-- Empty brackets hold no item. -/
theorem Reads.not_item_of_blanks {m : i.Meaning} (hb : Blanks cs rest)
    (hr : rest.head? = some i.closer) : ¬ Reads (.item i) cs m rest' := by
  intro h
  obtain ⟨cs', hb', hs⟩ := h.starts_item
  obtain rfl := hb.unique hb' (not_starts_of_closer (by decide) hr) (not_starts_isBlank hs)
  obtain ⟨tail, rfl⟩ := List.head?_eq_some_iff.mp hr
  have hnot := not_mem_of_isOpening hs
  cases i <;> simp [Item.closer] at hnot

/-- An item may end before what closes the whole. -/
theorem Phrase.ends_item_closer (h : rest.head? = some i.closer) : (Phrase.item i).Ends rest :=
  ⟨not_starts_of_closer (by decide) h, not_starts_of_closer (by decide) h⟩

theorem Phrase.ends_item_comma : (Phrase.item i).Ends (',' :: rest) :=
  ⟨by simp [isBlank], by simp [isNumeric]⟩

theorem Item.closer_ne_comma (i : Item) : (',' :: rest).head? ≠ some i.closer := by
  cases i <;> simp [Item.closer]

/-- **A phrase can be read in one way only**, if it is followed by what may follow it. -/
theorem Reads.unique {m m' : p.Meaning} (h : Reads p cs m rest) (h' : Reads p cs m' rest')
    (hr : p.Ends rest) (hr' : p.Ends rest') : m = m' ∧ rest = rest' := by
  -- The first characters tell what the other reading can be; only numbers have no character of
  -- their own to start with.
  induction h generalizing rest' with
  | null =>
    cases h' with
    | null => exact ⟨rfl, rfl⟩
    | number h => exact absurd h (not_number (by decide))
  | yes =>
    cases h' with
    | yes => exact ⟨rfl, rfl⟩
    | number h => exact absurd h (not_number (by decide))
  | no =>
    cases h' with
    | no => exact ⟨rfl, rfl⟩
    | number h => exact absurd h (not_number (by decide))
  | number h =>
    cases h' with
    | number h' =>
      obtain ⟨rfl, rfl⟩ := h.unique h' hr hr'
      exact ⟨rfl, rfl⟩
    | null | yes | no | string | array | object => exact absurd h (not_number (by decide))
  | string h =>
    cases h' with
    | string h' =>
      obtain ⟨rfl, rfl⟩ := h.unique h'
      exact ⟨rfl, rfl⟩
    | number h => exact absurd h (not_number (by decide))
  | array h ih =>
    cases h' with
    | array h' =>
      obtain ⟨rfl, hrest⟩ := ih h' rfl rfl
      exact ⟨rfl, List.tail_eq_of_cons_eq hrest⟩
    | number h => exact absurd h (not_number (by decide))
  | object h ih =>
    cases h' with
    | object h' =>
      obtain ⟨rfl, hrest⟩ := ih h' rfl rfl
      exact ⟨rfl, List.tail_eq_of_cons_eq hrest⟩
    | number h => exact absurd h (not_number (by decide))
  | element hb h ha ih =>
    cases h' with
    | element hb' h' ha' =>
      obtain rfl := hb.unique hb' (not_starts_isBlank h.starts_value)
        (not_starts_isBlank h'.starts_value)
      obtain ⟨rfl, rfl⟩ := ih h' (ha.not_starts_isNumeric hr.2) (ha'.not_starts_isNumeric hr'.2)
      exact ⟨rfl, ha.unique ha' hr.1 hr'.1⟩
  | member hb hs ha h ih =>
    cases h' with
    | member hb' hs' ha' h' =>
      obtain ⟨rfl⟩ := hb.unique hb' (by simp [isBlank]) (by simp [isBlank])
      obtain ⟨rfl, rfl⟩ := hs.unique hs'
      obtain ⟨rfl⟩ := ha.unique ha' (by simp [isBlank]) (by simp [isBlank])
      obtain ⟨rfl, rfl⟩ := ih h' hr hr'
      exact ⟨rfl, rfl⟩
  | none hb =>
    cases h' with
    | none hb' => exact ⟨rfl, hb.unique hb' (not_starts_of_closer (by decide) hr)
        (not_starts_of_closer (by decide) hr')⟩
    | last h' => exact absurd h' (Reads.not_item_of_blanks hb hr)
    | next h' => exact absurd h' (Reads.not_item_of_blanks hb hr)
  | last h ih =>
    cases h' with
    | none hb' => exact absurd h (Reads.not_item_of_blanks hb' hr')
    | last h' =>
      obtain ⟨rfl, rfl⟩ := ih h' (Phrase.ends_item_closer hr) (Phrase.ends_item_closer hr')
      exact ⟨rfl, rfl⟩
    | next h' =>
      -- The same item would be followed by a bracket and by a comma.
      obtain ⟨-, rfl⟩ := ih h' (Phrase.ends_item_closer hr) Phrase.ends_item_comma
      exact absurd hr (Item.closer_ne_comma _)
  | next h hs ih ihs =>
    cases h' with
    | none hb' => exact absurd h (Reads.not_item_of_blanks hb' hr')
    | last h' =>
      obtain ⟨-, rfl⟩ := ih h' Phrase.ends_item_comma (Phrase.ends_item_closer hr')
      exact absurd hr' (Item.closer_ne_comma _)
    | next h' hs' =>
      obtain ⟨rfl, hrest⟩ := ih h' Phrase.ends_item_comma Phrase.ends_item_comma
      obtain ⟨rfl⟩ := hrest
      obtain ⟨hms, rfl⟩ := ihs hs' hr hr'
      rw [hms]
      exact ⟨rfl, rfl⟩

/-- A text names at most one value. -/
theorem IsText.unique {v v' : Value} (h : IsText cs v) (h' : IsText cs v') : v = v' :=
  (Reads.unique h h' ⟨by simp, by simp⟩ ⟨by simp, by simp⟩).1

end Flashcards.Json
