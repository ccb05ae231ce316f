import Flashcards.CommandLine
import Mathlib.Data.List.Perm.Basic
import Mathlib.Data.List.TakeWhile

namespace Flashcards

/-!
# Spellings of arguments

The words behind a command give an operand, an option without a value and one with a value.
`Grammar.Spells` says which words give what, one case for each way to give a thing.  The words are
read from left to right, and one that may be an operand or a value is held until it is known what
the next one is; they are read all the same as what they give, in whatever order they give it.

* `IsPlain`, `Word.cases` — words that are not taken for options, and all others.
* `Given`, `Grammar.Spells` — what some words give.
* `Grammar.add?` — the arguments with one thing more.
* `Grammar.readWords_held` — a word that is held may as well be looked at first.
* `Grammar.readWords_of_spells` — words are read by adding up what they give.
* `Grammar.exists_spells` — words that are read give something.
* `Arguments.givens`, `Grammar.read_eq_ok_iff` — words are read as the arguments for which they give
  each thing that is needed, once.
-/

/-- Steps that may fail give a value when each of them does. -/
theorem bind_eq_ok_iff {ε α β : Type} {x : Except ε α} {f : α → Except ε β} {b : β} :
    x >>= f = .ok b ↔ ∃ a, x = .ok a ∧ f a = .ok b := by
  cases x with
  | error e => exact ⟨fun h => absurd h (by simp [bind, Except.bind]), by simp⟩
  | ok a => simp [bind, Except.bind]

/-! ### The shapes of words -/

/-- A word that is not taken for an option: it is `-` or does not start with it. -/
def IsPlain (word : String) : Prop :=
  word = "-" ∨ word.toList.head? ≠ some '-'

/-- A name that can stand behind `--`. -/
def IsOptionName (name : String) : Prop :=
  name ≠ "" ∧ name ≠ "help" ∧ '=' ∉ name.toList

namespace Word

variable {text name value : String}

/-- A plain word is read as one. -/
theorem ofText_of_isPlain (h : IsPlain text) : ofText text = .plain text := by
  rcases h with rfl | h
  · rfl
  · unfold ofText
    split
    case h_1 hcs => simp [hcs] at h
    case h_2 hcs => simp [hcs] at h
    case h_3 hcs => simp [hcs] at h
    case h_4 => rfl

/-- The shape of a word that starts with `--` and goes on. -/
theorem ofText_dashes {cs : List Char} (htext : text.toList = '-' :: '-' :: cs) (hcs : cs ≠ []) :
    ofText text = .long (String.ofList (cs.takeWhile (· ≠ '=')))
      (match cs.dropWhile (· ≠ '=') with
        | [] => .none
        | _ :: value => some (String.ofList value)) := by
  obtain ⟨c, cs, rfl⟩ := List.exists_cons_of_ne_nil hcs
  rw [ofText, htext]
  rfl

theorem decide_ne_of_not_mem {cs : List Char} {a : Char} (h : a ∉ cs) :
    ∀ c ∈ cs, decide (c ≠ a) = true := by
  intro c hc
  simpa using ne_of_mem_of_not_mem hc h

/-- Two dashes and a name are read as an option without a value. -/
theorem ofText_name (hne : name ≠ "") (hname : '=' ∉ name.toList) :
    ofText ("--" ++ name) = .long name none := by
  have hall := decide_ne_of_not_mem hname
  have htext : ("--" ++ name).toList = '-' :: '-' :: name.toList := by simp
  rw [ofText_dashes htext (by simpa using hne), List.takeWhile_eq_self_iff.mpr hall,
    List.dropWhile_eq_nil_iff.mpr hall, String.ofList_toList]

/-- A value may be joined to the name of an option. -/
theorem ofText_value (hname : '=' ∉ name.toList) (value : String) :
    ofText ("--" ++ name ++ "=" ++ value) = .long name (some value) := by
  have hall := decide_ne_of_not_mem hname
  have htext : ("--" ++ name ++ "=" ++ value).toList =
      '-' :: '-' :: (name.toList ++ '=' :: value.toList) := by simp
  rw [ofText_dashes htext (by simp), List.takeWhile_append_of_pos hall,
    List.dropWhile_append_of_pos hall]
  simp

/-- What words there are. -/
theorem cases (text : String) :
    text = "--" ∨ IsPlain text ∨ (∃ c, ofText text = .short c) ∨
      (∃ name, text = "--" ++ name ∧ name ≠ "" ∧ '=' ∉ name.toList) ∨
      ∃ name value, text = "--" ++ name ++ "=" ++ value ∧ '=' ∉ name.toList := by
  rcases htext : text.toList with _ | ⟨a, cs⟩
  · exact .inr (.inl (.inr (by simp [htext])))
  by_cases ha : a = '-'
  case neg => exact .inr (.inl (.inr (by simp [htext, ha])))
  subst ha
  rcases cs with _ | ⟨b, cs⟩
  · exact .inr (.inl (.inl (String.toList_injective htext)))
  by_cases hb : b = '-'
  case neg =>
    -- One dash with something else behind it.
    refine .inr (.inr (.inl ⟨b, ?_⟩))
    rw [ofText, htext]
    split
    case h_1 hcs => exact absurd (List.cons.inj (List.cons.inj hcs).2).1 hb
    case h_2 hcs => exact absurd (List.cons.inj (List.cons.inj hcs).2).1 hb
    case h_3 hcs => rw [(List.cons.inj (List.cons.inj hcs).2).1]
    case h_4 hother => exact absurd rfl (hother b cs)
  subst hb
  -- Two dashes: the name goes up to the first `=`, or to the end.
  by_cases hmem : '=' ∈ cs
  · obtain ⟨name, value, rfl, hname⟩ := List.eq_append_cons_of_mem hmem
    have hwhole : text = "--" ++ String.ofList name ++ "=" ++ String.ofList value :=
      String.toList_injective (by simp [htext])
    exact .inr (.inr (.inr (.inr ⟨_, _, hwhole, by simpa using hname⟩)))
  · rcases cs with _ | ⟨c, cs⟩
    · exact .inl (String.toList_injective htext)
    · have hwhole : text = "--" ++ String.ofList (c :: cs) :=
        String.toList_injective (by simp [htext])
      exact .inr (.inr (.inr (.inl ⟨_, hwhole, by simp, by simpa using hmem⟩)))

/-- Only plain words are read as plain words. -/
theorem ofText_eq_plain_iff {word : String} :
    ofText text = .plain word ↔ IsPlain text ∧ word = text := by
  constructor
  · intro h
    rcases cases text with rfl | htext | ⟨c, hc⟩ | ⟨name, rfl, hne, hname⟩ |
      ⟨name, value, rfl, hname⟩
    · have hshape : ofText "--" = .separator := rfl
      exact absurd (hshape.symm.trans h) (by simp)
    · rw [ofText_of_isPlain htext] at h
      exact ⟨htext, (Word.plain.inj h).symm⟩
    · exact absurd (hc.symm.trans h) (by simp)
    · exact absurd ((ofText_name hne hname).symm.trans h) (by simp)
    · exact absurd ((ofText_value hname value).symm.trans h) (by simp)
  · rintro ⟨h, rfl⟩
    exact ofText_of_isPlain h

end Word

/-! ### What the words give -/

/-- One thing that the words of a command line give. -/
inductive Given where
  | operand (word : String)
  /-- The option without a value. -/
  | flag
  /-- The option with a value. -/
  | value (word : String)
  deriving DecidableEq, Repr

/-- What some words give, in their order. -/
inductive Grammar.Spells (g : Grammar) : List String → List Given → Prop
  | done : Spells g [] []
  /-- All words behind a separator are operands. -/
  | separator (operands : List String) : Spells g ("--" :: operands) (operands.map .operand)
  | operand {word : String} {ws : List String} {gs : List Given} :
      IsPlain word → Spells g ws gs → Spells g (word :: ws) (.operand word :: gs)
  | flag {name : String} {ws : List String} {gs : List Given} :
      g.flag = some name → Spells g ws gs → Spells g (("--" ++ name) :: ws) (.flag :: gs)
  /-- A value in a word of its own. -/
  | apart {name value : String} {ws : List String} {gs : List Given} :
      g.option = some name → IsPlain value → Spells g ws gs →
        Spells g (("--" ++ name) :: value :: ws) (.value value :: gs)
  /-- A value in the same word as its option. -/
  | joined {name value : String} {ws : List String} {gs : List Given} :
      g.option = some name → Spells g ws gs →
        Spells g (("--" ++ name ++ "=" ++ value) :: ws) (.value value :: gs)

namespace Grammar.Spells

variable {g : Grammar} {ws : List String} {gs : List Given}

/-- A flag may be put before what is spelled, or left out. -/
theorem flags (h : g.Spells ws gs) (name : String) (hname : g.flag = some name) (flag : Bool) :
    g.Spells ((if flag then ["--" ++ name] else []) ++ ws)
      ((if flag then [.flag] else []) ++ gs) := by
  cases flag with
  | false => exact h
  | true => exact .flag hname h

/-- An option with its value may be put before what is spelled, or left out. -/
theorem values (h : g.Spells ws gs) (name : String) (hname : g.option = some name)
    (option : Option String) :
    g.Spells ((option.toList.map fun value => "--" ++ name ++ "=" ++ value) ++ ws)
      (option.toList.map .value ++ gs) := by
  cases option with
  | none => exact h
  | some value => exact .joined hname h

end Grammar.Spells

/-- Options whose names can be told from one another and from `--help`. -/
structure Grammar.Clear (g : Grammar) : Prop where
  flag_name : ∀ name, g.flag = some name → IsOptionName name
  option_name : ∀ name, g.option = some name → IsOptionName name
  apart : ∀ name, g.flag = some name → g.option ≠ some name

/-! ### Reading what is given -/

/-- The arguments with one thing more.  Nothing is given twice, and no word is empty. -/
def Grammar.add? (g : Grammar) (a : Arguments) : Given → Option Arguments
  | .operand word =>
    if g.operand ∧ a.operand = none ∧ word ≠ "" then some { a with operand := some word } else none
  | .flag =>
    if g.flag.isSome ∧ a.flag = false then some { a with flag := true } else none
  | .value word =>
    if g.option.isSome ∧ a.option = none ∧ word ≠ "" then some { a with option := some word }
    else none

@[simp]
theorem Arguments.settle_nothing (a : Arguments) : a.settle .nothing = .ok a :=
  rfl

/-- An option may not be left without its value. -/
@[simp]
theorem Arguments.settle_value_none (a : Arguments) :
    a.settle (.value .none) = .error .emptyValue :=
  rfl

/-- Any word but the empty one is taken as the operand. -/
theorem Arguments.settle_operand_eq_ok_iff {a a' : Arguments} {word : String} :
    a.settle (.operand word) = .ok a' ↔ word ≠ "" ∧ { a with operand := some word } = a' := by
  by_cases hword : word = "" <;> simp [settle, hword]

/-- A value is taken once, unless it is empty. -/
theorem Arguments.settle_value_eq_ok_iff {a a' : Arguments} {word : String} :
    a.settle (.value (some word)) = .ok a' ↔
      a.option = .none ∧ word ≠ "" ∧ { a with option := some word } = a' := by
  cases hoption : a.option <;> by_cases hword : word = "" <;> simp [settle, hoption, hword]

namespace Grammar

variable {g : Grammar} {a a' b : Arguments} {held : Held} {ws : List String} {gs : List Given}
  {name value word : String}

/-- A held word takes the place of the operand as an operand does. -/
theorem expectsOperand_of_settle (hheld : held ≠ .value none) (h : a.settle held = .ok a') :
    g.expectsOperand a' .nothing = g.expectsOperand a held := by
  cases held with
  | nothing =>
    obtain rfl : a = a' := Except.ok.inj h
    rfl
  | operand word =>
    obtain ⟨-, rfl⟩ := Arguments.settle_operand_eq_ok_iff.mp h
    simp [expectsOperand]
  | value word =>
    cases word with
    | none => exact absurd rfl hheld
    | some word =>
      obtain ⟨-, -, rfl⟩ := Arguments.settle_value_eq_ok_iff.mp h
      rfl

/-- An operand is read alike whether a word is held or was looked at before. -/
theorem operand_held (hheld : held ≠ .value none) (next : Arguments → Except Refusal Arguments) :
    (if g.expectsOperand a held then a.settle held >>= next else .error .unknownArgument) = .ok b ↔
      ∃ a', a.settle held = .ok a' ∧
        (if g.expectsOperand a' .nothing then next a' else .error .unknownArgument) = .ok b := by
  constructor
  · intro h
    split at h
    case isTrue hexpects =>
      obtain ⟨a', hsettle, hnext⟩ := bind_eq_ok_iff.mp h
      rw [← expectsOperand_of_settle hheld hsettle] at hexpects
      exact ⟨a', hsettle, by rwa [if_pos hexpects]⟩
    case isFalse => exact absurd h (by simp)
  · rintro ⟨a', hsettle, h⟩
    rw [expectsOperand_of_settle hheld hsettle] at h
    rw [hsettle]
    exact h

/-- What is held is settled before the next operand. -/
theorem readOperands_held (hheld : held ≠ .value none) :
    g.readOperands a held ws = .ok b ↔
      ∃ a', a.settle held = .ok a' ∧ g.readOperands a' .nothing ws = .ok b := by
  cases ws with
  | nil => simp [readOperands]
  | cons word ws => exact operand_held hheld fun a' => g.readOperands a' (.operand word) ws

/-- A word that is held may as well be looked at before the other words are read. -/
theorem readWords_held (hheld : held ≠ .value none) :
    g.readWords a held ws = .ok b ↔
      ∃ a', a.settle held = .ok a' ∧ g.readWords a' .nothing ws = .ok b := by
  cases ws with
  | nil => simp [readWords]
  | cons text ws =>
    simp only [readWords]
    cases Word.ofText text with
    | separator => exact readOperands_held hheld
    | long name value =>
      -- What is refused gives no arguments either way; what is taken settles the held word first.
      by_cases hhelp : name = "help"
      · cases value <;> simp [hhelp, bind_eq_ok_iff]
      by_cases hflag : some name = g.flag
      · cases value <;> simp [hhelp, hflag, bind_eq_ok_iff]
      by_cases hoption : some name = g.option
      · simp only [if_neg hhelp, if_neg hflag, if_pos hoption, bind_eq_ok_iff,
          Arguments.settle_nothing, Except.ok.injEq, exists_eq_left']
      · simp [hhelp, hflag, hoption]
    | short letter =>
      by_cases hletter : letter = 'h' <;> simp [hletter, bind_eq_ok_iff]
    | plain word =>
      cases held with
      | nothing => exact operand_held hheld fun a' => g.readWords a' (.operand word) ws
      | operand _ => exact operand_held hheld fun a' => g.readWords a' (.operand word) ws
      | value word' =>
        cases word' with
        | none => exact absurd rfl hheld
        | some _ => exact operand_held hheld fun a' => g.readWords a' (.operand word) ws

/-- An operand is added where one is still expected. -/
theorem add?_operand_eq_some_iff :
    g.add? a (.operand word) = some a' ↔
      g.expectsOperand a .nothing = true ∧ a.settle (.operand word) = .ok a' := by
  simp [add?, expectsOperand, Arguments.settle_operand_eq_ok_iff, and_assoc]

/-- A value is added where the subcommand has an option for it. -/
theorem add?_value_eq_some_iff (hname : g.option = some name) :
    g.add? a (.value word) = some a' ↔ a.settle (.value (some word)) = .ok a' := by
  simp [add?, Arguments.settle_value_eq_ok_iff, hname, and_assoc]

/-- An operand is held first and added in the end. -/
theorem operand_added {next next' : Arguments → Except Refusal Arguments}
    (hnext : ∀ a, next a = .ok b ↔ ∃ a', a.settle (.operand word) = .ok a' ∧ next' a' = .ok b) :
    (if g.expectsOperand a .nothing then a.settle .nothing >>= next
      else .error .unknownArgument) = .ok b ↔
      ∃ a', g.add? a (.operand word) = some a' ∧ next' a' = .ok b := by
  simp only [add?_operand_eq_some_iff]
  split
  case isTrue hexpects => simpa [hexpects, bind_eq_ok_iff] using hnext a
  case isFalse hexpects => simp [hexpects]

/-- Behind two dashes every word is an operand. -/
theorem readOperands_cons :
    g.readOperands a .nothing (word :: ws) = .ok b ↔
      ∃ a', g.add? a (.operand word) = some a' ∧ g.readOperands a' .nothing ws = .ok b :=
  operand_added fun _ => readOperands_held Held.noConfusion

/-- A plain word is read as an operand. -/
theorem readWords_operand (hword : IsPlain word) :
    g.readWords a .nothing (word :: ws) = .ok b ↔
      ∃ a', g.add? a (.operand word) = some a' ∧ g.readWords a' .nothing ws = .ok b := by
  rw [readWords, Word.ofText_of_isPlain hword]
  exact operand_added fun _ => readWords_held Held.noConfusion

/-- The name of a flag is read as the flag. -/
theorem readWords_flag (hg : g.Clear) (hname : g.flag = some name) :
    g.readWords a .nothing (("--" ++ name) :: ws) = .ok b ↔
      ∃ a', g.add? a .flag = some a' ∧ g.readWords a' .nothing ws = .ok b := by
  obtain ⟨hne, hhelp, hequals⟩ := hg.flag_name name hname
  rw [readWords, Word.ofText_name hne hequals]
  cases hflag : a.flag <;> simp [hhelp, hname, bind_eq_ok_iff, add?, hflag]

/-- A value is read that is joined to the name of the option. -/
theorem readWords_joined (hg : g.Clear) (hname : g.option = some name) :
    g.readWords a .nothing (("--" ++ name ++ "=" ++ value) :: ws) = .ok b ↔
      ∃ a', g.add? a (.value value) = some a' ∧ g.readWords a' .nothing ws = .ok b := by
  obtain ⟨-, hhelp, hequals⟩ := hg.option_name name hname
  have hflag : some name ≠ g.flag := fun hflag => hg.apart name hflag.symm hname
  rw [readWords, Word.ofText_value hequals]
  simp [hhelp, hflag, hname, bind_eq_ok_iff, add?_value_eq_some_iff hname]

/-- The word after an option is its value, unless it looks like an option. -/
theorem readWords_value_none :
    g.readWords a (.value none) ws = .ok b ↔
      ∃ value ws', ws = value :: ws' ∧ IsPlain value ∧
        g.readWords a (.value (some value)) ws' = .ok b := by
  constructor
  · intro h
    cases ws with
    | nil => exact absurd h (by simp [readWords])
    | cons text ws =>
      rw [readWords] at h
      -- Before any word that is not plain it shows that the value is missing.
      cases hshape : Word.ofText text with
      | separator =>
        cases ws <;> simp [hshape, readOperands, bind, Except.bind, ite_eq_iff] at h
      | long name value =>
        cases value <;> simp [hshape, bind, Except.bind, ite_eq_iff] at h
      | short letter => simp [hshape, bind, Except.bind, ite_eq_iff] at h
      | plain word =>
        obtain ⟨htext, rfl⟩ := Word.ofText_eq_plain_iff.mp hshape
        exact ⟨_, _, rfl, htext, by simpa [hshape] using h⟩
  · rintro ⟨value, ws', rfl, hvalue, h⟩
    rwa [readWords, Word.ofText_of_isPlain hvalue]

/-- The word behind the name of an option is read as its value. -/
theorem readWords_apart (hg : g.Clear) (hname : g.option = some name) :
    g.readWords a .nothing (("--" ++ name) :: ws) = .ok b ↔
      ∃ value ws', ws = value :: ws' ∧ IsPlain value ∧
        ∃ a', g.add? a (.value value) = some a' ∧ g.readWords a' .nothing ws' = .ok b := by
  obtain ⟨hne, hhelp, hequals⟩ := hg.option_name name hname
  have hflag : some name ≠ g.flag := fun hflag => hg.apart name hflag.symm hname
  rw [readWords, Word.ofText_name hne hequals]
  simp only [if_neg hhelp, if_neg hflag, hname, if_true, bind_eq_ok_iff, Arguments.settle_nothing,
    Except.ok.injEq, exists_eq_left', readWords_value_none, add?_value_eq_some_iff hname]
  have hheld : ∀ value, Held.value (some value) ≠ .value none := by simp
  simp only [readWords_held (hheld _)]

/-- Operands are added one after the other. -/
theorem readOperands_nothing (operands : List String) (a : Arguments) :
    g.readOperands a .nothing operands = .ok b ↔
      (operands.map Given.operand).foldlM g.add? a = some b := by
  induction operands generalizing a with
  | nil => simp [readOperands]
  | cons word operands ih => simp [readOperands_cons, ih, Option.bind_eq_some_iff]

/-- Words are read by adding up what they give. -/
theorem readWords_of_spells (hg : g.Clear) (h : g.Spells ws gs) (a : Arguments) :
    g.readWords a .nothing ws = .ok b ↔ gs.foldlM g.add? a = some b := by
  induction h generalizing a with
  | done => simp [readWords]
  | separator operands => exact readOperands_nothing operands a
  | operand hword _ ih => simp [readWords_operand hword, ih, Option.bind_eq_some_iff]
  | flag hname _ ih => simp [readWords_flag hg hname, ih, Option.bind_eq_some_iff]
  | apart hname hvalue _ ih =>
    simp [readWords_apart hg hname, hvalue, ih, Option.bind_eq_some_iff]
  | joined hname _ ih => simp [readWords_joined hg hname, ih, Option.bind_eq_some_iff]

/-- A word `--name` that is read is an option of the command. -/
theorem flag_or_option_of_readWords (hne : name ≠ "") (hname : '=' ∉ name.toList)
    (h : g.readWords a .nothing (("--" ++ name) :: ws) = .ok b) :
    g.flag = some name ∨ g.option = some name := by
  rw [readWords, Word.ofText_name hne hname] at h
  by_contra hother
  obtain ⟨hflag, hoption⟩ := not_or.mp hother
  simp [Ne.symm hflag, Ne.symm hoption, bind, Except.bind, ite_eq_iff] at h

/-- Only the name of an option can have a value joined to it. -/
theorem option_of_readWords (hname : '=' ∉ name.toList)
    (h : g.readWords a .nothing (("--" ++ name ++ "=" ++ value) :: ws) = .ok b) :
    g.option = some name := by
  rw [readWords, Word.ofText_value hname] at h
  by_contra hoption
  simp [Ne.symm hoption, ite_eq_iff] at h

/-- Words that are read are spelled as they should be. -/
theorem exists_spells (hg : g.Clear) (ws : List String) (a : Arguments)
    (h : g.readWords a .nothing ws = .ok b) : ∃ gs, g.Spells ws gs := by
  -- By induction on how many words there are, since an option may take its value with it.
  match ws with
  | [] => exact ⟨[], .done⟩
  | text :: ws =>
    rcases Word.cases text with rfl | htext | ⟨c, hc⟩ | ⟨name, rfl, hne, hname⟩ |
      ⟨name, value, rfl, hname⟩
    · exact ⟨_, .separator ws⟩
    · obtain ⟨a', -, h⟩ := (readWords_operand htext).mp h
      obtain ⟨gs, hgs⟩ := exists_spells hg ws a' h
      exact ⟨_, .operand htext hgs⟩
    · simp [readWords, hc, bind, Except.bind, ite_eq_iff] at h
    · rcases flag_or_option_of_readWords hne hname h with hflag | hoption
      · obtain ⟨a', -, h⟩ := (readWords_flag hg hflag).mp h
        obtain ⟨gs, hgs⟩ := exists_spells hg ws a' h
        exact ⟨_, .flag hflag hgs⟩
      · obtain ⟨value, ws', rfl, hvalue, a', -, h⟩ := (readWords_apart hg hoption).mp h
        obtain ⟨gs, hgs⟩ := exists_spells hg ws' a' h
        exact ⟨_, .apart hoption hvalue hgs⟩
    · have hoption := option_of_readWords hname h
      obtain ⟨a', -, h⟩ := (readWords_joined hg hoption).mp h
      obtain ⟨gs, hgs⟩ := exists_spells hg ws a' h
      exact ⟨_, .joined hoption hgs⟩
  termination_by ws.length

end Grammar

/-! ### The arguments that were given -/

/-- What can be given once. -/
inductive Kind where
  | operand
  | flag
  | value
  deriving DecidableEq, Repr

/-- The kind of what is given. -/
def Given.kind : Given → Kind
  | .operand _ => .operand
  | .flag => .flag
  | .value _ => .value

/-- A word that is given says something, and is expected. -/
def Grammar.Takes (g : Grammar) : Given → Prop
  | .operand word => word ≠ "" ∧ g.operand
  | .flag => g.flag.isSome
  | .value word => word ≠ "" ∧ g.option.isSome

/-- What has to be given for some arguments. -/
def Arguments.givens (a : Arguments) : List Given :=
  a.operand.toList.map .operand ++ (if a.flag then [.flag] else []) ++ a.option.toList.map .value

namespace Arguments

variable {a a' b : Arguments} {given : Given} {gs : List Given} {word : String}

/-- The operand is given just if it was settled. -/
@[simp]
theorem operand_mem_givens : .operand word ∈ a.givens ↔ a.operand = some word := by
  cases hflag : a.flag <;> simp [givens, hflag, Option.mem_toList]

/-- The flag is given just if it was set. -/
@[simp]
theorem flag_mem_givens : .flag ∈ a.givens ↔ a.flag = true := by
  cases hflag : a.flag <;> simp [givens, hflag]

/-- The value is given just if it was settled. -/
@[simp]
theorem value_mem_givens : .value word ∈ a.givens ↔ a.option = some word := by
  cases hflag : a.flag <;> simp [givens, hflag, Option.mem_toList]

@[simp]
theorem givens_none : Arguments.none.givens = [] :=
  rfl

/-- Arguments are told from one another by what has to be given for them. -/
theorem eq_of_givens_perm (h : a.givens.Perm b.givens) : a = b := by
  obtain ⟨flag, option, operand⟩ := a
  obtain ⟨flag', option', operand'⟩ := b
  have hoperand : operand = operand' := Option.ext fun word => by
    simpa using h.mem_iff (a := .operand word)
  have hflag : flag = flag' := Bool.eq_iff_iff.mpr (by simpa using h.mem_iff (a := .flag))
  have hoption : option = option' := Option.ext fun word => by
    simpa using h.mem_iff (a := .value word)
  rw [hoperand, hflag, hoption]

/-- Nothing has to be given twice. -/
theorem nodup_kind_givens (a : Arguments) : (a.givens.map Given.kind).Nodup := by
  obtain ⟨flag, option, operand⟩ := a
  cases flag <;> cases option <;> cases operand <;> simp [givens, Given.kind]

end Arguments

namespace Grammar

variable {g : Grammar} {a a' b : Arguments} {given : Given} {ws : List String} {gs : List Given}

/-- Adding gives what was given before and one thing more. -/
theorem givens_of_add? (h : g.add? a given = some a') :
    g.Takes given ∧ a'.givens.Perm (given :: a.givens) := by
  obtain ⟨flag, option, operand⟩ := a
  cases given with
  | operand word =>
    obtain ⟨⟨hg, rfl, hword⟩, ⟨⟩⟩ := Option.ite_none_right_eq_some.mp h
    exact ⟨⟨hword, hg⟩, by simp [Arguments.givens]⟩
  | flag =>
    obtain ⟨⟨hg, rfl⟩, ⟨⟩⟩ := Option.ite_none_right_eq_some.mp h
    exact ⟨hg, by simp [Arguments.givens]⟩
  | value word =>
    obtain ⟨⟨hg, rfl, hword⟩, ⟨⟩⟩ := Option.ite_none_right_eq_some.mp h
    have hlast := List.perm_append_singleton (Given.value word)
      (operand.toList.map .operand ++ if flag then [.flag] else [])
    exact ⟨⟨hword, hg⟩, by simpa [Arguments.givens] using hlast⟩

/-- What is expected and of another kind than what was given can be added. -/
theorem exists_add? (htakes : g.Takes given) (hnew : given.kind ∉ a.givens.map Given.kind) :
    ∃ a', g.add? a given = some a' := by
  obtain ⟨flag, option, operand⟩ := a
  cases given with
  | operand word =>
    cases operand with
    | none => exact ⟨_, if_pos ⟨htakes.2, rfl, htakes.1⟩⟩
    | some _ => exact absurd hnew (by simp [Arguments.givens, Given.kind])
  | flag =>
    cases flag with
    | false => exact ⟨_, if_pos ⟨htakes, rfl⟩⟩
    | true => exact absurd hnew (by simp [Arguments.givens, Given.kind])
  | value word =>
    cases option with
    | none => exact ⟨_, if_pos ⟨htakes.2, rfl, htakes.1⟩⟩
    | some _ => exact absurd hnew (by simp [Arguments.givens, Given.kind])

/-- What was added one after the other, and what was there before, has to be given in the end. -/
theorem givens_of_foldlM_add? (h : gs.foldlM g.add? a = some b) :
    (∀ given ∈ gs, g.Takes given) ∧ b.givens.Perm (gs ++ a.givens) := by
  induction gs generalizing a with
  | nil =>
    obtain rfl : a = b := by simpa using h
    simp
  | cons given gs ih =>
    obtain ⟨a', hadd, h⟩ : ∃ a', g.add? a given = some a' ∧ gs.foldlM g.add? a' = some b := by
      simpa [Option.bind_eq_some_iff] using h
    obtain ⟨htakes, hperm⟩ := givens_of_add? hadd
    obtain ⟨hall, hperm'⟩ := ih h
    exact ⟨List.forall_mem_cons.mpr ⟨htakes, hall⟩,
      hperm'.trans ((hperm.append_left gs).trans List.perm_middle)⟩

/-- What a subcommand takes can be added, if nothing comes twice. -/
theorem exists_foldlM_add? (htakes : ∀ given ∈ gs, g.Takes given)
    (hnodup : ((gs ++ a.givens).map Given.kind).Nodup) : ∃ b, gs.foldlM g.add? a = some b := by
  induction gs generalizing a with
  | nil => exact ⟨a, rfl⟩
  | cons given gs ih =>
    obtain ⟨hhead, htail⟩ := List.forall_mem_cons.mp htakes
    have hnew : given.kind ∉ a.givens.map Given.kind := by
      simp only [List.cons_append, List.map_cons, List.map_append, List.nodup_cons,
        List.mem_append, not_or] at hnodup
      exact hnodup.1.2
    obtain ⟨a', hadd⟩ := exists_add? hhead hnew
    -- The first thing has moved from what is to be added to what was.
    have hperm : (given :: gs ++ a.givens).Perm (gs ++ a'.givens) :=
      List.perm_middle.symm.trans ((givens_of_add? hadd).2.symm.append_left gs)
    obtain ⟨b, hb⟩ := ih htail ((hperm.map Given.kind).nodup_iff.mp hnodup)
    exact ⟨b, by simpa [hadd] using hb⟩

/-- Things add up to the arguments for which they have to be given, in whatever order. -/
theorem foldlM_add?_eq_some_iff :
    gs.foldlM g.add? .none = some b ↔
      (∀ given ∈ b.givens, g.Takes given) ∧ gs.Perm b.givens := by
  constructor
  · intro h
    obtain ⟨hall, hperm⟩ := givens_of_foldlM_add? h
    have hperm : gs.Perm b.givens := by simpa using hperm.symm
    exact ⟨fun given hgiven => hall given (hperm.mem_iff.mpr hgiven), hperm⟩
  · rintro ⟨hall, hperm⟩
    have hnodup := ((hperm.map Given.kind).nodup_iff).mpr b.nodup_kind_givens
    obtain ⟨b', hb'⟩ : ∃ b', gs.foldlM g.add? .none = some b' :=
      exists_foldlM_add? (fun given hgiven => hall given (hperm.mem_iff.mp hgiven))
        (by simpa using hnodup)
    have hperm' : gs.Perm b'.givens := by simpa using (givens_of_foldlM_add? hb').2.symm
    rw [hb', Arguments.eq_of_givens_perm (hperm'.symm.trans hperm)]

/-- What is read from a spelling are the arguments that are spelled, in any order. -/
theorem read_of_spells (hg : g.Clear) (hgs : g.Spells ws gs) :
    g.read ws = .ok b ↔ (∀ given ∈ b.givens, g.Takes given) ∧ gs.Perm b.givens :=
  (readWords_of_spells hg hgs .none).trans foldlM_add?_eq_some_iff

/-- Words are read as the arguments for which they give what has to be given. -/
theorem read_eq_ok_iff (hg : g.Clear) :
    g.read ws = .ok b ↔
      (∀ given ∈ b.givens, g.Takes given) ∧ ∃ gs, g.Spells ws gs ∧ gs.Perm b.givens := by
  constructor
  · intro h
    obtain ⟨gs, hgs⟩ := exists_spells hg ws .none h
    obtain ⟨htakes, hperm⟩ := (read_of_spells hg hgs).mp h
    exact ⟨htakes, gs, hgs, hperm⟩
  · rintro ⟨htakes, gs, hgs, hperm⟩
    exact (read_of_spells hg hgs).mpr ⟨htakes, hperm⟩

/-- Nothing is read that is not expected. -/
theorem flag_eq_false_of_read (hg : g.Clear) (h : g.read ws = .ok b) (hflag : g.flag = none) :
    b.flag = false := by
  by_contra hgiven
  have htakes := ((read_eq_ok_iff hg).mp h).1 .flag (by simpa using hgiven)
  simp [Takes, hflag] at htakes

/-- A subcommand without an option is given no value. -/
theorem option_eq_none_of_read (hg : g.Clear) (h : g.read ws = .ok b) (hoption : g.option = none) :
    b.option = none := by
  refine Option.eq_none_iff_forall_ne_some.mpr fun word hgiven => ?_
  have htakes := ((read_eq_ok_iff hg).mp h).1 (.value word) (by simpa using hgiven)
  simp [Takes, hoption] at htakes

/-- A subcommand without an operand is given none. -/
theorem operand_eq_none_of_read (hg : g.Clear) (h : g.read ws = .ok b)
    (hoperand : g.operand = false) : b.operand = none := by
  refine Option.eq_none_iff_forall_ne_some.mpr fun word hgiven => ?_
  have htakes := ((read_eq_ok_iff hg).mp h).1 (.operand word) (by simpa using hgiven)
  simp [Takes, hoperand] at htakes

end Grammar

/-- The path of a command is its operand, which must be there. -/
theorem Arguments.path_eq_ok_iff {a : Arguments} {file : Path} :
    a.path = .ok file ↔ a.operand = some file.text := by
  obtain ⟨flag, option, operand⟩ := a
  obtain ⟨text⟩ := file
  cases operand <;> simp [path]

end Flashcards
