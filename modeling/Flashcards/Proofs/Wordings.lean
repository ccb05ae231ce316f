import Flashcards.Proofs.Diagnosis
import Flashcards.Proofs.Rereading

namespace Flashcards.Markup

open Flashcards.Text

/-!
# Wordings read back

A diagnostic is known from its text.  The wording of a fault is a stem, with a word of the faulty
line behind it or none, and no stem is the beginning of another one.  So the stem of a wording can
be told, and the word is what is left.

* `Fault.word`, `Fault.withWord` — the word that a fault repeats, and a fault with another word.
* `Fault.wordless` — the faults that documents have, without their words.
* `Fault.ofMessage?` — the fault of a wording.
* `Diagnostic.ofText?` — the diagnostic of a text.
* `Document.render_eq_iff` — what is shown of faulty texts is the same just for the same diagnostic.
-/

/-! ### Phrases and words -/

/-- The word of the faulty line that a fault repeats; empty if it repeats none. -/
def Fault.word : Fault → String
  | .nameTaken name => name
  | .unknownGroup name => name
  | .unknownFormat name => name
  | .unknownCommand word => word
  | _ => ""

/-- A fault with another word for the one that it repeats. -/
def Fault.withWord (word : String) : Fault → Fault
  | .nameTaken _ => .nameTaken word
  | .unknownGroup _ => .unknownGroup word
  | .unknownFormat _ => .unknownFormat word
  | .unknownCommand _ => .unknownCommand word
  | f => f

/-- The faults that documents have, without the words that they repeat. -/
def Fault.wordless : List Fault :=
  [.nestedGroup, .missingName, .tooManyWords 0, .tooManyWords 1, .nameTaken "", .noOpenGroup,
    .unfinishedTerm, .showInsideGroup, .unknownGroup "", .noFormats, .unknownFormat "",
    .unknownCommand "", .strayContent, .unclosedGroup]

/-- The characters of a fault's wording without its word. -/
def Fault.stem (f : Fault) : List Char :=
  (f.withWord "").message.toList

/-- The fault of a wording: the one whose stem it begins with. -/
def Fault.ofMessage? (message : String) : Option Fault :=
  wordless.findSome? fun f =>
    (message.toList.dropPrefix? f.stem).map fun word => f.withWord (String.ofList word)

namespace Fault

variable {f : Fault} {line : String} {before : List String}

/-- A wording is a stem with a word behind it. -/
theorem message_eq (f : Fault) : f.message = (f.withWord "").message ++ f.word := by
  have hempty : ∀ a b : String, a ++ b = a ++ "" ++ b := fun a b => by rw [String.append_empty]
  cases f with
  | nameTaken name => exact hempty _ name
  | unknownGroup name => exact hempty _ name
  | unknownFormat name => exact hempty _ name
  | unknownCommand word => exact hempty _ word
  | _ => exact String.append_empty.symm

/-- The message of a fault is its stem and then its word. -/
theorem toList_message (f : Fault) : f.message.toList = f.stem ++ f.word.toList := by
  rw [message_eq, String.toList_append]
  rfl

/-- A word is put in the place of another one. -/
theorem withWord_withWord (f : Fault) (word word' : String) :
    (f.withWord word).withWord word' = f.withWord word' := by
  cases f <;> rfl

/-- The word of a fault is in its place already. -/
theorem withWord_word (f : Fault) : f.withWord f.word = f := by
  cases f <;> rfl

/-- No stem is the beginning of another one, and none holds a line end. -/
theorem stems_apart :
    (wordless.Pairwise fun f f' => ¬ f.stem <+: f'.stem ∧ ¬ f'.stem <+: f.stem) ∧
      ∀ f ∈ wordless, '\n' ∉ f.stem := by
  decide +kernel

/-- **The wording of a fault that documents have tells which fault it is.** -/
theorem ofMessage?_message (h : f.withWord "" ∈ wordless) : ofMessage? f.message = some f := by
  have hstem : (f.withWord "").stem = f.stem := by rw [stem, withWord_withWord, stem]
  have hmessage := f.toList_message
  obtain ⟨earlier, later, hcut⟩ := List.append_of_mem h
  refine List.findSome?_eq_some_iff.mpr ⟨earlier, f.withWord "", later, hcut, ?_, fun e he => ?_⟩
  · have hword : f.message.toList.dropPrefix? f.stem = some f.word.toList :=
      List.dropPrefix?_eq_some_iff.mpr ⟨f.stem, hmessage, beq_self_eq_true _⟩
    rw [hstem, hword, Option.map_some, String.ofList_toList, withWord_withWord, withWord_word]
  · -- The stems of two faults would begin the same wording, one of them the other.
    obtain ⟨hne, hne'⟩ : ¬ e.stem <+: f.stem ∧ ¬ f.stem <+: e.stem := by
      have hpairs := stems_apart.1
      rw [hcut, List.pairwise_append] at hpairs
      rw [← hstem]
      exact hpairs.2.2 e he _ (by simp)
    rw [Option.map_eq_none_iff, Option.eq_none_iff_forall_ne_some]
    intro rest hrest
    obtain ⟨begin, hbegin, hsame⟩ := List.dropPrefix?_eq_some_iff.mp hrest
    obtain rfl : begin = e.stem := eq_of_beq hsame
    rcases List.prefix_or_prefix_of_prefix ⟨rest, hbegin.symm⟩ ⟨f.word.toList, hmessage.symm⟩ with
      hprefix | hprefix
    · exact hne hprefix
    · exact hne' hprefix

/-- A message has no line end in it, if its word has none. -/
theorem newline_not_mem_message (h : f.withWord "" ∈ wordless) (hword : '\n' ∉ f.word.toList) :
    '\n' ∉ f.message.toList := by
  have hstem := stems_apart.2 _ h
  rw [stem, withWord_withWord, ← stem] at hstem
  rw [toList_message, List.mem_append, not_or]
  exact ⟨hstem, hword⟩

/-! ### The faults that documents have -/

/-- A fault that is true of a line is one of those that documents have, and the word that it repeats
    is a word of the line. -/
theorem Explains.word_mem (h : f.Explains before line) :
    f.withWord "" ∈ wordless ∧ (f.word = "" ∨ f.word ∈ words line) := by
  cases f with
  | tooManyWords allowed =>
    rcases h with ⟨-, rfl, -⟩ | ⟨rfl, -⟩
    all_goals exact ⟨by decide, .inl rfl⟩
  | nameTaken name =>
    obtain ⟨-, hw, -⟩ := h
    exact ⟨by simp [withWord, wordless], .inr (by simp [hw, word])⟩
  | unknownGroup name =>
    obtain ⟨-, ⟨formats, hw⟩, -⟩ := h
    exact ⟨by simp [withWord, wordless], .inr (by simp [hw, word])⟩
  | unknownFormat format =>
    obtain ⟨-, name, ls, good, rest, hw, -⟩ := h
    exact ⟨by simp [withWord, wordless], .inr (by simp [hw, word])⟩
  | unknownCommand word =>
    exact ⟨by simp [withWord, wordless], .inr (List.mem_of_head? h.1)⟩
  | _ => exact ⟨by decide, .inl rfl⟩

end Fault

/-! ### Texts of diagnostics -/

/-- The diagnostic of a text: the line stands before the first colon, the faulty line behind the
    first empty line, and the wording of the fault between the two. -/
def Diagnostic.ofText? (text : String) : Option Diagnostic := do
  let rest ← text.toList.dropPrefix? "Error on line ".toList
  let (line, rest) ← rest.dropInfix? [':', ' ']
  let (message, raw) ← rest.dropInfix? ['\n', '\n']
  let fault ← Fault.ofMessage? (String.ofList message)
  return ⟨Nat.ofDigitChars 10 line 0, String.ofList raw, fault⟩

/-- The first empty line of a text is the one behind its first line. -/
theorem not_isInfix_of_not_mem {cs : List Char} (h : '\n' ∉ cs) :
    ¬ ['\n', '\n'] <:+: cs ++ ['\n', '\n'].dropLast := by
  intro hinfix
  have htwo : ['\n', '\n'].count '\n' ≤ (cs ++ ['\n']).count '\n' := hinfix.sublist.count_le '\n'
  rw [List.count_append, List.count_eq_zero.mpr h] at htwo
  exact absurd htwo (by decide)

variable {d d' : Diagnostic} {text text' : String}

/-- The characters of a diagnostic, part by part. -/
theorem Diagnostic.toList_text (d : Diagnostic) :
    d.text.toList = "Error on line ".toList ++ (d.line.repr.toList ++ [':', ' '] ++
      (d.message.toList ++ ['\n', '\n'] ++ d.raw.toList)) := by
  have hcolon : ": ".toList = [':', ' '] := by simp
  have hends : "\n\n".toList = ['\n', '\n'] := by simp
  show ("Error on line " ++ d.line.repr ++ ": " ++ d.message ++ "\n\n" ++ d.raw).toList = _
  simp only [String.toList_append, hcolon, hends, List.append_assoc]

/-- **The text of a diagnostic tells all of it**, whatever the faulty line holds. -/
theorem Diagnostic.ofText?_text (h : d.fault.withWord "" ∈ Fault.wordless)
    (hmessage : '\n' ∉ d.message.toList) : ofText? d.text = some d := by
  -- A number has no space in it, so the first colon with one behind it ends the number.
  have hdigits : ¬ [':', ' '] <:+: d.line.repr.toList ++ [':', ' '].dropLast := by
    intro hinfix
    have hspace : ' ' ∈ d.line.repr.toList ++ [':', ' '].dropLast := hinfix.subset (by simp)
    have hdigit : ' ' ∈ Nat.toDigits 10 d.line := by simpa using hspace
    exact absurd (Nat.isDigit_of_mem_toDigits (by decide) (by decide) hdigit) (by decide)
  have hbegin : d.text.toList.dropPrefix? "Error on line ".toList = some (d.line.repr.toList ++
      [':', ' '] ++ (d.message.toList ++ ['\n', '\n'] ++ d.raw.toList)) :=
    List.dropPrefix?_eq_some_iff.mpr ⟨_, d.toList_text, beq_self_eq_true _⟩
  have hline := dropInfix?_append (by simp) hdigits
    (d.message.toList ++ ['\n', '\n'] ++ d.raw.toList)
  have hraw := dropInfix?_append (by simp) (not_isInfix_of_not_mem hmessage) d.raw.toList
  have hfault : Fault.ofMessage? d.message = some d.fault := Fault.ofMessage?_message h
  have hnumber : Nat.ofDigitChars 10 d.line.repr.toList 0 = d.line := by
    rw [Nat.toList_repr, Nat.ofDigitChars_ten_toDigits]
  simp only [ofText?, hbegin, hline, hraw, hfault, Option.bind_eq_bind, Option.bind_some,
    Option.pure_def, String.ofList_toList, hnumber]

/-! ### What is shown of faulty texts -/

namespace Document

/-- The fault of a text is one of those that documents have, and its wording is one line. -/
theorem fault_of_ofText (h : ofText text = .error d) :
    d.fault.withWord "" ∈ Fault.wordless ∧ '\n' ∉ d.message.toList := by
  obtain ⟨before, after, -, -, r, texts, hread, hf⟩ := ofLines_eq_error_iff.mp h
  obtain ⟨hfault, hword⟩ := ((accept_eq_fault_iff_explains hread).mp hf).word_mem
  refine ⟨hfault, Fault.newline_not_mem_message hfault ?_⟩
  rcases hword with hempty | hmem
  · simp [hempty]
  · exact fun hnewline => (raw_of_ofText h).2 (subset_of_mem_words hmem hnewline)

/-- **What is shown of faulty texts is the same just for the same diagnostic.**  The diagnostic is
    read back from what is shown.  Neither the wording nor the faulty line holds a line end, and no
    two faults that texts have are worded the same. -/
theorem render_eq_iff (h : ofText text = .error d) (h' : ofText text' = .error d') :
    (render text = render text' ↔ d = d') ∧
      Diagnostic.ofText? (render text) = some d ∧
      ('\n' ∉ d.message.toList ∧ '\n' ∉ d.raw.toList) ∧
      (d.message = d'.message ↔ d.fault = d'.fault) := by
  obtain ⟨hfault, hmessage⟩ := fault_of_ofText h
  obtain ⟨hfault', hmessage'⟩ := fault_of_ofText h'
  have hback : Diagnostic.ofText? d.text = some d := Diagnostic.ofText?_text hfault hmessage
  have hback' : Diagnostic.ofText? d'.text = some d' := Diagnostic.ofText?_text hfault' hmessage'
  rw [render_of_error h, render_of_error h']
  refine ⟨⟨fun heq => ?_, fun heq => by rw [heq]⟩, hback, ⟨hmessage, (raw_of_ofText h).2⟩,
    ⟨fun heq => ?_, fun heq => by rw [Diagnostic.message, heq, Diagnostic.message]⟩⟩
  · exact Option.some.inj (by rw [← hback, heq, hback'])
  · have hsame : Fault.ofMessage? d.message = Fault.ofMessage? d'.message := by rw [heq]
    exact Option.some.inj ((Fault.ofMessage?_message hfault).symm.trans
      (hsame.trans (Fault.ofMessage?_message hfault')))

/-- A group that is opened without a name, and one that is shown but never opened. -/
theorem render_eq_iff_sample :
    render "#group" ≠ render "\n#showgroup verbs" ∧
      Diagnostic.ofText? (render "\n#showgroup verbs") =
        some ⟨2, "#showgroup verbs", .unknownGroup "verbs"⟩ := by
  have hfirst : ofText "#group" = .error ⟨1, "#group", .missingName⟩ := by rfl
  have hsecond : ofText "\n#showgroup verbs" =
      .error ⟨2, "#showgroup verbs", .unknownGroup "verbs"⟩ := by
    rfl
  obtain ⟨hiff, hback, -⟩ := render_eq_iff hsecond hfirst
  exact ⟨fun heq => absurd (hiff.mp heq.symm) (by decide), hback⟩

end Document

end Flashcards.Markup
