import Flashcards.Proofs.Spellings

namespace Flashcards

/-!
# Spellings of commands

A command is spelled by its name and by words that give its arguments, each once and in any order.

* `Command.name`, `Command.grammar`, `Command.arguments` — what a command is spelled with.
* `Command.ofWords_of_read`, `Command.read_of_ofWords` — the first word says how the others are
  read.
* `Command.toWords` — a spelling that does for all paths, also for those that look like options.
* `Command.ofWords_spellings` — a command is understood in its spellings and in no other words.
-/

namespace Command

variable {c : Command} {ws ws' : List String} {gs gs' : List Given}

/-- The word that a command starts with. -/
def name : Command → String
  | .render .. => "render"
  | .watch _ => "watch"
  | .new .. => "new"
  | .demo => "demo"

/-- What a command takes besides its name. -/
def grammar : Command → Grammar
  | .render .. => ⟨some "json", some "output", true⟩
  | .watch _ => ⟨none, none, true⟩
  | .new .. => ⟨some "force", none, true⟩
  | .demo => ⟨none, none, false⟩

/-- The arguments of a command. -/
def arguments : Command → Arguments
  | .render file output json => ⟨json, output.map Path.text, some file.text⟩
  | .watch file => ⟨false, none, some file.text⟩
  | .new path force => ⟨force, none, some path.text⟩
  | .demo => ⟨false, none, none⟩

/-- The paths that a command names. -/
def paths : Command → List Path
  | .render file output _ => file :: output.toList
  | .watch file => [file]
  | .new path _ => [path]
  | .demo => []

/-- A spelling that does for all paths: options first, and the file behind a separator. -/
def toWords : Command → List String
  | .render file output json =>
    "render" :: (if json then ["--json"] else []) ++
      (output.toList.map fun path => "--output=" ++ path.text) ++ ["--", file.text]
  | .watch file => ["watch", "--", file.text]
  | .new path force => "new" :: (if force then ["--force"] else []) ++ ["--", path.text]
  | .demo => ["demo"]

/-- The options of every subcommand can be told apart by their names. -/
theorem clear_grammar (c : Command) : c.grammar.Clear := by
  cases c <;> constructor <;> simp [grammar, IsOptionName]

/-- A subcommand takes the arguments of a command just if no path is empty. -/
theorem takes_iff (c : Command) :
    (∀ given ∈ c.arguments.givens, c.grammar.Takes given) ↔ ∀ p ∈ c.paths, p.text ≠ "" := by
  cases c with
  | render file output json =>
    cases output <;> cases json <;>
      simp [arguments, Arguments.givens, Grammar.Takes, grammar, paths]
  | watch file => simp [arguments, Arguments.givens, Grammar.Takes, grammar, paths]
  | new path force =>
    cases force <;> simp [arguments, Arguments.givens, Grammar.Takes, grammar, paths]
  | demo => simp [arguments, Arguments.givens, Grammar.Takes, grammar, paths]

/-- The word that a command starts with says how the others are read. -/
theorem ofWords_of_read (h : c.grammar.read ws = .ok c.arguments) :
    ofWords (c.name :: ws) = .ok c := by
  cases c with
  | render file output json =>
    replace h : Grammar.render.read ws = _ := h
    rw [name, ofWords, if_pos rfl, h]
    cases output <;> rfl
  | watch file =>
    replace h : Grammar.watch.read ws = _ := h
    rw [name, ofWords, if_neg (by decide), if_pos rfl, h]
    rfl
  | new path force =>
    replace h : Grammar.new.read ws = _ := h
    rw [name, ofWords, if_neg (by decide), if_neg (by decide), if_pos rfl, h]
    rfl
  | demo =>
    replace h : Grammar.demo.read ws = _ := h
    rw [name, ofWords, if_neg (by decide), if_neg (by decide), if_neg (by decide), if_pos rfl, h]
    rfl

/-- Words that are understood start with the name of a command, and the others are its arguments. -/
theorem read_of_ofWords {first : String} (h : ofWords (first :: ws) = .ok c) :
    first = c.name ∧ c.grammar.read ws = .ok c.arguments := by
  rw [ofWords] at h
  split at h
  case isTrue hfirst =>
    obtain ⟨⟨flag, option, operand⟩, hread, h⟩ := bind_eq_ok_iff.mp h
    obtain ⟨file, hfile, ⟨⟩⟩ := bind_eq_ok_iff.mp h
    obtain rfl : operand = some file.text := Arguments.path_eq_ok_iff.mp hfile
    refine ⟨hfirst, hread.trans ?_⟩
    cases option <;> rfl
  split at h
  case isTrue hfirst =>
    obtain ⟨⟨flag, option, operand⟩, hread, h⟩ := bind_eq_ok_iff.mp h
    obtain ⟨file, hfile, ⟨⟩⟩ := bind_eq_ok_iff.mp h
    obtain rfl : operand = some file.text := Arguments.path_eq_ok_iff.mp hfile
    -- The command keeps only the file, so nothing else may have been read.
    have hclear : Grammar.watch.Clear := clear_grammar (.watch file)
    obtain rfl : flag = false := Grammar.flag_eq_false_of_read hclear hread rfl
    obtain rfl : option = none := Grammar.option_eq_none_of_read hclear hread rfl
    exact ⟨hfirst, hread⟩
  split at h
  case isTrue hfirst =>
    obtain ⟨⟨flag, option, operand⟩, hread, h⟩ := bind_eq_ok_iff.mp h
    obtain ⟨path, hpath, ⟨⟩⟩ := bind_eq_ok_iff.mp h
    obtain rfl : operand = some path.text := Arguments.path_eq_ok_iff.mp hpath
    have hclear : Grammar.new.Clear := clear_grammar (.new path flag)
    obtain rfl : option = none := Grammar.option_eq_none_of_read hclear hread rfl
    exact ⟨hfirst, hread⟩
  split at h
  case isTrue hfirst =>
    obtain ⟨⟨flag, option, operand⟩, hread, ⟨⟩⟩ := bind_eq_ok_iff.mp h
    have hclear : Grammar.demo.Clear := clear_grammar .demo
    obtain rfl : flag = false := Grammar.flag_eq_false_of_read hclear hread rfl
    obtain rfl : option = none := Grammar.option_eq_none_of_read hclear hread rfl
    obtain rfl : operand = none := Grammar.operand_eq_none_of_read hclear hread rfl
    exact ⟨hfirst, hread⟩
  split at h <;> exact absurd h (by simp)

/-- A command line is read by its first word and the grammar of that subcommand. -/
theorem ofWords_eq_ok_iff_read {words : List String} :
    ofWords words = .ok c ↔
      ∃ ws, words = c.name :: ws ∧ c.grammar.read ws = .ok c.arguments := by
  constructor
  · intro h
    cases words with
    | nil => exact absurd h (by simp [ofWords])
    | cons first ws =>
      obtain ⟨rfl, hread⟩ := read_of_ofWords h
      exact ⟨ws, rfl, hread⟩
  · rintro ⟨ws, rfl, h⟩
    exact ofWords_of_read h

/-- Whether words spell a command does not depend on the order in which they give things. -/
theorem ofWords_of_spells (hgs : c.grammar.Spells ws gs) :
    ofWords (c.name :: ws) = .ok c ↔
      (∀ p ∈ c.paths, p.text ≠ "") ∧ gs.Perm c.arguments.givens := by
  rw [← takes_iff, ← Grammar.read_of_spells c.clear_grammar hgs]
  exact ⟨fun h => (read_of_ofWords h).2, ofWords_of_read⟩

/-- A command is understood in the words that spell it. -/
theorem ofWords_eq_ok_iff_spells {words : List String} :
    ofWords words = .ok c ↔
      (∀ p ∈ c.paths, p.text ≠ "") ∧
        ∃ ws gs, words = c.name :: ws ∧ c.grammar.Spells ws gs ∧ gs.Perm c.arguments.givens := by
  simp only [ofWords_eq_ok_iff_read, Grammar.read_eq_ok_iff c.clear_grammar, takes_iff]
  constructor
  · rintro ⟨ws, hws, hpaths, gs, hgs⟩
    exact ⟨hpaths, ws, gs, hws, hgs⟩
  · rintro ⟨hpaths, ws, gs, hws, hgs⟩
    exact ⟨ws, hws, hpaths, gs, hgs⟩

/-- Every command has a spelling. -/
theorem exists_spells_toWords (c : Command) :
    ∃ ws gs, c.toWords = c.name :: ws ∧ c.grammar.Spells ws gs ∧ gs.Perm c.arguments.givens := by
  cases c with
  | render file output json =>
    have hfile : (grammar (.render file output json)).Spells ["--", file.text]
      [.operand file.text] := .separator [file.text]
    have hspells := (hfile.values "output" rfl (output.map Path.text)).flags "json" rfl json
    refine ⟨_, _, ?_, hspells, ?_⟩
    · cases output <;> cases json <;> rfl
    · -- The file is the last thing that the words give.
      rw [← List.append_assoc]
      exact List.perm_append_singleton _ _
  | watch file => exact ⟨_, _, rfl, .separator [file.text], .refl _⟩
  | new path force =>
    have hpath : (grammar (.new path force)).Spells ["--", path.text] [.operand path.text] :=
      .separator [path.text]
    have hgivens : (arguments (.new path force)).givens =
        .operand path.text :: if force then [.flag] else [] := List.append_nil _
    refine ⟨_, _, rfl, hpath.flags "force" rfl force, ?_⟩
    rw [hgivens]
    exact List.perm_append_singleton _ _
  | demo => exact ⟨_, _, rfl, .done, .refl _⟩

/-- A command is understood in its spellings and in no other words: what it takes stands in any
    order, and is given as often as it has to be.  Each command whose paths are not empty has a
    spelling, and words that give the same things in another order are the same command. -/
theorem ofWords_spellings (c : Command) :
    (∀ words, ofWords words = .ok c ↔
      (∀ p ∈ c.paths, p.text ≠ "") ∧
        ∃ ws gs, words = c.name :: ws ∧ c.grammar.Spells ws gs ∧ gs.Perm c.arguments.givens) ∧
    ((∀ p ∈ c.paths, p.text ≠ "") → ofWords c.toWords = .ok c) ∧
    ∀ ws ws' gs gs', c.grammar.Spells ws gs → c.grammar.Spells ws' gs' → gs.Perm gs' →
      (ofWords (c.name :: ws) = .ok c ↔ ofWords (c.name :: ws') = .ok c) := by
  refine ⟨fun words => ofWords_eq_ok_iff_spells,
    fun hpaths => ofWords_eq_ok_iff_spells.mpr ⟨hpaths, exists_spells_toWords c⟩, ?_⟩
  intro ws ws' gs gs' hgs hgs' hperm
  have hsame : gs.Perm c.arguments.givens ↔ gs'.Perm c.arguments.givens :=
    ⟨hperm.symm.trans, hperm.trans⟩
  rw [ofWords_of_spells hgs, ofWords_of_spells hgs', hsame]

/-- Words that start with a dash are paths in a value that is joined to its option and behind a
    separator, and the options may as well stand the other way round. -/
theorem ofWords_spellings_dashes :
    ofWords ["render", "--output=-x", "--json", "--", "--json"] =
        .ok (.render ⟨"--json"⟩ (some ⟨"-x"⟩) true) ∧
      ofWords (toWords (.new ⟨"-f"⟩ true)) = .ok (.new ⟨"-f"⟩ true) ∧
      (ofWords ["render", "--json", "-", "--output", "x"] = .ok (.render ⟨"-"⟩ (some ⟨"x"⟩) true) ↔
        ofWords ["render", "--output=x", "--json", "--", "-"] =
          .ok (.render ⟨"-"⟩ (some ⟨"x"⟩) true)) :=
  have hdash : IsPlain "-" := .inl rfl
  have hplain : IsPlain "x" := .inr (by decide)
  have hfirst : Grammar.render.Spells ["--output=-x", "--json", "--", "--json"]
      [.value "-x", .flag, .operand "--json"] :=
    ((Grammar.Spells.separator ["--json"]).flags "json" rfl true).values "output" rfl (some "-x")
  have hvalue : Grammar.render.Spells ["--output", "x"] [.value "x"] :=
    @Grammar.Spells.apart _ "output" _ _ _ rfl hplain .done
  have hapart : Grammar.render.Spells ["--json", "-", "--output", "x"]
      [.flag, .operand "-", .value "x"] :=
    (Grammar.Spells.operand hdash hvalue).flags "json" rfl true
  have hjoined : Grammar.render.Spells ["--output=x", "--json", "--", "-"]
      [.value "x", .flag, .operand "-"] :=
    ((Grammar.Spells.separator ["-"]).flags "json" rfl true).values "output" rfl (some "x")
  ⟨((ofWords_spellings (.render ⟨"--json"⟩ (some ⟨"-x"⟩) true)).1 _).mpr
      ⟨by decide, _, _, rfl, hfirst, by decide⟩,
    (ofWords_spellings (.new ⟨"-f"⟩ true)).2.1 (by decide),
    (ofWords_spellings (.render ⟨"-"⟩ (some ⟨"x"⟩) true)).2.2 _ _ _ _ hapart hjoined (by decide)⟩

end Command

end Flashcards
