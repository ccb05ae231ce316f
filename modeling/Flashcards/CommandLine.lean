import Flashcards.Path

namespace Flashcards

/-!
# The command line

The words after the program's name are a command and its arguments.  Options start with `--` and
may stand before or after the file that a command works on; after the word `--` every word is an
operand, whatever it looks like.

* `Command` — what the program can be asked to do.
* `Refusal` — why some words are no command.
* `Command.ofWords` — the command of some words.

A word that is taken for an operand or a value is held, and looked at when the next word is
understood or the words are over.  A word that is not understood is refused at once, even where
the held one would have been.
-/

/-- What the program can be asked to do. -/
inductive Command where
  /-- Print the listing of a file, save it, or report on it. -/
  | render (file : Path) (output : Option Path) (json : Bool)
  /-- Print the listing of a file each time it changes. -/
  | watch (file : Path)
  /-- Write a new document. -/
  | new (path : Path) (force : Bool)
  /-- Print the built-in document and its listing. -/
  | demo
  deriving DecidableEq, Repr

/-- Why some words are no command. -/
inductive Refusal where
  /-- They ask for help. -/
  | help
  /-- They ask for the version. -/
  | version
  /-- There is no command among them. -/
  | missingCommand
  | unknownCommand
  | unknownArgument
  | missingArgument
  /-- A value is missing or empty. -/
  | emptyValue
  /-- A value is given to an option that takes none. -/
  | unwantedValue
  /-- An option is given twice. -/
  | repeated
  deriving DecidableEq, Repr

/-! ### The arguments of one command -/

/-- The arguments that a command takes: an option without a value, one with a value, a file. -/
structure Grammar where
  flag : Option String
  option : Option String
  operand : Bool
  deriving DecidableEq, Repr

/-- The arguments that were given. -/
structure Arguments where
  flag : Bool
  option : Option String
  operand : Option String
  deriving DecidableEq, Repr

/-- No arguments. -/
def Arguments.none : Arguments :=
  ⟨false, .none, .none⟩

/-- A word that was taken and not looked at yet. -/
inductive Held where
  | nothing
  | operand (word : String)
  /-- The value of an option, once its word has come. -/
  | value (word : Option String)
  deriving DecidableEq, Repr

/-- The arguments with the held word among them, if it can be. -/
def Arguments.settle (a : Arguments) : Held → Except Refusal Arguments
  | .nothing => .ok a
  | .operand word =>
    if word = "" then .error .emptyValue else .ok { a with operand := some word }
  | .value .none => .error .emptyValue
  | .value (some word) =>
    if a.option.isSome then .error .repeated
    else if word = "" then .error .emptyValue
    else .ok { a with option := some word }

/-- Whether a further word can be the operand. -/
def Grammar.expectsOperand (g : Grammar) (a : Arguments) : Held → Bool
  | .operand _ => false
  | _ => g.operand && a.operand.isNone

/-- The shapes that a word can have. -/
inductive Word where
  /-- The word `--`. -/
  | separator
  /-- `--name`, or `--name=value`. -/
  | long (name : String) (value : Option String)
  /-- `-x`, with the first letter. -/
  | short (letter : Char)
  /-- Any other word, `-` among them. -/
  | plain (text : String)
  deriving DecidableEq, Repr

/-- The shape of a word. -/
def Word.ofText (text : String) : Word :=
  match text.toList with
  | ['-', '-'] => .separator
  | '-' :: '-' :: cs =>
    .long (String.ofList (cs.takeWhile (· ≠ '=')))
      (match cs.dropWhile (· ≠ '=') with
        | [] => .none
        | _ :: value => some (String.ofList value))
  | '-' :: c :: _ => .short c
  | _ => .plain text

/-- The arguments of the words after a separator: all of them are operands. -/
def Grammar.readOperands (g : Grammar) (a : Arguments) (held : Held) :
    List String → Except Refusal Arguments
  | [] => a.settle held
  | word :: rest =>
    if g.expectsOperand a held then do
      let a ← a.settle held
      g.readOperands a (.operand word) rest
    else .error .unknownArgument

/-- The arguments of some words, from left to right. -/
def Grammar.readWords (g : Grammar) (a : Arguments) (held : Held) :
    List String → Except Refusal Arguments
  | [] => a.settle held
  | text :: rest =>
    match Word.ofText text with
    | .separator => g.readOperands a held rest
    | .long name value =>
      if name = "help" then
        match value with
        | some _ => .error .unwantedValue
        | .none => do
          let _ ← a.settle held
          .error .help
      else if some name = g.flag then
        match value with
        | some _ => .error .unwantedValue
        | .none => do
          let a ← a.settle held
          if a.flag then .error .repeated
          else g.readWords { a with flag := true } .nothing rest
      else if some name = g.option then do
        let a ← a.settle held
        match value with
        | some v => do
          let a ← a.settle (.value (some v))
          g.readWords a .nothing rest
        | .none => g.readWords a (.value .none) rest
      else .error .unknownArgument
    | .short letter =>
      if letter = 'h' then do
        let _ ← a.settle held
        .error .help
      else .error .unknownArgument
    | .plain word =>
      match held with
      | .value .none => g.readWords a (.value (some word)) rest
      | held =>
        if g.expectsOperand a held then do
          let a ← a.settle held
          g.readWords a (.operand word) rest
        else .error .unknownArgument

/-- The arguments of some words. -/
def Grammar.read (g : Grammar) (ws : List String) : Except Refusal Arguments :=
  g.readWords .none .nothing ws

/-- The operand, which a command cannot do without. -/
def Arguments.path (a : Arguments) : Except Refusal Path :=
  match a.operand with
  | some word => .ok ⟨word⟩
  | .none => .error .missingArgument

/-! ### The commands -/

/-- The arguments of `render`. -/
def Grammar.render : Grammar := ⟨some "json", some "output", true⟩

/-- The arguments of `watch`. -/
def Grammar.watch : Grammar := ⟨.none, .none, true⟩

/-- The arguments of `new`. -/
def Grammar.new : Grammar := ⟨some "force", .none, true⟩

/-- The arguments of `demo`. -/
def Grammar.demo : Grammar := ⟨.none, .none, false⟩

/-- The names that a first word can have. -/
def commandNames : List String := ["render", "watch", "new", "demo", "help"]

/-- What the words after `help` ask for: help on nothing, or on one command. -/
def helpTopic : List String → Refusal
  | [] => .help
  | [topic] => if commandNames.contains topic then .help else .unknownCommand
  | _ => .unknownCommand

/-- Why words that do not start with a command are refused. -/
def refuseFirst (first : String) (rest : List String) : Refusal :=
  match Word.ofText first with
  | .separator =>
    match rest with
    | [] => .missingCommand
    | word :: _ => if commandNames.contains word then .unknownArgument else .unknownCommand
  | .long "help" .none => .help
  | .long "version" .none => .version
  | .long "help" (some _) => .unwantedValue
  | .long "version" (some _) => .unwantedValue
  | .long _ _ => .unknownArgument
  | .short 'h' => .help
  | .short 'V' => .version
  | .short _ => .unknownArgument
  | .plain _ => .unknownCommand

/-- The command of some words. -/
def Command.ofWords : List String → Except Refusal Command
  | [] => .error .missingCommand
  | first :: rest =>
    if first = "render" then do
      let a ← Grammar.render.read rest
      let file ← a.path
      return .render file (a.option.map Path.mk) a.flag
    else if first = "watch" then do
      let a ← Grammar.watch.read rest
      return .watch (← a.path)
    else if first = "new" then do
      let a ← Grammar.new.read rest
      return .new (← a.path) a.flag
    else if first = "demo" then do
      let _ ← Grammar.demo.read rest
      return .demo
    else if first = "help" then .error (helpTopic rest)
    else .error (refuseFirst first rest)

end Flashcards
