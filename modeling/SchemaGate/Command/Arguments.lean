import SchemaGate.Config

/-!
# Command lines

`Invocation.parse` reads the words of a command line. Options have a long name and perhaps a letter;
their values stand in the same word or in the next one, which then must not look like an option. No
option is given twice at one level, but the options that every command has may be given before the
name of the command and again after it.
-/

namespace SchemaGate.Command

/-- Why no command is run. -/
inductive Stop where
  /-- The words are no command line. -/
  | misuse
  /-- Help is asked for. -/
  | help
  /-- The version is asked for. -/
  | version
  deriving DecidableEq, Repr

/-- What an option takes. -/
inductive Parameter where
  | nothing
  | path
  | format
  deriving DecidableEq, Repr

/-- Whether a word can be the value of an option. -/
def Parameter.accepts : Parameter → String → Bool
  | nothing, _ => true
  | path, word => !word.isEmpty
  | format, word =>
      match SchemaFormat.ofWord word with
      | .ok _ => true
      | .error _ => false

/-- An option: its letter, its long name, and what it takes. -/
structure OptionSpec where
  letter : Option Char := none
  name : String
  parameter : Parameter := .path
  deriving DecidableEq, Repr

/-- The options and the other words of a command line so far. -/
structure Given where
  options : List (String × String) := []
  words : List String := []
  deriving DecidableEq, Repr

namespace Given

/-- The value of an option. -/
def value? (given : Given) (name : String) : Option String :=
  given.options.lookup name

/-- Whether an option is given. -/
def has (given : Given) (name : String) : Bool :=
  (given.value? name).isSome

/-- Adds an option, which must be new and have a value that it accepts. -/
def put (given : Given) (option : OptionSpec) (value : String) : Except Stop Given :=
  if given.has option.name ∨ !option.parameter.accepts value then .error .misuse
  else .ok { given with options := (option.name, value) :: given.options }

end Given

/-- What may stand at one level of a command line: options, names of commands, and so many other
words, or any number of them. -/
structure Level where
  options : List OptionSpec
  commands : List String := []
  maxWords : Option Nat := some 0
  deriving DecidableEq, Repr

namespace Level

/-- Adds a word that belongs to no option. -/
def putWord (level : Level) (given : Given) (word : String) : Except Stop Given :=
  if word.isEmpty ∨ level.maxWords.any (fun most => most ≤ given.words.length) then .error .misuse
  else .ok { given with words := given.words ++ [word] }

/-- Adds an option that takes nothing. -/
def putFlag (given : Given) (option : OptionSpec) : Except Stop Given :=
  if option.name = "help" then .error .help
  else if option.name = "version" then .error .version
  else given.put option ""

/-- Reads the letters of a word after its dash. The option whose value is still to come is given
back. -/
def readLetters (level : Level) (given : Given) :
    List Char → Except Stop (Given × Option OptionSpec)
  | [] => .ok (given, none)
  | c :: rest =>
      match level.options.find? fun option => option.letter = some c with
      | none => .error .misuse
      | some option =>
          if option.parameter = .nothing then do
            let given ← putFlag given option
            level.readLetters given rest
          else
            match rest with
            | [] => .ok (given, some option)
            | '=' :: value => do pure (← given.put option (.ofList value), none)
            | value => do pure (← given.put option (.ofList value), none)

/-- Reads a word after its two dashes. The option whose value is still to come is given back. -/
def readName (level : Level) (given : Given) (word : List Char) :
    Except Stop (Given × Option OptionSpec) :=
  let (name, value) :=
    match Text.cutFirst? '=' word with
    | some (name, value) => (name, some value)
    | none => (word, none)
  match level.options.find? fun option => option.name = String.ofList name with
  | none => .error .misuse
  | some option =>
      match option.parameter, value with
      | .nothing, none => do pure (← putFlag given option, none)
      | .nothing, some _ => .error .misuse
      | _, some value => do pure (← given.put option (.ofList value), none)
      | _, none => .ok (given, some option)

/-- Whether a word looks like an option. -/
def looksLikeOption (word : String) : Bool :=
  match word.toList with
  | '-' :: _ :: _ => true
  | _ => false

/-- Reads the words of a level; `pending` is the option that the next word is the value of. The name
of a command ends the level. -/
def read (level : Level) (given : Given) (pending : Option OptionSpec) :
    List String → Except Stop (Given × Option (String × List String))
  | [] => if pending.isSome then .error .misuse else .ok (given, none)
  | word :: rest =>
      match pending with
      | some option =>
          if looksLikeOption word then .error .misuse
          else do
            let given ← given.put option word
            level.read given none rest
      | none =>
          if level.commands.contains word then .ok (given, some (word, rest))
          else
            match word.toList with
            | ['-', '-'] => do pure (← rest.foldlM level.putWord given, none)
            | '-' :: '-' :: name => do
                let (given, pending) ← level.readName given name
                level.read given pending rest
            | '-' :: c :: letters => do
                let (given, pending) ← level.readLetters given (c :: letters)
                level.read given pending rest
            | _ => do
                let given ← level.putWord given word
                level.read given none rest

end Level

/-- What the check of a candidate is told. -/
structure CheckOptions where
  baseline : String
  candidate : String
  output : String := "report.json"
  markdown : Option String := none
  format : Option SchemaFormat := none
  validate : Bool := true
  deriving DecidableEq, Repr

/-- A command with its options. -/
inductive Task where
  | check (options : CheckOptions)
  | suite (directories : List String) (output : Option String)
  | index (path : String) (format : Option SchemaFormat)
  | lock (path output : String)
  deriving DecidableEq, Repr

/-- A command with the options that every command has. -/
structure Invocation where
  config : Option String := none
  verbose : Bool := false
  task : Task
  deriving DecidableEq, Repr

namespace Invocation

/-- The options that every command has. -/
def commonOptions : List OptionSpec :=
  [{ letter := some 'c', name := "config" },
   { letter := some 'v', name := "verbose", parameter := .nothing },
   { letter := some 'h', name := "help", parameter := .nothing }]

/-- The option for a file to write. -/
def outputOption : OptionSpec := { letter := some 'o', name := "output" }

/-- The option for a schema format. -/
def formatOption : OptionSpec := { letter := some 'f', name := "format", parameter := .format }

/-- The names of the commands. -/
def commandNames : List String := ["check", "suite", "index", "lock"]

/-- What may stand before the name of a command. -/
def topLevel : Level where
  options := { letter := some 'V', name := "version", parameter := .nothing } :: commonOptions
  commands := "help" :: commandNames

/-- What may stand after the name of a command. -/
def levelOf (command : String) : Level :=
  if command = "check" then
    { options :=
        [{ letter := some 'b', name := "baseline" }, { letter := some 'n', name := "candidate" },
         outputOption, { letter := some 'm', name := "markdown" }, formatOption,
         { name := "no-validate", parameter := .nothing }] ++ commonOptions }
  else if command = "suite" then
    { options := outputOption :: commonOptions, maxWords := none }
  else if command = "index" then
    { options := formatOption :: commonOptions, maxWords := some 1 }
  else { options := outputOption :: commonOptions, maxWords := some 1 }

/-- The format that is given. -/
def formatIn (given : Given) : Option SchemaFormat :=
  (given.value? "format").bind fun word => (SchemaFormat.ofWord word).toOption

/-- The command of a name with what is given for it, unless something is missing. -/
def taskOf? (command : String) (given : Given) : Option Task :=
  if command = "check" then do
    pure
      (.check
        { baseline := ← given.value? "baseline"
          candidate := ← given.value? "candidate"
          output := (given.value? "output").getD "report.json"
          markdown := given.value? "markdown"
          format := formatIn given
          validate := !given.has "no-validate" })
  else if command = "suite" then
    if given.words.isEmpty then none else some (.suite given.words (given.value? "output"))
  else if command = "index" then do
    pure (.index (← given.words.head?) (formatIn given))
  else do
    pure (.lock (← given.words.head?) ((given.value? "output").getD "proto.lock"))

/-- Reads what stands after the command for help: the name of a command, or nothing. -/
def readHelp : List String → Stop
  | [] => .help
  | [command] => if command = "help" ∨ commandNames.contains command then .help else .misuse
  | _ => .misuse

/-- Reads the words of a command line. An option after the name of the command goes before one in
front of it. -/
def parse (words : List String) : Except Stop Invocation := do
  match ← topLevel.read {} none words with
  | (_, none) => .error .misuse
  | (common, some (command, rest)) =>
      if command = "help" then .error (readHelp rest)
      else
        let (given, _) ← (levelOf command).read {} none rest
        match taskOf? command given with
        | none => .error .misuse
        | some task =>
            pure
              { config := (given.value? "config").or (common.value? "config")
                verbose := given.has "verbose" || common.has "verbose"
                task }

end Invocation

end SchemaGate.Command
