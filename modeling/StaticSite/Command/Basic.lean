import StaticSite.Config.File
/-!
# StaticSite.Command.Basic

The commands, and how they are written. `Invocation.ofArguments` reads the arguments from left to
right; the first that asks for help or the version, or that is wrong, decides.
-/

set_option autoImplicit false

namespace StaticSite

/-- A command. -/
inductive Command where
  /-- Starts a site in a directory, which is made if `create` holds. -/
  | init (path : Path) (create : Bool)
  /-- Builds the site of a configuration. -/
  | build (config : Path)
  /-- Builds the site and serves it. What is not given here comes from the configuration. -/
  | serve (config : Path) (bind : Option String) (port : Option Nat) (watch : Bool)
  /-- Removes what has been built, or says what would be removed. -/
  | clean (config : Path) (dryRun : Bool)
deriving DecidableEq, Inhabited, Repr

/-- What arguments ask for. -/
inductive Invocation where
  | run (command : Command)
  | version
  | help
  /-- The arguments are wrong. -/
  | misuse
deriving DecidableEq, Inhabited, Repr

/-- What the program says of itself. -/
def versionLine : String := "tofu 0.1.0"

/-- How the program is used. -/
def usage : String :=
  "Usage: tofu [--verbose] COMMAND\n\n" ++
  "  init PATH [--create]                        start a site\n" ++
  "  build [--config-file FILE]                  build the site\n" ++
  "  serve [--bind ADDRESS] [--port PORT] [--open] [--watch true|false] [--config-file FILE]\n" ++
  "                                              build the site and serve it\n" ++
  "  clean [--dry-run] [--config-file FILE]      delete the generated site"

/-! ### Values -/

/-- What a value of an option is. -/
inductive ValueKind where
  | path
  | word
  | port
  | truth
deriving DecidableEq, Inhabited, Repr

/-- A path, if there is one. -/
def pathOf? (word : String) : Option Path := if word = "" then none else some (.ofString word)

/-- The port that a word stands for. -/
def portOf? (word : String) : Option Nat :=
  let (negative, digits) := takeSign word.toList
  match natural? digits with
  | some n => if n < portLimit ∧ (n = 0 ∨ !negative) then some n else none
  | none => none

/-- The truth that a word stands for. -/
def truthOf? : String → Option Bool
  | "true" => some true
  | "false" => some false
  | _ => none

/-- Whether a word is a value of a kind. -/
def ValueKind.accepts : ValueKind → String → Bool
  | path, value => (pathOf? value).isSome
  | word, _ => true
  | port, value => (portOf? value).isSome
  | truth, value => (truthOf? value).isSome

/-! ### Options -/

/-- What an option does. -/
inductive OptionKind where
  | flag
  /-- Takes a value. -/
  | value (kind : ValueKind)
  /-- Asks for help. -/
  | help
  /-- Asks for the version. -/
  | version
deriving DecidableEq, Inhabited, Repr

/-- An option. -/
structure OptionRule where
  long : String
  short : Option Char
  kind : OptionKind
deriving DecidableEq, Inhabited, Repr

/-- The options that every command has. -/
def commonOptions : List OptionRule :=
  [⟨"verbose", some 'v', .flag⟩, ⟨"help", some 'h', .help⟩]

/-- The option that names the file of the configuration. -/
def configOption : OptionRule := ⟨"config-file", some 'c', .value .path⟩

/-- A name of a command. -/
inductive CommandName where
  | init
  | build
  | serve
  | clean
deriving DecidableEq, Inhabited, Repr

namespace CommandName

/-- The command that a word names. -/
def of? : String → Option CommandName
  | "init" => some init
  | "build" => some build
  | "serve" => some serve
  | "clean" => some clean
  | _ => none

/-- The options of a command. -/
def options : CommandName → List OptionRule
  | init => ⟨"create", some 'c', .flag⟩ :: commonOptions
  | build => configOption :: commonOptions
  | serve => [⟨"bind", some 'b', .value .word⟩, ⟨"port", some 'p', .value .port⟩,
      ⟨"open", some 'o', .flag⟩, configOption, ⟨"watch", some 'w', .value .truth⟩] ++ commonOptions
  | clean => [configOption, ⟨"dry-run", none, .flag⟩] ++ commonOptions

/-- The number of arguments of a command that are no options. -/
def operands : CommandName → Nat
  | init => 1
  | _ => 0

end CommandName

/-- The options before the command. -/
def leadingOptions : List OptionRule := ⟨"version", some 'V', .version⟩ :: commonOptions

/-- What has been read of the arguments. -/
structure Reading where
  /-- The options that are given, by their long names, with their values. -/
  given : List (String × String)
  /-- The other arguments. -/
  operands : List String
deriving DecidableEq, Inhabited, Repr

namespace Reading

/-- Nothing. -/
def empty : Reading := ⟨[], []⟩

/-- The value of an option. -/
def value? (reading : Reading) (long : String) : Option String := reading.given.lookup long

/-- Whether an option is given. -/
def has (reading : Reading) (long : String) : Bool := (reading.value? long).isSome

/-- Adds an option. None can be given twice. -/
def give (reading : Reading) (rule : OptionRule) (value : String) : Except Invocation Reading :=
  if reading.has rule.long then .error .misuse
  else .ok { reading with given := reading.given ++ [(rule.long, value)] }

end Reading

/-- What stands at the start of the arguments. -/
inductive Argument where
  /-- Two hyphens, after which nothing is an option. -/
  | stop
  | long (name : String) (value : Option String)
  | short (letters : List Char)
  | operand (word : String)

/-- What an argument is. -/
def Argument.of (word : String) : Argument :=
  match word.toList with
  | ['-', '-'] => .stop
  | '-' :: '-' :: rest =>
    match Text.cutAt? ['='] rest with
    | some (name, value) => .long (String.ofList name) (some (String.ofList value))
    | none => .long (String.ofList rest) none
  | '-' :: c :: rest => .short (c :: rest)
  | _ => .operand word

/-- The value of an option and the arguments after it, if the option has its value in the next
argument. -/
def nextValue? : List String → Option (String × List String)
  | [] => none
  | word :: rest =>
    match Argument.of word with
    | .operand value => some (value, rest)
    | _ => none

/-- Reads an option that has `attached` as its value if it takes one. -/
def readOption (rule : OptionRule) (attached : Option String) (rest : List String)
    (reading : Reading) : Except Invocation (Reading × List String) :=
  match rule.kind, attached with
  | .help, none => .error .help
  | .version, none => .error .version
  | .flag, none => (reading.give rule "").map (·, rest)
  | .value kind, some value =>
    if kind.accepts value then (reading.give rule value).map (·, rest) else .error .misuse
  | .value kind, none =>
    match nextValue? rest with
    | some (value, rest) =>
      if kind.accepts value then (reading.give rule value).map (·, rest) else .error .misuse
    | none => .error .misuse
  | _, some _ => .error .misuse

/-- Reads letters that are options. The letters after an option that takes a value are its value,
and so is what follows an equals sign. -/
def readLetters (rules : List OptionRule) (rest : List String) (reading : Reading) :
    List Char → Except Invocation (Reading × List String)
  | [] => .ok (reading, rest)
  | c :: letters =>
    match rules.find? fun (rule : OptionRule) => rule.short == some c with
    | none => .error .misuse
    | some rule =>
      match rule.kind with
      | .value _ =>
        let attached := match letters with
          | [] => none
          | '=' :: value => some (String.ofList value)
          | value => some (String.ofList value)
        readOption rule attached rest reading
      | _ =>
        match readOption rule none rest reading with
        | .ok (reading, rest) => readLetters rules rest reading letters
        | .error result => .error result

/-- Reads arguments up to the first that is no option; `fuel` is more than their number. Two hyphens
are no option. -/
def readOptions (rules : List OptionRule) :
    Nat → List String → Reading → Except Invocation (Reading × List String)
  | 0, words, reading => .ok (reading, words)
  | _, [], reading => .ok (reading, [])
  | fuel + 1, word :: rest, reading =>
    let next := match Argument.of word with
      | .long name value =>
        match rules.find? fun (rule : OptionRule) => rule.long == name with
        | some rule => some (readOption rule value rest reading)
        | none => some (.error .misuse)
      | .short letters => some (readLetters rules rest reading letters)
      | _ => none
    match next with
    | none => .ok (reading, word :: rest)
    | some (.ok (reading, rest)) => readOptions rules fuel rest reading
    | some (.error result) => .error result

/-- Reads all arguments of a command; `fuel` is more than their number. No operand is empty. -/
def readArguments (name : CommandName) :
    Nat → List String → Reading → Except Invocation Reading
  | 0, _, reading => .ok reading
  | fuel + 1, words, reading =>
    match readOptions name.options words.length.succ words reading with
    | .error result => .error result
    | .ok (reading, []) => .ok reading
    | .ok (reading, word :: rest) =>
      let (operands, rest) := match Argument.of word with
        | .stop => (rest, [])
        | _ => ([word], rest)
      let reading := { reading with operands := reading.operands ++ operands }
      if name.operands < reading.operands.length ∨ reading.operands.contains "" then
        .error .misuse
      else readArguments name fuel rest reading

/-! ### Commands -/

/-- The file of the configuration. -/
def configOf? (reading : Reading) : Option Path :=
  pathOf? ((reading.value? configOption.long).getD defaultConfigFile)

/-- The command with these arguments. -/
def commandOf? (name : CommandName) (reading : Reading) : Option Command := do
  match name with
  | .init =>
    let path ← reading.operands.head?
    let path ← pathOf? path
    pure (.init path (reading.has "create"))
  | .build =>
    let config ← configOf? reading
    pure (.build config)
  | .clean =>
    let config ← configOf? reading
    pure (.clean config (reading.has "dry-run"))
  | .serve =>
    let config ← configOf? reading
    let port ← match reading.value? "port" with
      | some word => (portOf? word).map some
      | none => some none
    let watch ← truthOf? ((reading.value? "watch").getD "true")
    pure (.serve config (reading.value? "bind") port watch)

/-- What the arguments after `help` ask for. -/
def helpFor : List String → Invocation
  | [] | ["help"] => .help
  | [word] => if (CommandName.of? word).isSome then .help else .misuse
  | _ => .misuse

/-- What arguments ask for. -/
def Invocation.ofArguments (words : List String) : Invocation :=
  match readOptions leadingOptions words.length.succ words .empty with
  | .error result => result
  | .ok (_, []) => .misuse
  | .ok (_, word :: rest) =>
    if word = "help" then helpFor rest
    else
      match CommandName.of? word with
      | none => .misuse
      | some name =>
        match readArguments name rest.length.succ rest .empty with
        | .error result => result
        | .ok reading =>
          match commandOf? name reading with
          | some command => .run command
          | none => .misuse

end StaticSite
