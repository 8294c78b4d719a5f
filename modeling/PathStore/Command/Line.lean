import PathStore.Command.Basic

/-!
# The command line

A command line names a command and gives its operands, switches and options in
any order behind the name.  A word that begins with a dash is never an operand
unless `--` stands before it.  A switch or an option may be given once.  The
words are taken from left to right, and the first thing that ends the reading
counts: a misuse, or a question for the version.  What the words leave open
may come from the environment.
-/

namespace PathStore

namespace CommandLine

/-- The name of the program. -/
def program : String := "trie-store"

/-- The version of the program. -/
def version : String := "0.1.0"

/-- The names of the commands. -/
inductive Verb where
  | pack
  | unpack
  | get
  | put
  | delete
  | apply
  | version
deriving DecidableEq, Repr

/-- Words that are given or not. -/
inductive Switch where
  | logJson
  | terminator
  | reset
  | dryRun
  | metrics
deriving DecidableEq, Repr

/-- Words that are given with a value. -/
inductive Parameter where
  | config
  | dataDir
  | tree
deriving DecidableEq, Repr

namespace Verb

/-- All commands. -/
def all : List Verb := [pack, unpack, get, put, delete, apply, version]

/-- The word for a command. -/
def word : Verb → String
  | pack => "pack"
  | unpack => "unpack"
  | get => "get"
  | put => "put"
  | delete => "delete"
  | apply => "apply"
  | version => "version"

/-- The command works on a store. -/
def usesStore : Verb → Bool
  | get | put | delete | apply => true
  | pack | unpack | version => false

/-- The number of operands. -/
def operands : Verb → Nat
  | version => 0
  | pack | unpack | get | delete | apply => 1
  | put => 2

/-- The switches of a command. -/
def switches (verb : Verb) : List Switch :=
  .logJson ::
    match verb with
    | pack => [.terminator]
    | get | put | delete => [.reset]
    | apply => [.reset, .dryRun, .metrics]
    | unpack | version => []

/-- The options of a command. -/
def parameters (verb : Verb) : List Parameter :=
  if verb.usesStore then [.config, .dataDir, .tree] else []

/-- The operand may be empty.  A path may not. -/
def admits (verb : Verb) (operand : String) : Bool :=
  verb ≠ apply || operand ≠ ""

end Verb

namespace Switch

/-- The long form of a switch, without its dashes. -/
def long : Switch → String
  | logJson => "log-json"
  | terminator => "terminator"
  | reset => "reset"
  | dryRun => "dry-run"
  | metrics => "metrics"

/-- The short form of a switch. -/
def short? : Switch → Option Char
  | terminator => some 't'
  | _ => none

end Switch

namespace Parameter

/-- The long form of an option, without its dashes. -/
def long : Parameter → String
  | config => "config"
  | dataDir => "data-dir"
  | tree => "tree"

/-- The short form of an option. -/
def short? : Parameter → Option Char
  | config => some 'c'
  | dataDir => some 'd'
  | tree => none

/-- The variable that gives an option where the words do not. -/
def environmentName? : Parameter → Option String
  | config => some "TRIE_STORE_CONFIG"
  | dataDir => some "TRIE_STORE_DATA_DIR"
  | tree => none

/-- The option may have the value.  Paths are not empty. -/
def admits (parameter : Parameter) (value : String) : Bool :=
  parameter = tree || value ≠ ""

end Parameter

/-- What ends the reading of a command line. -/
inductive Stop where
  | misuse
  | askedVersion
deriving DecidableEq, Repr

/-- What the words behind the name of a command have given. -/
structure Given where
  switches : List Switch
  parameters : List (Parameter × String)
  operands : List String
  /-- The option that still waits for its value. -/
  waiting : Option Parameter
deriving DecidableEq, Repr

namespace Given

/-- Nothing is given. -/
def empty : Given := ⟨[], [], [], none⟩

/-- A switch is given. -/
def has (given : Given) (switch : Switch) : Bool := given.switches.contains switch

/-- The value of an option. -/
def value? (given : Given) (parameter : Parameter) : Option String :=
  (given.parameters.find? fun entry => entry.1 = parameter).map (·.2)

/-- Gives a switch. -/
def addSwitch (given : Given) (switch : Switch) : Except Stop Given :=
  if given.has switch then .error .misuse
  else .ok { given with switches := switch :: given.switches }

/-- Gives an option its value. -/
def addParameter (given : Given) (parameter : Parameter) (value : String) : Except Stop Given :=
  if (given.value? parameter).isSome || !parameter.admits value then .error .misuse
  else .ok { given with parameters := (parameter, value) :: given.parameters }

/-- Gives an operand. -/
def addOperand (verb : Verb) (given : Given) (operand : String) : Except Stop Given :=
  if given.operands.length < verb.operands && verb.admits operand then
    .ok { given with operands := given.operands ++ [operand] }
  else .error .misuse

/-- Takes a word with two dashes, given without them. -/
def addLong (verb : Verb) (given : Given) (body : List Char) : Except Stop Given :=
  let name := String.ofList (body.takeWhile (· ≠ '='))
  let attached : Option String :=
    match body.dropWhile (· ≠ '=') with
    | [] => none
    | _ :: value => some (String.ofList value)
  match verb.switches.find? (fun switch => switch.long = name) with
  | some switch => if attached.isSome then .error .misuse else given.addSwitch switch
  | none =>
    match verb.parameters.find? (fun parameter => parameter.long = name) with
    | some parameter =>
      match attached with
      | some value => given.addParameter parameter value
      | none => .ok { given with waiting := some parameter }
    | none =>
      if name = "version" ∧ attached.isNone then .error .askedVersion else .error .misuse

/-- Takes the letters of a word with one dash.  An option takes the letters
behind it for its value. -/
def addShort (verb : Verb) (given : Given) : List Char → Except Stop Given
  | [] => .ok given
  | letter :: rest =>
    match verb.switches.find? (fun switch => switch.short? = some letter) with
    | some switch => do
      let given ← given.addSwitch switch
      given.addShort verb rest
    | none =>
      match verb.parameters.find? (fun parameter => parameter.short? = some letter) with
      | some parameter =>
        match rest with
        | [] => .ok { given with waiting := some parameter }
        | '=' :: value => given.addParameter parameter (String.ofList value)
        | value => given.addParameter parameter (String.ofList value)
      | none => if letter = 'V' then .error .askedVersion else .error .misuse

/-- The word begins with a dash and is more than a dash. -/
def isDashed (word : String) : Bool :=
  match word.toList with
  | '-' :: _ :: _ => true
  | _ => false

/-- Takes one word. -/
def addWord (verb : Verb) (given : Given) (word : String) : Except Stop Given :=
  match given.waiting with
  | some parameter =>
    if isDashed word then .error .misuse
    else { given with waiting := none }.addParameter parameter word
  | none =>
    match word.toList with
    | '-' :: '-' :: body => given.addLong verb body
    | '-' :: letter :: rest => given.addShort verb (letter :: rest)
    | _ => given.addOperand verb word

/-- Takes the words behind the name of a command.  Behind `--` all words are
operands. -/
def addWords (verb : Verb) : Given → List String → Except Stop Given
  | given, [] => if given.waiting.isSome then .error .misuse else .ok given
  | given, word :: rest =>
    if word = "--" then
      if given.waiting.isSome then .error .misuse
      else rest.foldlM (addOperand verb) given
    else do
      let given ← given.addWord verb word
      addWords verb given rest

end Given

/-- Finds the name of the command.  Before it only the log switch may stand;
the answer says whether it does. -/
def findVerb : Bool → List String → Except Stop (Bool × Verb × List String)
  | _, [] => .error .misuse
  | logJson, word :: rest =>
    match Verb.all.find? (fun verb => verb.word = word) with
    | some verb => .ok (logJson, verb, rest)
    | none =>
      if word = "--log-json" then
        if logJson then .error .misuse else findVerb true rest
      else if word = "--version" then .error .askedVersion
      else
        match word.toList with
        | '-' :: 'V' :: _ => .error .askedVersion
        | _ => .error .misuse

/-- A request that a command line makes. -/
inductive Request where
  | run (command : Command)
  /-- Print the version under a title. -/
  | showVersion (title : String)
  | misuse
deriving DecidableEq, Repr

/-- Values of the environment by name. -/
abbrev Environment := String → Option String

/-- The variable that stands for the log switch. -/
def logVariable : String := "TRIE_STORE_LOG_JSON"

/-- The environment gives the log switch in one of its two spellings, or not
at all. -/
def logVariableFits (environment : Environment) : Bool :=
  match environment logVariable with
  | none => true
  | some value => value = "true" || value = "false"

/-- The value of an option from the words or else from the environment. -/
def chosen (environment : Environment) (given : Given) (parameter : Parameter) :
    Except Stop (Option String) :=
  match given.value? parameter with
  | some value => .ok (some value)
  | none =>
    match parameter.environmentName?.bind environment with
    | none => .ok none
    | some value => if parameter.admits value then .ok (some value) else .error .misuse

/-- The command that a name and what was given with it make. -/
def command (environment : Environment) (verb : Verb) (given : Given) :
    Except Stop Command := do
  let choice : StoreChoice ←
    if verb.usesStore then do
      let config ← chosen environment given .config
      let dataDir ← chosen environment given .dataDir
      let tree ← chosen environment given .tree
      pure ⟨config, dataDir, tree, given.has .reset⟩
    else pure ⟨none, .none⟩
  match verb, given.operands with
  | .pack, [digits] => return .pack digits (given.has .terminator)
  | .unpack, [packed] => return .unpack packed
  | .get, [key] => return .get choice key
  | .put, [key, value] => return .put choice key value
  | .delete, [key] => return .delete choice key
  | .apply, [batch] => return .apply choice batch (given.has .dryRun) (given.has .metrics)
  | .version, [] => return .version
  | _, _ => .error .misuse

/-- The title of the version of a command. -/
def title (verb : Verb) : String := program ++ "-" ++ verb.word

/-- Reads a command line.  The log switch is looked for in front of the name
and behind it, and in the environment wherever it is not given. -/
def read (environment : Environment) (words : List String) : Request :=
  match findVerb false words with
  | .error .misuse => .misuse
  | .error .askedVersion => .showVersion program
  | .ok (logJson, verb, rest) =>
    match Given.empty.addWords verb rest with
    | .error .misuse => .misuse
    | .error .askedVersion => .showVersion (title verb)
    | .ok given =>
      if (logJson && given.has .logJson) || logVariableFits environment then
        match command environment verb given with
        | .ok command => .run command
        | .error _ => .misuse
      else .misuse

end CommandLine

end PathStore
