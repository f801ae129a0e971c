/-!
# Arguments of the command line

What a command line asks for.  Options may stand anywhere among the arguments of a command, the
last of several counts, and after two hyphens everything is an argument.
-/

namespace PageDiff.Command

/-- The path of the settings if none is given. -/
def defaultConfigPath : String := "screentest.json"

/-- What a command line asks for. -/
inductive Request
  /-- Run all scripts and report all failures together. -/
  | check (pattern configPath : String) (reportPath : Option String)
  /-- Run all scripts and report each test case. -/
  | test (pattern configPath : String)
  /-- List the test cases. -/
  | list (pattern configPath : String)
  /-- Make a file with the default settings. -/
  | init
  /-- Write a report to a path that holds a null character, which can not be carried out. -/
  | nullPath
  deriving DecidableEq, Repr

structure Invocation where
  verbose : Bool := false
  request : Request
  deriving DecidableEq, Repr

/-- Why a command line asks for nothing. -/
inductive UsageError
  | noCommand
  | unknownCommand (name : String)
  | unknownOption (word : String)
  | unwantedValue (option : String)
  | missingValue (option : String)
  | missingPattern
  | extraArguments (words : List String)
  deriving DecidableEq, Repr

def UsageError.message : UsageError → String
  | .noCommand => "Missing command."
  | .unknownCommand name => s!"No such command '{name}'."
  | .unknownOption word => s!"No such option: {word}"
  | .unwantedValue option => s!"Option '{option}' does not take a value."
  | .missingValue option => s!"Option '{option}' requires an argument."
  | .missingPattern => "Missing argument 'PATTERN'."
  | .extraArguments words =>
    let listed := " ".intercalate words
    s!"Got unexpected extra arguments ({listed})"

/-! ### Words -/

/-- The options with a value. -/
inductive ValueOption
  | config
  | jsonReport
  deriving DecidableEq, Repr

/-- What a word of a command line is. -/
inductive Word
  | argument
  /-- An option that takes the next word as its value. -/
  | opening (option : ValueOption)
  | option (option : ValueOption) (value : String)
  | unknown
  deriving DecidableEq, Repr

def isOption (cs : List Char) : Bool := cs.head? == some '-' && cs != ['-']

def longNames : List (List Char × ValueOption) :=
  [("--config".toList, .config), ("--json-report".toList, .jsonReport)]

/-- What a word is, if some options are known. -/
def Word.read (known : List ValueOption) (word : String) : Word :=
  let cs := word.toList
  if !isOption cs then .argument
  else
    match longNames.lookup (cs.takeWhile (· != '=')) with
    | some o =>
      if o ∉ known then .unknown
      else if cs.contains '=' then .option o (String.ofList ((cs.dropWhile (· != '=')).drop 1))
      else .opening o
    | none =>
      if cs.take 2 != ['-', 'c'] || .config ∉ known then .unknown
      else if cs.length = 2 then .opening .config
      else .option .config (String.ofList (cs.drop 2))

/-- The words of a command, sorted out. -/
structure Sorted where
  arguments : List String := []
  configPath : String := defaultConfigPath
  reportPath : Option String := none
  deriving DecidableEq, Repr

def Sorted.set (s : Sorted) (value : String) : ValueOption → Sorted
  | .config => { s with configPath := value }
  | .jsonReport => { s with reportPath := some value }

/-- Sorts out the words of a command. -/
def Sorted.add (known : List ValueOption) (s : Sorted) : List String → Except UsageError Sorted
  | [] => .ok s
  | word :: words =>
    if word = "--" then .ok { s with arguments := s.arguments ++ words }
    else
      match Word.read known word with
      | .argument => Sorted.add known { s with arguments := s.arguments ++ [word] } words
      | .option o value => Sorted.add known (s.set value o) words
      | .unknown => .error (.unknownOption word)
      | .opening o =>
        match words with
        | [] => .error (.missingValue word)
        | value :: words => Sorted.add known (s.set value o) words

/-! ### Commands -/

/-- The one argument of a command with a pattern. -/
def onePattern : List String → Except UsageError String
  | [] => .error .missingPattern
  | [pattern] => .ok pattern
  | _ :: extra => .error (.extraArguments extra)

def Request.read (command : String) (words : List String) : Except UsageError Request :=
  match command with
  | "check" => do
    let s ← Sorted.add [.config, .jsonReport] {} words
    if s.reportPath.any (·.toList.contains '\x00') then return .nullPath
    return .check (← onePattern s.arguments) s.configPath s.reportPath
  | "test" => do
    let s ← Sorted.add [.config] {} words
    return .test (← onePattern s.arguments) s.configPath
  | "list" => do
    let s ← Sorted.add [.config] {} words
    return .list (← onePattern s.arguments) s.configPath
  | "init" => do
    let s ← Sorted.add [] {} words
    if s.arguments = [] then return .init else throw (.extraArguments s.arguments)
  | _ => .error (.unknownCommand command)

/-- Whether a word is the option for a detailed log, perhaps more than once. -/
def isVerbose (word : String) : Bool :=
  word == "--verbose" ||
    match word.toList with
    | '-' :: 'v' :: cs => cs.all (· == 'v')
    | _ => false

/-- A command after which only its own words stand. -/
def Invocation.readCommand (verbose : Bool) : List String → Except UsageError Invocation
  | [] => .error .noCommand
  | command :: words => (Request.read command words).map (⟨verbose, ·⟩)

def Invocation.read (words : List String) : Except UsageError Invocation :=
  go false words
where
  /-- The options in front of a command. -/
  go (verbose : Bool) : List String → Except UsageError Invocation
    | [] => .error .noCommand
    | word :: words =>
      if isVerbose word then go true words
      else if word = "--" then readCommand verbose words
      else if isOption word.toList then .error (.unknownOption word)
      else readCommand verbose (word :: words)

end PageDiff.Command
