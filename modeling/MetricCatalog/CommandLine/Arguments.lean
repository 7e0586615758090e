/-
# Command lines

What the words of a command line ask for. A command has a name and parameters.
Switches stand before or behind the name, some of them only behind the names of
some commands; what is not given by a switch may come from a variable of the
environment. The word `--` ends the switches.
-/

import MetricCatalog.Files.Path

namespace MetricCatalog.CommandLine

/-- The names of the commands. -/
inductive CommandName
  | compile | query | queryNode
  deriving DecidableEq, Repr

namespace CommandName

/-- Every name. -/
def all : List CommandName := [compile, query, queryNode]

/-- The word for the command. -/
def word : CommandName → String
  | compile => "compile"
  | query => "query"
  | queryNode => "query-node"

/-- The names of the parameters, in order. -/
def parameters : CommandName → List String
  | compile => ["REPOSITORY"]
  | query => ["DATABASE", "SQL"]
  | queryNode => ["NODE"]

/-- The command of a word. -/
def ofWord? (text : String) : Option CommandName := all.find? (·.word == text)

end CommandName

/-- The switches. -/
inductive Switch
  | metastore | resultsDir | logJson | verbose | help | version | database | filter
  deriving DecidableEq, Repr

namespace Switch

/-- The name behind two dashes. -/
def long : Switch → String
  | metastore => "metastore"
  | resultsDir => "results-dir"
  | logJson => "log-json"
  | verbose => "verbose"
  | help => "help"
  | version => "version"
  | database => "database"
  | filter => "filter"

/-- The letter behind one dash. -/
def short? : Switch → Option Char
  | verbose => some 'v'
  | help => some 'h'
  | version => some 'V'
  | filter => some 'f'
  | _ => none

/-- The name of the value, if there is one. -/
def value? : Switch → Option String
  | metastore => some "METASTORE"
  | resultsDir => some "RESULTS_DIR"
  | database => some "DATABASE"
  | filter => some "FILTERS"
  | _ => none

/-- The variable of the environment that stands in for the switch. -/
def variableName? : Switch → Option String
  | metastore => some "METRICGRAPH_METASTORE"
  | resultsDir => some "METRICGRAPH_RESULTS_DIR"
  | logJson => some "METRICGRAPH_LOG_JSON"
  | _ => none

/-- Whether the switch may be given more than once. -/
def mayRepeat : Switch → Bool
  | verbose | filter => true
  | _ => false

/-- Whether the value is a path. A path is never empty. -/
def isPath : Switch → Bool
  | metastore | resultsDir => true
  | _ => false

/-- The switches that every command takes, also in front of its name. -/
def shared : List Switch := [verbose, logJson, metastore, resultsDir]

/-- The switches that may stand behind the name of a command, or in front of any. -/
def allowed : Option CommandName → List Switch
  | none => shared ++ [help, version]
  | some .queryNode => [database, filter] ++ shared ++ [help]
  | some _ => shared ++ [help]

/-- The switch as it is written. -/
def shown (switch : Switch) : String :=
  match switch.value? with
  | some value => s!"--{switch.long} <{value}>"
  | none => s!"--{switch.long}"

end Switch

/-- What is wrong with a command line. -/
inductive UsageError
  /-- There is no such switch, or one parameter too many. -/
  | unexpectedArgument (text : String)
  /-- A switch has a value but takes none. -/
  | unexpectedValue (switch : Switch) (value : String)
  | missingValue (switch : Switch)
  /-- A switch has a value that it does not take. -/
  | invalidValue (switch : Switch) (value : String)
  /-- A switch is given twice. -/
  | repeated (switch : Switch)
  | emptyParameter (name : String)
  | missingParameters (names : List String)
  /-- There is no such command. -/
  | unknownCommand (word : String)
  | missingCommand
  deriving DecidableEq, Repr

/-- The text of the complaint. -/
def UsageError.message : UsageError → String
  | unexpectedArgument text => s!"unexpected argument '{text}' found"
  | unexpectedValue switch value =>
      s!"unexpected value '{value}' for '{switch.shown}' found; no more were expected"
  | missingValue switch => s!"a value is required for '{switch.shown}' but none was supplied"
  | invalidValue switch value => s!"invalid value '{value}' for '{switch.shown}'"
  | repeated switch => s!"the argument '{switch.shown}' cannot be used multiple times"
  | emptyParameter name => s!"a value is required for '<{name}>' but none was supplied"
  | missingParameters names =>
      "the following required arguments were not provided:\n" ++
        "\n".intercalate (names.map fun name => s!"  <{name}>")
  | unknownCommand word => s!"unrecognized subcommand '{word}'"
  | missingCommand => "a subcommand is required but one was not provided"

/-- Why the reading of a command line ends early. -/
inductive Stop
  | misused (error : UsageError)
  /-- Help is asked for, perhaps on one command. -/
  | help (command : Option CommandName)
  /-- The version is asked for. -/
  | version
  deriving DecidableEq, Repr

/-- What a command line asks for. -/
inductive Command
  /-- To compile a repository into the catalog. -/
  | compile (repository : Path)
  /-- To run SQL against a database. -/
  | query (database sql : String)
  /-- To select from a node in a database, or in its first one. -/
  | queryNode (node : String) (database : Option String) (filters : List String)
  deriving DecidableEq, Repr

/-- A command with what every command takes. -/
structure Invocation where
  /-- The file of the catalog, if it is not only in memory. -/
  metastore : Option Path
  /-- The directory of the results, if they are not only in memory. -/
  resultsDirectory : Option Path
  /-- How often more messages were asked for. -/
  verbosity : Nat
  /-- Whether messages are written as JSON. -/
  logsAsJson : Bool
  command : Command
  deriving DecidableEq, Repr

/-- The switches and parameters on one side of the name of the command. -/
structure Side where
  /-- The switches with their values, in order. -/
  switches : List (Switch × String)
  /-- The parameters, in order. -/
  parameters : List String
  deriving DecidableEq, Repr

namespace Side

/-- A side with nothing on it. -/
def empty : Side := ⟨[], []⟩

/-- Whether the switch is given. -/
def has (side : Side) (switch : Switch) : Bool := side.switches.any (·.1 = switch)

/-- The values of a switch, in order. -/
def values (side : Side) (switch : Switch) : List String :=
  (side.switches.filter (·.1 = switch)).map (·.2)

/-- Takes a switch with its value. -/
def addSwitch (level : Option CommandName) (side : Side) (switch : Switch) (value : String) :
    Except Stop Side :=
  if switch = .help then .error (.help level)
  else if switch = .version then .error .version
  else if side.has switch && !switch.mayRepeat then .error (.misused (.repeated switch))
  else if switch.isPath && value.isEmpty then .error (.misused (.missingValue switch))
  else .ok { side with switches := side.switches ++ [(switch, value)] }

/-- Takes a parameter. -/
def addParameter (level : Option CommandName) (side : Side) (text : String) :
    Except Stop Side :=
  let names := (level.map CommandName.parameters).getD []
  match names[side.parameters.length]? with
  | none => .error (.misused (.unexpectedArgument text))
  | some name =>
      if level = some .compile && text.isEmpty then .error (.misused (.emptyParameter name))
      else .ok { side with parameters := side.parameters ++ [text] }

/-- Takes parameters. -/
def addParameters (level : Option CommandName) (side : Side) (texts : List String) :
    Except Stop Side :=
  texts.foldlM (addParameter level) side

/-- Takes letters behind one dash. A switch with a value takes the letters behind it, if there are
any; if there are none, it is left over. -/
def addLetters (level : Option CommandName) (side : Side) :
    List Char → Except Stop (Side × Option Switch)
  | [] => .ok (side, none)
  | letter :: rest =>
      match (Switch.allowed level).find? (·.short? = some letter) with
      | none => .error (.misused (.unexpectedArgument (String.ofList ['-', letter])))
      | some switch =>
          if switch.value?.isSome then
            match rest with
            | [] => .ok (side, some switch)
            | '=' :: value =>
                (side.addSwitch level switch (String.ofList value)).map fun side => (side, none)
            | value =>
                (side.addSwitch level switch (String.ofList value)).map fun side => (side, none)
          else do
            let side ← side.addSwitch level switch ""
            side.addLetters level rest

/-- Takes a name behind two dashes, perhaps with a value behind an equals sign. A switch that is to
have a value but does not is left over. -/
def addName (level : Option CommandName) (side : Side) (text : List Char) :
    Except Stop (Side × Option Switch) :=
  let name := String.ofList (text.takeWhile (· ≠ '='))
  let value := (text.dropWhile (· ≠ '=')).tail?.map String.ofList
  match (Switch.allowed level).find? (·.long = name), value with
  | none, _ => .error (.misused (.unexpectedArgument s!"--{name}"))
  | some switch, none =>
      if switch.value?.isSome then .ok (side, some switch)
      else (side.addSwitch level switch "").map fun side => (side, none)
  | some switch, some value =>
      if switch.value?.isSome then
        (side.addSwitch level switch value).map fun side => (side, none)
      else .error (.misused (.unexpectedValue switch value))

/-- Reads words up to the end or, in front of the name of the command, up to the first word that is
no switch. A switch that was left over takes the next word as its value. -/
def read (level : Option CommandName) (side : Side) (open? : Option Switch) :
    List String → Except Stop (Side × List String)
  | [] =>
      match open? with
      | some switch => .error (.misused (.missingValue switch))
      | none => .ok (side, [])
  | word :: rest =>
      match open?, word.toList with
      | some switch, '-' :: _ :: _ => .error (.misused (.missingValue switch))
      | none, ['-', '-'] => (side.addParameters level rest).map fun side => (side, [])
      | none, '-' :: '-' :: name => do
          let (side, open?) ← side.addName level name
          side.read level open? rest
      | none, '-' :: letter :: letters => do
          let (side, open?) ← side.addLetters level (letter :: letters)
          side.read level open? rest
      | some switch, _ => do
          let side ← side.addSwitch level switch word
          side.read level none rest
      | none, _ =>
          if level = none then .ok (side, word :: rest)
          else do
            let side ← side.addParameter level word
            side.read level none rest

/-- Checks the variables that stand in for switches which are not on the side. -/
def checkVariables (side : Side) (variableOf : String → Option String) : Except Stop Unit :=
  Switch.shared.forM fun switch =>
    match switch.variableName?.bind variableOf with
    | none => .ok ()
    | some value =>
        let fits := if switch.isPath then !value.isEmpty else value = "true" || value = "false"
        if side.has switch || fits then .ok ()
        else .error (.misused (.invalidValue switch value))

end Side

/-- The command of a name with its parameters and switches. -/
def commandOf (name : CommandName) (side : Side) : Except Stop Command :=
  let missing := .error (.misused (.missingParameters
    (name.parameters.drop side.parameters.length)))
  match name, side.parameters with
  | .compile, [repository] => .ok (.compile ⟨repository⟩)
  | .query, [database, sql] => .ok (.query database sql)
  | .queryNode, [node] =>
      .ok (.queryNode node (side.values .database).head? (side.values .filter))
  | _, _ => missing

/-- Reads what stands behind the word `help`: the name of a command, if anything. -/
def readHelp : List String → Stop
  | [] => .help none
  | [word] =>
      match CommandName.ofWord? word with
      | some name => .help (some name)
      | none => if word = "help" then .help none else .misused (.unknownCommand word)
  | first :: second :: _ =>
      if first = "help" || (CommandName.ofWord? first).isSome then .misused (.unknownCommand second)
      else .misused (.unknownCommand first)

/-- Reads a command line. -/
def parse (variableOf : String → Option String) (words : List String) :
    Except Stop Invocation := do
  let (front, rest) ← Side.empty.read none none words
  match rest with
  | [] => .error (.misused .missingCommand)
  | word :: rest =>
      match CommandName.ofWord? word with
      | none => .error (if word = "help" then readHelp rest else .misused (.unknownCommand word))
      | some name =>
          let (back, _) ← Side.empty.read (some name) none rest
          back.checkVariables variableOf
          let command ← commandOf name back
          front.checkVariables variableOf
          let given (switch : Switch) : Option String :=
            (back.values switch).head? <|> (front.values switch).head? <|>
              switch.variableName?.bind variableOf
          let count := (back.values .verbose).length
          return {
            metastore := (given .metastore).map Path.mk
            resultsDirectory := (given .resultsDir).map Path.mk
            verbosity := if count = 0 then (front.values .verbose).length else count
            logsAsJson := back.has .logJson || front.has .logJson ||
              Switch.logJson.variableName?.bind variableOf = some "true"
            command := command }

end MetricCatalog.CommandLine
