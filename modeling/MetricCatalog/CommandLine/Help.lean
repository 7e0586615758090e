/-
# Help

What the command line says about itself: the usage, the commands, the parameters
and the switches, each in columns.
-/

import MetricCatalog.CommandLine.Arguments

namespace MetricCatalog.CommandLine

/-- The name of the program. -/
def programName : String := "metricgraph"

/-- The version of the program. -/
def programVersion : String := "0.3.0"

/-- What a command does. -/
def CommandName.about : CommandName → String
  | compile => "Compile a metrics repository into the metastore"
  | query => "Run SQL against a database"
  | queryNode => "Select from a node, optionally filtered"

/-- What a parameter of a command means. -/
def CommandName.aboutParameter : CommandName → String → String
  | compile, _ => "Root of the metrics repository, containing `databases/` and `nodes/`"
  | query, "DATABASE" => "Name of the database to run against"
  | query, _ => "SQL to run. Multiple statements are separated by `;`"
  | queryNode, _ => "Name of the node, e.g. `core.users`"

/-- What a switch means. -/
def Switch.about : Switch → String
  | metastore => "Path to the metastore catalog. Kept in memory if not set"
  | resultsDir => "Directory for query results. Kept in memory if not set"
  | logJson => "Output logs in json format"
  | verbose => "Log verbosity"
  | help => "Print help"
  | version => "Print version"
  | database => "Database to read the node from. Defaults to the node's first representation"
  | filter => "Filters of the form `<column><op><literal>`, e.g. `age>=18`"

namespace Help

/-- Rows in two columns. -/
def columns (rows : List (String × String)) : List String :=
  let width := (rows.map fun row => row.1.length).foldl max 0
  rows.map fun (left, right) =>
    let gap := String.ofList (List.replicate (width - left.length) ' ')
    s!"  {left}{gap}  {right}"

/-- The row of a switch. -/
def switchRow (variableOf : String → Option String) (switch : Switch) : String × String :=
  let letter :=
    match switch.short? with
    | some letter => String.ofList ['-', letter, ',', ' ']
    | none => "    "
  let dots := if switch = .verbose then "..." else ""
  let source :=
    match switch.variableName? with
    | some name => s!" [env: {name}={(variableOf name).getD default}]"
    | none => ""
  (s!"{letter}{switch.shown}{dots}", s!"{switch.about}{source}")

/-- The rows of the commands. -/
def commandRows : List (String × String) :=
  CommandName.all.map (fun name => (name.word, name.about)) ++
    [("help", "Print this message or the help of the given subcommand(s)")]

/-- The help on a command, or on the program. -/
def text (variableOf : String → Option String) (command : Option CommandName) : String :=
  let switches :=
    "Options:" :: columns ((Switch.allowed command).map (switchRow variableOf))
  let lines :=
    match command with
    | none =>
        ["Compile and query a metrics repository", "",
          s!"Usage: {programName} [OPTIONS] <COMMAND>", "", "Commands:"] ++
          columns commandRows ++ [""] ++ switches
    | some name =>
        let parameters := name.parameters.map fun parameter => s!"<{parameter}>"
        [name.about, "",
          s!"Usage: {programName} {name.word} [OPTIONS] " ++ " ".intercalate parameters, "",
          "Arguments:"] ++
          columns (name.parameters.map fun parameter =>
            (s!"<{parameter}>", name.aboutParameter parameter)) ++ [""] ++ switches
  String.join (lines.map fun line => line ++ "\n")

end Help

end MetricCatalog.CommandLine
