import CallGraph.Command.Session
import CallGraph.CommandLine.Options
import CallGraph.CommandLine.Suggestion

/-!
# Command lines

The program is told by its arguments which command to run, on what and with which options. A command
line that can not be followed is answered by one line on standard error.
-/

namespace CallGraph.CommandLine

/-- A command as it is written on a command line: its operands, the last of which may take all that
are left, its options, and those of them that are set to begin with. -/
structure Form where
  name : String
  operand : String
  takesAll : Bool
  options : List Declared
  presets : Json.Members
  deriving Repr

def forms : List Form :=
  let config : Declared := .value (some 'c') "config" "file"
  let dump : Declared := .value (some 'd') "dump" "file"
  [{ name := "dump", operand := "snapshot", takesAll := false
     options := [config, .value none "abi" "abi", .value (some 'o') "out" "file", .flag "cxxfilt"]
     presets := [("cxxfilt", .bool false)] },
   { name := "query", operand := "name", takesAll := false
     options := [dump, .flag "exact"]
     presets := [("dump", .string Config.outputName), ("exact", .bool false)] },
   { name := "find", operand := "prefix", takesAll := false
     options := [dump, .value none "limit" "n"]
     presets := [("dump", .string Config.outputName), ("limit", .string "200")] },
   { name := "normalize", operand := "names", takesAll := true
     options := [config]
     presets := [] }]

/-- What a command line asks for. -/
inductive Request
  | version
  | help (failed : Bool)
  | refused (message : String)
  | command (name : String) (arguments : Json.Members)
  deriving Repr

def version : String := "0.1.0"

/-- Whether arguments that are no known options ask for help. -/
def asksForHelp (arguments : List String) : Bool :=
  arguments.contains "-h" || arguments.contains "--help"

/-- The answer to an option that is not known; `known` are the options that could be meant. -/
def unknownOption (argument : String) (known : List String) : Request :=
  let hint :=
    if "--".toList.isPrefixOf argument.toList then suggest argument known else ""
  .refused ("error: unknown option '" ++ argument ++ "'" ++ hint)

def unknownCommand (name : String) : Request :=
  .refused ("error: unknown command '" ++ name ++ "'" ++
    suggest name (forms.map Form.name ++ ["help"]))

/-- The options that the program knows in front of any command. -/
def globalOptions : List String := ["--version", "--help"]

/-- Follows a command, given its operands and the arguments left for it. -/
def Form.request (form : Form) (operands arguments : List String) : Request :=
  match walk form.options (.start form.presets) arguments with
  | .version => .version
  | .missingValue usage => .refused ("error: option '" ++ usage ++ "' argument missing")
  | .done state =>
    if asksForHelp state.unknown then .help false
    else
      match state.unknown with
      | argument :: _ =>
        unknownOption argument (form.options.map Declared.long ++ globalOptions)
      | [] =>
        match operands ++ state.operands with
        | [] => .refused ("error: missing required argument '" ++ form.operand ++ "'")
        | first :: more =>
          let operand :=
            if form.takesAll then Json.strings (first :: more) else Json.string first
          .command form.name (Json.Members.merge [(form.operand, operand)] state.settings)

def request (arguments : List String) : Request :=
  match walk [.version] (.start []) arguments with
  | .version => .version
  | .missingValue usage => .refused ("error: option '" ++ usage ++ "' argument missing")
  | .done state =>
    match state.operands with
    | name :: operands =>
      match forms.find? fun form => form.name == name with
      | some form => form.request operands state.unknown
      | none =>
        if name = "help" || asksForHelp state.unknown then .help false else unknownCommand name
    | [] =>
      match state.unknown with
      | [] => .help true
      | argument :: _ =>
        if asksForHelp state.unknown then .help false else unknownOption argument globalOptions

def usage : String :=
  let lines := forms.map fun form =>
    "  xref-graph " ++ form.name ++ " [options] <" ++ form.operand ++
      (if form.takesAll then "...>\n" else ">\n")
  "Usage:\n" ++ String.join lines

def run (environment : Environment) (arguments : List String) (files : FileSystem) : Report :=
  match request arguments with
  | .version => ⟨.status 0, version ++ "\n", "", files, []⟩
  | .help false => ⟨.status 0, usage, "", files, []⟩
  | .help true => ⟨.status 1, "", usage, files, []⟩
  | .refused message => ⟨.status 1, "", message ++ "\n", files, []⟩
  | .command name members =>
    Session.run CommandTable.standard environment name (some (.object members)) files

end CallGraph.CommandLine
