import CallGraph.Json.Basic

/-!
# Options and operands

The arguments of a command line are options, the values of options, and operands. An option that
takes a value takes the argument behind it, whatever that looks like, unless the value is attached.
Behind the first argument that looks like an option and is not known, all others that are not known
are left for later, in order. `--` ends the options.
-/

namespace CallGraph.CommandLine

/-- An option of a command; `shape` names the value in messages. -/
inductive Declared
  | value (short? : Option Char) (long : String) (shape : String)
  | flag (long : String)
  | version
  deriving DecidableEq, Repr

namespace Declared

/-- The forms in which an option is written on its own. -/
def forms : Declared → List String
  | .value (some short) long _ => [String.ofList ['-', short], "--" ++ long]
  | .value none long _ => ["--" ++ long]
  | .flag long => ["--" ++ long]
  | .version => ["-V", "--version"]

/-- The long form of an option. -/
def long : Declared → String
  | .value _ long _ => "--" ++ long
  | .flag long => "--" ++ long
  | .version => "--version"

/-- An option with a value, as messages show it. -/
def usage (short? : Option Char) (long shape : String) : String :=
  match short? with
  | some short => String.ofList ['-', short] ++ ", --" ++ long ++ " <" ++ shape ++ ">"
  | none => "--" ++ long ++ " <" ++ shape ++ ">"

end Declared

/-- What is known of a command line so far: the operands, the arguments left for later, and the
options that were set. -/
structure Walk where
  operands : List String
  unknown : List String
  settings : Json.Members
  deriving Repr

/-- What going through the arguments comes to. -/
inductive WalkEnd
  | version
  | missingValue (usage : String)
  | done (walk : Walk)
  deriving Repr

/-- Whether an argument looks like an option. -/
def looksLikeOption (argument : String) : Bool :=
  match argument.toList with
  | '-' :: _ :: _ => true
  | _ => false

namespace Walk

def start (settings : Json.Members) : Walk := ⟨[], [], settings⟩

/-- Takes an argument that is no known option. -/
def add (walk : Walk) (argument : String) : Walk :=
  if looksLikeOption argument || !walk.unknown.isEmpty then
    { walk with unknown := walk.unknown ++ [argument] }
  else { walk with operands := walk.operands ++ [argument] }

/-- Takes the arguments behind `--`. -/
def close (walk : Walk) (rest : List String) : Walk :=
  if walk.unknown.isEmpty then { walk with operands := walk.operands ++ rest }
  else { walk with unknown := walk.unknown ++ "--" :: rest }

def set (walk : Walk) (key : String) (value : Json) : Walk :=
  { walk with settings := Json.Members.insert walk.settings key value }

end Walk

/-- The option and the value that an argument holds both, as `-oFILE` or `--out=FILE`. -/
def attached? (options : List Declared) (argument : String) : Option (Declared × String) :=
  match argument.toList with
  | '-' :: '-' :: rest =>
    let name := rest.takeWhile fun c => c != '='
    if name.isEmpty then none
    else
      match rest.dropWhile fun c => c != '=' with
      | _ :: value =>
        (options.find? fun option => option.long == String.ofList ('-' :: '-' :: name)).bind
          fun option =>
            match option with
            | .value _ _ _ => some (option, String.ofList value)
            | _ => none
      | [] => none
  | '-' :: short :: value@(_ :: _) =>
    (options.find? fun option => option.forms.contains (String.ofList ['-', short])).map
      fun option => (option, String.ofList value)
  | _ => none

/-- Goes through arguments with the options of a command. -/
def walk (options : List Declared) (state : Walk) : List String → WalkEnd
  | [] => .done state
  | argument :: rest =>
    if argument = "--" then .done (state.close rest)
    else
      match options.find? fun option => option.forms.contains argument with
      | some .version => .version
      | some (.flag long) => walk options (state.set long (.bool true)) rest
      | some (.value short? long shape) =>
        match rest with
        | [] => .missingValue (Declared.usage short? long shape)
        | value :: rest => walk options (state.set long (.string value)) rest
      | none =>
        match attached? options argument with
        | some (.version, _) => .version
        | some (.value _ long _, value) => walk options (state.set long (.string value)) rest
        | some (.flag long, _) => walk options (state.set long (.bool true)) rest
        | none => walk options (state.add argument) rest

end CallGraph.CommandLine
