import CallGraph.Text.Pattern

/-!
# External tools

A demangling tool is a command that reads symbols, one a line, and prints their text, one a line. It
may be missing, fail, or end with a status other than zero. A run may take a limited time and print
a limited text, and one that is ended for that counts as failed. How commands behave within these
limits is given by a toolbox.
-/

namespace CallGraph

/-- What came of running a command: the failure to run it at all, the exit status, and the text that
it printed. -/
structure ToolRun where
  failure? : Option String
  status? : Option Int
  output : String
  deriving DecidableEq, Repr, Inhabited

namespace ToolRun

/-- Whether the command ran and reports success. -/
def succeeded (run : ToolRun) : Bool :=
  run.failure?.isNone && run.status? == some 0

end ToolRun

/-- A command with the text it was given. -/
structure Spawn where
  command : String
  input : String
  deriving DecidableEq, Repr, Inhabited

/-- The behaviour of every command on every input. -/
abbrev Toolbox := Spawn → ToolRun

/-- How one command behaves: it can not be run, it prints a fixed text, or it looks up each line of
its input in a table and repeats those that are not there. -/
inductive Tool
  | broken (failure : String)
  | printing (output : String) (status : Int)
  | lookingUp (table : List (String × String)) (status : Int)
  deriving Repr

namespace Tool

/-- The lines of a text; the empty piece behind a last line end is none. -/
def lines (text : String) : List String :=
  let pieces := (Text.pieces '\n' text.toList).map String.ofList
  if pieces.getLast? == some "" then pieces.dropLast else pieces

def run (input : String) : Tool → ToolRun
  | .broken failure => ⟨some failure, none, ""⟩
  | .printing output status => ⟨none, some status, output⟩
  | .lookingUp table status =>
    let answers := (lines input).map fun line => (table.lookup line).getD line ++ "\n"
    ⟨none, some status, String.join answers⟩

end Tool

namespace Toolbox

/-- The toolbox that holds the named tools and no other. -/
def ofList (tools : List (String × Tool)) : Toolbox := fun spawn =>
  match tools.lookup spawn.command with
  | some tool => tool.run spawn.input
  | none => ⟨some ("spawnSync " ++ spawn.command ++ " ENOENT"), none, ""⟩

def empty : Toolbox := ofList []

end Toolbox

end CallGraph
