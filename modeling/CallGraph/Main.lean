import CallGraph.CommandLine.Invocation

/-!
# The program

Finds on the disk what a command line mentions, runs the command on that, writes the files that it
leaves changed, and prints what it has to say. The command itself works on values; here they are
only fetched and stored. External tools are not available to the program.
-/

namespace CallGraph.Main

/-- What stands at a path on the disk. What is there but can not be read as text counts as a
directory, which can not be read, either. -/
def nodeAt? (path : Path) : IO (Option Node) := do
  try
    return some (.file (← IO.FS.readFile path.toText))
  catch _ =>
    try
      let _ ← IO.FS.Handle.mk path.toText .read
      return some .directory
    catch _ => return none

/-- The path and all directories above it, from the root on. -/
def lineage (path : Path) : List Path :=
  (List.range (path.names.length + 1)).map fun count => ⟨path.names.take count⟩

/-- Fetches paths, and the directories above them, from the disk. -/
def fetch (paths : List Path) : IO FileSystem :=
  ((paths.flatMap lineage).eraseDups).foldlM (fun files path => do
    match ← nodeAt? path with
    | some node => return files.put path node
    | none => return files) .empty

/-- The paths that the arguments of a command may mean. -/
def mentioned (directory : Path) (arguments : Json.Members) : List Path :=
  let texts := arguments.filterMap fun (_, value) =>
    match value with
    | .string text => some text
    | _ => none
  (Config.fileName :: Config.outputName :: texts).map directory.resolve

/-- Stores a changed file on the disk, and makes the directories above it. -/
def store (change : Path × String) : IO Unit := do
  IO.FS.createDirAll change.1.parent.toText
  IO.FS.writeFile change.1.toText change.2

/-- The files whose text is new or has changed. -/
def changes (before after : FileSystem) : List (Path × String) :=
  after.nodes.filterMap fun (path, node) =>
    match node with
    | .directory => none
    | .file text => if before.text? path = some text then none else some (path, text)

/-- Runs the program on what the disk has at the given paths. -/
def runOn (environment : Environment) (arguments : List String) (paths : List Path) :
    IO (Report × List (Path × String)) := do
  let files ← fetch paths
  let report := CommandLine.run environment arguments files
  return (report, changes files report.files)

/-- Ends with the status of a run. A fault that nothing has reported is told now. -/
def leave : Exit → IO UInt32
  | .status code => return code.toUInt32
  | .fault fault => do
    IO.eprintln fault.message
    return 1

end CallGraph.Main

open CallGraph CallGraph.Main in
/-- Runs the program on the arguments. A first run tells which files would change, so that what the
disk has in their places is known to the second. -/
def main (arguments : List String) : IO UInt32 := do
  let directory := Path.root.resolve (← IO.currentDir).toString
  let setting ← IO.getEnv "XREF_LOG_LEVEL"
  let general ← IO.getEnv "LOG_LEVEL"
  let environment : Environment :=
    { directory, tools := Toolbox.empty, stamp := "1970-01-01T00:00:00.000Z"
      threshold := Log.Level.ofSetting (setting <|> general) }
  let paths := match CommandLine.request arguments with
    | .command _ members => mentioned directory members
    | _ => []
  let (_, planned) ← runOn environment arguments paths
  let (report, changes) ← runOn environment arguments (paths ++ planned.map Prod.fst)
  changes.forM store
  IO.print report.stdout
  IO.eprint report.stderr
  leave report.exit
