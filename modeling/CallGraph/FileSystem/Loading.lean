import CallGraph.Config.Basic
import CallGraph.Document.Basic
import CallGraph.FileSystem.Basic
import CallGraph.Json.Parser
import CallGraph.Snapshot.Reading

/-!
# Loading documents from files

Snapshots, graph documents and configurations are files of JSON. A file that can not be read, or
holds no JSON, is told apart from one that holds something of the wrong form; what exactly went
wrong in reading stays open, and is written as `<detail>`.
-/

namespace CallGraph

open Schema

/-- What a file is expected to hold. -/
inductive Source
  | snapshot
  | config
  | document
  deriving DecidableEq, Repr

/-- Why nothing could be loaded. -/
inductive LoadError
  | missingConfig (path : Path)
  | unreadable (source : Source) (path : Path)
  | malformed (source : Source) (path : Path) (issues : List Issue)
  deriving DecidableEq, Repr

namespace Source

def name : Source → String
  | .snapshot => "snapshot"
  | .config => "config"
  | .document => "xref dump"

/-- The words for a file of the wrong form. Only a configuration is told with its path. -/
def malformed (path : Path) : Source → String
  | .snapshot => "Invalid analysis snapshot"
  | .config => "Invalid config " ++ path.toText
  | .document => "Invalid xref dump"

end Source

namespace LoadError

def message : LoadError → String
  | .missingConfig path => "Config file not found: " ++ path.toText
  | .unreadable source path => "Cannot read " ++ source.name ++ " " ++ path.toText ++ ": <detail>"
  | .malformed source path _ => source.malformed path

/-- The issues of a file of the wrong form, one a line. -/
def issues : LoadError → List String
  | .malformed _ _ issues => issues.map Issue.describe
  | _ => []

end LoadError

/-- Loads a file and reads the JSON in it by a check. -/
def FileSystem.load {α : Type} (files : FileSystem) (source : Source)
    (read : Option Json → Except (List Issue) α) (path : Path) : Except LoadError α :=
  match (files.read? path).bind Json.parseFile? with
  | none => .error (.unreadable source path)
  | some value =>
    match read (some value) with
    | .ok result => .ok result
    | .error issues => .error (.malformed source path issues)

def Snapshot.load (files : FileSystem) (path : Path) : Except LoadError Snapshot :=
  files.load .snapshot Snapshot.ofJson path

def Document.load (files : FileSystem) (path : Path) : Except LoadError Document :=
  files.load .document Document.ofJson path

namespace Config

/-- Loads the file that extends the defaults. -/
def loadFile (files : FileSystem) (path : Path) : Except LoadError Config :=
  (files.load .config ConfigFile.ofJson path).map default.apply

/-- Loads the configuration of a directory. A file that is named must be there; otherwise the file
of the usual name is taken if it is there. An empty name is none. -/
def load (files : FileSystem) (directory : Path) (named : Option String) :
    Except LoadError Config :=
  match Text.nonEmpty named with
  | some name =>
    let path := directory.resolve name
    if files.contains path then loadFile files path else .error (.missingConfig path)
  | none =>
    let path := directory.resolve fileName
    if files.contains path then loadFile files path else .ok default

end Config

end CallGraph
