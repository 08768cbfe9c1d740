import CallGraph.FileSystem.Path
import CallGraph.Text.CodePoint

/-!
# File systems

A file system is what a command finds and leaves: files with their text, and directories. Writing a
file makes the directories above it first; it fails, and leaves all files as they are, where a file
stands in the place of a directory, a directory in the place of the file, or a name or a whole path
is none that a file can have. What is written and read has to fit a text. Links, special files and
permissions are left out, and so are the limits that the bytes of a file may have of their own.
-/

namespace CallGraph

/-- What stands at a path. -/
inductive Node
  | file (text : String)
  | directory
  deriving DecidableEq, Repr, Inhabited

/-- Why a file could not be written: there is no text of that length, its path is none that can be
asked for, or it can not be there. -/
inductive WriteFailure
  | tooLong
  | invalidPath
  | refused
  deriving DecidableEq, Repr

/-- The nodes by path. The root is a directory and needs no entry. -/
structure FileSystem where
  nodes : List (Path × Node)
  deriving Repr, Inhabited

namespace FileSystem

def empty : FileSystem := ⟨[]⟩

def node? (files : FileSystem) (path : Path) : Option Node :=
  if path = .root then some .directory else files.nodes.lookup path

def text? (files : FileSystem) (path : Path) : Option String :=
  match files.node? path with
  | some (.file text) => some text
  | _ => none

/-- Puts a node at a path, whatever stood there. -/
def put (files : FileSystem) (path : Path) (node : Node) : FileSystem :=
  ⟨(path, node) :: files.nodes.filter fun (present, _) => present != path⟩

/-- Whether a file or directory can have the name: it has no null character, and at most 255 bytes
of UTF-8. -/
def isName (name : String) : Bool :=
  !name.toList.contains '\x00' && name.utf8ByteSize ≤ 255

/-- Whether there is a null character in the text of a path, so that no file can be asked for. -/
def hasNull (path : Path) : Bool :=
  path.toText.toList.contains '\x00'

/-- Whether the text of a path is short enough to be asked for: it has at most 4095 bytes of
UTF-8. -/
def isReachable (path : Path) : Bool :=
  path.toText.utf8ByteSize ≤ 4095

def contains (files : FileSystem) (path : Path) : Bool :=
  !hasNull path && isReachable path && (files.node? path).isSome

/-- The text that a file is read as. There is none for a path that can not be asked for, or where the
file holds more than a text can. -/
def read? (files : FileSystem) (path : Path) : Option String :=
  (files.text? path).filter fun text => !hasNull path && isReachable path && Text.fits text

/-- Makes the directories that lead on from one that is there, as far as that is possible; the flag
tells whether all are there in the end. -/
def makeDirectories (files : FileSystem) (directory : Path) : List String → Bool × FileSystem
  | [] => (true, files)
  | name :: rest =>
    let path : Path := ⟨directory.names ++ [name]⟩
    match files.node? path with
    | some .directory => makeDirectories files path rest
    | some (.file _) => (false, files)
    | none =>
      if isName name then makeDirectories (files.put path .directory) path rest else (false, files)

/-- Makes a directory and those above it, where they are missing. -/
def makeDirectory (files : FileSystem) (path : Path) : Option WriteFailure × FileSystem :=
  if hasNull path then (some .invalidPath, files)
  else if isReachable path then
    match files.makeDirectories .root path.names with
    | (true, files) => (none, files)
    | (false, files) => (some .refused, files)
  else (some .refused, files)

/-- Writes a file, and the directories above it where they are missing, unless it fails. -/
def write (files : FileSystem) (path : Path) (text : String) : Option WriteFailure × FileSystem :=
  if !Text.fits text then (some .tooLong, files)
  else
    match files.makeDirectory path.parent with
    | (some failure, files) => (some failure, files)
    | (none, files) =>
      if hasNull path then (some .invalidPath, files)
      else if files.node? path = some .directory || !(path.names.getLast?.any isName) ||
          !isReachable path then
        (some .refused, files)
      else (none, files.put path (.file text))

end FileSystem

end CallGraph
