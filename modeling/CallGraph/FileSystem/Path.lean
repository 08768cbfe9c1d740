import CallGraph.Text.Pattern

/-!
# Paths

A path is kept in absolute form, as the names that lead to it from the root. Relative texts are
resolved against a directory before anything else is done with them.
-/

namespace CallGraph

/-- An absolute path without `.`, `..` and empty names. -/
structure Path where
  names : List String
  deriving DecidableEq, Repr, Inhabited

namespace Path

/-- The directory above all others. -/
def root : Path := ⟨[]⟩

/-- Takes one step: `.` and an empty name stay, `..` goes up, and above the root is the root. -/
def step (names : List String) (name : String) : List String :=
  if name = "" || name = "." then names
  else if name = ".." then names.dropLast
  else names ++ [name]

/-- The path that a text means in a directory. A text that begins with `/` means the same in all
directories. -/
def resolve (directory : Path) (text : String) : Path :=
  let names := (Text.pieces '/' text.toList).map String.ofList
  let start := if text.toList.head? = some '/' then [] else directory.names
  ⟨names.foldl step start⟩

def toText (path : Path) : String :=
  "/" ++ "/".intercalate path.names

def parent (path : Path) : Path :=
  ⟨path.names.dropLast⟩

end Path

end CallGraph
