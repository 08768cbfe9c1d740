import CallGraph.Text.Pattern

/-!
# Names from managed metadata

Metadata writes the path of a member with `.` and `/`, marks the arity of a generic type by a
backtick and a number, and puts constructors in angle brackets. Compiler-generated members carry
angle brackets that the names of a graph do not have. The two spellings here lead from the former
to the latter.
-/

namespace CallGraph.Name

open CallGraph.Text

/-- Drops arity marks, each a backtick with the digits behind it; `inMark` tells that the text
starts within one. -/
def dropArityMarks (inMark : Bool) : List Char → List Char
  | [] => []
  | c :: rest =>
    if c = '\x60' then dropArityMarks true rest
    else if inMark && c.isDigit then dropArityMarks true rest
    else c :: dropArityMarks false rest

/-- The metadata spelling of a name, brought to `::` paths, as characters. -/
def pathChars (text : List Char) : List Char :=
  let staticOnes := replaceAll "<.cctor>".toList "__cctor_".toList text
  let constructors := replaceAll "<.ctor>".toList "__ctor_".toList staticOnes
  let plain := dropArityMarks false (replaceAll "TEnum".toList "T".toList constructors)
  replaceAll ['/'] "::".toList (replaceAll ['.'] "::".toList plain)

/-- Folds the class of an iterator into its name, at the first `>d` with a `::` behind it: the
separators after that `::` become `_`. -/
def foldIterator (text : List Char) : List Char :=
  match cut? ">d".toList text with
  | none => text
  | some (head, tail) =>
    match cut? "::".toList tail with
    | none => text
    | some (machine, member) =>
      head ++ "_d".toList ++ machine ++ "::".toList ++ replaceAll "::".toList ['_'] member

/-- The spelling of compiler-generated closures and iterators without angle brackets, as
characters. -/
def generatedChars (text : List Char) : List Char :=
  let folded := foldIterator (replaceAll "<>".toList "__".toList text)
  let iterators := replaceAll ">d__".toList "_d__".toList folded
  let closures := replaceAll ">b__".toList "_b__".toList iterators
  replaceAll "::<".toList "::_".toList closures

/-- The `::` spelling of a name from metadata. -/
def fromMetadata (name : String) : String :=
  String.ofList (pathChars name.toList)

/-- The spelling under which a graph keeps a compiler-generated name. -/
def ofGenerated (name : String) : String :=
  String.ofList (generatedChars name.toList)

end CallGraph.Name
