import CallGraph.Text.Blank
import CallGraph.Text.Pattern

/-!
# Canonical names

A demangler prints a function with its return type, with blanks, and with array references written
as plain ones. The canonical name keeps only what identifies the function: no return type, no
blanks, and `[]&` for the references of array accessors. Canonical names are the keys of a graph.
-/

namespace CallGraph.Name

open CallGraph.Text

/-- Drops a leading return type: what precedes the last blank before the first `::`. A text without
`::`, or with no blank before it, is left alone. -/
def dropReturnType (text : List Char) : List Char :=
  match cut? "::".toList text with
  | none => text
  | some (before, _) =>
    (before.reverse.takeWhile fun c => !isBlank c).reverse ++ text.drop before.length

/-- Whether the text names an array accessor: `TryGet` and, somewhere after it, `Array`, blanks
apart. -/
def isArrayAccessor (text : List Char) : Bool :=
  match cut? "TryGet".toList (removeBlanks text) with
  | none => false
  | some (_, after) => occursIn "Array".toList after

/-- Writes every `&` as `[]&`, unless `[]` stands right before it already. -/
def bracketReferences : List Char → List Char
  | '[' :: ']' :: '&' :: rest => '[' :: ']' :: '&' :: bracketReferences rest
  | '&' :: rest => '[' :: ']' :: '&' :: bracketReferences rest
  | c :: rest => c :: bracketReferences rest
  | [] => []

/-- Array accessors take their arguments by array reference, which demanglers print as a plain
reference; all other names keep their references. -/
def markArrayReferences (text : List Char) : List Char :=
  if isArrayAccessor text then bracketReferences text else text

/-- The canonical name as characters. -/
def canonicalChars (text : List Char) : List Char :=
  removeBlanks (markArrayReferences (dropReturnType text))

/-- The canonical name of a demangled symbol. -/
def canonical (demangled : String) : String :=
  String.ofList (canonicalChars demangled.toList)

/-- The demangled symbol without its return type. -/
def withoutReturnType (demangled : String) : String :=
  String.ofList (dropReturnType demangled.toList)

/-- The name with the references of an array accessor in brackets. -/
def withArrayReferences (name : String) : String :=
  String.ofList (markArrayReferences name.toList)

/-- The name without its blanks. -/
def withoutBlanks (name : String) : String :=
  String.ofList (removeBlanks name.toList)

theorem isBlank_of_mem_canonicalChars {c : Char} {text : List Char}
    (h : c ∈ canonicalChars text) : isBlank c = false :=
  isBlank_of_mem_removeBlanks h

end CallGraph.Name
