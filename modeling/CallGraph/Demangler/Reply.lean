import CallGraph.Demangler.Tool

/-!
# Replies of demangling tools

A tool answers a batch of symbols line by line. A line that repeats its symbol, or is empty, says
that the symbol does not demangle. A reply with another number of lines than there were symbols says
nothing, as the lines can not be told apart.
-/

namespace CallGraph

/-- What is known about symbols: `none` says that a symbol does not demangle. -/
abbrev Answers := List (String × Option String)

namespace Answers

/-- Sets what is known about a symbol, in the place where it stands already or at the end. -/
def set (symbol : String) (text : Option String) : Answers → Answers
  | [] => [(symbol, text)]
  | (known, old) :: rest =>
    if known = symbol then (symbol, text) :: rest else (known, old) :: set symbol text rest

/-- Pairs symbols with the lines of a reply. -/
def ofLines (symbols lines : List String) : Answers :=
  (symbols.zip lines).foldl (fun (answers : Answers) (symbol, line) =>
    answers.set symbol (if line = "" || line = symbol then none else some line)) []

/-- Reads the reply to a batch of symbols. Carriage returns count for nothing. -/
def ofReply? (symbols : List String) (output : String) : Option Answers :=
  let lines := Tool.lines (String.ofList (output.toList.filter fun c => c != '\r'))
  if lines.length = symbols.length then some (ofLines symbols lines) else none

end Answers

/-- Whether the symbol is mangled by the Itanium convention. -/
def isItaniumSymbol (symbol : String) : Bool :=
  "_Z".toList.isPrefixOf symbol.toList

end CallGraph
