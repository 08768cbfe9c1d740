import CallGraph.Text.Blank
import CallGraph.Text.Pattern

/-!
# Generic arguments in names

Each instantiation of a generic method has a name of its own, `Pool::Get<Enemy>(Enemy,int)`. Its
collapsed name stands for the method: `Pool::Get(T,int)`. A generic type that leads a longer path
only loses its argument: `List<int>::Add(int)` becomes `List::Add(int)`.
-/

namespace CallGraph.Name

open CallGraph.Text

/-- Whether the character opens or closes a generic argument. -/
def isAngle (c : Char) : Bool :=
  c == '<' || c == '>'

/-- Reads a generic argument and what follows its closing bracket; the text starts behind the
opening one. The argument is not empty and holds no bracket itself. -/
def genericArgument? (text : List Char) : Option (List Char × List Char) :=
  match text.takeWhile (fun c => !isAngle c), text.dropWhile (fun c => !isAngle c) with
  | argument@(_ :: _), '>' :: rest => some (argument, rest)
  | _, _ => none

/-- Whether the text is a parameter list on one line, from its opening to its closing bracket. -/
def isParameterList : List Char → Bool
  | '(' :: rest => rest.getLast? == some ')' && rest.dropLast.all fun c => !isLineBreak c
  | _ => false

/-- A generic method taken apart. -/
structure GenericMethod where
  path : List Char
  argument : List Char
  parameters : List Char
  deriving DecidableEq, Repr

/-- Reads a generic argument and a parameter list that make up the whole text; the path is still
empty. -/
def genericTail? : List Char → Option GenericMethod
  | '<' :: rest =>
    match genericArgument? rest with
    | some (argument, parameters) =>
      if isParameterList parameters then some ⟨[], argument, parameters⟩ else none
    | none => none
  | _ => none

/-- Puts a character in front of the path; a path stays on one line. -/
def GenericMethod.extend? (c : Char) (method : GenericMethod) : Option GenericMethod :=
  if isLineBreak c then none else some { method with path := c :: method.path }

/-- Splits the text at the first `<` behind which a generic argument and a parameter list make up
the rest. -/
def splitGeneric? : List Char → Option GenericMethod
  | [] => none
  | c :: rest => genericTail? (c :: rest) <|> (splitGeneric? rest).bind (GenericMethod.extend? c)

/-- Takes a generic method apart; its path is not empty. -/
def genericMethod? : List Char → Option GenericMethod
  | [] => none
  | c :: rest => (splitGeneric? rest).bind (GenericMethod.extend? c)

/-- Drops the argument of a generic type that leads a path: `List<int>::Add` becomes
`List::Add`. -/
def dropLeadingArgument (text : List Char) : List Char :=
  match text.takeWhile (fun c => c != '<'), text.dropWhile (fun c => c != '<') with
  | path@(_ :: _), _ :: rest =>
    match genericArgument? rest with
    | some (_, after) => if "::".toList.isPrefixOf after then path ++ after else text
    | none => text
  | _, _ => text

/-- The collapsed name as characters. -/
def collapsedChars (text : List Char) : List Char :=
  match genericMethod? text with
  | some method => method.path ++ replaceAll method.argument ['T'] method.parameters
  | none => dropLeadingArgument text

/-- The name that all instantiations of a generic function share. -/
def collapsed (name : String) : String :=
  String.ofList (collapsedChars name.toList)

end CallGraph.Name
