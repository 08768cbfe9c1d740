/-!
# Demangling conventions

A run demangles all symbols by one convention, that of the compiler that built the binary. Tables of
demangled text are kept under the name of their convention.
-/

namespace CallGraph

/-- A demangling convention, by its name. -/
structure Abi where
  name : String
  deriving DecidableEq, Repr, Inhabited

namespace Abi

def msvc : Abi := ⟨"msvc"⟩

/-- The convention of the Itanium interface, that of most other compilers. -/
def itanium : Abi := ⟨"itanium"⟩

def choices : List String := [msvc.name, itanium.name]

/-- The convention that a user's word names. -/
def ofChoice? (word : String) : Option Abi :=
  if choices.contains word then some ⟨word⟩ else none

end Abi

end CallGraph
