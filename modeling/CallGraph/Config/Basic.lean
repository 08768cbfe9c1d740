import CallGraph.Abi
import CallGraph.Filter
import CallGraph.Schema.Checked

/-!
# Configuration

A configuration says which names to leave out of a graph, how symbols are mangled, and where the
document goes. It starts from defaults, which a configuration file extends or replaces, and which
the command line overrides.
-/

namespace CallGraph

open Schema

structure Config where
  filter : NameFilter
  abi : Abi
  output : String
  deriving DecidableEq, Repr, Inhabited

/-- A configuration file. -/
structure ConfigFile where
  prefixes? : Option (List String)
  substrings? : Option (List String)
  abi? : Option Abi
  output? : Option String
  includeDefaults : Bool
  deriving DecidableEq, Repr, Inhabited

/-- Settings that take the place of others, where given. -/
structure Overrides where
  prefixes? : Option (List String) := none
  substrings? : Option (List String) := none
  abi? : Option Abi := none
  output? : Option String := none
  deriving DecidableEq, Repr, Inhabited

namespace ConfigFile

def keys : List String :=
  ["excludedPrefixes", "excludedSubstrings", "abi", "output", "includeDefaults"]

def checkEntries : Check (List String) :=
  Check.array (Check.nonEmptyString "Filter entries must not be empty")

def checkAbi : Check Abi :=
  Check.oneOf Abi.choices Abi.ofChoice?

/-- A text that must not be empty. -/
def checkOutput : Check String :=
  Check.nonEmptyString "String must contain at least 1 character(s)"

def check : Check ConfigFile :=
  Check.object fun members =>
    let file := ConfigFile.mk
      <$> Check.field "excludedPrefixes" (Check.optional checkEntries) members
      <*> Check.field "excludedSubstrings" (Check.optional checkEntries) members
      <*> Check.field "abi" (Check.optional checkAbi) members
      <*> Check.field "output" (Check.optional checkOutput) members
      <*> Check.field "includeDefaults" (Check.withDefault true Check.bool) members
    { file with issues := file.issues ++ Check.unknownKeys keys members }

/-- Reads a configuration file, or tells all that is wrong with it. A value that is absent is wrong,
too. -/
def ofJson (value : Option Json) : Except (List Issue) ConfigFile :=
  (check value).toExcept

end ConfigFile

namespace Config

/-- The name of the configuration file that is looked for. -/
def fileName : String := "xref.config.json"

/-- The file that a graph goes to by default. -/
def outputName : String := "xref_data.json"

/-- Namespaces of frameworks, run-time libraries and development kits. -/
def defaultPrefixes : List String :=
  ["UnityEngine::", "Unity::", "UnityEngineInternal::", "Microsoft::VisualBasic", "System::",
    "Mono::", "MS::Internal", "Microsoft::Win32", "Interop::", "Epic::", "Sentry::",
    "Steamworks::", "Newtonsoft::Json:", "TMPro::", "Epic::OnlineServices",
    "PolyfillExtensions::", "Microsoft::CSharp", "Internal::", "Interop_SspiCli::", "std::",
    "namespace'::"]

/-- Marks of calling conventions and of compiler-generated code. -/
def defaultSubstrings : List String :=
  ["__fastcall", "__cdecl", "__crt", "stdcall", "_lambda_", "_expandlocale_"]

def defaultFilter : NameFilter := ⟨defaultPrefixes, defaultSubstrings⟩

def default : Config := ⟨defaultFilter, .msvc, outputName⟩

/-- The entries of a filter after a file: those before and then those of the file, each once, or
only those of the file. Where the file gives none, they stay. -/
def combine (includeDefaults : Bool) (present : List String) : Option (List String) → List String
  | none => present
  | some entries => if includeDefaults then (present ++ entries).eraseDups else entries.eraseDups

/-- The settings after a configuration file. -/
def apply (config : Config) (file : ConfigFile) : Config where
  filter :=
    ⟨combine file.includeDefaults config.filter.prefixes file.prefixes?,
      combine file.includeDefaults config.filter.substrings file.substrings?⟩
  abi := file.abi?.getD config.abi
  output := file.output?.getD config.output

def override (config : Config) (overrides : Overrides) : Config where
  filter :=
    ⟨overrides.prefixes?.getD config.filter.prefixes,
      overrides.substrings?.getD config.filter.substrings⟩
  abi := overrides.abi?.getD config.abi
  output := overrides.output?.getD config.output

end Config

end CallGraph
