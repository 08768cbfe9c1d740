import CallGraph.Text.Blank

/-!
# Log levels

Records have one of four levels, and a logger writes those that reach its threshold. The threshold
is named by a setting, in any case and with blanks around it.
-/

namespace CallGraph.Log

inductive Level
  | debug
  | info
  | warn
  | error
  deriving DecidableEq, Repr, Inhabited

namespace Level

/-- The levels in ascending order of weight. -/
def rank : Level → Nat
  | .debug => 10
  | .info => 20
  | .warn => 30
  | .error => 40

def name : Level → String
  | .debug => "debug"
  | .info => "info"
  | .warn => "warn"
  | .error => "error"

/-- The level that a word names. -/
def ofName? : String → Option Level
  | "debug" => some .debug
  | "info" => some .info
  | "warn" => some .warn
  | "error" => some .error
  | _ => none

/-- The threshold that a program sets by a word: none by the empty one, and by a word that is no
level one that all records reach. -/
def ofWord (word : String) : Option Level :=
  if word = "" then none else some ((ofName? word).getD .debug)

/-- Whether the word turns logging off. -/
def isSilent (word : String) : Bool :=
  ["silent", "off", "none", "0"].contains word

/-- The threshold that a setting names: `none` where it turns logging off, and `info` where there is
no setting or it is no known word. Letters of other scripts have no part in any known word, so that
lower case is that of the Latin letters alone. -/
def ofSetting (setting : Option String) : Option Level :=
  let word := String.ofList ((Text.trim (setting.getD "").toList).map Char.toLower)
  if isSilent word then none else some ((ofName? word).getD .info)

end Level

end CallGraph.Log
