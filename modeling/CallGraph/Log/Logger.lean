import CallGraph.Json.Printer
import CallGraph.Log.Level

/-!
# Log lines

A log is a sequence of JSON objects, one a line. A record begins with its time, level and message;
the fields of the logger and then those of the record follow, and may override what stands before
them. The fields of a child logger extend those of its parent.
-/

namespace CallGraph.Log

/-- What is told to a logger. -/
structure Record where
  level : Level
  message : String
  fields : Json.Members
  deriving Inhabited, Repr

/-- A logger: the time it stamps on records, its own fields, and its threshold, where there is one
unless logging is off. -/
structure Logger where
  stamp : String
  base : Json.Members
  threshold : Option Level
  deriving Inhabited, Repr

namespace Logger

/-- A logger that has the given fields, too. -/
def child (logger : Logger) (fields : Json.Members) : Logger :=
  { logger with base := Json.Members.merge (Json.Members.ofList logger.base) fields }

/-- Whether records of the level are written. -/
def writes (logger : Logger) (level : Level) : Bool :=
  match logger.threshold with
  | some threshold => threshold.rank ≤ level.rank
  | none => false

/-- The members that every record begins with. -/
def head (logger : Logger) (record : Record) : Json.Members :=
  [("ts", .string logger.stamp), ("level", .string record.level.name), ("msg", .string record.message)]

/-- The members of a record as the logger writes it. -/
def members (logger : Logger) (record : Record) : Json.Members :=
  Json.Members.merge (Json.Members.merge (logger.head record) logger.base) record.fields

/-- The texts that a logger hands on for a record: its line, or none below the threshold. -/
def texts (logger : Logger) (record : Record) : List String :=
  if logger.writes record.level then
    [String.ofList ((Json.object (logger.members record)).compactChars ++ ['\n'])]
  else []

/-- What a record adds to the log. -/
def line (logger : Logger) (record : Record) : String :=
  String.join (logger.texts record)

end Logger

end CallGraph.Log
