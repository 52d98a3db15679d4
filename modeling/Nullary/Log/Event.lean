import Nullary.Log.Context
import Nullary.Log.Template
import Nullary.Value.Misuse

/-!
# Log records

A record is a list of named values.  Those of the call come first; variables of the context are
added where the call has no value of that name; level, logger and time are set last and cannot be
taken by anyone else.  Two names are for the inside of the log and never written.
-/

namespace Nullary

/-- What a record says about itself. -/
structure Origin where
  level : String
  logger : String
  timestamp : String

namespace Event

/-- The name under which the log holds what a record is made from. -/
def sourceName : String := "_record"

/-- The names that are never written. -/
def hiddenNames : List String := [sourceName, "_from_structlog"]

/-- The named values of a record. -/
def complete (context : Context) (o : Origin) (own : Fields Value) : Fields Value :=
  let values : Fields Value := (own.fill context).filter fun e => !hiddenNames.contains e.1
  ((values.insert "level" (.text o.level)).insert "logger" (.text o.logger)).insert
    "timestamp" (.text o.timestamp)

/--
The logger of a record with named values.  A value that poses as the source of the record is asked
for its name, which only paths have.
-/
def loggerName (context : Context) (logger : String) (own : Fields Value) : Except Misuse String :=
  match (own.fill context).get? sourceName with
  | none => .ok logger
  | some .null => .ok logger
  | some (.path p) => .ok p.name
  | some v => .error (v.lacking "name")

/-- The text of a message, if its arguments fit. -/
def message? (event : Value) (args : List Value) : Option String :=
  event.display.toOption.bind fun template => Template.fill? template args

/-- The values of a call with a message alone. -/
def ofMessage (message : String) : Fields Value :=
  [("event", .text message)]

end Event

end Nullary
