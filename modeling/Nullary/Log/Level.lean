import Nullary.Number.Digits

/-!
# Levels

Every integer is the level of a record, and some levels have names.  A `Method` is a call of a
logger that writes a record of the level it is named for.
-/

namespace Nullary

/-- Levels of records; every integer is one, and some have names. -/
abbrev Level := Int

namespace Level

/-- The level of what matters to those who look for a mistake. -/
def debug : Level := 10

/-- The level of what should not have happened. -/
def warning : Level := 30

/-- The levels that have names. -/
def names : List (Level × String) :=
  [(50, "critical"), (40, "error"), (30, "warning"), (20, "info"), (10, "debug"), (0, "notset")]

/-- The name of a level in records. -/
def text (l : Level) : String :=
  match names.find? fun e => e.1 == l with
  | some e => e.2
  | none => "level " ++ String.ofList (Digits.signed l)

end Level

/-- The calls of a logger that write a record. -/
inductive Method
  | debug
  | info
  | warning
  | error
  | critical
  /-- As critical, by another name. -/
  | fatal
  deriving DecidableEq

namespace Method

/-- The call of a name; warnings have two. -/
def ofText? : String → Option Method
  | "debug" => some .debug
  | "info" => some .info
  | "warning" => some .warning
  | "warn" => some .warning
  | "error" => some .error
  | "critical" => some .critical
  | "fatal" => some .fatal
  | _ => none

/-- The level of the records that a call writes. -/
def level : Method → Level
  | debug => 10
  | info => 20
  | warning => 30
  | error => 40
  | critical => 50
  | fatal => 50

/-- The name of a call. -/
def name : Method → String
  | fatal => "fatal"
  | m => m.level.text

end Method

/-- How a caller asks for the level of a record: by a number, or by a call. -/
inductive LevelChoice
  | number (l : Level)
  | method (name : String)

namespace LevelChoice

/-- The level that is asked for; no call may have the name. -/
def level? : LevelChoice → Except String Level
  | number l => .ok l
  | method name =>
    match Method.ofText? name with
    | some m => .ok m.level
    | none => .error name

end LevelChoice

end Nullary
