import Nullary.Log.Console
import Nullary.Log.Document
import Nullary.Log.Event
import Nullary.Log.Level
import Nullary.Log.Name
import Nullary.Log.NamedCall
import Nullary.Settings

/-!
# The log

The state of the log is how records are written, which level each logger lets pass, and which
loggers there are.  `Logging.configure` sets it up by settings, `Logging.emit` writes a record.  As
long as nothing is configured, warnings and what is graver are written by their messages alone.
-/

namespace Nullary

/-- How a handler writes records. -/
structure Handler where
  json : Bool
  coloured : Bool
  deriving DecidableEq

/-- The text of a record as a handler writes it. -/
def Handler.text? (h : Handler) (f : Fields Value) : Option String :=
  if h.json then Value.jsonLine? f
  else Console.text? (if h.coloured then Console.coloured else Console.plain) f

/-- The levels of the root logger and of other loggers, and the loggers that were ever asked for. -/
structure Logging where
  handlers : List Handler
  rootLevel : Level
  levels : Fields Level
  known : List String

namespace Logging

/-- The logger above all loggers of this library. -/
def packageName : String := "valobj"

/-- The logger of the codec service. -/
def serviceName : String := "valobj.services.codec"

/-- A log that is not configured. -/
def initial : Logging := ⟨[], Level.warning, [], [packageName, serviceName]⟩

/-- Makes a logger known. -/
def meet (name : String) (l : Logging) : Logging :=
  if LoggerName.isTop name || l.known.contains name then l
  else { l with known := l.known ++ [name] }

/-- The nearest known logger above a name. -/
def parent? (l : Logging) (name : String) : Option String :=
  (LoggerName.ancestors name).find? l.known.contains

theorem length_parent? {l : Logging} {name p : String} (h : l.parent? name = some p) :
    p.length < name.length :=
  LoggerName.length_of_mem_ancestors (List.mem_of_find?_eq_some h)

/-- The level that is set for a logger itself; zero sets none. -/
def ownLevel? (l : Logging) (name : String) : Option Level :=
  match l.levels.get? name with
  | some n => if n = 0 then none else some n
  | none => none

/-- The level of a logger: its own, or that of the next logger above it that has one. -/
def effectiveLevel (l : Logging) (name : String) : Level :=
  match l.ownLevel? name with
  | some n => n
  | none =>
    match h : l.parent? name with
    | some p =>
      have : p.length < name.length := length_parent? h
      effectiveLevel l p
    | none => l.rootLevel
  termination_by name.length

/-- The level that records of a logger must have to be written. -/
def threshold (l : Logging) (name : String) : Level :=
  if LoggerName.isTop name then l.rootLevel else l.effectiveLevel name

/-- Replaces all handlers and sets the levels by settings; `terminal` is where the log goes. -/
def configure (terminal : Bool) (s : Settings) (l : Logging) : Logging :=
  { l with
    handlers := [⟨s.logJson, terminal⟩]
    rootLevel := Level.warning
    levels := l.levels.insert packageName (if s.verbose then Level.debug else Level.warning) }

/-- The level that is set for the loggers of this library; zero if none is. -/
def packageLevel (l : Logging) : Level :=
  (l.levels.get? packageName).getD 0

/-- A message for the log: its text, where it has one by itself, and the named values. -/
structure Record where
  logger : String
  level : Level
  message : Option String
  values : Fields Value

/-- The texts that handlers write for a record, each with the end of its line. -/
def written (l : Logging) (r : Record) : List String :=
  let texts :=
    if l.handlers.isEmpty then
      if Level.warning ≤ r.level then r.message.toList else []
    else
      l.handlers.filterMap fun h => h.text? r.values
  texts.map (· ++ "\n")

/-- What a record leaves in the log, if its level is high enough. -/
def emit (l : Logging) (r : Record) : List String :=
  if l.threshold r.logger ≤ r.level then l.written r else []

/-- What a record says about itself. -/
def origin (timestamp logger : String) (level : Level) : Origin :=
  ⟨level.text, LoggerName.shown logger, timestamp⟩

/-- The record of a message; variables of the context are added to it. -/
def messageRecord (context : Context) (timestamp logger : String) (level : Level)
    (message : String) : Record :=
  ⟨logger, level, some message,
    Event.complete context (origin timestamp logger level) (Event.ofMessage message)⟩

/-- The record of a call with named values; variables of the context are added to it. -/
def namedRecord (context : Context) (timestamp logger : String) (m : Method) (own : Fields Value) :
    Except Misuse Record :=
  (Event.loggerName context (LoggerName.shown logger) own).map fun shown =>
    ⟨logger, m.level, none, Event.complete context ⟨m.level.text, shown, timestamp⟩ own⟩

/-- What values leave in the log that are handed to a logger as its arguments. -/
def emitPlain (l : Logging) (context : Context) (timestamp logger : String) (m : Method)
    (own : Fields Value) : Except ArgumentError (List String) :=
  match m.plainMessage own with
  | .error e => .error e
  | .ok message =>
    if l.threshold logger ≤ m.level then
      match (own.erase "msg").keys.findSome? Method.recordError? with
      | some e => .error e
      | none =>
        match Event.message? message [] with
        | some s => .ok (l.written (messageRecord context timestamp logger m.level s))
        | none => .ok []
    else
      .ok []

/-- What a call with named values leaves in the log, once the logger is there. -/
def emitNamed (l : Logging) (context : Context) (timestamp logger : String) (c : NamedCall) :
    Except CallError (List String) :=
  match c.called with
  | .error e => .error e
  | .ok m =>
    match c.chain with
    | .usual => ((namedRecord context timestamp logger m c.fields).mapError .misuse).map l.emit
    | .empty => (l.emitPlain context timestamp logger m c.fields).mapError .arguments
    | .broken e => .error (.misuse e)

end Logging

end Nullary
