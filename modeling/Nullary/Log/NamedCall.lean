import Nullary.ArgumentError
import Nullary.Log.Level
import Nullary.Value.Misuse

/-!
# Calls with named values

A logger that takes named values is made with some of them, bound to more, and called with the rest.
Some names are taken by parameters on the way: `NamedCall.makingError?` says what goes wrong before
the logger is there, `NamedCall.called` what goes wrong afterwards, and `NamedCall.fields` are the
values of the record otherwise.

The record goes through a chain of steps before it is written.  A call may bring a chain of its own;
since no value can be a step, it is either empty or broken.
-/

namespace Nullary

/-- A call of a logger that takes named values. -/
structure NamedCall where
  /-- What the logger is made with. -/
  initial : Fields Value
  /-- What it is bound to then. -/
  bound : Fields Value
  method : String
  event : Value
  args : List Value
  own : Fields Value

/-- Why a call writes no record. -/
inductive CallError
  | arguments (e : ArgumentError)
  | misuse (m : Misuse)
  deriving DecidableEq

namespace CallError

/-- The sentence of an error. -/
def message : CallError → String
  | arguments e => e.message
  | misuse m => m.message

end CallError

/-- What a record goes through before it is written. -/
inductive Chain
  | usual
  | empty
  | broken (m : Misuse)

namespace NamedCall

/-- The names that stand for choices in the making of a logger rather than for values. -/
def choices : List String :=
  ["processors", "wrapper_class", "context_class", "cache_logger_on_first_use"]

/-- A choice that is to be called; nothing that counts as absent is one. -/
def chosen? (c : NamedCall) (name : String) : Option Value :=
  (c.initial.get? name).filter Value.truthy

/-- What goes wrong before there is a logger. -/
def makingError? (c : NamedCall) : Option CallError :=
  if c.initial.has "logger_factory_args" then
    some (.arguments ⟨"structlog._config.wrap_logger", "logger_factory_args", .repeatedName⟩)
  else
    let clash :=
      ArgumentError.repeated? "wrap_logger" ["logger"] c.initial.keys
        <|> ArgumentError.repeated? "BoundLoggerLazyProxy.bind" ["self"] c.bound.keys
    clash.map .arguments
      <|> ((c.chosen? "context_class").map fun v => .misuse (v.called 1))

/-- The names that are taken in a call of a method. -/
def takenBy? (c : NamedCall) (m : Method) : Option ArgumentError :=
  ArgumentError.repeated? ("BoundLogger." ++ m.name) ["self", "event"] c.own.keys
    <|> ArgumentError.repeated? "BoundLogger._proxy_to_logger" ["method_name"] c.own.keys

/-- What goes wrong once there is a logger; else the method that is called. -/
def called (c : NamedCall) : Except CallError Method :=
  match c.chosen? "wrapper_class", Method.ofText? c.method with
  | some v, _ => .error (.misuse (v.called 1))
  | none, none => .error (.misuse (.noMember "BoundLogger" c.method))
  | none, some m =>
    match c.takenBy? m with
    | some e => .error (.arguments e)
    | none => .ok m

/-- The chain that the record goes through; its first step is called with three arguments. -/
def chain (c : NamedCall) : Chain :=
  match c.initial.get? "processors" with
  | none => .usual
  | some .null => .usual
  | some v =>
    match v.first? with
    | .error m => .broken m
    | .ok none => .empty
    | .ok (some step) => .broken (step.called 3)

/-- Arguments without a name are kept under one name. -/
def positional (args : List Value) : Fields Value :=
  if args.isEmpty then [] else [("positional_args", .tuple args)]

/-- The message among the values; null is none. -/
def eventFields (event : Value) : Fields Value :=
  match event with
  | .null => []
  | v => [("event", v)]

/-- The values that a logger is made with. -/
def initialValues (c : NamedCall) : Fields Value :=
  c.initial.filter fun e => !choices.contains e.1

/-- The values of a call: those given later replace those given earlier. -/
def fields (c : NamedCall) : Fields Value :=
  (((c.initialValues.insertAll c.bound).insertAll c.own).insertAll (positional c.args)).insertAll
    (eventFields c.event)

end NamedCall

/-! ## Values as arguments -/

namespace Method

/-- The call of the logger beneath, which knows critical by one name only. -/
def plainName (m : Method) : String := "Logger." ++ m.level.text

/-- The parameters of a record that can be set by name. -/
def recordParameters : List String := ["exc_info", "extra", "stack_info", "stacklevel"]

/-- A name that no parameter of a record is free for. -/
def recordError? (name : String) : Option ArgumentError :=
  if name = "level" ∨ name = "args" then some ⟨"Logger._log", name, .repeated⟩
  else if recordParameters.contains name then none
  else some ⟨"Logger._log", name, .unexpected⟩

/-- What goes wrong when values are the arguments of the logger beneath, else the message. -/
def plainMessage (m : Method) (f : Fields Value) : Except ArgumentError Value :=
  if f.has "self" then .error ⟨m.plainName, "self", .repeated⟩
  else
    match f.get? "msg" with
    | some v => .ok v
    | none => .error ⟨m.plainName, "msg", .missing⟩

end Method

end Nullary
