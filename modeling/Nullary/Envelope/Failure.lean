import Nullary.Envelope

/-!
# Building a failure from call arguments

A failure is built from positional arguments and named ones.  The three parameters `op`, `code` and
`message` can be given either way, every other name is a detail.  `Call.bind` assigns the arguments
to the parameters, `Envelope.failure` builds the envelope from what they were assigned.
-/

namespace Nullary

/-- Why arguments fit no parameters. -/
inductive BindError
  | clash (name : String)
  | missing (names : List String)
  | surplus (given : Nat)
  deriving DecidableEq

namespace Call

/-- The parameters that have to be given, in order. -/
def parameters : List String := ["op", "code", "message"]

/-- The name that stands for the class whose method is called; it is always taken. -/
def receiver : String := "cls"

/-- The parameters that positional arguments fill, and their values. -/
def positional (args : List Value) : Fields Value :=
  parameters.zip args

/-- Whether a name is assigned before the named arguments are looked at. -/
def isTaken (args : List Value) (name : String) : Bool :=
  name == receiver || (positional args).has name

/-- The parameters that neither way assigns. -/
def unassigned (args : List Value) (named : Fields Value) : List String :=
  parameters.filter fun k => !(positional args).has k && !named.has k

/-- What the parameters are assigned, and the named arguments that are left. -/
structure Assignment where
  op : Value
  code : Value
  message : Value
  detail : Fields Value

/-- The value a parameter is assigned. -/
def assigned? (args : List Value) (named : Fields Value) (name : String) : Option Value :=
  match (positional args).get? name with
  | some v => some v
  | none => named.get? name

/--
Assigns arguments to parameters.  A name that is given twice is reported first, then surplus
positional arguments, then parameters that are left over.
-/
def bind (args : List Value) (named : Fields Value) : Except BindError Assignment :=
  match named.keys.find? (isTaken args) with
  | some name => .error (.clash name)
  | none =>
    if args.length > parameters.length then
      .error (.surplus args.length)
    else
      match assigned? args named "op", assigned? args named "code",
          assigned? args named "message" with
      | some op, some code, some message =>
        .ok ⟨op, code, message, named.filter fun e => !parameters.contains e.1⟩
      | _, _, _ => .error (.missing (unassigned args named))

end Call

namespace BindError

/-- Names between apostrophes, the last one after `and`. -/
def enumeration (names : List String) : String :=
  let quoted := names.map fun n => "'" ++ n ++ "'"
  match quoted.reverse with
  | [] => ""
  | [a] => a
  | [b, a] => a ++ " and " ++ b
  | last :: init => ", ".intercalate init.reverse ++ ", and " ++ last

/-- The sentence of an error. -/
def message : BindError → String
  | clash name => "ServiceResult.failure() got multiple values for argument '" ++ name ++ "'"
  | missing names =>
    "ServiceResult.failure() missing " ++ toString names.length ++ " required positional argument"
      ++ (if names.length = 1 then "" else "s") ++ ": " ++ enumeration names
  | surplus given =>
    "ServiceResult.failure() takes 4 positional arguments but " ++ toString (given + 1)
      ++ " were given"

end BindError

/-- Why there is no envelope: the arguments fit no parameters, or a value is refused. -/
inductive FailureError
  | unbound (e : BindError)
  | rejected (r : Rejection)

namespace Envelope

/-- The envelope of a failed operation from call arguments; the fault is checked before `op`. -/
def failure (args : List Value) (named : Fields Value) : Except FailureError Envelope :=
  match Call.bind args named with
  | .error e => .error (.unbound e)
  | .ok a =>
    match Fault.check [("code", a.code), ("message", a.message),
        ("detail", Value.ofFields a.detail)] with
    | .error r => .error (.rejected r)
    | .ok fault =>
      match check [("ok", .bool false), ("op", a.op), ("error", fault.toValue)] with
      | .error r => .error (.rejected r)
      | .ok e => .ok e

end Envelope

end Nullary
