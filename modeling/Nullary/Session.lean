import Nullary.Codec
import Nullary.Log
import Nullary.Settings.Load

/-!
# Sessions

A session is a program at work: what it finds around it, the settings of its service, the value that
the service answered last, the log and its context.  `Session.step` does one thing and says what
comes of it: the session after it, a reply, and what was written to the log.

Service calls bind the operation and the mode of decoding in the context while they run.
-/

namespace Nullary

/-- A program at work. -/
structure Session where
  world : World
  /-- Whether the log goes to a terminal. -/
  terminal : Bool
  /-- The settings of the current service. -/
  settings : Option Settings
  last : Value
  logging : Logging
  context : Context

/-- What the clock says during a step: the time of records, and how long a service call takes. -/
structure Clock where
  timestamp : String
  micros : Nat

/-- The argument of a service call. -/
inductive Argument
  | value (v : Value)
  | last

/-- A call of the service. -/
inductive Request
  | build
  | encode (a : Argument)
  | decode (a : Argument)

/-- One thing that a program does in a session. -/
inductive Action
  | setVariables (set : List (String × String)) (unset : List String)
  | write (p : FilePath) (bytes : List UInt8)
  | remove (p : FilePath)
  | load (given : Fields Value)
  | serviceLoad (given : Fields Value)
  | configure
  | plainSettings (given : Fields Value)
  | setSetting (name : String) (v : Value)
  | strict
  | request (r : Request)
  | log (logger : String) (level : LevelChoice) (event : Value) (args : List Value)
  | namedLog (logger : String) (call : NamedCall)
  | bind (vs : Fields Value)
  | unbind (names : List String)
  | clear
  | context
  | state

/-- What an action that succeeds answers. -/
inductive Reply
  | done
  | settings (s : Settings)
  | strict (b : Bool)
  | envelope (e : Envelope)
  | context (c : Context)
  | state (l : Logging)

/-- Why an action does not succeed. -/
inductive ActionError
  | load (e : LoadError)
  | rejected (r : Rejection)
  | call (e : CallError)
  | digits (e : TooManyDigits)
  | variable (e : World.VariableError)

/-- What comes of a step. -/
structure Turn where
  session : Session
  reply : Except ActionError Reply
  written : List String

namespace Session

/-- A session before its first step. -/
def start (w : World) (terminal : Bool) : Session :=
  ⟨w, terminal, none, .null, .initial, []⟩

/-- A step that writes nothing to the log. -/
def quiet (s : Session) (reply : Except ActionError Reply) : Turn :=
  ⟨s, reply, []⟩

/-- A step that only changes the session. -/
def changed (s : Session) : Turn :=
  quiet s (.ok .done)

/-- The value of an argument. -/
def argument (s : Session) : Argument → Value
  | .value v => v
  | .last => s.last

/-- The operation of a call. -/
def operation (s : Session) : Request → Codec.Operation
  | .build => .build
  | .encode a => .encode (s.argument a)
  | .decode a => .decode (s.argument a)

/-- The variables that a service call binds while it runs. -/
def callVariables (strict : Bool) (op : Codec.Operation) : Fields Value :=
  [("op", .text op.name), ("strict", .bool strict)]

/-- The records of the notes that a service call leaves. -/
def noteRecords (clock : Clock) (inner : Context) (notes : List String) : List Logging.Record :=
  notes.map (Logging.messageRecord inner clock.timestamp Logging.serviceName Level.debug)

/-- The value in the data of an envelope. -/
def valueOf (e : Envelope) : Value :=
  (e.data.get? "value").getD .null

/-- A service call with settings. -/
def call (clock : Clock) (s : Session) (settings : Settings) (r : Request) : Turn :=
  let op := s.operation r
  let own := callVariables settings.codec.strict op
  let inner := s.context.bind own
  let o := Codec.run settings.codec.strict clock.micros op
  let written := (noteRecords clock inner o.notes).flatMap s.logging.emit
  let after := { s with context := Context.restore own s.context inner }
  match o.result with
  | .ok e => ⟨{ after with last := valueOf e }, .ok (.envelope e), written⟩
  | .error e => ⟨after, .error (.digits e), written⟩

/-- A record with a message; one that its arguments do not fit is not written. -/
def log (clock : Clock) (s : Session) (logger : String) (choice : LevelChoice) (event : Value)
    (args : List Value) : Turn :=
  let after := { s with logging := s.logging.meet logger }
  match choice.level? with
  | .error name => quiet after (.error (.call (.misuse (.noMember (LoggerName.kind logger) name))))
  | .ok level =>
    let written :=
      match Event.message? event args with
      | some m =>
        after.logging.emit (Logging.messageRecord s.context clock.timestamp logger level m)
      | none => []
    ⟨after, .ok .done, written⟩

/-- A record of named values. -/
def namedLog (clock : Clock) (s : Session) (logger : String) (c : NamedCall) : Turn :=
  match c.makingError? with
  | some e => quiet s (.error (.call e))
  | none =>
    let after := { s with logging := s.logging.meet logger }
    match after.logging.emitNamed s.context clock.timestamp logger c with
    | .ok written => ⟨after, .ok .done, written⟩
    | .error e => quiet after (.error (.call e))

/-- Loads settings for a new service. -/
def load (s : Session) (given : Fields Value) : Turn :=
  match Settings.loadBy Settings.loaderName s.world given with
  | .ok settings => quiet { s with settings := some settings } (.ok (.settings settings))
  | .error e => quiet s (.error (.load e))

/-- Sets up the log by settings. -/
def configureBy (s : Session) (settings : Settings) : Session :=
  { s with logging := s.logging.configure s.terminal settings }

/-- Loads settings for a new service and sets up the log by them. -/
def serviceLoad (s : Session) (given : Fields Value) : Turn :=
  match Settings.loadBy Codec.loaderName s.world given with
  | .ok settings =>
    quiet (configureBy { s with settings := some settings } settings) (.ok (.settings settings))
  | .error e => quiet s (.error (.load e))

/-- The name of a call. -/
def member : Request → String
  | .build => "build"
  | .encode _ => "encode"
  | .decode _ => "decode"

/-- There is no service yet that a member could be asked of. -/
def noService (name : String) : ActionError :=
  .call (.misuse (Value.null.lacking name))

/-- Does one thing. -/
def step (clock : Clock) (s : Session) : Action → Turn
  | .setVariables set unset =>
    match s.world.setVariables set unset with
    | (w, none) => changed { s with world := w }
    | (w, some e) => quiet { s with world := w } (.error (.variable e))
  | .write p bytes => changed { s with world := s.world.write p bytes }
  | .remove p => changed { s with world := s.world.remove p }
  | .load c => s.load c
  | .serviceLoad c => s.serviceLoad c
  | .configure =>
    match s.settings with
    | some settings => changed (s.configureBy settings)
    | none => quiet s (.error (noService "log_json"))
  | .plainSettings given =>
    match Settings.build s.world none given with
    | .ok settings => quiet s (.ok (.settings settings))
    | .error e => quiet s (.error (.load e))
  | .setSetting name v =>
    match s.settings with
    | some _ => quiet s (.error (.rejected (.frozen Settings.name name v)))
    | none => quiet s (.error (noService name))
  | .strict =>
    match s.settings with
    | some settings => quiet s (.ok (.strict settings.codec.strict))
    | none => quiet s (.error (noService "strict"))
  | .request r =>
    match s.settings with
    | some settings => s.call clock settings r
    | none => quiet s (.error (noService (member r)))
  | .log logger level event args => s.log clock logger level event args
  | .namedLog logger c => s.namedLog clock logger c
  | .bind vs => changed { s with context := s.context.bind vs }
  | .unbind names => changed { s with context := s.context.unbind names }
  | .clear => changed { s with context := [] }
  | .context => quiet s (.ok (.context s.context))
  | .state => quiet s (.ok (.state s.logging))

/-- Does one thing after another; the replies and what was written come in their order. -/
def run (clock : Clock) (s : Session) : List Action → List Turn
  | [] => []
  | action :: rest =>
    let t := s.step clock action
    t :: run clock t.session rest

end Session

end Nullary
