import Nullary.Check

/-!
# Result envelopes

Every operation answers with an `Envelope`: whether it succeeded, which operation it was, its data,
warnings, the `Fault` that explains a failure, and remarks on the call.  `Envelope.check`,
`Fault.check` and `Section.check` build the records from named values of any kind;
`Envelope.failure` builds the envelope of a failed operation from call arguments.
-/

namespace Nullary

/-- Why an operation failed: a code for programs, a message for people, and details. -/
structure Fault where
  code : String
  message : String
  detail : Fields Value

/-- The answer of an operation. -/
structure Envelope where
  ok : Bool
  op : String
  data : Fields Value
  warnings : List String
  fault : Option Fault
  remarks : Option (Fields Value)

/-- The codec section of the settings. -/
structure Section where
  strict : Bool
  deriving DecidableEq

open Check

namespace Section

/-- The name of the model. -/
def name : String := "CodecConfig"

/-- The fields of a section as named values. -/
def toFields (s : Section) : Fields Value :=
  [("strict", .bool s.strict)]

/-- Builds a section found at `p`; names it does not know are passed over. -/
def checkFields (p : List Place) (given : Fields Value) : Checked Section :=
  (optional p given "strict" false fun p v => atPlace p truth v).map Section.mk

/-- Builds a section from named values. -/
def check (given : Fields Value) : Except Rejection Section :=
  (checkFields [] given).mapError fun issues => ⟨name, issues⟩

/-- A value as a section: a section, or a mapping to build one from. -/
def ofValue (p : List Place) (v : Value) : Checked Section :=
  match v with
  | .codecSection strict => .ok ⟨strict⟩
  | .mapping _ es => checkFields p (Value.textEntries es)
  | v => .error [⟨.recordType name, p, v⟩]

end Section

namespace Fault

/-- The name of the model. -/
def name : String := "ServiceError"

/-- The fields of a fault as named values. -/
def toFields (f : Fault) : Fields Value :=
  [("code", .text f.code), ("message", .text f.message), ("detail", Value.ofFields f.detail)]

/-- A fault among values. -/
def toValue (f : Fault) : Value :=
  .fault f.code f.message f.detail

/-- Builds a fault found at `p` from named values; `whole` is what they are the entries of. -/
def checkFields (p : List Place) (whole : Value) (given : Fields Value) : Checked Fault :=
  let code := required p whole given "code" fun p v => atPlace p text v
  let message := required p whole given "message" fun p v => atPlace p text v
  let detail := optional p given "detail" [] fields
  (both (both code message) detail).map fun r => ⟨r.1.1, r.1.2, r.2⟩

/-- Builds a fault from named values. -/
def check (given : Fields Value) : Except Rejection Fault :=
  (checkFields [] (Value.ofFields given) given).mapError fun issues => ⟨name, issues⟩

/-- A value as a fault, or none for null. -/
def ofValue? (p : List Place) (v : Value) : Checked (Option Fault) :=
  match v with
  | .null => .ok none
  | .fault code message detail => .ok (some ⟨code, message, detail⟩)
  | .mapping kind es =>
    (checkFields p (.mapping kind es) (Value.textEntries es)).map some
  | v => .error [⟨.recordType name, p, v⟩]

end Fault

namespace Envelope

/-- The name of the model. -/
def name : String := "ServiceResult"

/-- Something that may be missing as a value, null for nothing. -/
def optionalValue {α : Type} (f : α → Value) : Option α → Value
  | some a => f a
  | none => .null

/-- The fields of an envelope as named values. -/
def toFields (e : Envelope) : Fields Value :=
  [("ok", .bool e.ok), ("op", .text e.op), ("data", Value.ofFields e.data),
    ("warnings", .list (e.warnings.map .text)), ("error", optionalValue Fault.toValue e.fault),
    ("meta", optionalValue Value.ofFields e.remarks)]

/-- A value as a record, or none for null. -/
def fields? (p : List Place) (v : Value) : Checked (Option (Fields Value)) :=
  match v with
  | .null => .ok none
  | v => (fields p v).map some

/-- Builds an envelope from named values. -/
def check (given : Fields Value) : Except Rejection Envelope :=
  let whole := Value.ofFields given
  let ok := required [] whole given "ok" fun p v => atPlace p truth v
  let op := required [] whole given "op" fun p v => atPlace p text v
  let data := optional [] given "data" [] fields
  let warnings := optional [] given "warnings" [] texts
  let fault := optional [] given "error" none Fault.ofValue?
  let remarks := optional [] given "meta" none fields?
  let all := both (both (both ok op) (both data warnings)) (both fault remarks)
  match all with
  | .ok (((ok, op), (data, warnings)), (fault, remarks)) =>
    .ok ⟨ok, op, data, warnings, fault, remarks⟩
  | .error issues => .error ⟨name, issues⟩

/-- The envelope of a failed operation. -/
def failed (op code message : String) (detail : Fields Value) : Envelope :=
  ⟨false, op, [], [], some ⟨code, message, detail⟩, none⟩

end Envelope

/-- Equality of two records of one class: all their fields are equal values. -/
def Fields.same (f g : Fields Value) : Bool :=
  Value.same (Value.ofFields f) (Value.ofFields g)

end Nullary
