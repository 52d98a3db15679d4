import Nullary.Value.Display
import Nullary.Value.Equality

/-!
# The value object without fields

Every value object is equal to every other, prints as `Type()`, has the hash 1 and the empty mapping
as its encoding.  `Blank.decode` builds one from a mapping; strict decoding refuses a mapping that
has any entry and names its keys.
-/

namespace Nullary.Blank

/-- The name of the class of value objects. -/
def name : String := "Type"

/-- The text of every value object. -/
def text : String := Value.call name []

/-- The hash of every value object. -/
def hash : Int := 1

/-- The encoding of every value object; it has no fields to be encoded. -/
def encode : Value :=
  .mapping .dict []

/-- Why a decoder builds no value object. -/
inductive DecodeError
  | notMapping (kind : String)
  | unknownFields (names : List String)
  | digits (e : TooManyDigits)

/-- The texts of the keys of a mapping in ascending order, one for every key. -/
def fieldNames (es : List (Value × Value)) : Except TooManyDigits (List String) :=
  (Value.displays (es.map Prod.fst)).map fun ss => ss.mergeSort fun a b => decide (a ≤ b)

/-- Builds a value object; a strict decoder refuses entries, a lenient one passes over them. -/
def decode (strict : Bool) (data : Value) : Except DecodeError Value :=
  match data.entries? with
  | none => .error (.notMapping data.kindName)
  | some es =>
    if strict && !es.isEmpty then
      match fieldNames es with
      | .ok names => .error (.unknownFields names)
      | .error e => .error (.digits e)
    else
      .ok (.blank false)

namespace DecodeError

/-- The sentence of an error. -/
def message : DecodeError → String
  | notMapping kind => name ++ " expects a mapping, got " ++ kind
  | unknownFields names => "Unknown field(s) for " ++ name ++ ": " ++ Value.listLiteral names
  | digits e => e.message

end DecodeError

/-- There is no format but the plain one. -/
structure FormatError where
  kind : String
  deriving DecidableEq

/-- The sentence of the error. -/
def FormatError.message (e : FormatError) : String :=
  "unsupported format string passed to " ++ e.kind ++ ".__format__"

/-- The text of a value object in a format, of which only the empty one is known. -/
def format (derived : Bool) (spec : String) : Except FormatError String :=
  if spec = "" then .ok text else .error ⟨(Value.blank derived).kindName⟩

end Nullary.Blank
