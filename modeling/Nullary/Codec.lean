import Nullary.Blank.Extended

/-!
# The codec service

The service builds, encodes and decodes value objects and answers with an envelope, also for input
that it refuses.  Each operation leaves notes for the log.  `Codec.timed` adds what every operation
has in common: the elapsed time in the remarks and a closing note.

An operation has no envelope only where an integer key has too many digits to be named, or where a
value object with fields (`Codec.encodeExtended`) has one that cannot be encoded.
-/

namespace Nullary.Codec

/-- The function that loads the settings of a service. -/
def loaderName : String := "CodecService.load"

/-- The result of an operation, and its notes in order. -/
structure Outcome where
  notes : List String
  result : Except TooManyDigits Envelope

/-- What the service does: it builds a value object, encodes a value or decodes one. -/
inductive Operation
  | build
  | encode (v : Value)
  | decode (v : Value)

/-- The name of an operation in envelopes and notes. -/
def Operation.name : Operation → String
  | .build => "build"
  | .encode _ => "encode"
  | .decode _ => "decode"

/-- The envelope of an operation that yields a value. -/
def succeeded (op : String) (v : Value) (warnings : List String) : Envelope :=
  ⟨true, op, [("value", v)], warnings, none, none⟩

/-- A new value object; there is nothing that could go wrong. -/
def build : Outcome :=
  ⟨["Built Type()"], .ok (succeeded "build" (.blank false) [])⟩

/-- The answer to a value that has the given encoding. -/
def encoded (encoding : Value) : Outcome :=
  ⟨[], .ok (succeeded "encode" encoding [])⟩

/-- The encoding of a value object; every other value is refused by its class. -/
def encode (v : Value) : Outcome :=
  if v.isBlank then
    encoded Blank.encode
  else
    let kind := v.kindName
    ⟨["Refusing to encode " ++ kind],
      .ok (Envelope.failed "encode" "INVALID_VALUE" ("Cannot encode " ++ kind ++ " as Type")
        [("type", .text kind)])⟩

/-- The names of the entries of a mapping; other values have none. -/
def fieldNames (v : Value) : Except TooManyDigits (List String) :=
  Blank.fieldNames (v.entries?.getD [])

/-- The warning of a lenient decoder about the entries it passed over. -/
def warnings (ignored : List String) : List String :=
  if ignored.isEmpty then [] else ["Ignored unknown field(s): " ++ Value.listLiteral ignored]

/-- The value object of a mapping.  A lenient decoder warns of the entries it passes over. -/
def decode (strict : Bool) (v : Value) : Outcome :=
  match Blank.decode strict v with
  | .ok blank =>
    ⟨[], (fieldNames v).map fun ignored => succeeded "decode" blank (warnings ignored)⟩
  | .error (.notMapping kind) =>
    let message := (Blank.DecodeError.notMapping kind).message
    ⟨["Decode rejected payload: " ++ message],
      .ok (Envelope.failed "decode" "INVALID_PAYLOAD" message [("type", .text kind)])⟩
  | .error e =>
    ⟨["Decode rejected unknown fields: " ++ e.message],
      (fieldNames v).map fun names =>
        Envelope.failed "decode" "UNKNOWN_FIELDS" e.message
          [("fields", .list (names.map .text))]⟩

/-- An operation by itself, before it is timed. -/
def perform (strict : Bool) : Operation → Outcome
  | .build => build
  | .encode v => encode v
  | .decode v => decode strict v

/-- A number of milliseconds with three places. -/
def milliseconds (micros : Nat) : String :=
  toString (micros / 1000) ++ "." ++ String.ofList (Digits.padded 3 (micros % 1000))

/-- A number of microseconds as milliseconds. -/
def elapsed (micros : Nat) : Double :=
  Double.ofRatio false micros 1000

/-- Adds the closing note and the remark on the elapsed time to an operation that answered. -/
def timed (micros : Nat) (op : String) (o : Outcome) : Outcome :=
  match o.result with
  | .error _ => o
  | .ok e =>
    let note := op ++ " finished ok=" ++ Value.truthLiteral e.ok ++ " in "
      ++ milliseconds micros ++ "ms"
    let remarks := (e.remarks.getD []).insert "duration_ms" (.float (elapsed micros))
    ⟨o.notes ++ [note], .ok { e with remarks := some remarks }⟩

/-- A call of the service that took the given number of microseconds. -/
def run (strict : Bool) (micros : Nat) (op : Operation) : Outcome :=
  timed micros op.name (perform strict op)

end Nullary.Codec
