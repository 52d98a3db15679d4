import Nullary.Envelope
import Nullary.Json

/-!
# Envelopes as JSON documents

`Value.toJson` turns a value into a document: sequences and sets become arrays, bytes the text they
encode, dates and paths their texts, the value object an empty object.  Keys that are no texts are
spelled out.  Values of classes it does not know, bytes that encode no text, keys without a spelling
and values that lie too deep are a `DocumentError`.

`Section.toJson`, `Fault.toJson` and `Envelope.toJson` are the documents of the records.  Only
values of any class count as levels, not the records and the fields around them.
-/

namespace Nullary

/-- Why a value has no document. -/
inductive DocumentError
  | unknownKind (name : String)
  | notText (f : Utf8.Failure)
  | unknownKeyKind (name : String)
  | keyNotText (f : Utf8.Failure)
  | keyKind (name : String)
  | digits (e : TooManyDigits)
  /-- There are more values around a value than there may be. -/
  | tooDeep

namespace DocumentError

/-- What is said about a class that is not known. -/
def unknown (name : String) : String :=
  "Unable to serialize unknown type: <class '" ++ name ++ "'>"

/-- The sentence of an error. -/
def message : DocumentError → String
  | unknownKind name => unknown name
  | notText f => "Error serializing to JSON: " ++ f.sequenceMessage
  | unknownKeyKind name =>
    "Error serializing to JSON: PydanticSerializationError: " ++ unknown name
  | keyNotText f =>
    "Error serializing to JSON: UnicodeDecodeError: 'utf-8' codec can't decode byte 0x"
      ++ String.ofList (Digits.hex 2 f.first.toNat) ++ " in position " ++ toString f.start
      ++ ": invalid utf-8"
  | keyKind name =>
    "Error serializing to JSON: TypeError: `" ++ name ++ "` not valid as object key"
  | digits e => "Error serializing to JSON: ValueError: " ++ e.message
  | tooDeep => "Error serializing to JSON: ValueError: Circular reference detected (depth exceeded)"

end DocumentError

namespace Value

/-- A complex number in a document: the imaginary part, after the real one unless that is zero. -/
def complexText (re im : Double) : String :=
  let tail := Layout.positionalOnly.render im ++ "j"
  if re.isZero then tail
  else
    let plus := im != .nan && (!im.isNegative || im.isZero)
    Layout.positionalOnly.render re ++ (if plus then "+" else "") ++ tail

/-- Bytes as the text they encode. -/
def decodedText (bs : List UInt8) : Except DocumentError String :=
  match Utf8.decode bs with
  | .ok cs => .ok (String.ofList cs)
  | .error f => .error (.notText f)

mutual

/-- A key as a text. -/
def keyText : Value → Except DocumentError String
  | null => .ok "None"
  | bool b => .ok (if b then "true" else "false")
  | int n => (numeral n).mapError .digits
  | float x => .ok (if x.isFinite then Layout.plain.render x else "None")
  | complex re im => .ok (complexText re im)
  | text s => .ok s
  | bytes bs =>
    match Utf8.decode bs with
    | .ok cs => .ok (String.ofList cs)
    | .error f => .error (.keyNotText f)
  | date d => .ok d.isoText
  | time t => .ok t.zuluText
  | dateTime t => .ok t.zuluText
  | path p => .ok p.toString
  | tuple xs => do .ok (",".intercalate (← keyTexts xs))
  | list _ => .error (.keyKind "list")
  | set _ => .error (.keyKind "set")
  | frozenSet _ => .error (.keyKind "frozenset")
  | mapping .dict _ => .error (.keyKind "dict")
  | mapping .ordered _ => .error (.keyKind "dict")
  | blank _ => .ok "Type()"
  | codecSection strict => .ok ("strict=" ++ truthLiteral strict)
  | v => .error (.unknownKeyKind v.qualifiedKind)

/-- The elements of a tuple as texts of keys. -/
def keyTexts : List Value → Except DocumentError (List String)
  | [] => .ok []
  | x :: xs => do .ok ((← keyText x) :: (← keyTexts xs))

end

/-- How many values may stand one in another. -/
def levelLimit : Nat := 255

/-- The members of a fault from the members of its detail. -/
def faultMembers (code message : String) (detail : List (String × Json)) : List (String × Json) :=
  [("code", .text code), ("message", .text message), ("detail", .object detail)]

mutual

/-- A value as a document of at most so many levels. -/
def toJson (levels : Nat) (v : Value) : Except DocumentError Json :=
  if levels = 0 then
    .error .tooDeep
  else
    match v with
    | null => .ok .null
    | bool b => .ok (.bool b)
    | int n => .ok (.int n)
    | float x => .ok (.float x)
    | complex re im => .ok (.text (complexText re im))
    | text s => .ok (.text s)
    | bytes bs => do .ok (.text (← decodedText bs))
    | date d => .ok (.text d.isoText)
    | time t => .ok (.text t.zuluText)
    | dateTime t => .ok (.text t.zuluText)
    | path p => .ok (.text p.toString)
    | list xs => do .ok (.array (← toJsons (levels - 1) xs))
    | tuple xs => do .ok (.array (← toJsons (levels - 1) xs))
    | set xs => do .ok (.array (← toJsons (levels - 1) xs))
    | frozenSet xs => do .ok (.array (← toJsons (levels - 1) xs))
    | mapping .dict es => do .ok (.object (← toMembers (levels - 1) es))
    | mapping .ordered es => do .ok (.object (← toMembers (levels - 1) es))
    | blank _ => .ok (.object [])
    | codecSection strict => .ok (.object [("strict", .bool strict)])
    | fault code message detail => do
      .ok (.object (faultMembers code message (← fieldMembers (levels - 1) detail)))
    | v => .error (.unknownKind v.qualifiedKind)

/-- The elements of a sequence as documents. -/
def toJsons (levels : Nat) : List Value → Except DocumentError (List Json)
  | [] => .ok []
  | x :: xs => do .ok ((← toJson levels x) :: (← toJsons levels xs))

/-- The entries of a mapping as members of an object. -/
def toMembers (levels : Nat) :
    List (Value × Value) → Except DocumentError (List (String × Json))
  | [] => .ok []
  | (k, v) :: es => do .ok ((← keyText k, ← toJson levels v) :: (← toMembers levels es))

/-- Named values as members of an object. -/
def fieldMembers (levels : Nat) :
    List (String × Value) → Except DocumentError (List (String × Json))
  | [] => .ok []
  | (k, v) :: es => do .ok ((k, ← toJson levels v) :: (← fieldMembers levels es))

end

/-- A field of any values as a document. -/
def recordJson (f : Fields Value) : Except DocumentError Json := do
  .ok (.object (← fieldMembers levelLimit f))

end Value

/-- A section as a document. -/
def Section.toJson (s : Section) : Json :=
  .object [("strict", .bool s.strict)]

/-- A fault as a document. -/
def Fault.toJson (f : Fault) : Except DocumentError Json := do
  let detail ← Value.fieldMembers Value.levelLimit f.detail
  .ok (.object (Value.faultMembers f.code f.message detail))

namespace Envelope

/-- The document of something that may be missing. -/
def optionalJson {α : Type} (f : α → Except DocumentError Json) :
    Option α → Except DocumentError Json
  | some a => f a
  | none => .ok .null

/-- An envelope as a document. -/
def toJson (e : Envelope) : Except DocumentError Json := do
  let data ← Value.recordJson e.data
  let fault ← optionalJson Fault.toJson e.fault
  let remarks ← optionalJson Value.recordJson e.remarks
  .ok (.object [("ok", .bool e.ok), ("op", .text e.op), ("data", data),
    ("warnings", .array (e.warnings.map .text)), ("error", fault), ("meta", remarks)])

end Envelope

namespace Json

mutual

/-- A document as a value. -/
def toValue : Json → Value
  | null => .null
  | bool b => .bool b
  | int n => .int n
  | float x => .float x
  | text s => .text s
  | array xs => .list (toValues xs)
  | object es => .mapping .dict (toEntries es)

/-- The elements of an array as values. -/
def toValues : List Json → List Value
  | [] => []
  | x :: xs => toValue x :: toValues xs

/-- The members of an object as entries of a mapping. -/
def toEntries : List (String × Json) → List (Value × Value)
  | [] => []
  | (k, v) :: es => (.text k, toValue v) :: toEntries es

end

end Json

end Nullary
