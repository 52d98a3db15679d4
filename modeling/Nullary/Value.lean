import Nullary.Calendar
import Nullary.Fields
import Nullary.FilePath
import Nullary.Number.Double

/-!
# Values

What the library is handed and hands out: payloads of the codec, settings given by a caller, data
and details of results, variables of the log context.  Mappings keep the order in which their
entries were put in, and their keys may be any values.

`blank` is the value object of this library, which has no fields, or one of a class that is derived
from its class and declares none; `codecSection` is the codec section of the settings, `fault` the
error of a result, and `builder`, `blankClass`, `plain` and `ellipsis` are objects without content
that callers may pass around.
-/

namespace Nullary

/-- The classes of mappings: all are read alike, but they print, merge and compare differently. -/
inductive MappingKind
  | dict
  | ordered
  | proxy
  | custom
  deriving DecidableEq

/-- A value of any class. -/
inductive Value
  | null
  | bool (b : Bool)
  | int (n : Int)
  | float (x : Double)
  | complex (re im : Double)
  | text (s : String)
  | bytes (bs : List UInt8)
  | date (d : Date)
  | time (t : Time)
  | dateTime (t : DateTime)
  | path (p : FilePath)
  | list (xs : List Value)
  | tuple (xs : List Value)
  | set (xs : List Value)
  | frozenSet (xs : List Value)
  | mapping (kind : MappingKind) (entries : List (Value × Value))
  | blank (derived : Bool)
  | builder
  | blankClass
  | plain
  | ellipsis
  | codecSection (strict : Bool)
  | fault (code message : String) (detail : List (String × Value))

instance : Inhabited Value := ⟨.null⟩

namespace Value

/-- The name of a value's class. -/
def kindName : Value → String
  | null => "NoneType"
  | bool _ => "bool"
  | int _ => "int"
  | float _ => "float"
  | complex .. => "complex"
  | text _ => "str"
  | bytes _ => "bytes"
  | date _ => "date"
  | time _ => "time"
  | dateTime _ => "datetime"
  | path _ => "PosixPath"
  | list _ => "list"
  | tuple _ => "tuple"
  | set _ => "set"
  | frozenSet _ => "frozenset"
  | mapping .dict _ => "dict"
  | mapping .ordered _ => "OrderedDict"
  | mapping .proxy _ => "mappingproxy"
  | mapping .custom _ => "CustomMapping"
  | blank false => "Type"
  | blank true => "Derived"
  | builder => "Builder"
  | blankClass => "ModelMetaclass"
  | plain => "Plain"
  | ellipsis => "ellipsis"
  | codecSection _ => "CodecConfig"
  | fault .. => "ServiceError"

/-- The class of a value as complaints name it: some classes carry the name of their module. -/
def className : Value → String
  | date _ => "datetime.date"
  | time _ => "datetime.time"
  | dateTime _ => "datetime.datetime"
  | mapping .ordered _ => "collections.OrderedDict"
  | v => v.kindName

/-- The class of a value with the module it is defined in, as an unknown class is reported. -/
def qualifiedKind : Value → String
  | mapping .custom _ => "__main__.CustomMapping"
  | plain => "__main__.Plain"
  | builder => "valobj.domain.types.Type.Builder"
  | blankClass => "pydantic._internal._model_construction.ModelMetaclass"
  | v => v.kindName

/-- The entries of a mapping, whatever its class. -/
def entries? : Value → Option (List (Value × Value))
  | mapping _ es => some es
  | _ => none

/-- The mapping of a record. -/
def ofFields (f : Fields Value) : Value :=
  mapping .dict (f.map fun e => (text e.1, e.2))

/-- The fields of a record, in order; the value object has none. -/
def recordFields? : Value → Option (Fields Value)
  | blank _ => some []
  | codecSection strict => some [("strict", bool strict)]
  | fault code message detail =>
    some [("code", text code), ("message", text message), ("detail", ofFields detail)]
  | _ => none

/--
The elements of a sequence or a set, or the fields of a record, each as a pair of its name and its
value.  Texts, bytes and mappings have none, though they can be gone through.
-/
def elements? : Value → Option (List Value)
  | list xs => some xs
  | tuple xs => some xs
  | set xs => some xs
  | frozenSet xs => some xs
  | v => v.recordFields?.map fun f => f.map fun e => tuple [text e.1, e.2]

/-- Whether the value is the value object, of its own class or of a derived one. -/
def isBlank : Value → Bool
  | blank _ => true
  | _ => false

/-- The entries of a mapping whose keys are texts. -/
def textEntries (es : List (Value × Value)) : Fields Value :=
  es.filterMap fun e =>
    match e.1 with
    | text k => some (k, e.2)
    | _ => none

/-- Whether a value counts as present: neither null, nor a zero, nor empty. -/
def truthy : Value → Bool
  | null => false
  | bool b => b
  | int n => n != 0
  | float x => !x.isZero
  | complex re im => !(re.isZero && im.isZero)
  | text s => s != ""
  | bytes bs => !bs.isEmpty
  | list xs => !xs.isEmpty
  | tuple xs => !xs.isEmpty
  | set xs => !xs.isEmpty
  | frozenSet xs => !xs.isEmpty
  | mapping _ es => !es.isEmpty
  | _ => true

end Value

end Nullary
