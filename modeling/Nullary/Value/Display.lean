import Nullary.Number.Layout
import Nullary.Text.Quoted
import Nullary.Value

/-!
# How values show themselves

`Value.literal` is the form in which a value stands inside another one, with texts quoted;
`Value.display` is the form for a reader, with a text as itself.  Both fail only on an integer of
too many digits.  `listLiteral` is the literal of a list of texts.
-/

namespace Nullary

/-- An integer has more decimal digits than a numeral may have. -/
inductive TooManyDigits
  | writing
  | reading (digits : Nat)
  deriving DecidableEq

namespace TooManyDigits

/-- The sentence of the error. -/
def message : TooManyDigits → String
  | writing =>
    "Exceeds the limit (4300 digits) for integer string conversion; "
      ++ "use sys.set_int_max_str_digits() to increase the limit"
  | reading digits =>
    "Exceeds the limit (4300 digits) for integer string conversion: value has "
      ++ toString digits ++ " digits; use sys.set_int_max_str_digits() to increase the limit"

end TooManyDigits

namespace Value

/-- The numeral of an integer within the limit. -/
def numeral (n : Int) : Except TooManyDigits String :=
  let ds := Digits.decimal n.natAbs
  if ds.length ≤ Digits.limit then
    .ok (String.ofList (if n < 0 then '-' :: ds else ds))
  else
    .error .writing

/-- A complex number in parentheses; a real part of plain zero is left out, parentheses and all. -/
def complexLiteral (re im : Double) : String :=
  let imText := Layout.complexPart.render im
  if re = Double.zero false then
    imText ++ "j"
  else
    let sign := if im.isNegative then "" else "+"
    "(" ++ Layout.complexPart.render re ++ sign ++ imText ++ "j)"

/-- A call: a name and its arguments in parentheses. -/
def call (name : String) (args : List String) : String :=
  name ++ "(" ++ ", ".intercalate args ++ ")"

/-- A span of time in days, seconds and microseconds; of these only the days may be negative. -/
def spanLiteral (micros : Int) : String :=
  let seconds := micros.fdiv 1000000
  let parts : List (String × Int) := [("days", seconds.fdiv 86400), ("seconds", seconds.fmod 86400),
    ("microseconds", micros.fmod 1000000)]
  call "datetime.timedelta" ((parts.filter fun p => p.2 != 0).map fun p =>
    p.1 ++ "=" ++ toString p.2)

/-- An offset as the zone of a time. -/
def offsetLiteral (o : Offset) : String :=
  if o = Offset.utc then "datetime.timezone.utc"
  else call "datetime.timezone" [spanLiteral o.micros]

/-- The parts of a time of day; seconds and microseconds only as far as they are not zero. -/
def clockParts (t : Time) : List String :=
  let small :=
    if t.micro ≠ 0 then [t.second, t.micro] else if t.second ≠ 0 then [t.second] else []
  (([t.hour, t.minute] ++ small).map fun n => toString n)
    ++ (t.offset.map fun o => "tzinfo=" ++ offsetLiteral o).toList

/-- The parts of a date. -/
def dateParts (d : Date) : List String :=
  [toString d.year, toString d.month, toString d.day]

/-- The literal of a list of texts. -/
def listLiteral (xs : List String) : String :=
  "[" ++ ", ".intercalate (xs.map Quoted.quote) ++ "]"

/-- The literal of a tuple of texts; one element alone is followed by a comma. -/
def tupleLiteral (xs : List String) : String :=
  match xs with
  | [x] => "(" ++ x ++ ",)"
  | _ => "(" ++ ", ".intercalate xs ++ ")"

/-- Entries between braces. -/
def braced (xs : List String) : String :=
  "\x7b" ++ ", ".intercalate xs ++ "\x7d"

/-- The literal of a truth value. -/
def truthLiteral (b : Bool) : String :=
  if b then "True" else "False"

mutual

/-- The form in which a value stands inside another one. -/
def literal : Value → Except TooManyDigits String
  | null => .ok "None"
  | bool b => .ok (truthLiteral b)
  | int n => numeral n
  | float x => .ok (Layout.plain.render x)
  | complex re im => .ok (complexLiteral re im)
  | text s => .ok (Quoted.quote s)
  | bytes bs => .ok (Quoted.quoteBytes bs)
  | date d => .ok (call "datetime.date" (dateParts d))
  | time t => .ok (call "datetime.time" (clockParts t))
  | dateTime t => .ok (call "datetime.datetime" (dateParts t.date ++ clockParts t.time))
  | path p => .ok (call "PosixPath" [Quoted.quote p.toString])
  | list xs => do .ok ("[" ++ ", ".intercalate (← literals xs) ++ "]")
  | tuple xs => do .ok (tupleLiteral (← literals xs))
  | set [] => .ok "set()"
  | set xs => do .ok (braced (← literals xs))
  | frozenSet [] => .ok "frozenset()"
  | frozenSet xs => do .ok (call "frozenset" [braced (← literals xs)])
  | mapping .dict es => do .ok (braced (← entryLiterals es))
  | mapping .ordered [] => .ok "OrderedDict()"
  | mapping .ordered es => do
    .ok (call "OrderedDict" ["[" ++ ", ".intercalate (← pairLiterals es) ++ "]"])
  | mapping .proxy es => do .ok (call "mappingproxy" [braced (← entryLiterals es)])
  | mapping .custom _ => .ok "<__main__.CustomMapping object>"
  | blank _ => .ok "Type()"
  | builder => .ok "<valobj.domain.types.Type.Builder object>"
  | blankClass => .ok "<class 'valobj.domain.types.Type'>"
  | plain => .ok "<__main__.Plain object>"
  | ellipsis => .ok "Ellipsis"
  | codecSection strict => .ok (call "CodecConfig" ["strict=" ++ truthLiteral strict])
  | fault code message detail => do
    .ok (call "ServiceError" ["code=" ++ Quoted.quote code, "message=" ++ Quoted.quote message,
      "detail=" ++ braced (← fieldLiterals detail)])

/-- The literals of values, one by one. -/
def literals : List Value → Except TooManyDigits (List String)
  | [] => .ok []
  | x :: xs => do .ok ((← literal x) :: (← literals xs))

/-- Keys and values with colons between them. -/
def entryLiterals : List (Value × Value) → Except TooManyDigits (List String)
  | [] => .ok []
  | (k, v) :: es => do .ok (((← literal k) ++ ": " ++ (← literal v)) :: (← entryLiterals es))

/-- Keys and values as pairs. -/
def pairLiterals : List (Value × Value) → Except TooManyDigits (List String)
  | [] => .ok []
  | (k, v) :: es => do .ok (tupleLiteral [← literal k, ← literal v] :: (← pairLiterals es))

/-- Names and values with colons between them. -/
def fieldLiterals : List (String × Value) → Except TooManyDigits (List String)
  | [] => .ok []
  | (k, v) :: es => do
    .ok ((Quoted.quote k ++ ": " ++ (← literal v)) :: (← fieldLiterals es))

end

/-- The form of a value for a reader. -/
def display : Value → Except TooManyDigits String
  | text s => .ok s
  | date d => .ok d.isoText
  | time t => .ok t.isoText
  | dateTime t => .ok (t.text " ")
  | path p => .ok p.toString
  | mapping .proxy es => do .ok (braced (← entryLiterals es))
  | codecSection strict => .ok ("strict=" ++ truthLiteral strict)
  | fault code message detail => do
    .ok ("code=" ++ Quoted.quote code ++ " message=" ++ Quoted.quote message ++ " detail="
      ++ braced (← fieldLiterals detail))
  | v => literal v

/-- The forms of a list of values for a reader; fails when one of them does. -/
def displays : List Value → Except TooManyDigits (List String)
  | [] => .ok []
  | x :: xs => do .ok ((← display x) :: (← displays xs))

end Value

end Nullary
