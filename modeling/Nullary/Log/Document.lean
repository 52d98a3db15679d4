import Nullary.Json
import Nullary.Value.Display

/-!
# Log records as JSON lines

A record is an object on one line.  Values without a JSON form of their own stand there as the text
of their literal; a key without a text and an integer of too many digits leave no line.
-/

namespace Nullary.Value

/-- A key of an object on a log line. -/
def lineKey? : Value → Option String
  | null => some "null"
  | bool b => some (if b then "true" else "false")
  | int n => (numeral n).toOption
  | float x => some (Layout.jsonLine.render x)
  | text s => some s
  | _ => none

/-- A value by the text of its literal. -/
def literalJson? (v : Value) : Option Json :=
  v.literal.toOption.map Json.text

mutual

/-- A value on a log line. -/
def lineJson? : Value → Option Json
  | null => some .null
  | bool b => some (.bool b)
  | int n => if Digits.withinLimit n then some (.int n) else none
  | float x => some (.float x)
  | text s => some (.text s)
  | list xs => (lineJsons? xs).map .array
  | tuple xs => (lineJsons? xs).map .array
  | mapping .dict es => (lineMembers? es).map .object
  | mapping .ordered es => (lineMembers? es).map .object
  | v => literalJson? v

/-- The elements of a sequence as documents. -/
def lineJsons? : List Value → Option (List Json)
  | [] => some []
  | x :: xs => do some ((← lineJson? x) :: (← lineJsons? xs))

/-- The entries of a mapping as members of a document. -/
def lineMembers? : List (Value × Value) → Option (List (String × Json))
  | [] => some []
  | (k, v) :: es => do some ((← lineKey? k, ← lineJson? v) :: (← lineMembers? es))

end

/-- The object of a record. -/
def recordJson? : Fields Value → Option (List (String × Json))
  | [] => some []
  | (k, v) :: f => do some ((k, ← lineJson? v) :: (← recordJson? f))

/-- The line of a record. -/
def jsonLine? (f : Fields Value) : Option String :=
  (recordJson? f).map fun es => (Json.object es).render Json.line

end Nullary.Value
