import Nullary.Fields
import Nullary.Number.Layout

/-!
# JSON documents

`Json` is a document; the numbers keep whether they are whole.  `Json.render` writes one in a
`Style`: compact documents keep every character that JSON lets stand for itself, log lines are ASCII
with a blank after commas and colons.
-/

namespace Nullary

/-- A document; the members of an object keep their order. -/
inductive Json
  | null
  | bool (b : Bool)
  | int (n : Int)
  | float (x : Double)
  | text (s : String)
  | array (xs : List Json)
  | object (es : List (String × Json))

namespace Json

instance : Inhabited Json := ⟨.null⟩

/-- The decisions that printers of JSON differ in. -/
structure Style where
  /-- Characters that are not printable ASCII are escaped. -/
  ascii : Bool
  comma : String
  colon : String
  numbers : Layout

/-- Documents without blanks. -/
def compact : Style := ⟨false, ",", ":", Layout.compactJson⟩

/-- Lines of a log. -/
def line : Style := ⟨true, ", ", ": ", Layout.jsonLine⟩

/-- An escape by code unit. -/
def unitEscape (n : Nat) : List Char :=
  '\\' :: 'u' :: Digits.hex 4 n

/-- A character by its UTF-16 code units. -/
def codeEscape (c : Char) : List Char :=
  let n := c.toNat
  if n < 0x10000 then
    unitEscape n
  else
    unitEscape (0xd800 + (n - 0x10000) / 0x400) ++ unitEscape (0xdc00 + (n - 0x10000) % 0x400)

/-- How a character stands in a text. -/
def escape (ascii : Bool) (c : Char) : List Char :=
  if c = '\x22' ∨ c = '\\' then ['\\', c]
  else if c = '\n' then ['\\', 'n']
  else if c = '\r' then ['\\', 'r']
  else if c = '\t' then ['\\', 't']
  else if c = '\x08' then ['\\', 'b']
  else if c = '\x0c' then ['\\', 'f']
  else if c.toNat < 0x20 then unitEscape c.toNat
  else if ascii && 0x7f ≤ c.toNat then codeEscape c
  else [c]

/-- A text between its marks. -/
def textChars (ascii : Bool) (s : String) : List Char :=
  '\x22' :: (s.toList.flatMap (escape ascii) ++ ['\x22'])

mutual

/-- The text of a document. -/
def chars (st : Style) : Json → List Char
  | null => "null".toList
  | bool true => "true".toList
  | bool false => "false".toList
  | int n => Digits.signed n
  | float x => (st.numbers.render x).toList
  | text s => textChars st.ascii s
  | array xs => '[' :: (itemChars st xs ++ [']'])
  | object es => '\x7b' :: (memberChars st es ++ ['\x7d'])

/-- The elements of an array, with commas between them. -/
def itemChars (st : Style) : List Json → List Char
  | [] => []
  | [x] => chars st x
  | x :: xs => chars st x ++ st.comma.toList ++ itemChars st xs

/-- The members of an object, with commas between them. -/
def memberChars (st : Style) : List (String × Json) → List Char
  | [] => []
  | [(k, v)] => textChars st.ascii k ++ st.colon.toList ++ chars st v
  | (k, v) :: es =>
    textChars st.ascii k ++ st.colon.toList ++ chars st v ++ st.comma.toList ++ memberChars st es

end

/-- The text of a document in a style. -/
def render (st : Style) (j : Json) : String :=
  String.ofList (chars st j)

end Json

end Nullary
