import Nullary.Toml
import Nullary.Value.Display

/-!
# What stops a TOML reader

A reader stops at a `Cause`, and remembers how much of the text it has not read.  `Spot.ofLeft`
turns that into line and column.  An integer of too many digits and values that nest too deep stop
the reader without a place.
-/

namespace Nullary.Toml

/-- What a reader stops at. -/
inductive Cause
  | statement
  | lineEnd
  | equals
  | keyStart
  | value
  | tableEnd
  | arrayTableEnd
  | declaredTwice (key : Key)
  | redefined (key : Key)
  | immutable (key : Key)
  | overwritten
  | duplicate (name : String)
  | unclosedArray
  | unclosedTable
  | unterminated
  | illegal (c : Char)
  | invalid (c : Char)
  | expected (mark : String)
  | backslash
  | hexValue
  | notScalar
  | moment
  deriving DecidableEq

namespace Cause

/-- A key as a tuple of quoted names. -/
def keyText (key : Key) : String :=
  Value.tupleLiteral (key.map Quoted.quote)

/-- A character between quotation marks. -/
def charText (c : Char) : String :=
  Quoted.quote (String.ofList [c])

/-- The sentence of a cause, without the place. -/
def message : Cause → String
  | statement => "Invalid statement"
  | lineEnd => "Expected newline or end of document after a statement"
  | equals => "Expected '=' after a key in a key/value pair"
  | keyStart => "Invalid initial character for a key part"
  | value => "Invalid value"
  | tableEnd => "Expected ']' at the end of a table declaration"
  | arrayTableEnd => "Expected ']]' at the end of an array declaration"
  | declaredTwice key => "Cannot declare " ++ keyText key ++ " twice"
  | redefined key => "Cannot redefine namespace " ++ keyText key
  | immutable key => "Cannot mutate immutable namespace " ++ keyText key
  | overwritten => "Cannot overwrite a value"
  | duplicate name => "Duplicate inline table key " ++ Quoted.quote name
  | unclosedArray => "Unclosed array"
  | unclosedTable => "Unclosed inline table"
  | unterminated => "Unterminated string"
  | illegal c => "Illegal character " ++ charText c
  | invalid c => "Found invalid character " ++ charText c
  | expected mark => "Expected " ++ Quoted.quote mark
  | backslash => "Unescaped '\\' in a string"
  | hexValue => "Invalid hex value"
  | notScalar => "Escaped character is not a Unicode scalar value"
  | moment => "Invalid date or datetime"

end Cause

/-- What stopped a reader, and the number of characters that were left then. -/
inductive Stop
  | wrong (left : Nat) (cause : Cause)
  | digits (n : Nat)
  | tooDeep
  deriving DecidableEq

/-- Where a reader stood: at a line and column, both counted from 1, or past the end. -/
inductive Spot
  | past
  | inside (line column : Nat)
  deriving DecidableEq

namespace Spot

/-- The spot at which `left` characters of a text are not read yet. -/
def ofLeft (text : List Char) (left : Nat) : Spot :=
  if left = 0 then .past
  else
    let read := text.take (text.length - left)
    .inside (read.count '\n' + 1) ((read.reverse.takeWhile (· != '\n')).length + 1)

/-- A spot in words. -/
def toString : Spot → String
  | past => "end of document"
  | inside line column =>
    "line " ++ ToString.toString line ++ ", column " ++ ToString.toString column

end Spot

/-- Why a text is no TOML document. -/
inductive Failure
  | wrong (spot : Spot) (cause : Cause)
  | digits (n : Nat)
  | tooDeep
  deriving DecidableEq

namespace Failure

/-- The failure of reading `text`. -/
def ofStop (text : List Char) : Stop → Failure
  | .wrong left cause => .wrong (Spot.ofLeft text left) cause
  | .digits n => .digits n
  | .tooDeep => .tooDeep

/-- The sentence of a failure, with the place if there is one. -/
def message : Failure → String
  | wrong spot cause => cause.message ++ " (at " ++ spot.toString ++ ")"
  | digits n => (TooManyDigits.reading n).message
  | tooDeep => "maximum recursion depth exceeded"

end Failure

end Nullary.Toml
