import Nullary.Value.Display

/-!
# Log records for a console

A record is a line of columns: time, level, message and logger, then the other values by name.
Below the line stand a stack and an exception, where a record has them.  On a terminal the columns
are coloured.
-/

namespace Nullary.Console

/-- The marks that switch colours and brightness. -/
structure Palette where
  reset : String
  bright : String
  time : String
  name : String
  value : String
  logger : String
  level : String → String

/-- The escape sequence of a colour or brightness. -/
def sequence (n : Nat) : String :=
  "\x1b[" ++ toString n ++ "m"

/-- The colour of what is lost. -/
def red : String := sequence 31
/-- The colour of what goes well. -/
def green : String := sequence 32
/-- The colour of what should not have happened. -/
def yellow : String := sequence 33

/-- The colours of the named levels; other levels have none. -/
def levelColour (level : String) : String :=
  if level = "critical" ∨ level = "error" then red ++ sequence 1
  else if level = "warning" then yellow ++ sequence 1
  else if level = "info" ∨ level = "debug" then green ++ sequence 1
  else ""

/-- The marks for a terminal. -/
def coloured : Palette :=
  ⟨sequence 0, sequence 1, sequence 2, sequence 36, sequence 35, sequence 34, levelColour⟩

/-- No marks at all. -/
def plain : Palette := ⟨"", "", "", "", "", "", fun _ => ""⟩

/-- The width of the column of levels. -/
def levelWidth : Nat := 9

/-- The width of the column of messages. -/
def eventWidth : Nat := 30

/-- A text filled up with blanks to a width. -/
def padded (width : Nat) (s : String) : String :=
  String.ofList (Digits.padRight width ' ' s.toList)

/-- Characters that set a text between quotation marks. -/
def needsQuotes (c : Char) : Bool :=
  c = ' ' || c = '\t' || c = '=' || c = '\r' || c = '\n' || c = '\x22' || c = '\x27'

/-- A value after the sign of equality. -/
def shown : Value → Except TooManyDigits String
  | .text s => .ok (if s.toList.any needsQuotes then Quoted.quote s else s)
  | v => v.literal

/-- A value by its name. -/
def pairColumn (p : Palette) (name : String) (v : Value) : Except TooManyDigits String :=
  (shown v).map fun s => p.name ++ name ++ p.reset ++ "=" ++ p.value ++ s ++ p.reset

/-- The time of a record. -/
def timeColumn (p : Palette) (v : Value) : Except TooManyDigits String :=
  v.display.map fun s => p.time ++ s ++ p.reset

/-- The level of a record. -/
def levelColumn (p : Palette) (v : Value) : Except TooManyDigits String :=
  v.display.map fun s => "[" ++ p.level s ++ padded levelWidth s ++ p.reset ++ "]"

/-- The message of a record. -/
def eventColumn (p : Palette) (v : Value) : Except TooManyDigits String :=
  v.display.map fun s => p.bright ++ padded eventWidth s ++ p.reset

/-- The logger of a record. -/
def loggerColumn (p : Palette) (v : Value) : Except TooManyDigits String :=
  v.display.map fun s => "[" ++ p.reset ++ p.bright ++ p.logger ++ s ++ p.reset ++ "]" ++ p.reset

/-- The names with a column of their own, in the order of the columns. -/
def columnNames : List String := ["", "timestamp", "level", "event", "logger", "logger_name"]

/-- The column of a value. -/
def column (p : Palette) (name : String) (v : Value) : Except TooManyDigits String :=
  if name = "timestamp" then timeColumn p v
  else if name = "level" then levelColumn p v
  else if name = "event" then eventColumn p v
  else if name = "logger" ∨ name = "logger_name" then loggerColumn p v
  else pairColumn p name v

/-- The names of values below the line. -/
def belowNames : List String := ["stack", "exception", "exc_info"]

/-- The values in the order of their columns: those with a column of their own, then by name. -/
def arranged (f : Fields Value) : Fields Value :=
  let own := columnNames.filterMap fun k => (f.get? k).map fun v => (k, v)
  let rest := f.filter fun e => !columnNames.contains e.1 && !belowNames.contains e.1
  own ++ rest.mergeSort fun a b => decide (a.1 ≤ b.1)

/-- The columns of values, in their order. -/
def columns (p : Palette) : Fields Value → Except TooManyDigits (List String)
  | [] => .ok []
  | (k, v) :: f => do .ok ((← column p k v) :: (← columns p f))

/-- A text without the blanks at its end. -/
def trimmed (s : String) : String :=
  String.ofList (s.toList.reverse.dropWhile (· == ' ')).reverse

/-- The line of a record. -/
def line (p : Palette) (f : Fields Value) : Except TooManyDigits String :=
  (columns p (arranged f)).map fun cs =>
    trimmed (" ".intercalate (cs.filter (· != "")))

/-- A line between stack and exception. -/
def rule : String := String.ofList (List.replicate 79 '=')

/-- A value below the line, which has to be a text unless it is missing. -/
def below? (f : Fields Value) (name : String) : Option (Option String) :=
  match f.get? name with
  | none => some none
  | some .null => some none
  | some (.text s) => some (some s)
  | some _ => none

/-- What follows the line: a stack, an exception, and a rule between them. -/
def tail? (f : Fields Value) : Option String := do
  let stack ← below? f "stack"
  let exc ← below? f "exception"
  let ruled := exc.isSome || ((f.get? "exc_info").map Value.truthy).getD false
  let upper :=
    match stack with
    | some s => "\n" ++ s ++ (if ruled then "\n\n" ++ rule ++ "\n" else "")
    | none => ""
  let lower :=
    match exc with
    | some s => "\n" ++ s
    | none => ""
  some (upper ++ lower)

/-- The text of a record, if it has one. -/
def text? (p : Palette) (f : Fields Value) : Option String := do
  some ((← (line p f).toOption) ++ (← tail? f))

end Nullary.Console
