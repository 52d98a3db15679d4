import Nullary.Number.Decimal

/-!
# Numbers as people spell them

`Double.ofSpelling?` and `Double.pairOfSpelling?` read floats and complex numbers that are written
freely: blanks around them, underscores between digits, points without digits on one side, zeros in
front, and names for what is no finite number in letters of either case.
-/

namespace Nullary

namespace Spelled

/-- Blanks of ASCII. -/
def isBlank (c : Char) : Bool :=
  c == ' ' || (9 ≤ c.toNat && c.toNat ≤ 13) || (28 ≤ c.toNat && c.toNat ≤ 31)

/-- A text without blanks at its ends. -/
def trim (s : List Char) : List Char :=
  ((s.dropWhile isBlank).reverse.dropWhile isBlank).reverse

/-- Leaves out underscores, which may stand between digits one by one. -/
def withoutUnderscores? (afterDigit : Bool) : List Char → Option (List Char)
  | [] => some []
  | '_' :: d :: r =>
    if afterDigit && Digits.isDigit 10 d then (withoutUnderscores? true r).map (d :: ·) else none
  | c :: r =>
    if c = '_' then none else (withoutUnderscores? (Digits.isDigit 10 c) r).map (c :: ·)

/-- The names of numbers without digits; a name that goes on is looked for first. -/
def names : List (List Char × (Bool → Double)) := [
  ("infinity".toList, .infinity), ("inf".toList, .infinity), ("nan".toList, fun _ => .nan)]

/-- A number without digits, and the rest. -/
def named? (negative : Bool) (s : List Char) : Option (Double × List Char) :=
  names.findSome? fun n =>
    if (s.take n.1.length).map Char.toLower = n.1 then some (n.2 negative, s.drop n.1.length)
    else none

/-- Digits around a point, of which one is enough, and an exponent; and the rest. -/
def positional? (negative : Bool) (s : List Char) : Option (Double × List Char) :=
  let isDigit := Digits.isDigit 10
  let whole := s.takeWhile isDigit
  let p :=
    match s.dropWhile isDigit with
    | '.' :: r => (r.takeWhile isDigit, r.dropWhile isDigit)
    | r => ([], r)
  if whole.isEmpty && p.1.isEmpty then
    none
  else
    let e := Decimal.exponentPart false p.2
    some (Decimal.toDouble ⟨negative, whole, p.1, e.1⟩, e.2)

/-- The number that a text begins with, and the rest. -/
def number? (s : List Char) : Option (Double × List Char) :=
  let p := Decimal.sign true s
  (named? p.1 p.2) <|> (positional? p.1 p.2)

/-- One, or minus one. -/
def unit (negative : Bool) : Double :=
  Double.ofRatio negative 1 1

/-- The rest of a text after the letter that marks an imaginary part. -/
def afterUnit? : List Char → Option (List Char)
  | 'j' :: r => some r
  | 'J' :: r => some r
  | _ => none

/-- A number, or the unit if there are no digits after an optional sign. -/
def factor (s : List Char) : Double × List Char :=
  match number? s with
  | some p => p
  | none =>
    let p := Decimal.sign true s
    (unit p.1, p.2)

/-- Whether a text begins with a sign. -/
def isSigned (s : List Char) : Bool :=
  s.head? == some '+' || s.head? == some '-'

/-- A real part, an imaginary one, or both. -/
def parts? (s : List Char) : Option ((Double × Double) × List Char) :=
  match number? s with
  | none =>
    let p := factor s
    (afterUnit? p.2).map fun r => ((Double.zero false, p.1), r)
  | some (x, r) =>
    if isSigned r then
      let p := factor r
      (afterUnit? p.2).map fun r => ((x, p.1), r)
    else
      match afterUnit? r with
      | some r => some ((Double.zero false, x), r)
      | none => some ((x, Double.zero false), r)

/-- What stands between parentheses that may be there. -/
def unwrap (s : List Char) : List Char :=
  match s, s.getLast? with
  | '(' :: r, some ')' => trim r.dropLast
  | s, _ => s

end Spelled

namespace Double

/-- A whole text as a float. -/
def ofSpelling? (s : String) : Option Double :=
  ((Spelled.withoutUnderscores? false (Spelled.trim s.toList)).bind Spelled.number?).bind fun p =>
    if p.2.isEmpty then some p.1 else none

/-- A whole text as the real and the imaginary part of a complex number. -/
def pairOfSpelling? (s : String) : Option (Double × Double) :=
  let body := Spelled.unwrap (Spelled.trim s.toList)
  ((Spelled.withoutUnderscores? false body).bind Spelled.parts?).bind fun p =>
    if p.2.isEmpty then some p.1 else none

end Double

end Nullary
