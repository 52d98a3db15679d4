import Nullary.Number.Double

/-!
# Decimal notation

`Decimal.scan?` reads the longest number at the beginning of a text: a sign, a whole part without
leading zeros, and perhaps a fraction and an exponent.  Formats differ in which signs they allow and
whether underscores may stand between digits.  A `Decimal` keeps the digits, so that whole numbers
of any size and the nearest double can both be taken from it.
-/

namespace Nullary

/-- The parts of a number: its sign, and the digits of each part. -/
structure Decimal where
  negative : Bool
  whole : List Char
  fraction : List Char
  exponent : Option (Bool × List Char)

namespace Decimal

/-- Which spellings of numbers a format allows. -/
structure Spelling where
  plus : Bool
  underscores : Bool

/-- A zero alone, or digits of which the first is no zero. -/
def whole? (underscores : Bool) (s : List Char) : Option (List Char × List Char) :=
  match s with
  | '0' :: r => some (['0'], r)
  | s => Digits.run? 10 underscores s

/-- A point and digits, if they follow. -/
def fractionPart (underscores : Bool) (s : List Char) : List Char × List Char :=
  match s with
  | '.' :: r => (Digits.run? 10 underscores r).getD ([], s)
  | _ => ([], s)

/-- A sign that is optional; minus is allowed always, plus where the format says so. -/
def sign (plus : Bool) (s : List Char) : Bool × List Char :=
  match s with
  | '-' :: r => (true, r)
  | '+' :: r => if plus then (false, r) else (false, s)
  | _ => (false, s)

/-- The letter of an exponent, its sign and its digits, if they follow. -/
def exponentPart (underscores : Bool) (s : List Char) : Option (Bool × List Char) × List Char :=
  match s with
  | c :: r =>
    if c = 'e' ∨ c = 'E' then
      let p := sign true r
      match Digits.run? 10 underscores p.2 with
      | some (ds, r') => (some (p.1, ds), r')
      | none => (none, s)
    else
      (none, s)
  | [] => (none, s)

/-- The longest number a text begins with, and the rest. -/
def scan? (f : Spelling) (s : List Char) : Option (Decimal × List Char) :=
  let p := sign f.plus s
  match whole? f.underscores p.2 with
  | none => none
  | some (ds, r) =>
    let (fs, r) := fractionPart f.underscores r
    let (e, r) := exponentPart f.underscores r
    some (⟨p.1, ds, fs, e⟩, r)

/-- A number with neither fraction nor exponent is an integer. -/
def isInteger (d : Decimal) : Bool :=
  d.fraction.isEmpty && d.exponent.isNone

/-- The integer of the whole part. -/
def toInt (d : Decimal) : Int :=
  let n : Int := Digits.value 10 d.whole
  if d.negative then -n else n

/-- The double nearest to the number. -/
def toDouble (d : Decimal) : Double :=
  let shift : Int :=
    match d.exponent with
    | none => 0
    | some (negative, ds) =>
      let n : Int := Digits.value 10 ds
      if negative then -n else n
  Double.ofDecimal d.negative (Digits.value 10 (d.whole ++ d.fraction)) (shift - d.fraction.length)

end Decimal

end Nullary
