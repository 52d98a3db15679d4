import Nullary.Number.Shortest

/-!
# Layouts of numerals

Where a printed double changes from positional to exponent notation, how the exponent and whole
numbers look, and which of two equally near shortest numerals is printed, is a decision of the
format it is printed in.  A `Layout` holds these decisions; `Layout.render` prints a double's
shortest numeral by them.
-/

namespace Nullary

/-- The decisions that formats of doubles differ in. -/
structure Layout where
  /-- Between two equally near shortest numerals. -/
  tie : Tie
  /-- Positional when the point of the numeral is above this … -/
  above : Int
  /-- … and at most this. -/
  upTo : Int
  /-- Whole numbers in positional notation end in `.0`. -/
  wholeFraction : Bool
  /-- A positive exponent carries a plus sign. -/
  plus : Bool
  /-- The exponent has at least this many digits. -/
  exponentWidth : Nat
  nan : String
  infinity : String
  minusInfinity : String

namespace Layout

/-- A numeral with its point where it belongs. -/
def positional (l : Layout) (n : Numeral) : List Char :=
  let whole := n.point.toNat
  if n.point ≤ 0 then
    '0' :: '.' :: (List.replicate (-n.point).toNat '0' ++ n.digits)
  else if n.digits.length ≤ whole then
    n.digits ++ List.replicate (whole - n.digits.length) '0'
      ++ (if l.wholeFraction then ['.', '0'] else [])
  else
    n.digits.take whole ++ '.' :: n.digits.drop whole

/-- A numeral with the point after its first digit, and the exponent that corrects this. -/
def withExponent (l : Layout) (n : Numeral) : List Char :=
  let e := n.point - 1
  let sign := if e < 0 then ['-'] else if l.plus then ['+'] else []
  let fraction := n.digits.drop 1
  n.digits.take 1 ++ (if fraction.isEmpty then [] else '.' :: fraction)
    ++ 'e' :: (sign ++ Digits.padded l.exponentWidth e.natAbs)

/-- A numeral in the notation that its size calls for. -/
def unsigned (l : Layout) (n : Numeral) : List Char :=
  if l.above < n.point ∧ n.point ≤ l.upTo then l.positional n else l.withExponent n

/-- The text of a double. -/
def render (l : Layout) : Double → String
  | .nan => l.nan
  | .infinity false => l.infinity
  | .infinity true => l.minusInfinity
  | .finite negative b =>
    String.ofList ((if negative then ['-'] else []) ++ l.unsigned (Shortest.digits l.tie b))

/-- How a number shows itself: positional from `0.0001` to below `10 ^ 16`, else `1e+16`. -/
def plain : Layout := ⟨.even, -4, 16, true, true, 2, "nan", "inf", "-inf"⟩

/-- A part of a complex number: as `plain`, but whole parts have no fraction. -/
def complexPart : Layout := { plain with wholeFraction := false }

/-- A compact JSON document: positional from `0.00001`, exponents bare, no infinities. -/
def compactJson : Layout := ⟨.even, -5, 16, true, false, 1, "null", "null", "null"⟩

/-- A log line in JSON: as `plain`, with the names JSON readers know for the special values. -/
def jsonLine : Layout :=
  { plain with nan := "NaN", infinity := "Infinity", minusInfinity := "-Infinity" }

/-- A part of a complex number in a JSON document: always positional, a tie goes away from zero. -/
def positionalOnly : Layout := ⟨.away, -400, 400, false, false, 1, "NaN", "inf", "-inf"⟩

end Layout

end Nullary
