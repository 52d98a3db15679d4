import Nullary.Number.Shortest

/-!
# Numerals of a given precision

A double printed with so many places after the point, with so many digits and an exponent, or with
so many digits in whichever of the two forms is the shorter one.  The exact value is rounded once,
and a tie goes to the even last digit.
-/

namespace Nullary.Fixed

/-- Digits with a point before the last `places` of them. -/
def pointed (keepPoint : Bool) (places : Nat) (ds : List Char) : List Char :=
  let whole := ds.length - places
  ds.take whole ++ (if places = 0 ∧ !keepPoint then [] else '.' :: ds.drop whole)

/-- The magnitude numbered `b` with `places` digits after the point. -/
def positional (keepPoint : Bool) (places : Nat) (b : Nat) : List Char :=
  let r := Double.ratio b
  pointed keepPoint places
    (Digits.padded (places + 1) (Double.roundEven (r.1 * Nat.pow 10 places) r.2))

/-- The magnitude numbered `b` as a whole number of `places + 1` digits times a power of ten. -/
def leading (places : Nat) (b : Nat) : Nat × Int :=
  if b = 0 then
    (0, 0)
  else
    let r := Double.ratio b
    let e := Shortest.pointOf r.1 r.2 - 1
    let step := e - places
    let n :=
      if 0 ≤ step then Double.roundEven r.1 (r.2 * Nat.pow 10 step.toNat)
      else Double.roundEven (r.1 * Nat.pow 10 (-step).toNat) r.2
    if n = Nat.pow 10 (places + 1) then (Nat.pow 10 places, e + 1) else (n, e)

/-- The exponent of a numeral, with its sign and at least two digits. -/
def exponentText (e : Int) : List Char :=
  'e' :: (if e < 0 then '-' else '+') :: Digits.padded 2 e.natAbs

/-- One digit before the point, `places` after it, and an exponent. -/
def scientific (keepPoint : Bool) (places : Nat) (b : Nat) : List Char :=
  let p := leading places b
  pointed keepPoint places (Digits.padded (places + 1) p.1) ++ exponentText p.2

/-- A numeral without the zeros at the end of its fraction. -/
def withoutZeros (ds : List Char) : List Char :=
  if ds.contains '.' then
    match ds.reverse.dropWhile (· == '0') with
    | '.' :: r => r.reverse
    | r => r.reverse
  else
    ds

/-- At most `digits` digits, with an exponent where the number is small or has more digits. -/
def general (keepPoint : Bool) (digits : Nat) (b : Nat) : List Char :=
  let places := max digits 1 - 1
  let p := leading places b
  let trim := fun ds => if keepPoint then ds else withoutZeros ds
  if -4 ≤ p.2 ∧ p.2 ≤ (places : Int) then
    trim (positional keepPoint ((places : Int) - p.2).toNat b)
  else
    trim (pointed keepPoint places (Digits.padded (places + 1) p.1)) ++ exponentText p.2

/-- A double by one of the three forms of a magnitude. -/
def signed (form : Nat → List Char) : Double → List Char
  | .nan => "nan".toList
  | .infinity negative => if negative then "-inf".toList else "inf".toList
  | .finite negative b => if negative then '-' :: form b else form b

end Nullary.Fixed
