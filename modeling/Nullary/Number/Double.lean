import Nullary.Number.Digits

/-!
# Double-precision numbers

A `Double` is a binary floating-point number of sixty-four bits: not a number, an infinity, or a
signed magnitude `significand · 2 ^ exponent`.  Magnitudes are numbered in ascending order, so every
magnitude has one representation.  `Double.ofRatio` and `Double.ofDecimal` round an exact quotient
or decimal to the nearest double, a tie going to the even significand.
-/

namespace Nullary

/-- The least significand of fifty-three bits, two to the fifty-second power. -/
def Double.leadingBit : Nat := 0x10000000000000

/-- How many magnitudes there are: for each of 2047 exponents as many as a significand has. -/
def Double.magnitudes : Nat := 2047 * Double.leadingBit

/-- A number of sixty-four bits; the magnitude of a finite one is given by its number. -/
inductive Double
  | nan
  | infinity (negative : Bool)
  | finite (negative : Bool) (magnitude : Fin Double.magnitudes)
  deriving DecidableEq

namespace Double

/-- The significand of the magnitude numbered `b`. -/
def significand (b : Nat) : Nat :=
  if b < leadingBit then b else leadingBit + b % leadingBit

/-- The power of two that scales the significand of the magnitude numbered `b`. -/
def exponent (b : Nat) : Int :=
  if b < leadingBit then -1074 else (b / leadingBit : Nat) - 1075

/-- Zero, of either sign. -/
def zero (negative : Bool) : Double :=
  .finite negative ⟨0, by decide⟩

instance : Inhabited Double := ⟨zero false⟩

/-- `num / den` rounded to a whole number; a tie goes to the even neighbour. -/
def roundEven (num den : Nat) : Nat :=
  let q := num / den
  let r := num % den
  if den < 2 * r ∨ (2 * r = den ∧ q % 2 = 1) then q + 1 else q

/-- `num / den / 2 ^ q` as a quotient of naturals. -/
def scaled (num den : Nat) (q : Int) : Nat × Nat :=
  if 0 ≤ q then (num, den * Nat.pow 2 q.toNat) else (num * Nat.pow 2 (-q).toNat, den)

/--
The number of the magnitude nearest to `num / den`, not bounded above.  The exponent is the one
that leaves a significand of fifty-three bits, or the least exponent there is.
-/
def nearest (num den : Nat) : Nat :=
  if num = 0 then
    0
  else
    let q := max ((num.log2 : Int) - den.log2 - 53) (-1074)
    let s := scaled num den q
    if s.1 / s.2 < 2 * leadingBit then
      roundEven s.1 s.2 + (q + 1074).toNat * leadingBit
    else
      let s := scaled num den (q + 1)
      roundEven s.1 s.2 + (q + 1075).toNat * leadingBit

/-- The double nearest to `± num / den`; what lies beyond the largest is an infinity. -/
def ofRatio (negative : Bool) (num den : Nat) : Double :=
  let b := nearest num den
  if h : b < magnitudes then .finite negative ⟨b, h⟩ else .infinity negative

/--
The double nearest to `± coefficient · 10 ^ exponent`.  Decimals that are far outside the range are
answered by their order of magnitude, so that no huge power of ten is formed.
-/
def ofDecimal (negative : Bool) (coefficient : Nat) (exponent : Int) : Double :=
  if coefficient = 0 then
    zero negative
  else
    let order := exponent + (Digits.decimal coefficient).length
    if order > 400 then .infinity negative
    else if order < -400 then zero negative
    else if 0 ≤ exponent then ofRatio negative (coefficient * Nat.pow 10 exponent.toNat) 1
    else ofRatio negative coefficient (Nat.pow 10 (-exponent).toNat)

/-- A finite double as an exact quotient: sign, numerator, denominator. -/
def ratio (b : Nat) : Nat × Nat :=
  let q := exponent b
  if 0 ≤ q then (significand b * Nat.pow 2 q.toNat, 1) else (significand b, Nat.pow 2 (-q).toNat)

/-- The integer a double is equal to, if there is one. -/
def toInt? : Double → Option Int
  | .finite negative b =>
    let r := ratio b
    if r.1 % r.2 = 0 then
      some (if negative then -((r.1 / r.2 : Nat) : Int) else (r.1 / r.2 : Nat))
    else
      none
  | _ => none

/-- Whether a double is a number that is no infinity. -/
def isFinite : Double → Bool
  | .finite .. => true
  | _ => false

/-- Whether a number is one of the two zeros. -/
def isZero : Double → Bool
  | .finite _ b => b.val == 0
  | _ => false

/-- Whether the sign is minus; not-a-number has none. -/
def isNegative : Double → Bool
  | .nan => false
  | .infinity negative => negative
  | .finite negative _ => negative

/-- Numeric equality: both zeros are equal, and not-a-number is equal to nothing. -/
def same : Double → Double → Bool
  | .infinity s, .infinity t => s == t
  | .finite s a, .finite t b => a == b && (s == t || a.val == 0)
  | _, _ => false

end Double

end Nullary
