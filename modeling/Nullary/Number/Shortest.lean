import Nullary.Number.Double

/-!
# Shortest decimals

The decimal numeral of a finite double with the fewest digits among those that round to it, and of
these the nearest to it.  Two numerals can be equally near, one on each side of the double; which of
them is taken is a decision of the format that prints it, its `Tie`.

A double `m · 2 ^ q` is what every real number in an interval around it rounds to.  On the grid of
decimals with `n` digits only the two neighbours of the double can be the nearest grid point inside
the interval, so `Shortest.onGrid` tries these two, and `Shortest.digits` takes the coarsest grid
that has one.  All comparisons are between natural numbers.
-/

namespace Nullary

/-- The decimal `0.d₁d₂… · 10 ^ point`. -/
structure Numeral where
  digits : List Char
  point : Int

/-- Which of two equally near numerals stands for a double. -/
inductive Tie where
  /-- The one whose last digit is even. -/
  | even
  /-- The one further from zero. -/
  | away

/--
Whether the lower of two neighbouring grid points is taken, for a value that lies `past` above it
where the grid's unit is `unit`.
-/
def Tie.takesLower (tie : Tie) (floor past unit : Nat) : Bool :=
  match tie with
  | .even => 2 * past < unit || (2 * past == unit && floor % 2 == 0)
  | .away => 2 * past < unit

namespace Shortest

/--
A value and the ends of its rounding interval, all over the denominator `den`; the ends belong to
the interval when `closed`.
-/
structure Interval where
  low : Nat
  value : Nat
  high : Nat
  den : Nat
  closed : Bool

/--
The rounding interval of the magnitude numbered `b`.  Below a power of two the doubles lie half as
far apart as above it.
-/
def interval (b : Nat) : Interval :=
  let m := Double.significand b
  let q := Double.exponent b - 2
  let below := if m = Double.leadingBit ∧ q ≠ -1076 then 1 else 2
  let up := if 0 ≤ q then Nat.pow 2 q.toNat else 1
  let den := if 0 ≤ q then 1 else Nat.pow 2 (-q).toNat
  ⟨(4 * m - below) * up, 4 * m * up, (4 * m + 2) * up, den, m % 2 == 0⟩

/-- The power of ten `p` with `10 ^ (p - 1) ≤ num / den < 10 ^ p`. -/
def pointOf (num den : Nat) : Int :=
  let d : Int := (Digits.decimal num).length - (Digits.decimal den).length
  let reached :=
    if 0 ≤ d then den * Nat.pow 10 d.toNat ≤ num else den ≤ num * Nat.pow 10 (-d).toNat
  if reached then d + 1 else d

/-- The multiple of `10 ^ step` inside the interval that is nearest to its value. -/
def onGrid (tie : Tie) (i : Interval) (step : Int) : Option Nat :=
  let unit := if 0 ≤ step then Nat.pow 10 step.toNat * i.den else i.den
  let scale := if 0 ≤ step then 1 else Nat.pow 10 (-step).toNat
  let inside (c : Nat) : Bool :=
    if i.closed then i.low * scale ≤ c * unit && c * unit ≤ i.high * scale
    else i.low * scale < c * unit && c * unit < i.high * scale
  let floor := i.value * scale / unit
  let past := i.value * scale % unit
  match inside floor, inside (floor + 1) with
  | true, true => if tie.takesLower floor past unit then some floor else some (floor + 1)
  | true, false => some floor
  | false, true => some (floor + 1)
  | false, false => none

/-- The digits of a coefficient without the zeros at its end. -/
def trimmed (c : Nat) : List Char :=
  ((Digits.decimal c).reverse.dropWhile (· == '0')).reverse

/-- The shortest numeral of the magnitude numbered `b`; seventeen digits always suffice. -/
def digits (tie : Tie) (b : Nat) : Numeral :=
  if b = 0 then
    ⟨['0'], 1⟩
  else
    let i := interval b
    let p := pointOf i.value i.den
    let found := (List.range 17).findSome? fun (n : Nat) =>
      (onGrid tie i (p - (n + 1))).map fun c => (c, p - (n + 1))
    match found with
    | some (c, step) => ⟨trimmed c, step + (Digits.decimal c).length⟩
    | none => ⟨['0'], 1⟩

end Shortest

end Nullary
