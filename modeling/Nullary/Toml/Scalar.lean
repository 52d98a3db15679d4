import Nullary.Calendar.Reading
import Nullary.Number.Decimal
import Nullary.Toml.Text

/-!
# Scalars of TOML

Truth values, dates and times, numbers and the special floats.  They are tried in this order, so
that a date is not taken for a number.
-/

namespace Nullary.Toml

/-- Words that are values by themselves. -/
def truths : List (String × Toml) := [("true", .bool true), ("false", .bool false)]

/-- Floats without digits; the sign of a number that is none does not count. -/
def specials : List (String × Toml) := [
  ("inf", .float (.infinity false)), ("nan", .float .nan),
  ("-inf", .float (.infinity true)), ("+inf", .float (.infinity false)),
  ("-nan", .float .nan), ("+nan", .float .nan)]

/-- The value of the first of some words that a text begins with. -/
def word? (words : List (String × Toml)) (s : List Char) : Option (Toml × List Char) :=
  words.findSome? fun w => (Step.afterWord? w.1 s).map fun r => (w.2, r)

/-- The time of day after the mark that separates it from a date, with an offset if one follows. -/
def clockAfterDate? (s : List Char) : Option (Option Time × List Char) :=
  match s with
  | c :: r =>
    if c = 'T' ∨ c = 't' ∨ c = ' ' then
      (Reading.clock? r).map fun p =>
        let o := Reading.offset p.2
        (Time.of? p.1.1 p.1.2.1 p.1.2.2.1 p.1.2.2.2 o.1, o.2)
    else
      none
  | [] => none

/-- A date, perhaps with a time of day; a day that its month does not have is an error. -/
def moment? (s : List Char) : Option (Except Stop (Toml × List Char)) :=
  (Reading.date? s).map fun p =>
    let bad : Except Stop (Toml × List Char) := .error (.wrong s.length .moment)
    match Date.of? p.1.1 p.1.2.1 p.1.2.2, clockAfterDate? p.2 with
    | some d, some (some t, r) => .ok (.dateTime ⟨d, t⟩, r)
    | some d, none => .ok (.date d, p.2)
    | _, _ => bad

/-- A time of day without an offset. -/
def clock? (s : List Char) : Option (Toml × List Char) :=
  (Reading.clock? s).bind fun p =>
    (Time.of? p.1.1 p.1.2.1 p.1.2.2.1 p.1.2.2.2 none).map fun t => (.time t, p.2)

/-- An integer in a base other than ten. -/
def based? (s : List Char) : Option (Toml × List Char) :=
  match s with
  | '0' :: b :: r =>
    let base := if b = 'x' then 16 else if b = 'b' then 2 else if b = 'o' then 8 else 0
    (Digits.run? base true r).map fun p => (.int (Digits.value base p.1), p.2)
  | _ => none

/-- A decimal integer, which keeps within the limit of digits, or a float. -/
def decimal? (s : List Char) : Option (Except Stop (Toml × List Char)) :=
  (Decimal.scan? ⟨true, true⟩ s).map fun p =>
    if p.1.isInteger then
      if p.1.whole.length ≤ Digits.limit then .ok (.int p.1.toInt, p.2)
      else .error (.digits p.1.whole.length)
    else
      .ok (.float p.1.toDouble, p.2)

/-- A scalar that is no text. -/
def scalarPair (s : List Char) : Except Stop (Toml × List Char) :=
  let found : Option (Except Stop (Toml × List Char)) :=
    ((word? truths s).map .ok)
      <|> moment? s
      <|> ((clock? s).map .ok)
      <|> ((based? s).map .ok)
      <|> decimal? s
      <|> ((word? specials s).map .ok)
  found.getD (.error (.wrong s.length .value))

/-- A scalar that is no text, as a step. -/
def scalar (s : List Char) : Except Stop (Step Toml s) :=
  match scalarPair s with
  | .error e => .error e
  | .ok p =>
    match Step.of? s p with
    | some q => .ok q
    | none => .error (.wrong s.length .value)

end Nullary.Toml
