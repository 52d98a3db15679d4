/-!
# Digits

Numerals in a base, as lists of characters: writing (`Digits.decimal`, `Digits.hex`), reading
(`Digits.value`, `Digits.digit?`), and the longest decimal numeral an integer may be turned into
or read from (`Digits.limit`).  Main statement: `value_decimal`, a written numeral reads back.
-/

namespace Nullary.Digits

/-- The decimal numeral of a natural number, without leading zeros. -/
def decimal (n : Nat) : List Char :=
  Nat.toDigits 10 n

/-- `cs` filled up on the left with `fill` to `width` characters. -/
def padLeft (width : Nat) (fill : Char) (cs : List Char) : List Char :=
  List.replicate (width - cs.length) fill ++ cs

/-- `cs` filled up on the right with `fill` to `width` characters. -/
def padRight (width : Nat) (fill : Char) (cs : List Char) : List Char :=
  cs ++ List.replicate (width - cs.length) fill

/-- Lower-case hexadecimal, at least `width` digits. -/
def hex (width n : Nat) : List Char :=
  padLeft width '0' (Nat.toDigits 16 n)

/-- Decimal, at least `width` digits. -/
def padded (width n : Nat) : List Char :=
  padLeft width '0' (decimal n)

/-- The worth of an ASCII digit in a base of at most sixteen; letters of either case count. -/
def digit? (base : Nat) (c : Char) : Option Nat :=
  let n :=
    if '0' ≤ c ∧ c ≤ '9' then c.toNat - 48
    else if 'a' ≤ c ∧ c ≤ 'f' then c.toNat - 87
    else if 'A' ≤ c ∧ c ≤ 'F' then c.toNat - 55
    else base
  if n < base then some n else none

/-- Whether `c` is a digit of the base. -/
def isDigit (base : Nat) (c : Char) : Bool :=
  (digit? base c).isSome

/-- The number a numeral stands for; characters that are no digits of the base count as zero. -/
def value (base : Nat) (cs : List Char) : Nat :=
  cs.foldl (fun n c => n * base + (digit? base c).getD 0) 0

/-- The digits a text begins with, and the rest; with underscores, single ones between digits. -/
def run (base : Nat) (underscores : Bool) : List Char → List Char × List Char
  | [] => ([], [])
  | '_' :: d :: r =>
    if underscores && isDigit base d then
      let p := run base underscores r
      (d :: p.1, p.2)
    else
      ([], '_' :: d :: r)
  | c :: r =>
    if isDigit base c then
      let p := run base underscores r
      (c :: p.1, p.2)
    else
      ([], c :: r)

/-- As `run`, but a digit comes first. -/
def run? (base : Nat) (underscores : Bool) (s : List Char) : Option (List Char × List Char) :=
  match s with
  | c :: r =>
    if isDigit base c then
      let p := run base underscores r
      some (c :: p.1, p.2)
    else
      none
  | [] => none

/-- The signed decimal numeral of an integer. -/
def signed (n : Int) : List Char :=
  if n < 0 then '-' :: decimal n.natAbs else decimal n.natAbs

/-- Integers of more decimal digits than this are neither written nor read. -/
def limit : Nat := 4300

/-- Whether the decimal numeral of `n` keeps within the limit. -/
def withinLimit (n : Int) : Bool :=
  (decimal n.natAbs).length ≤ limit

theorem digit?_eq_of_isDigit {c : Char} (h : c.isDigit = true) :
    digit? 10 c = some (c.toNat - 48) := by
  have hc : '0' ≤ c ∧ c ≤ '9' := by
    simpa [Char.isDigit, Char.le_def] using h
  have hlt : c.toNat - 48 < 10 := by
    have := hc.2
    simp only [Char.le_def, UInt32.le_iff_toNat_le] at this
    have h9 : ('9' : Char).val.toNat = 57 := rfl
    simp only [Char.toNat]
    omega
  simp [digit?, hc, hlt]

theorem foldl_digit {cs : List Char} (h : ∀ c ∈ cs, c.isDigit = true) (n : Nat) :
    cs.foldl (fun n c => n * 10 + (digit? 10 c).getD 0) n = Nat.ofDigitChars 10 cs n := by
  induction cs generalizing n with
  | nil => simp [Nat.ofDigitChars]
  | cons c cs ih =>
    have hc := digit?_eq_of_isDigit (h c (by simp))
    simp only [List.foldl_cons, hc, Option.getD_some]
    rw [ih fun c hc => h c (by simp [hc])]
    have h0 : ('0' : Char).toNat = 48 := rfl
    simp [Nat.ofDigitChars, Nat.mul_comm 10 n, h0]

/-- A written numeral reads back as the number it was written for. -/
theorem value_decimal (n : Nat) : value 10 (decimal n) = n := by
  rw [value, foldl_digit, decimal, Nat.ofDigitChars_toDigits (by decide) (by decide)]
  exact fun c hc => Nat.isDigit_of_mem_toDigits (by decide) (by decide) hc

end Nullary.Digits
