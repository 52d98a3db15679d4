import Mathlib.Tactic.IntervalCases
import Mathlib.Tactic.SplitIfs
import Nullary.Number.Decimal

/-!
# Numerals read back

Four hexadecimal digits are those of the sixteens of a number (`Digits.hex_four`), and a decimal
numeral with its sign is read as the number that it was written for, whatever follows that does not
continue it (`Decimal.scan?_signed`).
-/

namespace Nullary

namespace Digits

/-! ### Hexadecimal -/

theorem digit?_digitChar {d : Nat} (h : d < 16) : digit? 16 (Nat.digitChar d) = some d := by
  interval_cases d <;> rfl

/-- The last digit of a filled numeral, and the digits before it. -/
theorem hex_succ (width n : Nat) :
    hex (width + 2) n = hex (width + 1) (n / 16) ++ [Nat.digitChar (n % 16)] := by
  unfold hex padLeft
  by_cases h : n < 16
  · have hzero : n / 16 = 0 := Nat.div_eq_of_lt h
    rw [Nat.toDigits_of_lt_base h, hzero, Nat.toDigits_zero, Nat.mod_eq_of_lt h]
    simp [List.replicate_succ']
  · rw [Nat.toDigits_of_base_le (by decide) (Nat.le_of_not_lt h)]
    simp

theorem hex_one {n : Nat} (h : n < 16) : hex 1 n = [Nat.digitChar n] := by
  rw [hex, Nat.toDigits_of_lt_base h]
  rfl

/-- The four digits of a number of sixteen bits. -/
theorem hex_four {n : Nat} (h : n < 0x10000) :
    hex 4 n = [Nat.digitChar (n / 4096), Nat.digitChar (n / 256 % 16),
      Nat.digitChar (n / 16 % 16), Nat.digitChar (n % 16)] := by
  have h1 : n / 16 / 16 = n / 256 := Nat.div_div_eq_div_mul n 16 16
  have h2 : n / 16 / 16 / 16 = n / 4096 := by rw [h1, Nat.div_div_eq_div_mul]
  rw [hex_succ, hex_succ, hex_succ, hex_one (by omega), h1, ← h2, h1]
  rfl

/-! ### Decimal -/

theorem isDigit_ten {c : Char} (h : c.isDigit = true) : isDigit 10 c = true := by
  rw [isDigit, digit?_eq_of_isDigit h]
  rfl

theorem isDigit_of_mem_decimal {n : Nat} {c : Char} (h : c ∈ decimal n) : c.isDigit = true :=
  Nat.isDigit_of_mem_toDigits (by decide) (by decide) h

theorem exists_decimal_eq_cons (n : Nat) : ∃ c ds, decimal n = c :: ds ∧ c.isDigit = true := by
  obtain ⟨c, ds, h⟩ := List.exists_cons_of_ne_nil (Nat.toDigits_ne_nil (n := n) (b := 10))
  exact ⟨c, ds, h, isDigit_of_mem_decimal (h ▸ List.mem_cons_self)⟩

/-- Only the numeral of zero begins with zero. -/
theorem head?_decimal {n : Nat} (h : n ≠ 0) : (decimal n).head? ≠ some '0' := by
  induction n using Nat.strongRecOn with
  | _ n ih =>
    by_cases hn : n < 10
    · rw [decimal, Nat.toDigits_of_lt_base hn]
      interval_cases n
      · exact absurd rfl h
      all_goals decide
    · have hquot := ih (n / 10) (by omega) (by omega)
      obtain ⟨c, ds, hcons, -⟩ := exists_decimal_eq_cons (n / 10)
      have hlast : decimal n = decimal (n / 10) ++ [Nat.digitChar (n % 10)] :=
        Nat.toDigits_of_base_le (by decide) (Nat.le_of_not_lt hn)
      rw [hcons] at hquot hlast
      rw [hlast]
      exact hquot

theorem lt_pow_length (n : Nat) : n < 10 ^ (decimal n).length :=
  (Nat.length_toDigits_le_iff (by decide) (List.length_pos_iff.mpr Nat.toDigits_ne_nil)).mp
    (Nat.le_refl _)

theorem pow_le_of_ne_zero {n : Nat} (h : n ≠ 0) : 10 ^ ((decimal n).length - 1) ≤ n := by
  by_cases hlength : (decimal n).length ≤ 1
  · rw [Nat.sub_eq_zero_of_le hlength]
    exact Nat.pos_of_ne_zero h
  · refine Nat.le_of_not_lt fun hlt => ?_
    have hle : (decimal n).length ≤ (decimal n).length - 1 :=
      (Nat.length_toDigits_le_iff (by decide) (by omega)).mpr hlt
    omega

/-! ### Values -/

theorem foldl_value (n : Nat) (cs : List Char) :
    cs.foldl (fun n c => n * 10 + (digit? 10 c).getD 0) n = n * 10 ^ cs.length + value 10 cs := by
  induction cs generalizing n with
  | nil => simp [value]
  | cons c cs ih =>
    have hcons : value 10 (c :: cs) = (digit? 10 c).getD 0 * 10 ^ cs.length + value 10 cs := by
      rw [value, List.foldl_cons, ih, Nat.zero_mul, Nat.zero_add]
    rw [List.foldl_cons, ih, hcons, List.length_cons, Nat.pow_succ']
    simp only [Nat.add_mul, Nat.mul_assoc, Nat.add_assoc]

theorem value_append (xs ys : List Char) :
    value 10 (xs ++ ys) = value 10 xs * 10 ^ ys.length + value 10 ys := by
  rw [value, List.foldl_append, foldl_value]
  rfl

@[simp] theorem value_zeros (n : Nat) : value 10 (List.replicate n '0') = 0 := by
  induction n with
  | zero => rfl
  | succ n ih =>
    rw [List.replicate_succ', value_append, ih]
    rfl

/-! ### Runs of digits -/

/-- A text that does not begin with a digit. -/
def NoDigit (rest : List Char) : Prop :=
  ∀ c ∈ rest.head?, isDigit 10 c = false

theorem run_of_noDigit {rest : List Char} (h : NoDigit rest) : run 10 false rest = ([], rest) := by
  unfold run
  split
  · rfl
  · rfl
  · next c r _ =>
    have hc : isDigit 10 c = false := h c rfl
    simp [hc]

theorem run_append {ds rest : List Char} (hds : ∀ c ∈ ds, c.isDigit = true) (h : NoDigit rest) :
    run 10 false (ds ++ rest) = (ds, rest) := by
  induction ds with
  | nil => exact run_of_noDigit h
  | cons c ds ih =>
    have hc := isDigit_ten (hds c List.mem_cons_self)
    rw [List.cons_append, run, hc, ih fun c hc => hds c (List.mem_cons_of_mem _ hc)]
    · rfl
    · rintro d r rfl
      exact absurd hc (by decide)

theorem run?_append {ds rest : List Char} (hds : ∀ c ∈ ds, c.isDigit = true) (hne : ds ≠ [])
    (h : NoDigit rest) : run? 10 false (ds ++ rest) = some (ds, rest) := by
  cases ds with
  | nil => exact absurd rfl hne
  | cons c ds =>
    have hc := isDigit_ten (hds c List.mem_cons_self)
    have htail := run_append (fun c hc => hds c (List.mem_cons_of_mem _ hc)) h
    simp [run?, hc, htail]

end Digits

namespace Decimal

open Digits

/-- A text that does not go on with a number that stands before it. -/
def Ends (rest : List Char) : Prop :=
  ∀ c ∈ rest.head?, isDigit 10 c = false ∧ c ≠ '.' ∧ c ≠ 'e' ∧ c ≠ 'E'

theorem ends_cons {c : Char} (h : isDigit 10 c = false ∧ c ≠ '.' ∧ c ≠ 'e' ∧ c ≠ 'E')
    (r : List Char) : Ends (c :: r) := by
  rintro _ ⟨⟩
  exact h

theorem Ends.noDigit {rest : List Char} (h : Ends rest) : NoDigit rest :=
  fun c hc => (h c hc).1

theorem Ends.exponentPart {rest : List Char} (h : Ends rest) :
    exponentPart false rest = (none, rest) := by
  cases rest with
  | nil => rfl
  | cons c r =>
    obtain ⟨-, -, he⟩ := h c rfl
    simp [Decimal.exponentPart, he]

/-- Digits that can stand before a point: there is one at least, and zero stands alone. -/
structure Whole (ds : List Char) : Prop where
  digits : ∀ c ∈ ds, c.isDigit = true
  nonempty : ds ≠ []
  leading : ds.head? ≠ some '0' ∨ ds = ['0']

theorem whole_decimal (n : Nat) : Whole (decimal n) where
  digits := fun _ hc => isDigit_of_mem_decimal hc
  nonempty := Nat.toDigits_ne_nil
  leading := by
    by_cases hn : n = 0
    · exact Or.inr (hn ▸ rfl)
    · exact Or.inl (head?_decimal hn)

theorem whole_zero : Whole ['0'] :=
  whole_decimal 0

theorem Whole.exists_eq_cons {ds : List Char} (h : Whole ds) :
    ∃ c cs, ds = c :: cs ∧ c.isDigit = true := by
  obtain ⟨c, cs, rfl⟩ := List.exists_cons_of_ne_nil h.nonempty
  exact ⟨c, cs, rfl, h.digits c List.mem_cons_self⟩

theorem Whole.whole?_append {ds rest : List Char} (h : Whole ds) (hr : NoDigit rest) :
    whole? false (ds ++ rest) = some (ds, rest) := by
  obtain hhead | rfl := h.leading
  · unfold whole?
    split
    · next r hzero =>
      obtain ⟨c, cs, hcons, -⟩ := h.exists_eq_cons
      rw [hcons] at hhead hzero
      obtain ⟨rfl, -⟩ := List.cons.inj hzero
      exact absurd rfl hhead
    · exact run?_append h.digits h.nonempty hr
  · rfl

/-- The sign of a number. -/
def minus (negative : Bool) : List Char :=
  if negative then ['-'] else []

theorem signed_eq (n : Int) : signed n = minus (n < 0) ++ decimal n.natAbs := by
  by_cases h : n < 0 <;> simp [signed, minus, h]

theorem Whole.sign_append {ds : List Char} (h : Whole ds) (negative : Bool) (rest : List Char) :
    sign false (minus negative ++ (ds ++ rest)) = (negative, ds ++ rest) := by
  obtain ⟨c, cs, rfl, hc⟩ := h.exists_eq_cons
  cases negative with
  | true => rfl
  | false =>
    unfold sign
    split
    · next r hr =>
      obtain ⟨rfl, -⟩ := List.cons.inj hr
      exact absurd hc (by decide)
    · rfl
    · rfl

/-- A fraction that may be missing, after its point. -/
def pointed (fs : List Char) : List Char :=
  if fs.isEmpty then [] else '.' :: fs

/-- A text in which an exponent stands, or nothing. -/
structure Exponent (es : List Char) (e : Option (Bool × List Char)) : Prop where
  read : ∀ {rest}, Ends rest → exponentPart false (es ++ rest) = (e, rest)
  apart : ∀ {rest}, Ends rest → NoDigit (es ++ rest) ∧ ∀ r, es ++ rest ≠ '.' :: r

theorem exponent_nil : Exponent [] none where
  read := fun h => h.exponentPart
  apart := fun h => ⟨h.noDigit, by
    rintro r rfl
    exact (h '.' rfl).2.1 rfl⟩

/-- What a sign of an exponent says. -/
def Signs (s : List Char) (negative : Bool) : Prop :=
  s = ['-'] ∧ negative = true ∨ (s = ['+'] ∨ s = []) ∧ negative = false

theorem exponent_cons {s ds : List Char} {negative : Bool} (hs : Signs s negative)
    (hds : ∀ c ∈ ds, c.isDigit = true) (hne : ds ≠ []) :
    Exponent ('e' :: (s ++ ds)) (some (negative, ds)) where
  read := by
    intro rest hr
    have hsign : sign true (s ++ (ds ++ rest)) = (negative, ds ++ rest) := by
      obtain ⟨c, cs, rfl⟩ := List.exists_cons_of_ne_nil hne
      have hc := hds c List.mem_cons_self
      obtain ⟨rfl, rfl⟩ | ⟨rfl | rfl, rfl⟩ := hs
      · rfl
      · rfl
      · unfold sign
        split
        · next r hcons =>
          obtain ⟨rfl, -⟩ := List.cons.inj hcons
          exact absurd hc (by decide)
        · next r hcons =>
          obtain ⟨rfl, -⟩ := List.cons.inj hcons
          exact absurd hc (by decide)
        · rfl
    simp [Decimal.exponentPart, hsign, run?_append hds hne hr.noDigit]
  apart := fun _ => ⟨fun _ hc => by
    obtain rfl := Option.some.inj hc
    decide, fun _ h => by cases (List.cons.inj h).1⟩

theorem fractionPart_pointed {fs rest : List Char} (hfs : ∀ c ∈ fs, c.isDigit = true)
    (hr : NoDigit rest) (hpoint : ∀ r, rest ≠ '.' :: r) :
    fractionPart false (pointed fs ++ rest) = (fs, rest) := by
  cases fs with
  | nil =>
    rw [pointed, List.isEmpty_nil, if_pos rfl, List.nil_append]
    unfold Decimal.fractionPart
    split
    · next r => exact absurd rfl (hpoint r)
    · rfl
  | cons c fs =>
    rw [pointed, List.isEmpty_cons, if_neg Bool.false_ne_true, List.cons_append,
      Decimal.fractionPart, run?_append hfs (List.cons_ne_nil _ _) hr]
    rfl

/-- A number is read to its end where nothing goes on with it. -/
theorem scan?_append {ds fs es rest : List Char} {e : Option (Bool × List Char)} (negative : Bool)
    (hds : Whole ds) (hfs : ∀ c ∈ fs, c.isDigit = true) (hes : Exponent es e) (hr : Ends rest) :
    scan? ⟨false, false⟩ (minus negative ++ (ds ++ (pointed fs ++ (es ++ rest)))) =
      some (⟨negative, ds, fs, e⟩, rest) := by
  obtain ⟨hdigit, hpoint⟩ := hes.apart hr
  have hstop : NoDigit (pointed fs ++ (es ++ rest)) := by
    cases fs with
    | nil => exact hdigit
    | cons c fs =>
      rintro _ ⟨⟩
      decide
  simp [scan?, hds.sign_append, hds.whole?_append hstop, fractionPart_pointed hfs hdigit hpoint,
    hes.read hr]

/-- The numeral of an integer is read to its end where nothing goes on with it. -/
theorem scan?_signed (n : Int) {rest : List Char} (h : Ends rest) :
    scan? ⟨false, false⟩ (signed n ++ rest) =
      some (⟨decide (n < 0), decimal n.natAbs, [], none⟩, rest) := by
  have hscan := scan?_append (n < 0) (whole_decimal n.natAbs) (List.forall_mem_nil _) exponent_nil h
  rwa [signed_eq, List.append_assoc]

theorem toInt_signed (n : Int) : toInt ⟨decide (n < 0), decimal n.natAbs, [], none⟩ = n := by
  simp only [toInt, value_decimal, decide_eq_true_eq]
  split_ifs <;> omega

end Decimal

end Nullary
