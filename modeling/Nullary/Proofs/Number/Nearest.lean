import Mathlib.Algebra.Order.Field.Power
import Mathlib.Data.Rat.Cast.Order
import Mathlib.Tactic.FieldSimp
import Mathlib.Tactic.Linarith
import Mathlib.Tactic.NormNum
import Mathlib.Tactic.Positivity
import Mathlib.Tactic.Ring
import Nullary.Proofs.Number.Digits

/-!
# Numbers that round to a double

A magnitude is a rational number (`Double.worth`), and the numbers around it up to halfway to its
neighbours round to it (`Double.RoundsTo`).  Main statement: `Double.nearest_eq`, such a quotient is
rounded to this magnitude.
-/

namespace Nullary.Double

/-! ### Magnitudes -/

/-- The number that the magnitude numbered `b` is. -/
def worth (b : ℕ) : ℚ :=
  significand b * 2 ^ exponent b

/-- How far below a magnitude its numbers go, in quarters of the unit of its significand: half a
unit, or half of that where the next lower magnitude has a smaller unit. -/
def quartersBelow (b : ℕ) : ℕ :=
  if significand b = leadingBit ∧ exponent b ≠ -1074 then 1 else 2

/-- The numbers that round to a magnitude, the ends of their interval where the significand is
even. -/
structure RoundsTo (x : ℚ) (b : ℕ) : Prop where
  low : (4 * significand b - quartersBelow b) * 2 ^ (exponent b - 2) ≤ x
  high : x ≤ (4 * significand b + 2) * 2 ^ (exponent b - 2)
  even : x = (4 * significand b - quartersBelow b) * 2 ^ (exponent b - 2) ∨
    x = (4 * significand b + 2) * 2 ^ (exponent b - 2) → significand b % 2 = 0

variable {b num den m : ℕ} {q : ℤ} {x : ℚ}

theorem significand_lt (b : ℕ) : significand b < 2 * leadingBit := by
  unfold significand leadingBit
  split_ifs <;> omega

theorem le_exponent (b : ℕ) : -1074 ≤ exponent b := by
  unfold exponent leadingBit
  split_ifs <;> omega

theorem le_significand (h : exponent b ≠ -1074) : leadingBit ≤ significand b := by
  unfold exponent at h
  unfold significand
  split_ifs at h ⊢
  · exact absurd rfl h
  · exact Nat.le_add_right _ _

theorem significand_pos (h : b ≠ 0) : 0 < significand b := by
  unfold significand leadingBit
  split_ifs <;> omega

/-- A magnitude's number, put together from its significand and its exponent. -/
theorem significand_add_exponent (b : ℕ) :
    significand b + (exponent b + 1074).toNat * leadingBit = b := by
  unfold significand exponent
  split_ifs with h
  · exact Nat.add_zero b
  · have hsplit := Nat.div_add_mod' b leadingBit
    have hquot : 1 ≤ b / leadingBit := Nat.div_pos (Nat.not_lt.mp h) (by decide)
    have hexp : ((b / leadingBit : ℕ) - 1075 + 1074 : ℤ).toNat = b / leadingBit - 1 := by omega
    rw [hexp, Nat.sub_mul]
    have hle := Nat.mul_le_mul_right leadingBit hquot
    omega

/-! ### Rounding to a whole number -/

theorem roundEven_eq (hden : 0 < den) (hlow : 2 * (den * m) ≤ 2 * num + den)
    (hhigh : 2 * num ≤ 2 * (den * m) + den)
    (heven : 2 * (den * m) = 2 * num + den ∨ 2 * num = 2 * (den * m) + den → m % 2 = 0) :
    roundEven num den = m := by
  have hsplit := Nat.div_add_mod num den
  have hmod := Nat.mod_lt num hden
  have hle : num / den ≤ m := by
    have : den * (num / den) < den * (m + 1) := by
      rw [Nat.mul_succ]
      omega
    exact Nat.le_of_lt_succ (Nat.lt_of_mul_lt_mul_left this)
  have hge : m ≤ num / den + 1 := by
    have : den * m < den * (num / den + 2) := by
      rw [Nat.mul_add]
      omega
    exact Nat.le_of_lt_succ (Nat.lt_of_mul_lt_mul_left this)
  unfold roundEven
  dsimp only
  obtain hm | hm : m = num / den ∨ m = num / den + 1 := by omega
  · rw [hm] at hlow hhigh heven ⊢
    split_ifs <;> omega
  · rw [hm] at hlow hhigh heven ⊢
    rw [Nat.mul_succ] at hlow hhigh heven
    split_ifs <;> omega

/-- A quotient within half of a whole number is rounded to it, halfway if it is even. -/
theorem roundEven_eq_of_near (hden : 0 < den) (hlow : (m - 1 / 2 : ℚ) ≤ num / den)
    (hhigh : (num / den : ℚ) ≤ m + 1 / 2)
    (heven : (num / den : ℚ) = m - 1 / 2 ∨ (num / den : ℚ) = m + 1 / 2 → m % 2 = 0) :
    roundEven num den = m := by
  have hd : (0 : ℚ) < den := by exact_mod_cast hden
  rw [le_div_iff₀ hd] at hlow
  rw [div_le_iff₀ hd] at hhigh
  rw [div_eq_iff hd.ne', div_eq_iff hd.ne'] at heven
  refine roundEven_eq hden ?_ ?_ fun h => heven ?_
  · have : (2 * (den * m) : ℚ) ≤ 2 * num + den := by linarith
    exact_mod_cast this
  · have : (2 * num : ℚ) ≤ 2 * (den * m) + den := by linarith
    exact_mod_cast this
  · refine h.imp (fun h => ?_) fun h => ?_
    · have : (2 * (den * m) : ℚ) = 2 * num + den := by exact_mod_cast h
      linarith
    · have : (2 * num : ℚ) = 2 * (den * m) + den := by exact_mod_cast h
      linarith

/-! ### Rounding to a magnitude -/

theorem scaled_pos (num : ℕ) (hden : 0 < den) (q : ℤ) : 0 < (scaled num den q).2 := by
  unfold scaled
  split_ifs
  · exact Nat.mul_pos hden (Nat.pow_pos (by decide))
  · exact hden

theorem scaled_div (num den : ℕ) (q : ℤ) :
    ((scaled num den q).1 / (scaled num den q).2 : ℚ) = num / den / 2 ^ q := by
  unfold scaled
  split_ifs with hq
  · obtain ⟨n, rfl⟩ := Int.eq_ofNat_of_zero_le hq
    simp [div_div]
  · obtain ⟨n, rfl⟩ : ∃ n : ℕ, q = -n := ⟨(-q).toNat, by omega⟩
    simp [mul_div_right_comm]

theorem two_zpow_pos (q : ℤ) : (0 : ℚ) < 2 ^ q := zpow_pos (by norm_num) q

theorem two_zpow_succ (q : ℤ) : (2 : ℚ) ^ (q + 1) = 2 * 2 ^ q := by
  rw [zpow_add_one₀ (by norm_num), mul_comm]

/-- A quotient lies between the powers of two that the lengths of its parts tell. -/
theorem log2_bounds (hnum : 0 < num) (hden : 0 < den) :
    2 ^ ((num.log2 : ℤ) - den.log2 - 1) < (num / den : ℚ) ∧
      (num / den : ℚ) < 2 ^ ((num.log2 : ℤ) - den.log2 + 1) := by
  have hd : (0 : ℚ) < den := by exact_mod_cast hden
  have hnum₁ : (2 ^ (num.log2 : ℤ) : ℚ) ≤ num := by
    exact_mod_cast Nat.log2_self_le hnum.ne'
  have hnum₂ : (num : ℚ) < 2 ^ ((num.log2 : ℤ) + 1) := by
    exact_mod_cast Nat.lt_log2_self (n := num)
  have hden₁ : (2 ^ (den.log2 : ℤ) : ℚ) ≤ den := by
    exact_mod_cast Nat.log2_self_le hden.ne'
  have hden₂ : (den : ℚ) < 2 ^ ((den.log2 : ℤ) + 1) := by
    exact_mod_cast Nat.lt_log2_self (n := den)
  constructor
  · rw [lt_div_iff₀ hd]
    calc (2 ^ ((num.log2 : ℤ) - den.log2 - 1) * den : ℚ)
        < 2 ^ ((num.log2 : ℤ) - den.log2 - 1) * 2 ^ ((den.log2 : ℤ) + 1) :=
          mul_lt_mul_of_pos_left hden₂ (two_zpow_pos _)
      _ = 2 ^ (num.log2 : ℤ) := by
          rw [← zpow_add₀ (by norm_num)]
          congr 1
          ring
      _ ≤ num := hnum₁
  · rw [div_lt_iff₀ hd]
    calc (num : ℚ) < 2 ^ ((num.log2 : ℤ) + 1) := hnum₂
      _ = 2 ^ ((num.log2 : ℤ) - den.log2 + 1) * 2 ^ (den.log2 : ℤ) := by
          rw [← zpow_add₀ (by norm_num)]
          congr 1
          ring
      _ ≤ 2 ^ ((num.log2 : ℤ) - den.log2 + 1) * den :=
          mul_le_mul_of_nonneg_left hden₁ (two_zpow_pos _).le

/-- The exponent that is rounded with leaves a significand of fifty-three bits, or it is the least
one. -/
theorem exists_nearest_eq (hnum : 0 < num) (hden : 0 < den) :
    ∃ q : ℤ, -1074 ≤ q ∧
      nearest num den =
        roundEven (scaled num den q).1 (scaled num den q).2 + (q + 1074).toNat * leadingBit ∧
      (num / den : ℚ) < 2 * leadingBit * 2 ^ q ∧
      (q = -1074 ∨ leadingBit * 2 ^ q ≤ (num / den : ℚ)) := by
  obtain ⟨hlow, hhigh⟩ := log2_bounds hnum hden
  have hbit : (leadingBit : ℚ) = 2 ^ (52 : ℤ) := by norm_num [leadingBit]
  unfold nearest
  rw [if_neg hnum.ne']
  dsimp only
  generalize hq : max ((num.log2 : ℤ) - den.log2 - 53) (-1074) = q
  have hpos := scaled_pos num hden q
  -- the quotient of the scaled parts tells on which side of the next power of two the number is
  have hside : (scaled num den q).1 / (scaled num den q).2 < 2 * leadingBit ↔
      (num / den : ℚ) < 2 * leadingBit * 2 ^ q := by
    have hd : (0 : ℚ) < (scaled num den q).2 := by exact_mod_cast hpos
    rw [Nat.div_lt_iff_lt_mul hpos, ← div_lt_iff₀ (two_zpow_pos q), ← scaled_div, div_lt_iff₀ hd]
    norm_cast
  split_ifs with hlt
  · refine ⟨q, by omega, rfl, hside.mp hlt, ?_⟩
    rcases max_choice ((num.log2 : ℤ) - den.log2 - 53) (-1074) with hmax | hmax
    · right
      rw [hbit, ← zpow_add₀ (by norm_num)]
      refine le_of_eq_of_le ?_ hlow.le
      congr 1
      omega
    · exact Or.inl (hq ▸ hmax)
  · have hge := not_lt.mp (mt hside.mpr hlt)
    refine ⟨q + 1, by omega, by rw [add_assoc]; rfl, ?_, Or.inr ?_⟩
    · refine hhigh.trans_le ?_
      rw [hbit, mul_comm 2, ← zpow_add_one₀ (by norm_num), ← zpow_add₀ (by norm_num)]
      exact zpow_le_zpow_right₀ (by norm_num) (by omega)
    · rw [two_zpow_succ]
      linarith

theorem two_zpow_quarter (q : ℤ) : (2 : ℚ) ^ q = 4 * 2 ^ (q - 2) := by
  rw [zpow_sub₀ (by norm_num)]
  norm_num
  ring

theorem quartersBelow_le (b : ℕ) : quartersBelow b ≤ 2 := by
  unfold quartersBelow
  split_ifs <;> decide

/-- What rounds to a magnitude has no larger exponent than it … -/
theorem RoundsTo.le_exponent (h : RoundsTo x b) (hx : leadingBit * 2 ^ q ≤ x) :
    q ≤ exponent b := by
  by_contra hlt
  have hu := two_zpow_pos (exponent b - 2)
  have hm : (significand b + 1 : ℚ) ≤ 2 * leadingBit := by exact_mod_cast significand_lt b
  have hstep : 2 * (4 * 2 ^ (exponent b - 2)) ≤ (2 : ℚ) ^ q := by
    rw [← two_zpow_quarter, ← two_zpow_succ]
    exact zpow_le_zpow_right₀ (by norm_num) (by omega)
  have hL : (0 : ℚ) ≤ leadingBit := Nat.cast_nonneg _
  nlinarith [h.high, mul_le_mul_of_nonneg_left hstep hL, mul_le_mul_of_nonneg_right hm hu.le]

/-- … and a smaller one only just below a power of two. -/
theorem RoundsTo.exponent_le (h : RoundsTo x b) (hq : -1074 ≤ q) (hx : x < 2 * leadingBit * 2 ^ q) :
    exponent b ≤ q ∨ exponent b = q + 1 ∧ significand b = leadingBit := by
  by_contra hno
  push Not at hno
  obtain ⟨hlt, hboundary⟩ := hno
  have hu := two_zpow_pos (exponent b - 2)
  have hL : (0 : ℚ) < leadingBit := by norm_num [leadingBit]
  have hm := le_significand (b := b) (by omega)
  obtain heq | hgt := hm.eq_or_lt
  · -- two exponents below, the numbers end at half of this power of two
    have hstep : 2 * (2 : ℚ) ^ q ≤ 2 * 2 ^ (exponent b - 2) := by
      have hne := fun hq' => hboundary hq' heq.symm
      have hle : (2 : ℚ) ^ q ≤ 2 ^ (exponent b - 2) :=
        zpow_le_zpow_right₀ (by norm_num) (by omega)
      linarith
    have hquarters : (quartersBelow b : ℚ) ≤ 2 := by exact_mod_cast quartersBelow_le b
    have hlow := h.low
    rw [← heq] at hlow
    have hone : (1 : ℚ) ≤ leadingBit := by norm_num [leadingBit]
    nlinarith [mul_le_mul_of_nonneg_left hstep hL.le]
  · -- above the power of two no number of its interval lies below it
    have hstep : 2 * (2 : ℚ) ^ q ≤ 4 * 2 ^ (exponent b - 2) := by
      rw [← two_zpow_quarter, ← two_zpow_succ]
      exact zpow_le_zpow_right₀ (by norm_num) (by omega)
    have hquarters : (quartersBelow b : ℚ) ≤ 2 := by exact_mod_cast quartersBelow_le b
    have hmore : (leadingBit + 1 : ℚ) ≤ significand b := by exact_mod_cast hgt
    have hlow := h.low
    nlinarith [mul_le_mul_of_nonneg_left hstep hL.le]

/-- Scaled by the exponent of a magnitude, what rounds to it rounds to its significand. -/
theorem RoundsTo.roundEven_scaled (hden : 0 < den) (h : RoundsTo (num / den) b) :
    roundEven (scaled num den (exponent b)).1 (scaled num den (exponent b)).2 = significand b := by
  have hu := two_zpow_pos (exponent b - 2)
  have hquarters : (quartersBelow b : ℚ) ≤ 2 := by exact_mod_cast quartersBelow_le b
  have hunit := two_zpow_quarter (exponent b)
  have hlow := h.low
  have hhigh := h.high
  have heven := h.even
  refine roundEven_eq_of_near (scaled_pos num hden _) ?_ ?_ ?_ <;> rw [scaled_div, hunit]
  · rw [le_div_iff₀ (by positivity)]
    nlinarith
  · rw [div_le_iff₀ (by positivity)]
    linarith
  · generalize (num / den : ℚ) = x at hlow hhigh heven
    have hne : (4 * 2 ^ (exponent b - 2) : ℚ) ≠ 0 := by positivity
    rw [div_eq_iff hne, div_eq_iff hne]
    refine fun hend => heven (hend.imp (fun hx => ?_) fun hx => ?_)
    · exact hlow.antisymm' (by nlinarith)
    · rw [hx]
      ring

/-- Just below a power of two, what rounds to it is scaled by half of its unit and rounds to twice
its significand. -/
theorem RoundsTo.roundEven_scaled_half (hden : 0 < den) (h : RoundsTo (num / den) b)
    (hexp : exponent b = q + 1) (hq : -1074 ≤ q) (hm : significand b = leadingBit)
    (hlt : (num / den : ℚ) < 2 * leadingBit * 2 ^ q) :
    roundEven (scaled num den q).1 (scaled num den q).2 = 2 * leadingBit := by
  have hbelow : quartersBelow b = 1 := if_pos ⟨hm, by omega⟩
  have hlow := h.low
  have hunit : (2 : ℚ) ^ q = 2 * 2 ^ (exponent b - 2) := by
    rw [← two_zpow_succ]
    congr 1
    omega
  have hu := two_zpow_pos (exponent b - 2)
  rw [hunit] at hlt
  rw [hm, hbelow] at hlow
  refine roundEven_eq_of_near (scaled_pos num hden q) ?_ ?_ fun _ => by decide
  · rw [scaled_div, hunit, le_div_iff₀ (by positivity)]
    push_cast
    linarith
  · rw [scaled_div, hunit, div_le_iff₀ (by positivity)]
    push_cast
    linarith

/-- **A quotient is rounded to the magnitude whose interval it lies in.** -/
theorem nearest_eq (hnum : 0 < num) (hden : 0 < den) (h : RoundsTo (num / den) b) :
    nearest num den = b := by
  obtain ⟨q, hq, hnearest, hlt, hge⟩ := exists_nearest_eq hnum hden
  rw [hnearest]
  obtain hle | ⟨hexp, hm⟩ := h.exponent_le hq hlt
  · obtain rfl : q = exponent b :=
      (hge.elim (fun h => h.le.trans (le_exponent b)) h.le_exponent).antisymm hle
    rw [h.roundEven_scaled hden, significand_add_exponent]
  · have hsum := significand_add_exponent b
    have hnat : (exponent b + 1074).toNat = (q + 1074).toNat + 1 := by omega
    rw [hm, hnat, Nat.succ_mul] at hsum
    rw [h.roundEven_scaled_half hden hexp hq hm hlt]
    omega

/-! ### Decimals -/

theorem RoundsTo.two_zpow_le (hb : b ≠ 0) (h : RoundsTo x b) : 2 ^ (-1075 : ℤ) ≤ x := by
  have hm : (1 : ℚ) ≤ significand b := by exact_mod_cast significand_pos hb
  have hquarters : (quartersBelow b : ℚ) ≤ 2 := by exact_mod_cast quartersBelow_le b
  have hunit : (2 : ℚ) ^ (-1076 : ℤ) ≤ 2 ^ (exponent b - 2) := by
    have hexp := Double.le_exponent b
    exact zpow_le_zpow_right₀ (by norm_num) (by omega)
  calc (2 : ℚ) ^ (-1075 : ℤ) = 2 ^ (-1076 + 1 : ℤ) := rfl
    _ = 2 * 2 ^ (-1076 : ℤ) := two_zpow_succ _
    _ ≤ (4 * significand b - quartersBelow b) * 2 ^ (exponent b - 2) :=
      mul_le_mul (by linarith only [hm, hquarters]) hunit (two_zpow_pos _).le
        (by linarith only [hm, hquarters])
    _ ≤ x := h.low

theorem RoundsTo.lt_two_zpow (hb : b < magnitudes) (h : RoundsTo x b) : x < 2 ^ (1024 : ℤ) := by
  have hm : (significand b + 1 : ℚ) ≤ 2 * leadingBit := by exact_mod_cast significand_lt b
  have hexp : exponent b ≤ 971 := by
    have hquot : b / leadingBit < 2047 := (Nat.div_lt_iff_lt_mul (by decide)).mpr hb
    unfold exponent
    split_ifs <;> omega
  have hnonneg : (0 : ℚ) ≤ 8 * leadingBit := by positivity
  have hunit : (2 : ℚ) ^ (exponent b - 2) ≤ 2 ^ (969 : ℤ) :=
    zpow_le_zpow_right₀ (by norm_num) (by omega)
  have hu := two_zpow_pos (exponent b - 2)
  have hbits : (8 * leadingBit : ℚ) = 2 ^ (55 : ℤ) := by norm_num [leadingBit]
  calc x ≤ (4 * significand b + 2) * 2 ^ (exponent b - 2) := h.high
    _ < 8 * leadingBit * 2 ^ (exponent b - 2) := mul_lt_mul_of_pos_right (by linarith only [hm]) hu
    _ ≤ 8 * leadingBit * 2 ^ (969 : ℤ) := mul_le_mul_of_nonneg_left hunit hnonneg
    _ = 2 ^ (1024 : ℤ) := by
      rw [hbits, ← zpow_add₀ (by norm_num)]
      rfl

theorem RoundsTo.pos (hb : b ≠ 0) (h : RoundsTo x b) : 0 < x :=
  (two_zpow_pos _).trans_le (h.two_zpow_le hb)

theorem two_zpow_le_ten_zpow {k : ℤ} {n : ℕ} (h : k ≤ 3 * n) : (2 : ℚ) ^ k ≤ 10 ^ (n : ℤ) :=
  calc (2 : ℚ) ^ k ≤ 2 ^ (3 * n : ℤ) := zpow_le_zpow_right₀ (by norm_num) h
    _ = 8 ^ n := by
      rw [zpow_mul, zpow_natCast]
      norm_num
    _ ≤ 10 ^ (n : ℤ) := by
      rw [zpow_natCast]
      exact pow_le_pow_left₀ (by norm_num) (by norm_num) n

/-- The order of magnitude of a decimal. -/
theorem order_bounds {c : ℕ} (hc : c ≠ 0) (e : ℤ) :
    10 ^ (e + (Digits.decimal c).length - 1) ≤ (c * 10 ^ e : ℚ) ∧
      (c * 10 ^ e : ℚ) < 10 ^ (e + (Digits.decimal c).length) := by
  have hpos : (0 : ℚ) < 10 ^ e := zpow_pos (by norm_num) e
  have hlength : 0 < (Digits.decimal c).length := List.length_pos_iff.mpr Nat.toDigits_ne_nil
  constructor
  · have hle : (10 ^ ((Digits.decimal c).length - 1) : ℚ) ≤ c := by
      exact_mod_cast Digits.pow_le_of_ne_zero hc
    calc (10 : ℚ) ^ (e + (Digits.decimal c).length - 1)
        = 10 ^ ((Digits.decimal c).length - 1) * 10 ^ e := by
          rw [← zpow_natCast, ← zpow_add₀ (by norm_num)]
          congr 1
          omega
      _ ≤ c * 10 ^ e := mul_le_mul_of_nonneg_right hle hpos.le
  · have hlt : (c : ℚ) < 10 ^ (Digits.decimal c).length := by
      exact_mod_cast Digits.lt_pow_length c
    calc (c * 10 ^ e : ℚ) < 10 ^ (Digits.decimal c).length * 10 ^ e :=
          mul_lt_mul_of_pos_right hlt hpos
      _ = 10 ^ (e + (Digits.decimal c).length) := by
          rw [← zpow_natCast, ← zpow_add₀ (by norm_num), add_comm]

/-- **A decimal is rounded to the magnitude whose interval it lies in.** -/
theorem ofDecimal_eq (negative : Bool) {c : ℕ} {e : ℤ} (b : Fin magnitudes) (hb : b.val ≠ 0)
    (h : RoundsTo (c * 10 ^ e) b) : ofDecimal negative c e = .finite negative b := by
  have hc : c ≠ 0 := by
    rintro rfl
    simpa using h.pos hb
  obtain ⟨hlow, hhigh⟩ := order_bounds hc e
  have hratio : ∀ num den : ℕ, 0 < num → 0 < den → (c * 10 ^ e : ℚ) = num / den →
      ofRatio negative num den = .finite negative b := by
    intro num den hnum hden hx
    have hnearest := nearest_eq hnum hden (hx ▸ h)
    simp [ofRatio, hnearest]
  unfold ofDecimal
  rw [if_neg hc]
  dsimp only
  split_ifs with hlarge hsmall hsign
  · have hle : (10 : ℚ) ^ (400 : ℤ) ≤ 10 ^ (e + (Digits.decimal c).length - 1) :=
      zpow_le_zpow_right₀ (by norm_num) (by omega)
    have hmax : (2 : ℚ) ^ (1024 : ℤ) ≤ 10 ^ (400 : ℤ) := two_zpow_le_ten_zpow (by decide)
    exact absurd (h.lt_two_zpow b.isLt) (not_lt.mpr (hmax.trans (hle.trans hlow)))
  · have hle : (10 : ℚ) ^ (e + (Digits.decimal c).length) ≤ 10 ^ (-400 : ℤ) :=
      zpow_le_zpow_right₀ (by norm_num) (by omega)
    have hmin : (10 : ℚ) ^ (-400 : ℤ) ≤ 2 ^ (-1075 : ℤ) := by
      rw [zpow_neg, zpow_neg]
      exact inv_anti₀ (two_zpow_pos _) (two_zpow_le_ten_zpow (by decide))
    exact absurd (h.two_zpow_le hb) (not_le.mpr (hhigh.trans_le (hle.trans hmin)))
  · obtain ⟨n, rfl⟩ := Int.eq_ofNat_of_zero_le hsign
    exact hratio _ _ (Nat.mul_pos (Nat.pos_of_ne_zero hc) (Nat.pow_pos (by decide))) (by decide)
      (by simp)
  · obtain ⟨n, rfl⟩ : ∃ n : ℕ, e = -n := ⟨(-e).toNat, by omega⟩
    exact hratio _ _ (Nat.pos_of_ne_zero hc) (Nat.pow_pos (by decide)) (by simp [div_eq_mul_inv])

end Nullary.Double
