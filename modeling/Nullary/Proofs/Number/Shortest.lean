import Nullary.Number.Shortest
import Nullary.Proofs.Number.Nearest

/-!
# Shortest decimals round back

A grid point that is chosen lies in the interval it was looked for in (`Shortest.onGrid_eq_some`),
and on a grid whose unit is smaller than the interval there is one (`Shortest.exists_onGrid`).  The
grid of seventeen digits is fine enough for every magnitude.
Main statement: `Shortest.roundsTo_worth_digits`.
-/

namespace Nullary

namespace Shortest

/-- The numbers of an interval. -/
structure Interval.Has (i : Interval) (x : ℚ) : Prop where
  low : i.low ≤ x * i.den
  high : x * i.den ≤ i.high
  closed : x * i.den = i.low ∨ x * i.den = i.high → i.closed = true

variable {i : Interval} {unit scale c : ℕ} {step : ℤ} {tie : Tie}

theorem inside_iff (hscale : 0 < scale) (hunit : (unit : ℚ) = 10 ^ step * i.den * scale) :
    (if i.closed then i.low * scale ≤ c * unit && c * unit ≤ i.high * scale
      else i.low * scale < c * unit && c * unit < i.high * scale : Bool) = true ↔
      i.Has (c * 10 ^ step) := by
  have hs : (0 : ℚ) < scale := by exact_mod_cast hscale
  have hpoint : (c * unit : ℚ) = c * 10 ^ step * i.den * scale := by
    rw [hunit]
    ring
  have hle : i.low * scale ≤ c * unit ↔ (i.low : ℚ) ≤ c * 10 ^ step * i.den := by
    rw [← mul_le_mul_iff_left₀ hs, ← hpoint]
    norm_cast
  have hge : c * unit ≤ i.high * scale ↔ c * 10 ^ step * i.den ≤ (i.high : ℚ) := by
    rw [← mul_le_mul_iff_left₀ hs, ← hpoint]
    norm_cast
  have hlt : i.low * scale < c * unit ↔ (i.low : ℚ) < c * 10 ^ step * i.den := by
    rw [← mul_lt_mul_iff_left₀ hs, ← hpoint]
    norm_cast
  have hgt : c * unit < i.high * scale ↔ c * 10 ^ step * i.den < (i.high : ℚ) := by
    rw [← mul_lt_mul_iff_left₀ hs, ← hpoint]
    norm_cast
  split_ifs with hclosed
  · rw [Bool.and_eq_true, decide_eq_true_iff, decide_eq_true_iff, hle, hge]
    exact ⟨fun h => ⟨h.1, h.2, fun _ => hclosed⟩, fun h => ⟨h.low, h.high⟩⟩
  · rw [Bool.and_eq_true, decide_eq_true_iff, decide_eq_true_iff, hlt, hgt]
    refine ⟨fun h => ⟨h.1.le, h.2.le, ?_⟩, fun h => ⟨h.low.lt_of_ne ?_, h.high.lt_of_ne ?_⟩⟩
    · rintro (heq | heq)
      · exact absurd heq h.1.ne'
      · exact absurd heq h.2.ne
    · exact fun heq => hclosed (h.closed (Or.inl heq.symm))
    · exact fun heq => hclosed (h.closed (Or.inr heq))

/-- The unit of a grid, over the denominator of an interval and a scale that makes it whole. -/
theorem unit_eq (den : ℕ) (step : ℤ) :
    ((if 0 ≤ step then Nat.pow 10 step.toNat * den else den : ℕ) : ℚ) =
      10 ^ step * den * (if 0 ≤ step then 1 else Nat.pow 10 (-step).toNat : ℕ) := by
  split_ifs with h
  · obtain ⟨n, rfl⟩ := Int.eq_ofNat_of_zero_le h
    simp
  · obtain ⟨n, rfl⟩ : ∃ n : ℕ, step = -n := ⟨(-step).toNat, by omega⟩
    have hne : (10 ^ n : ℚ) ≠ 0 := pow_ne_zero _ (by norm_num)
    simp
    field_simp

theorem scale_pos (step : ℤ) : 0 < (if 0 ≤ step then 1 else Nat.pow 10 (-step).toNat : ℕ) := by
  split_ifs
  · decide
  · exact Nat.pow_pos (by decide)

/-- A grid point that is chosen lies in the interval. -/
theorem onGrid_eq_some (h : onGrid tie i step = some c) : i.Has (c * 10 ^ step) := by
  have hinside := fun c => inside_iff (c := c) (scale_pos step) (unit_eq i.den step)
  unfold onGrid at h
  dsimp only at h
  generalize (if 0 ≤ step then 1 else Nat.pow 10 (-step).toNat) = scale at h hinside
  generalize (if 0 ≤ step then Nat.pow 10 step.toNat * i.den else i.den) = unit at h hinside
  generalize i.value * scale / unit = floor at h
  split at h
  · next hfloor hnext =>
    split_ifs at h
    · exact Option.some.inj h ▸ (hinside _).mp hfloor
    · exact Option.some.inj h ▸ (hinside _).mp hnext
  · next hfloor _ => exact Option.some.inj h ▸ (hinside _).mp hfloor
  · next _ hnext => exact Option.some.inj h ▸ (hinside _).mp hnext
  · cases h

/-- Of two neighbouring multiples one is no further than half a unit from what is between them. -/
theorem multiple_inside {low value high : ℕ} (hunit : 0 < unit)
    (hlow : 2 * low + unit < 2 * value) (hhigh : 2 * value + unit < 2 * high) :
    (low < value / unit * unit ∧ value / unit * unit < high) ∨
      (low < (value / unit + 1) * unit ∧ (value / unit + 1) * unit < high) := by
  have hdiv := Nat.div_add_mod' value unit
  have hmod := Nat.mod_lt value hunit
  have hnext : (value / unit + 1) * unit = value / unit * unit + unit := Nat.succ_mul _ _
  omega

/-- One of the value's neighbours on a grid lies in the interval where this reaches further than
half of the grid's unit both ways. -/
theorem exists_onGrid (tie : Tie) (hden : 0 < i.den)
    (hlow : 10 ^ step * i.den < 2 * (i.value - i.low : ℚ))
    (hhigh : 10 ^ step * i.den < 2 * (i.high - i.value : ℚ)) :
    ∃ c, onGrid tie i step = some c := by
  have hscale := scale_pos step
  have hunit := unit_eq i.den step
  unfold onGrid
  dsimp only
  generalize (if 0 ≤ step then 1 else Nat.pow 10 (-step).toNat) = scale at hscale hunit ⊢
  generalize (if 0 ≤ step then Nat.pow 10 step.toNat * i.den else i.den) = unit at hunit ⊢
  have hs : (0 : ℚ) < scale := by exact_mod_cast hscale
  have hpos : 0 < unit := by
    have hd : (0 : ℚ) < i.den := by exact_mod_cast hden
    have : (0 : ℚ) < unit := hunit ▸ by positivity
    exact_mod_cast this
  have hbelow : 2 * (i.low * scale) + unit < 2 * (i.value * scale) := by
    have := mul_lt_mul_of_pos_right hlow hs
    have : (2 * (i.low * scale) + unit : ℚ) < 2 * (i.value * scale) := by linarith
    exact_mod_cast this
  have habove : 2 * (i.value * scale) + unit < 2 * (i.high * scale) := by
    have := mul_lt_mul_of_pos_right hhigh hs
    have : (2 * (i.value * scale) + unit : ℚ) < 2 * (i.high * scale) := by linarith
    exact_mod_cast this
  have hinside : ∀ c, i.low * scale < c * unit → c * unit < i.high * scale →
      (if i.closed then i.low * scale ≤ c * unit && c * unit ≤ i.high * scale
        else i.low * scale < c * unit && c * unit < i.high * scale : Bool) = true := by
    intro c hlow hhigh
    split_ifs
    · simp [hlow.le, hhigh.le]
    · simp [hlow, hhigh]
  obtain ⟨hlow, hhigh⟩ | ⟨hlow, hhigh⟩ := multiple_inside hpos hbelow habove
  · rw [hinside _ hlow hhigh]
    split
    · split_ifs <;> exact ⟨_, rfl⟩
    all_goals first | exact ⟨_, rfl⟩ | contradiction
  · rw [hinside _ hlow hhigh]
    split
    · split_ifs <;> exact ⟨_, rfl⟩
    all_goals first | exact ⟨_, rfl⟩ | contradiction

/-! ### The interval of a magnitude -/

variable {b : ℕ}

theorem interval_den_pos (b : ℕ) : 0 < (interval b).den := by
  unfold interval
  dsimp only
  split_ifs
  · decide
  · exact Nat.pow_pos (by decide)

/-- The quarter unit of a magnitude, over the denominator of its interval. -/
theorem quarter_eq (q : ℤ) :
    ((if 0 ≤ q then Nat.pow 2 q.toNat else 1 : ℕ) : ℚ) =
      2 ^ q * (if 0 ≤ q then 1 else Nat.pow 2 (-q).toNat : ℕ) := by
  split_ifs with h
  · obtain ⟨n, rfl⟩ := Int.eq_ofNat_of_zero_le h
    simp
  · obtain ⟨n, rfl⟩ : ∃ n : ℕ, q = -n := ⟨(-q).toNat, by omega⟩
    simp

open Double

/-- The ends of an interval and its value, in quarters of the magnitude's unit. -/
theorem interval_eq (hb : b ≠ 0) :
    ((interval b).low : ℚ) = (4 * significand b - quartersBelow b) * 2 ^ (exponent b - 2) *
      (interval b).den ∧
    ((interval b).value : ℚ) = 4 * significand b * 2 ^ (exponent b - 2) * (interval b).den ∧
    ((interval b).high : ℚ) = (4 * significand b + 2) * 2 ^ (exponent b - 2) *
      (interval b).den ∧
    (interval b).closed = (significand b % 2 == 0) := by
  have hquarter := quarter_eq (exponent b - 2)
  have hbelow : (if significand b = leadingBit ∧ exponent b - 2 ≠ -1076 then 1 else 2) =
      quartersBelow b := by
    unfold quartersBelow
    congr 1
    rw [eq_iff_iff]
    refine and_congr_right fun _ => not_congr ?_
    omega
  have hle : quartersBelow b ≤ 4 * significand b := by
    have hpos := significand_pos hb
    have hquarters := quartersBelow_le b
    omega
  unfold interval
  dsimp only
  rw [hbelow]
  push_cast [Nat.cast_sub hle]
  push_cast at hquarter
  rw [hquarter]
  refine ⟨by ring, by ring, by ring, rfl⟩

theorem Interval.Has.roundsTo (hb : b ≠ 0) {x : ℚ} (h : (interval b).Has x) : RoundsTo x b := by
  obtain ⟨hlow, -, hhigh, hclosed⟩ := interval_eq hb
  have hd : (0 : ℚ) < (interval b).den := by exact_mod_cast interval_den_pos b
  refine ⟨?_, ?_, fun hend => ?_⟩
  · exact le_of_mul_le_mul_right (hlow ▸ h.low) hd
  · exact le_of_mul_le_mul_right (hhigh ▸ h.high) hd
  · have heven := h.closed (hend.imp (fun hx => by rw [hx, hlow]) fun hx => by rw [hx, hhigh])
    simpa [hclosed] using heven

/-! ### Grids -/

theorem pow_pointOf_le {num : ℕ} (den : ℕ) (hnum : num ≠ 0) :
    (10 : ℚ) ^ (pointOf num den - 1) * den ≤ num := by
  have hn : (10 : ℚ) ^ ((Digits.decimal num).length - 1) ≤ num := by
    exact_mod_cast Digits.pow_le_of_ne_zero hnum
  have hd : (den : ℚ) ≤ 10 ^ (Digits.decimal den).length := by
    exact_mod_cast (Digits.lt_pow_length den).le
  have hlength : 0 < (Digits.decimal num).length := List.length_pos_iff.mpr Nat.toDigits_ne_nil
  have hcoarse : (10 : ℚ) ^ (((Digits.decimal num).length : ℤ) - (Digits.decimal den).length - 1) *
      den ≤ num :=
    calc (10 : ℚ) ^ (((Digits.decimal num).length : ℤ) - (Digits.decimal den).length - 1) * den
        ≤ 10 ^ (((Digits.decimal num).length : ℤ) - (Digits.decimal den).length - 1) *
          10 ^ (Digits.decimal den).length := mul_le_mul_of_nonneg_left hd (by positivity)
      _ = 10 ^ ((Digits.decimal num).length - 1) := by
          rw [← zpow_natCast, ← zpow_natCast, ← zpow_add₀ (by norm_num)]
          congr 1
          omega
      _ ≤ num := hn
  unfold pointOf
  dsimp only
  generalize ((Digits.decimal num).length : ℤ) - (Digits.decimal den).length = d at hcoarse ⊢
  split_ifs with hsign hreached hreached
  · obtain ⟨n, rfl⟩ := Int.eq_ofNat_of_zero_le hsign
    have hle : (den * 10 ^ n : ℚ) ≤ num := by exact_mod_cast hreached
    rw [add_sub_cancel_right, mul_comm]
    simpa using hle
  · exact hcoarse
  · obtain ⟨n, rfl⟩ : ∃ n : ℕ, d = -n := ⟨(-d).toNat, by omega⟩
    have hle : (den : ℚ) ≤ num * 10 ^ n := by
      have hnat : den ≤ num * 10 ^ n := by simpa using hreached
      exact_mod_cast hnat
    have hten : (0 : ℚ) < 10 ^ n := by positivity
    rw [add_sub_cancel_right, zpow_neg, zpow_natCast, inv_mul_le_iff₀ hten, mul_comm]
    exact hle
  · exact hcoarse

/-- On the grid of seventeen digits there is a point in the interval of every magnitude. -/
theorem exists_onGrid_seventeen (tie : Tie) (hb : b ≠ 0) :
    ∃ c, onGrid tie (interval b) (pointOf (interval b).value (interval b).den - 17) = some c := by
  obtain ⟨hlow, hvalue, hhigh, -⟩ := interval_eq hb
  have hu := two_zpow_pos (exponent b - 2)
  have hd : (0 : ℚ) < (interval b).den := by exact_mod_cast interval_den_pos b
  have hm : (0 : ℚ) < significand b := by exact_mod_cast significand_pos hb
  have hne : (interval b).value ≠ 0 := by
    have : (0 : ℚ) < (interval b).value := by
      rw [hvalue]
      positivity
    exact_mod_cast this.ne'
  -- the value has sixteen times the grid's power of ten, its interval as much of a significand
  have hfine : (4 * significand b : ℚ) < 10 ^ 16 * (2 * quartersBelow b) := by
    have hlt := significand_lt b
    have hnat : 4 * significand b < 10 ^ 16 * (2 * quartersBelow b) := by
      unfold quartersBelow leadingBit at *
      split_ifs <;> omega
    exact_mod_cast hnat
  have hunit : (10 : ℚ) ^ (pointOf (interval b).value (interval b).den - 17) * (interval b).den <
      2 * quartersBelow b * 2 ^ (exponent b - 2) * (interval b).den := by
    have hpoint := pow_pointOf_le (interval b).den hne
    generalize pointOf (interval b).value (interval b).den = p at hpoint ⊢
    have hsplit : (10 : ℚ) ^ (p - 1) = 10 ^ 16 * 10 ^ (p - 17) := by
      rw [← zpow_natCast, ← zpow_add₀ (by norm_num)]
      congr 1
      push_cast
      ring
    rw [hvalue, hsplit] at hpoint
    have hprod := mul_lt_mul_of_pos_right hfine (mul_pos hu hd)
    linarith
  have hquarters : (quartersBelow b : ℚ) ≤ 2 := by exact_mod_cast quartersBelow_le b
  have hwide := mul_le_mul_of_nonneg_right hquarters (mul_pos hu hd).le
  refine exists_onGrid tie (interval_den_pos b) ?_ ?_
  · rw [hvalue, hlow]
    linarith
  · rw [hvalue, hhigh]
    linarith

/-- The digits of a magnitude are those of a point in its interval. -/
theorem exists_digits_eq (tie : Tie) (hb : b ≠ 0) :
    ∃ (c : ℕ) (step : ℤ), RoundsTo (c * 10 ^ step) b ∧
      digits tie b = ⟨trimmed c, step + (Digits.decimal c).length⟩ := by
  unfold digits
  rw [if_neg hb]
  dsimp only
  split
  · next c step hfound =>
    obtain ⟨n, -, hn⟩ := List.exists_of_findSome?_eq_some hfound
    obtain ⟨c', hc', hpair⟩ := Option.map_eq_some_iff.mp hn
    obtain ⟨rfl, rfl⟩ := Prod.mk.inj hpair
    exact ⟨c', _, (onGrid_eq_some hc').roundsTo hb, rfl⟩
  · next hnone =>
    have hlast := List.findSome?_eq_none_iff.mp hnone 16 (by decide)
    obtain ⟨c, hc⟩ := exists_onGrid_seventeen tie hb
    rw [Option.map_eq_none_iff] at hlast
    cases hc.symm.trans hlast

end Shortest

/-! ### Numerals -/

namespace Numeral

/-- The number that a numeral stands for. -/
def worth (n : Numeral) : ℚ :=
  Digits.value 10 n.digits * 10 ^ (n.point - n.digits.length)

/-- Digits of which only the numeral of zero begins with a zero. -/
structure Normal (n : Numeral) : Prop where
  digits : ∀ c ∈ n.digits, c.isDigit = true
  nonempty : n.digits ≠ []
  leading : n.digits.head? ≠ some '0' ∨ n = ⟨['0'], 1⟩

end Numeral

namespace Shortest

/-- What is trimmed are zeros at the end. -/
theorem exists_decimal_eq_trimmed (c : ℕ) :
    ∃ n, Digits.decimal c = trimmed c ++ List.replicate n '0' := by
  have hsplit := List.takeWhile_append_dropWhile (p := (· == '0')) (l := (Digits.decimal c).reverse)
  have hzeros : (Digits.decimal c).reverse.takeWhile (· == '0') =
      List.replicate ((Digits.decimal c).reverse.takeWhile (· == '0')).length '0' :=
    List.eq_replicate_iff.mpr ⟨rfl, fun d hd => by
      simpa using List.all_eq_true.mp List.all_takeWhile d hd⟩
  refine ⟨((Digits.decimal c).reverse.takeWhile (· == '0')).length, ?_⟩
  rw [hzeros] at hsplit
  simpa [trimmed] using (congrArg List.reverse hsplit).symm

theorem worth_trimmed (c : ℕ) (step : ℤ) :
    Numeral.worth ⟨trimmed c, step + (Digits.decimal c).length⟩ = c * 10 ^ step := by
  obtain ⟨n, hn⟩ := exists_decimal_eq_trimmed c
  have hvalue := Digits.value_decimal c
  rw [hn, Digits.value_append, Digits.value_zeros, List.length_replicate, Nat.add_zero] at hvalue
  have hpoint : step + (Digits.decimal c).length - (trimmed c).length = n + step := by
    rw [hn, List.length_append, List.length_replicate]
    omega
  rw [Numeral.worth, hpoint, zpow_add₀ (by norm_num), zpow_natCast, ← mul_assoc]
  congr 1
  exact_mod_cast hvalue

/-- **The shortest numeral of a magnitude rounds to it.** -/
theorem roundsTo_worth_digits (tie : Tie) {b : ℕ} (hb : b ≠ 0) :
    Double.RoundsTo (digits tie b).worth b := by
  obtain ⟨c, step, hrounds, hdigits⟩ := exists_digits_eq tie hb
  rwa [hdigits, worth_trimmed]

theorem digits_zero (tie : Tie) : digits tie 0 = ⟨['0'], 1⟩ := rfl

theorem worth_digits_zero (tie : Tie) : (digits tie 0).worth = 0 := by
  have hvalue : Digits.value 10 ['0'] = 0 := rfl
  simp [digits_zero, Numeral.worth, hvalue]

theorem normal_digits (tie : Tie) (b : ℕ) : (digits tie b).Normal := by
  by_cases hb : b = 0
  · subst hb
    rw [digits_zero]
    exact ⟨Decimal.whole_zero.digits, Decimal.whole_zero.nonempty, Or.inr rfl⟩
  · obtain ⟨c, step, hrounds, hdigits⟩ := exists_digits_eq tie hb
    obtain ⟨n, hn⟩ := exists_decimal_eq_trimmed c
    have hc : c ≠ 0 := by
      rintro rfl
      simpa using hrounds.pos hb
    have hhead := Digits.head?_decimal hc
    rw [hdigits]
    cases htrim : trimmed c with
    | nil =>
      rw [htrim, List.nil_append] at hn
      cases n with
      | zero => exact absurd hn Nat.toDigits_ne_nil
      | succ n => exact absurd (hn ▸ rfl) hhead
    | cons d ds =>
      rw [htrim] at hn
      refine ⟨fun d' hd' => ?_, List.cons_ne_nil _ _, Or.inl ?_⟩
      · have hmem : d' ∈ Digits.decimal c := by
          rw [hn]
          exact List.mem_append_left _ hd'
        exact Digits.isDigit_of_mem_decimal hmem
      · rwa [hn] at hhead

end Shortest

end Nullary
