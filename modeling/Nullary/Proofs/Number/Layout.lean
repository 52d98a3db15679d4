import Nullary.Number.Layout
import Nullary.Proofs.Number.Shortest

/-!
# Printed doubles read back

Whatever layout a double is printed in, as long as whole numbers keep a fraction, what is scanned is
a decimal that stands for the double's numeral (`Layout.exists_parts`).  Main statement:
`Layout.exists_scan?_render`, the double that is nearest to what is scanned is the printed one.
-/

namespace Nullary

namespace Decimal

/-- The power of ten that an exponent gives. -/
def shift : Option (Bool × List Char) → ℤ
  | none => 0
  | some (negative, ds) => if negative then -(Digits.value 10 ds : ℤ) else Digits.value 10 ds

/-- The number that a decimal stands for, but for its sign. -/
def worth (d : Decimal) : ℚ :=
  Digits.value 10 (d.whole ++ d.fraction) * 10 ^ (shift d.exponent - d.fraction.length)

theorem toDouble_eq (d : Decimal) : d.toDouble = Double.ofDecimal d.negative
    (Digits.value 10 (d.whole ++ d.fraction)) (shift d.exponent - d.fraction.length) := by
  unfold toDouble shift
  cases d.exponent <;> rfl

/-- A decimal that rounds to a magnitude is nearest to it. -/
theorem toDouble_of_roundsTo {d : Decimal} {b : Fin Double.magnitudes} (hb : b.val ≠ 0)
    (h : Double.RoundsTo d.worth b) : d.toDouble = .finite d.negative b := by
  rw [toDouble_eq]
  exact Double.ofDecimal_eq _ b hb h

theorem toDouble_of_worth_eq_zero {d : Decimal} (h : d.worth = 0) :
    d.toDouble = Double.zero d.negative := by
  have hzero : Digits.value 10 (d.whole ++ d.fraction) = 0 := by
    have hten : (10 : ℚ) ^ (shift d.exponent - d.fraction.length) ≠ 0 :=
      zpow_ne_zero _ (by norm_num)
    exact_mod_cast (mul_eq_zero.mp h).resolve_right hten
  rw [toDouble_eq, hzero]
  rfl

end Decimal

namespace Layout

open Decimal

variable {l : Layout} {n : Numeral}

/-- The parts of a printed numeral: digits before the point, digits after it, and an exponent, which
together stand for the numeral and tell it from an integer. -/
structure Parts (n : Numeral) (cs ds fs es : List Char) (e : Option (Bool × List Char)) : Prop where
  eq : cs = ds ++ (pointed fs ++ es)
  whole : Whole ds
  fraction : ∀ c ∈ fs, c.isDigit = true
  exponent : Exponent es e
  marks : ∀ c ∈ es, c.isDigit = true ∨ c ∈ ['e', '+', '-']
  apart : fs ≠ [] ∨ e ≠ none
  worth : ∀ negative, Decimal.worth ⟨negative, ds, fs, e⟩ = n.worth

theorem worth_eq {negative : Bool} {ds fs : List Char} {e : Option (Bool × List Char)}
    {k : ℕ} (hvalue : Digits.value 10 (ds ++ fs) = Digits.value 10 n.digits * 10 ^ k)
    (hshift : shift e - fs.length + k = n.point - n.digits.length) :
    Decimal.worth ⟨negative, ds, fs, e⟩ = n.worth := by
  rw [Decimal.worth, Numeral.worth, ← hshift, zpow_add₀ (by norm_num), hvalue]
  push_cast
  rw [zpow_natCast]
  ring

theorem isDigit_of_mem_zeros {k : ℕ} {c : Char} (h : c ∈ List.replicate k '0') :
    c.isDigit = true :=
  List.eq_of_mem_replicate h ▸ rfl

theorem whole_take (hn : n.Normal) {k : ℕ} (hk : 0 < k) :
    Whole (n.digits.take k) where
  digits := fun c hc => hn.digits c (List.mem_of_mem_take hc)
  nonempty := by simp [hn.nonempty, hk.ne']
  leading := by
    refine hn.leading.imp (fun hhead => ?_) fun hzero => ?_
    · rwa [List.head?_take, if_neg hk.ne']
    · rw [hzero]
      exact List.take_of_length_le hk

/-- Without an exponent, the digits on both sides of the point are those of the numeral. -/
theorem parts_of_pointed {ds fs : List Char} {k : ℕ} (hds : Whole ds)
    (hfs : ∀ c ∈ fs, c.isDigit = true) (hne : fs ≠ [])
    (hvalue : Digits.value 10 (ds ++ fs) = Digits.value 10 n.digits * 10 ^ k)
    (hshift : -(fs.length : ℤ) + k = n.point - n.digits.length) :
    Parts n (ds ++ '.' :: fs) ds fs [] none where
  eq := by simp [pointed, hne]
  whole := hds
  fraction := hfs
  exponent := exponent_nil
  marks := List.forall_mem_nil _
  apart := Or.inl hne
  worth := fun _ => worth_eq hvalue (by rwa [shift, zero_sub])

/-- All digits stand after the point, behind zeros. -/
theorem parts_leading (hn : n.Normal) (h : n.point ≤ 0) :
    Parts n ('0' :: '.' :: (List.replicate (-n.point).toNat '0' ++ n.digits)) ['0']
      (List.replicate (-n.point).toNat '0' ++ n.digits) [] none := by
  refine parts_of_pointed (k := 0) whole_zero (fun c hc => ?_)
    (List.append_ne_nil_of_right_ne_nil _ hn.nonempty) ?_ ?_
  · exact (List.mem_append.mp hc).elim isDigit_of_mem_zeros (hn.digits c)
  · rw [← List.append_assoc, Digits.value_append, List.singleton_append, ← List.replicate_succ,
      Digits.value_zeros, Nat.zero_mul, Nat.zero_add, pow_zero, Nat.mul_one]
  · rw [List.length_append, List.length_replicate]
    omega

/-- All digits stand before the point, and zeros behind them. -/
theorem parts_trailing (hn : n.Normal) (h : n.digits.length ≤ n.point.toNat) :
    Parts n (n.digits ++ List.replicate (n.point.toNat - n.digits.length) '0' ++ ['.', '0'])
      (n.digits ++ List.replicate (n.point.toNat - n.digits.length) '0') ['0'] [] none := by
  have hlength := List.length_pos_iff.mpr hn.nonempty
  refine parts_of_pointed (k := n.point.toNat - n.digits.length + 1) ⟨fun c hc => ?_,
    List.append_ne_nil_of_left_ne_nil hn.nonempty _, ?_⟩ whole_zero.digits (by decide) ?_ ?_
  · exact (List.mem_append.mp hc).elim (hn.digits c) isDigit_of_mem_zeros
  · refine hn.leading.imp (fun hhead => ?_) fun hzero => ?_
    · rwa [List.head?_append_of_ne_nil _ hn.nonempty]
    · rw [hzero]
      rfl
  · rw [List.append_assoc, ← List.replicate_succ', Digits.value_append, Digits.value_zeros,
      List.length_replicate, Nat.add_zero]
  · rw [List.length_singleton]
    omega

/-- The point stands between the digits. -/
theorem parts_between (hn : n.Normal) (hpos : 0 < n.point)
    (h : n.point.toNat < n.digits.length) :
    Parts n (n.digits.take n.point.toNat ++ '.' :: n.digits.drop n.point.toNat)
      (n.digits.take n.point.toNat) (n.digits.drop n.point.toNat) [] none := by
  refine parts_of_pointed (k := 0) (whole_take hn (by omega))
    (fun c hc => hn.digits c (List.mem_of_mem_drop hc)) ?_ ?_ ?_
  · rw [Ne, List.drop_eq_nil_iff]
    omega
  · rw [List.take_append_drop, pow_zero, Nat.mul_one]
  · rw [List.length_drop]
    omega

theorem parts_positional (hl : l.wholeFraction = true) (hn : n.Normal) :
    ∃ ds fs, Parts n (l.positional n) ds fs [] none := by
  unfold positional
  dsimp only
  split_ifs with hsmall hwhole
  · exact ⟨_, _, parts_leading hn hsmall⟩
  · exact ⟨_, _, parts_trailing hn hwhole⟩
  · exact ⟨_, _, parts_between hn (Int.not_le.mp hsmall) (Nat.not_le.mp hwhole)⟩

theorem value_padded (width m : ℕ) : Digits.value 10 (Digits.padded width m) = m := by
  rw [Digits.padded, Digits.padLeft, Digits.value_append, Digits.value_zeros, Digits.value_decimal,
    Nat.zero_mul, Nat.zero_add]

theorem parts_withExponent (l : Layout) (hn : n.Normal) :
    ∃ ds fs es e, Parts n (l.withExponent n) ds fs es e := by
  have hlength := List.length_pos_iff.mpr hn.nonempty
  have hpadded : ∀ c ∈ Digits.padded l.exponentWidth (n.point - 1).natAbs, c.isDigit = true :=
    fun c hc => (List.mem_append.mp hc).elim isDigit_of_mem_zeros Digits.isDigit_of_mem_decimal
  have hne : Digits.padded l.exponentWidth (n.point - 1).natAbs ≠ [] :=
    List.append_ne_nil_of_right_ne_nil _ Nat.toDigits_ne_nil
  have hsigns : Signs (if n.point - 1 < 0 then ['-'] else if l.plus then ['+'] else [])
      (n.point - 1 < 0) := by
    unfold Signs
    split_ifs with hneg hplus <;> simp [hneg]
  refine ⟨n.digits.take 1, n.digits.drop 1, _, _, ?_, ?_,
    fun c hc => hn.digits c (List.mem_of_mem_drop hc), exponent_cons hsigns hpadded hne, ?_,
    Or.inr (Option.some_ne_none _), fun _ => worth_eq (k := 0) ?_ ?_⟩
  · simp [withExponent, pointed]
  · exact whole_take hn Nat.one_pos
  · refine List.forall_mem_cons.mpr ⟨Or.inr (by decide), fun c hc => ?_⟩
    refine (List.mem_append.mp hc).elim (fun hsign => Or.inr ?_) fun hc => Or.inl (hpadded c hc)
    split_ifs at hsign with hneg hplus
    · simp [List.mem_singleton.mp hsign]
    · simp [List.mem_singleton.mp hsign]
    · cases hsign
  · rw [List.take_append_drop, pow_zero, Nat.mul_one]
  · simp only [shift, value_padded, List.length_drop, decide_eq_true_eq]
    split_ifs <;> omega

/-- A printed numeral has parts that stand for it. -/
theorem exists_parts (hl : l.wholeFraction = true) (hn : n.Normal) :
    ∃ ds fs es e, Parts n (l.unsigned n) ds fs es e := by
  unfold unsigned
  split_ifs
  · obtain ⟨ds, fs, h⟩ := parts_positional hl hn
    exact ⟨ds, fs, [], none, h⟩
  · exact parts_withExponent l hn

theorem render_finite (l : Layout) (negative : Bool) (b : Fin Double.magnitudes) :
    (l.render (.finite negative b)).toList =
      minus negative ++ l.unsigned (Shortest.digits l.tie b) := by
  rw [render, String.toList_ofList, minus]

/-- A printed double begins like an integer. -/
theorem exists_render_eq (hl : l.wholeFraction = true) (negative : Bool)
    (b : Fin Double.magnitudes) : ∃ ds cs, Whole ds ∧
      (l.render (.finite negative b)).toList = minus negative ++ (ds ++ cs) := by
  obtain ⟨ds, fs, es, e, h⟩ := exists_parts hl (Shortest.normal_digits l.tie b)
  exact ⟨ds, pointed fs ++ es, h.whole, by rw [render_finite, h.eq]⟩

/-- **A printed double is read back.** -/
theorem exists_scan?_render (hl : l.wholeFraction = true) (negative : Bool)
    (b : Fin Double.magnitudes) {rest : List Char} (hr : Ends rest) :
    ∃ d, scan? ⟨false, false⟩ ((l.render (.finite negative b)).toList ++ rest) = some (d, rest) ∧
      d.isInteger = false ∧ d.toDouble = .finite negative b := by
  obtain ⟨ds, fs, es, e, h⟩ := exists_parts hl (Shortest.normal_digits l.tie b)
  have htext : (l.render (.finite negative b)).toList ++ rest =
      minus negative ++ (ds ++ (pointed fs ++ (es ++ rest))) := by
    simp [render_finite, h.eq]
  refine ⟨⟨negative, ds, fs, e⟩, ?_, ?_, ?_⟩
  · rw [htext, scan?_append negative h.whole h.fraction h.exponent hr]
  · obtain hfs | he := h.apart
    · simp [isInteger, hfs]
    · simp [isInteger, Option.isSome_iff_ne_none.mpr he]
  · by_cases hb : b.val = 0
    · obtain rfl : b = ⟨0, by decide⟩ := Fin.ext hb
      exact toDouble_of_worth_eq_zero ((h.worth negative).trans (Shortest.worth_digits_zero l.tie))
    · refine toDouble_of_roundsTo hb ?_
      rw [h.worth]
      exact Shortest.roundsTo_worth_digits l.tie hb

/-! ### The characters of a printed double -/

theorem mem_render (hl : l.wholeFraction = true) {negative : Bool} {b : Fin Double.magnitudes}
    {c : Char} (hc : c ∈ (l.render (.finite negative b)).toList) :
    c.isDigit = true ∨ c ∈ ['.', 'e', '+', '-'] := by
  obtain ⟨ds, fs, es, e, h⟩ := exists_parts hl (Shortest.normal_digits l.tie b)
  rw [render_finite, h.eq] at hc
  simp only [List.mem_append] at hc
  obtain hsign | hwhole | hfraction | hexponent := hc
  · cases negative with
    | true => exact Or.inr (by simp [List.mem_singleton.mp hsign])
    | false => cases hsign
  · exact Or.inl (h.whole.digits c hwhole)
  · unfold pointed at hfraction
    split_ifs at hfraction
    · cases hfraction
    · obtain rfl | hfraction := List.mem_cons.mp hfraction
      · exact Or.inr (by decide)
      · exact Or.inl (h.fraction c hfraction)
  · exact (h.marks c hexponent).imp id (List.mem_cons_of_mem _)

end Layout

end Nullary
