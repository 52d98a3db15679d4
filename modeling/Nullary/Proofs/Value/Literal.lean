import Mathlib
import Nullary.Value.Display

/-!
# When values can be shown

A value has a literal exactly where no integer that stands in it has more than the limit of digits
(`Value.isOk_literal`), and the form for a reader exists just then, too (`Value.isOk_display`).
Objects of a class that shows no contents have none that count.
-/

namespace Nullary

/-- The integers that have a numeral are those below a power of ten. -/
theorem Digits.withinLimit_iff {n : Int} :
    Digits.withinLimit n = true ↔ n.natAbs < 10 ^ Digits.limit := by
  rw [withinLimit, decide_eq_true_iff, decimal,
    Nat.length_toDigits_le_iff (by decide) (by decide)]

namespace Value

/-! ### Integers that are shown -/

mutual

/-- The integers that stand in the literal of a value. -/
def integers : Value → List Int
  | int n => [n]
  | list xs => integersOf xs
  | tuple xs => integersOf xs
  | set xs => integersOf xs
  | frozenSet xs => integersOf xs
  | mapping .custom _ => []
  | mapping _ es => entryIntegers es
  | fault _ _ detail => fieldIntegers detail
  | _ => []

def integersOf : List Value → List Int
  | [] => []
  | x :: xs => integers x ++ integersOf xs

def entryIntegers : List (Value × Value) → List Int
  | [] => []
  | (k, v) :: es => integers k ++ integers v ++ entryIntegers es

def fieldIntegers : List (String × Value) → List Int
  | [] => []
  | (_, v) :: es => integers v ++ fieldIntegers es

end

/-! ### Literals -/

section

variable {ε α β γ δ : Type} (x : Except ε α) (y : Except ε β) (z : Except ε γ)

/-- What is made of several results is there when all of them are. -/
theorem isOk_bind₁ (f : α → β) : (x >>= fun a => .ok (f a)).isOk = x.isOk := by
  cases x <;> rfl

theorem isOk_bind₂ (f : α → β → γ) :
    (x >>= fun a => y >>= fun b => .ok (f a b)).isOk = (x.isOk && y.isOk) := by
  cases x <;> cases y <;> rfl

theorem isOk_bind₃ (f : α → β → γ → δ) :
    (x >>= fun a => y >>= fun b => z >>= fun c => .ok (f a b c)).isOk =
      (x.isOk && y.isOk && z.isOk) := by
  cases x <;> cases y <;> cases z <;> rfl

end

theorem isOk_numeral (n : Int) : (numeral n).isOk = Digits.withinLimit n := by
  unfold numeral Digits.withinLimit
  dsimp only
  split
  · next h => simp [Except.isOk, Except.toBool, h]
  · next h => simp [Except.isOk, Except.toBool, h]

mutual

theorem isOk_literal (v : Value) : (literal v).isOk = (integers v).all Digits.withinLimit := by
  cases v with
  | int n => simp [literal, integers, isOk_numeral]
  | list xs => rw [literal, isOk_bind₁, isOk_literals, integers]
  | tuple xs => rw [literal, isOk_bind₁, isOk_literals, integers]
  | set xs =>
    cases xs with
    | nil => rfl
    | cons x xs =>
      rw [literal, isOk_bind₁, isOk_literals, integers]
      simp
  | frozenSet xs =>
    cases xs with
    | nil => rfl
    | cons x xs =>
      rw [literal, isOk_bind₁, isOk_literals, integers]
      simp
  | mapping kind es =>
    cases kind with
    | dict =>
      rw [literal, isOk_bind₁, isOk_entryLiterals, integers]
      simp
    | proxy =>
      rw [literal, isOk_bind₁, isOk_entryLiterals, integers]
      simp
    | custom => rfl
    | ordered =>
      cases es with
      | nil => rfl
      | cons e es =>
        rw [literal, isOk_bind₁, isOk_pairLiterals, integers]
        · simp
        · simp
  | fault code message detail =>
    rw [literal, isOk_bind₁, isOk_fieldLiterals, integers]
  | _ => rfl

theorem isOk_literals (xs : List Value) :
    (literals xs).isOk = (integersOf xs).all Digits.withinLimit := by
  cases xs with
  | nil => rfl
  | cons x xs =>
    rw [literals, isOk_bind₂, isOk_literal, isOk_literals, integersOf, List.all_append]

theorem isOk_entryLiterals (es : List (Value × Value)) :
    (entryLiterals es).isOk = (entryIntegers es).all Digits.withinLimit := by
  cases es with
  | nil => rfl
  | cons e es =>
    obtain ⟨k, v⟩ := e
    rw [entryLiterals, isOk_bind₃, isOk_literal, isOk_literal, isOk_entryLiterals, entryIntegers,
      List.all_append, List.all_append]

theorem isOk_pairLiterals (es : List (Value × Value)) :
    (pairLiterals es).isOk = (entryIntegers es).all Digits.withinLimit := by
  cases es with
  | nil => rfl
  | cons e es =>
    obtain ⟨k, v⟩ := e
    rw [pairLiterals, isOk_bind₃, isOk_literal, isOk_literal, isOk_pairLiterals, entryIntegers,
      List.all_append, List.all_append]

theorem isOk_fieldLiterals (es : List (String × Value)) :
    (fieldLiterals es).isOk = (fieldIntegers es).all Digits.withinLimit := by
  cases es with
  | nil => rfl
  | cons e es =>
    obtain ⟨k, v⟩ := e
    rw [fieldLiterals, isOk_bind₂, isOk_literal, isOk_fieldLiterals, fieldIntegers,
      List.all_append]

end

/-! ### For a reader -/

theorem isOk_display (v : Value) : (display v).isOk = (integers v).all Digits.withinLimit := by
  cases v with
  | mapping kind es =>
    cases kind with
    | proxy =>
      rw [display, isOk_bind₁, isOk_entryLiterals, integers]
      simp
    | _ => exact isOk_literal _
  | fault code message detail => rw [display, isOk_bind₁, isOk_fieldLiterals, integers]
  | int n => exact isOk_literal _
  | list xs => exact isOk_literal _
  | tuple xs => exact isOk_literal _
  | set xs => exact isOk_literal _
  | frozenSet xs => exact isOk_literal _
  | _ => rfl

theorem isOk_displays (vs : List Value) :
    (displays vs).isOk = vs.all fun v => (integers v).all Digits.withinLimit := by
  induction vs with
  | nil => rfl
  | cons v vs ih => rw [displays, isOk_bind₂, isOk_display, ih, List.all_cons]

end Value

end Nullary
