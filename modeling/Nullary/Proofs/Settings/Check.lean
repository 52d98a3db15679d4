import Mathlib.Tactic.Tauto
import Nullary.Proofs.Value.Merge
import Nullary.Settings

/-!
# When settings are built

`Settings.check_eq_ok_iff`: settings are built from named values exactly where each of the four
fields passes its check and no other name is given.  A truth value in the settings is `Check.flag`
of what is given for it, and so is the only field of the codec section.
-/

namespace Nullary

namespace Check

/-- The truth value that something is read as; nothing counts as false. -/
def flag (v? : Option Value) : Except IssueKind Bool :=
  (v?.map truth).getD (.ok false)

theorem both_eq_ok_iff {α β : Type} {x : Checked α} {y : Checked β} {p : α × β} :
    both x y = .ok p ↔ x = .ok p.1 ∧ y = .ok p.2 := by
  obtain ⟨a, b⟩ := p
  cases x <;> cases y <;> simp [both]

theorem atPlace_eq_ok_iff {α : Type} {p : List Place} {check : Value → Except IssueKind α}
    {v : Value} {a : α} : atPlace p check v = .ok a ↔ check v = .ok a := by
  unfold atPlace
  cases check v <;> simp

theorem optional_of_some {α : Type} {p : List Place} {given : Fields Value} {name : String}
    {default : α} {check : List Place → Value → Checked α} {v : Value}
    (h : given.get? name = some v) :
    optional p given name default check = check (p ++ [.name name]) v := by
  simp [optional, h]

theorem optional_of_none {α : Type} {p : List Place} {given : Fields Value} {name : String}
    {default : α} {check : List Place → Value → Checked α} (h : given.get? name = none) :
    optional p given name default check = .ok default := by
  simp [optional, h]

/-- Of what is given, only the value under the name counts. -/
theorem optional_congr {α : Type} {p : List Place} {given given' : Fields Value} {name : String}
    {default : α} {check : List Place → Value → Checked α}
    (h : given.get? name = given'.get? name) :
    optional p given name default check = optional p given' name default check := by
  rw [Check.optional, Check.optional, h]

theorem optional_truth_eq_ok_iff {p : List Place} {given : Fields Value} {name : String}
    {b : Bool} : optional p given name false (fun p v => atPlace p truth v) = .ok b ↔
      flag (given.get? name) = .ok b := by
  cases h : given.get? name with
  | none => simp [optional_of_none h, flag]
  | some v => simp [optional_of_some h, atPlace_eq_ok_iff, flag]

/-- What a value is put on does not change the truth value it is read as. -/
theorem truth_putOn (w : Option Value) (v : Value) : truth (Value.putOn w v) = truth v := by
  cases w with
  | none => rfl
  | some w =>
    cases v with
    | mapping kind es =>
      simp only [Value.putOn, Value.merge]
      split
      · split <;> rfl
      · rfl
    | _ => simp [Value.putOn, Value.merge]

/-- Of two values, the upper one is read where it is there. -/
theorem map_truth_onTop (w x : Option Value) :
    (Value.onTop w x).map truth = (x.or w).map truth := by
  cases x with
  | none => rfl
  | some v => simp [Value.onTop, truth_putOn]

end Check

open Check

theorem Section.checkFields_eq_ok_iff {p : List Place} {f : Fields Value} {c : Section} :
    checkFields p f = .ok c ↔ flag (f.get? "strict") = .ok c.strict := by
  obtain ⟨b⟩ := c
  rw [checkFields, ← optional_truth_eq_ok_iff (p := p)]
  cases optional p f "strict" false fun p v => atPlace p truth v <;> simp [Except.map]

namespace Settings

variable {given : Fields Value} {s : Settings}

theorem surplus_eq_nil_iff : surplus given = [] ↔ ∀ k ∈ given.keys, k ∈ fieldNames := by
  simp [surplus, Fields.keys, List.filter_eq_nil_iff]

/-- The name of a setting is not among the names that are none. -/
theorem filter_unknown_erase {k : String} (hk : k ∈ fieldNames) (f : Fields Value) :
    (f.erase k).filter (fun e => !fieldNames.contains e.1) =
      f.filter fun e => !fieldNames.contains e.1 := by
  have hall : ∀ e : String × Value,
      (!fieldNames.contains e.1 && e.1 != k) = !fieldNames.contains e.1 := by
    intro e
    by_cases he : e.1 = k
    · simp [he, hk]
    · simp [he]
  rw [Fields.erase, List.filter_filter]
  simp only [hall]

theorem surplus_erase {k : String} (hk : k ∈ fieldNames) (f : Fields Value) :
    surplus (f.erase k) = surplus f := by
  rw [surplus, surplus, filter_unknown_erase hk]

theorem known_eq_ok_iff {u : Unit} : known given = .ok u ↔ ∀ k ∈ given.keys, k ∈ fieldNames := by
  rw [← surplus_eq_nil_iff, known]
  cases surplus given <;> simp

/-- Settings are built exactly where every field passes its check and no name is unknown. -/
theorem check_eq_ok_iff : check given = .ok s ↔
    optional [] given "config_path" none (fun p v => atPlace p path? v) = .ok s.path ∧
    flag (given.get? "verbose") = .ok s.verbose ∧ flag (given.get? "log_json") = .ok s.logJson ∧
    optional [] given "codec" ⟨false⟩ Section.ofValue = .ok s.codec ∧
    ∀ k ∈ given.keys, k ∈ fieldNames := by
  have hall : check given = .ok s ↔
      both (both (both (optional [] given "config_path" none fun p v => atPlace p path? v)
        (optional [] given "verbose" false fun p v => atPlace p truth v))
        (both (optional [] given "log_json" false fun p v => atPlace p truth v)
          (optional [] given "codec" ⟨false⟩ Section.ofValue))) (known given) =
      .ok (((s.path, s.verbose), (s.logJson, s.codec)), ()) := by
    obtain ⟨path, verbose, logJson, codec⟩ := s
    dsimp only [check]
    split
    · next path' verbose' logJson' codec' u h => simp [h, and_assoc]
    · next h => simp [h]
  rw [hall, both_eq_ok_iff, both_eq_ok_iff, both_eq_ok_iff, both_eq_ok_iff, known_eq_ok_iff,
    optional_truth_eq_ok_iff, optional_truth_eq_ok_iff]
  tauto

end Settings

end Nullary
