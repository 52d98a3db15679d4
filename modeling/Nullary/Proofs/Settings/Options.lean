import Nullary.Proofs.Fields
import Nullary.Settings.Options

/-!
# Calls without options

A caller that gives no option (`Settings.NoOptions`) is left all of its values, and reads variables
under their usual names.  An option that is null changes nothing but that it is no setting.
-/

namespace Nullary.Settings

/-- None of some values is an option. -/
def NoOptions (given : Fields Value) : Prop :=
  ∀ k ∈ given.keys, k ∉ optionNames

instance (given : Fields Value) : Decidable (NoOptions given) :=
  inferInstanceAs (Decidable (∀ k ∈ given.keys, k ∉ optionNames))

variable {given : Fields Value} {k : String}

/-- No setting is an option. -/
theorem not_mem_optionNames (h : k ∈ fieldNames) : k ∉ optionNames := by
  have hapart : ∀ k ∈ fieldNames, k ∉ optionNames := by decide
  exact hapart k h

theorem noOptions_of_known (h : ∀ k ∈ given.keys, k ∈ fieldNames) : NoOptions given :=
  fun k hk => not_mem_optionNames (h k hk)

theorem NoOptions.withoutOptions_eq (h : NoOptions given) : withoutOptions given = given := by
  refine List.filter_eq_self.mpr fun e he => ?_
  simpa using h e.1 (List.mem_map_of_mem he)

theorem NoOptions.beginning?_eq_none (h : NoOptions given) : beginning? given = none := by
  have hnone : given.get? "_env_prefix" = none :=
    Fields.get?_eq_none_iff.mpr fun hk => h _ hk (by decide)
  rw [beginning?, hnone]

theorem NoOptions.environmentFor_eq (h : NoOptions given) (env : Environment) :
    environmentFor env given = env := by
  rw [environmentFor, h.beginning?_eq_none]

theorem withoutOptions_cons_of_not_mem (h : k ∉ optionNames) (v : Value) :
    withoutOptions ((k, v) :: given) = (k, v) :: withoutOptions given :=
  List.filter_cons_of_pos (by simpa using h)

theorem environmentFor_cons_of_not_mem (h : k ∉ optionNames) (v : Value) (env : Environment) :
    environmentFor env ((k, v) :: given) = environmentFor env given := by
  have hne : k ≠ "_env_prefix" := by
    rintro rfl
    exact h (by decide)
  have hsame : Fields.get? "_env_prefix" ((k, v) :: given) = given.get? "_env_prefix" := if_neg hne
  rw [environmentFor, environmentFor, beginning?, beginning?, hsame]

end Nullary.Settings
