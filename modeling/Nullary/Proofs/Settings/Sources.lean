import Nullary.Proofs.Settings.Precedence

/-!
# What the sources come to

What the three sources of a call say about a name comes to one value (`Sources.effective?`).  It is
what the merged record of the layers has under this name (`Settings.get?_record`), and it is what
the highest source says, unless that is merged with what lower ones say.
-/

namespace Nullary

open Check

namespace Sources

/-! ### One value for each name -/

/-- What the document says about a name. -/
def inDocument? (src : Sources) (k : String) : Option Value :=
  (src.document.get? k).map Toml.toValue

/-- What the variables say about a name. -/
def inVariables? (src : Sources) (k : String) : Option Value :=
  if k ∈ Layer.plainNames then ((Layer.folded src.environment).get? (Layer.stem ++ k)).map .text
  else if k = "codec" then (Layer.codec? (Layer.folded src.environment)).toOption.join
  else none

/-- What the sources come to for a name: every value is put on those of the lower sources. -/
def effective? (src : Sources) (k : String) : Option Value :=
  Value.onTop (src.inDocument? k) (Value.onTop (src.inVariables? k) (src.overrides.get? k))

/-- What the highest source says that says anything about a name. -/
def highest? (src : Sources) (k : String) : Option Value :=
  ((src.overrides.get? k).or (src.inVariables? k)).or (src.inDocument? k)

variable {src : Sources} {k : String} {v : Value}

theorem effective?_of_highest? (h : src.highest? k = some v) (hv : v.section? = none) :
    src.effective? k = some v :=
  Value.onTop_onTop_of_or h hv

/-- Under a name that is no setting there is something where a source has the name. -/
theorem exists_effective?_iff (hk : k ∉ Settings.fieldNames) :
    (∃ v, src.effective? k = some v) ↔
      k ∈ Fields.keys src.document ∨ k ∈ src.overrides.keys := by
  have hplain : k ∉ Layer.plainNames := by
    have hsub : Layer.plainNames ⊆ Settings.fieldNames := by decide
    exact fun hm => hk (hsub hm)
  have hcodec : k ≠ "codec" := by
    rintro rfl
    exact hk (by decide)
  have hmem {α : Type} {f : Fields α} : k ∈ f.keys ↔ ∃ v, f.get? k = some v := by
    rw [← not_iff_not, ← Fields.get?_eq_none_iff, ← Option.isSome_iff_exists]
    simp
  have hvariable : src.inVariables? k = none := by
    rw [inVariables?, if_neg hplain, if_neg hcodec]
  rw [hmem, hmem, effective?, hvariable, inDocument?]
  cases src.overrides.get? k with
  | none => simp [Value.onTop]
  | some u => simp [Value.onTop]

end Sources

namespace Settings

/-! ### The record of the layers -/

section Record

variable {env : Environment} {layer overrides : Fields Value} {d : Toml.Table}

/-- The layer of the variables has under every name what they say about it. -/
theorem get?_layer (hl : Layer.ofEnvironment env = .ok layer) (k : String) :
    layer.get? k = Sources.inVariables? ⟨overrides, env, d⟩ k := by
  unfold Sources.inVariables?
  split_ifs with hplain hcodec
  · exact Layer.get?_plain_ofEnvironment hl hplain
  · rw [hcodec, Layer.get?_codec_ofEnvironment hl]
    rfl
  · refine Layer.get?_ofEnvironment_of_unknown hl fun hk => ?_
    have hnames : ∀ k ∈ fieldNames, k ∈ Layer.plainNames ∨ k = "codec" := by decide
    exact (hnames k hk).elim hplain hcodec

/-- Under every name but that of the path the record has what the sources come to. -/
theorem get?_record (hl : Layer.ofEnvironment env = .ok layer)
    (hkeys : ∀ k ∉ fieldNames, overrides.keys.count k ≤ 1) (found : Option FilePath) {k : String}
    (hk : k ≠ "config_path") :
    (Layer.merged d.toFields layer (Layer.ofCaller (given found overrides))).get? k =
      Sources.effective? ⟨overrides, env, d⟩ k := by
  have hcount : (Layer.ofCaller (given found overrides)).keys.count k ≤ 1 := by
    by_cases hfield : k ∈ fieldNames
    · exact Layer.count_keys_ofCaller_le hfield
    · refine (Layer.count_keys_ofCaller_le_of_unknown hfield).trans ?_
      rw [given, Fields.keys_cons, List.count_cons_of_ne (Ne.symm hk)]
      exact hkeys k hfield
  have hvariables : layer.get? k = Sources.inVariables? ⟨overrides, env, d⟩ k := get?_layer hl k
  rw [Layer.get?_merged_of_count _ _ _ (Layer.count_keys_ofEnvironment_le hl k) hcount,
    Toml.get?_toFields, get?_given hk, hvariables]
  rfl

end Record

/-! ### The field of the section -/

section Strict

variable {src : Sources}

theorem codec?_inVariables? (hjson : Layer.HoldsJson src.environment) :
    Layer.codec? (Layer.folded src.environment) = .ok (src.inVariables? "codec") := by
  obtain ⟨layer, hl⟩ := Layer.exists_ofEnvironment_iff.mpr hjson
  rw [Layer.get?_codec_ofEnvironment hl]
  exact congrArg Except.ok (get?_layer hl "codec")

/-- The field of the section comes to what the sources say about it. -/
theorem strict?_effective? (hjson : Layer.HoldsJson src.environment)
    (hcaller : Value.Mergeable (src.overrides.get? "codec"))
    (hone : Value.OneEach (src.overrides.get? "codec"))
    (hupper : Value.Mergeable
      (Value.onTop (src.inVariables? "codec") (src.overrides.get? "codec"))) :
    Value.strict? (src.effective? "codec") =
      Value.onTop (Value.strict? (src.inDocument? "codec"))
        (Value.onTop (Value.strict? (src.inVariables? "codec"))
          (Value.strict? (src.overrides.get? "codec"))) := by
  have hmid := Layer.oneEach_codec (codec?_inVariables? hjson)
  rw [Sources.effective?, Value.strict?_onTop hupper (hmid.onTop hone),
    Value.strict?_onTop hcaller hone]

end Strict

end Settings

end Nullary
