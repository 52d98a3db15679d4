import Nullary.Proofs.Settings.Section
import Nullary.Settings.Layer

/-!
# What variables say about the settings

The layer of the variables, name by name.  A plain setting is the text of its variable
(`get?_ofEnvironment`).  The codec section is made of entries (`sectionEntries?`): those of a JSON
object, updated with the single ones.  Its only field is decided by the last entry whose name is the
name of the field in letters of either case (`strict?_codec`).
-/

namespace Nullary

namespace Json

theorem textEntries_toEntries (es : List (String × Json)) :
    Value.textEntries (toEntries es) = Fields.mapValues toValue es := by
  induction es with
  | nil => rfl
  | cons e es ih =>
    obtain ⟨k, v⟩ := e
    rw [toEntries, Value.textEntries_text, ih]
    rfl

end Json

namespace Layer

open Check Value

/-- Whether an entry of a section is meant for its only field. -/
def isStrict (name : String) : Bool :=
  LowerCase.text name = "strict"

/--
The entries of the codec section that variables give.  A JSON object is updated with the entries
that are set one by one; a JSON value of another kind has no entries, nor does a text that is no
JSON.
-/
def sectionEntries? (env : Environment) : Option (Fields Value) :=
  match env.get? codecVariable with
  | none => some (textEntries (entries env))
  | some s =>
    match Json.read s with
    | .ok (.object es) =>
      some ((Fields.mapValues Json.toValue es).merge (textEntries (entries env)))
    | _ => none

/-! ### Recognised names -/

theorem lowerCase_strict : LowerCase.text "strict" = "strict" := by decide

/-- The name under which an entry of a section is taken. -/
def fieldName (name : String) : String :=
  if isStrict name then "strict" else name

theorem fieldName_eq_strict {name : String} : fieldName name = "strict" ↔ isStrict name := by
  unfold fieldName
  split_ifs with h
  · simp [h]
  · refine ⟨?_, fun h' => absurd h' h⟩
    rintro rfl
    exact absurd (decide_eq_true lowerCase_strict) h

theorem textEntries_recognized (es : List (Value × Value)) :
    textEntries (es.map fun e => (recognized e.1, e.2)) =
      (textEntries es).map fun e => (fieldName e.1, e.2) := by
  induction es with
  | nil => rfl
  | cons e es ih =>
    obtain ⟨k, v⟩ := e
    rw [List.map_cons]
    by_cases hk : ∃ s, k = .text s
    · obtain ⟨s, rfl⟩ := hk
      have hs : recognized (.text s) = .text (fieldName s) := by
        by_cases h : LowerCase.text s = "strict" <;> simp [recognized, fieldName, isStrict, h]
      rw [hs, textEntries_text, textEntries_text, List.map_cons, ih]
    · rw [not_exists] at hk
      have hr : recognized k = k := by
        cases k <;> first | rfl | exact absurd rfl (hk _)
      rw [hr, textEntries_other hk, textEntries_other hk, ih]

theorem last?_fieldName (f : Fields Value) :
    Fields.last? (· == "strict") (f.map fun e => (fieldName e.1, e.2)) =
      Fields.last? isStrict f := by
  have hp : ∀ e : String × Value, (fieldName e.1 == "strict") = isStrict e.1 := by
    intro e
    rw [Bool.eq_iff_iff, beq_iff_eq, fieldName_eq_strict]
  simp [Fields.last?, ← List.map_reverse, List.find?_map, Function.comp_def, hp]

/-- A section with recognised names is a mapping that can be merged, with each name once. -/
theorem section?_recognizeFields (es : List (Value × Value)) :
    (recognizeFields es).section? =
      some (Fields.ofList ((textEntries es).map fun e => (fieldName e.1, e.2))) := by
  rw [recognizeFields, mappingOf, section?, MappingKind.merges, if_pos rfl, textEntries_mappingOf,
    textEntries_recognized]
  rfl

/-! ### The section -/

variable {env : Environment} {codec : Option Value}

/-- The section of the variables may be nothing, a mapping of entries, or no section at all. -/
theorem codec?_cases (h : codec? env = .ok codec) :
    (codec = none ∧ (sectionEntries? env).bind (Fields.last? isStrict) = none) ∨
    (∃ es, codec = some (recognizeFields es) ∧ sectionEntries? env = some (textEntries es)) ∨
    (∃ v, codec = some v ∧ sectionEntries? env = none ∧ v.entries? = none ∧
      ∀ p c, Section.ofValue p v ≠ .ok c) := by
  unfold codec? at h
  unfold sectionEntries?
  cases hv : env.get? codecVariable with
  | none =>
    simp only [hv, Except.ok.injEq] at h
    subst h
    split_ifs with hs
    · rw [List.isEmpty_iff] at hs
      exact Or.inl ⟨rfl, by simp [hs, textEntries, Fields.last?]⟩
    · exact Or.inr (Or.inl ⟨entries env, rfl, rfl⟩)
  | some s =>
    simp only [hv] at h
    cases hj : Json.read s with
    | error e => cases e <;> simp [hj, Except.map] at h
    | ok j =>
      simp only [hj] at h ⊢
      cases j with
      | null => exact Or.inl ⟨(Except.ok.inj h).symm, rfl⟩
      | object es =>
        refine Or.inr (Or.inl ⟨mergeEntries (Json.toEntries es) (entries env),
          (Except.ok.inj h).symm, ?_⟩)
        rw [textEntries_mergeEntries, Json.textEntries_toEntries]
      | _ => exact Or.inr (Or.inr ⟨_, (Except.ok.inj h).symm, rfl, rfl, fun p c hc => by cases hc⟩)

/-- The field of the section is decided by the last entry that is meant for it. -/
theorem strict?_codec (h : codec? env = .ok codec) :
    strict? codec = (sectionEntries? env).bind (Fields.last? isStrict) := by
  unfold strict?
  rcases codec?_cases h with ⟨rfl, hs⟩ | ⟨es, rfl, hs⟩ | ⟨v, rfl, hs, hv, -⟩
  · rw [hs]
    rfl
  · simp [hs, section?_recognizeFields, Fields.get?_ofList, last?_fieldName]
  · simp [hs, section?_eq_none_of_entries? hv]

/-- A section of the variables is built only from a mapping that can be merged. -/
theorem ordinary_codec (h : codec? env = .ok codec) : Ordinary codec := by
  intro v hv p c hc
  rcases codec?_cases h with ⟨rfl, -⟩ | ⟨es, rfl, -⟩ | ⟨w, rfl, -, -, hno⟩
  · cases hv
  · rw [← Option.some.inj hv, section?_recognizeFields]
    rfl
  · obtain rfl := Option.some.inj hv
    exact absurd hc (hno p c)

/-- A section of the variables has every name once. -/
theorem oneEach_codec (h : codec? env = .ok codec) : OneEach codec := by
  intro f hf k
  rcases codec?_cases h with ⟨rfl, -⟩ | ⟨es, rfl, -⟩ | ⟨v, rfl, -, hv, -⟩
  · cases hf
  · rw [Option.bind_some, section?_recognizeFields] at hf
    rw [← Option.some.inj hf]
    exact Fields.count_keys_ofList_le _
  · rw [Option.bind_some, section?_eq_none_of_entries? hv] at hf
    cases hf

/-- A section of the variables is merged key by key. -/
theorem keyByKey_codec (h : codec? env = .ok codec) : KeyByKey codec := by
  intro kind es hcodec
  rcases codec?_cases h with ⟨rfl, -⟩ | ⟨fs, rfl, -⟩ | ⟨v, rfl, -, hv, -⟩
  · cases hcodec
  · obtain ⟨rfl, -⟩ := Value.mapping.inj (Option.some.inj hcodec)
    rfl
  · rw [Option.some.inj hcodec] at hv
    cases hv

/-! ### Texts that can be read -/

/-- The variable of the section is recognised in capitals. -/
theorem folded_codecVariable (s : String) :
    folded [("VALOBJ_CODEC", s)] = [(codecVariable, s)] := by
  have hname : LowerCase.text "VALOBJ_CODEC" = codecVariable := by decide
  simp [folded, hname, Fields.ofList, Fields.insertAll, Fields.insert]

/-- The variable of the codec section is not set, or holds a JSON text that can be read. -/
def HoldsJson (env : Environment) : Prop :=
  ∀ s, (folded env).get? codecVariable = some s → ∃ j, Json.read s = .ok j

theorem exists_codec?_iff : (∃ codec, codec? env = .ok codec) ↔
    ∀ s, env.get? codecVariable = some s → ∃ j, Json.read s = .ok j := by
  unfold codec?
  cases hv : env.get? codecVariable with
  | none => simp
  | some s =>
    cases hj : Json.read s with
    | error e => cases e <;> simp [hj, Except.map]
    | ok j => cases j <;> simp [hj, Except.map, Json.toValue]

/-! ### The layer -/

/-- The names of the settings that are single texts. -/
def plainNames : List String := ["config_path", "verbose", "log_json"]

/-- What the layer of the variables consists of: plain settings, and the section if there is one. -/
theorem ofEnvironment_eq_ok {layer : Fields Value} (h : ofEnvironment env = .ok layer) :
    ∃ codec, codec? (folded env) = .ok codec ∧
      layer = Fields.pick (fun k => ((folded env).get? (stem ++ k)).map .text) plainNames ++
        Fields.pick (fun _ => codec) ["codec"] := by
  unfold ofEnvironment at h
  cases hc : codec? (folded env) with
  | error e => simp [hc, Except.map] at h
  | ok codec =>
    simp only [hc, Except.map, Except.ok.injEq] at h
    refine ⟨codec, rfl, ?_⟩
    rw [← h]
    cases codec <;> simp [Fields.pick, plainNames, Option.map_map, Function.comp_def]

/-- The variables make a layer where the text for the section can be read, else an error. -/
theorem exists_ofEnvironment_iff : (∃ layer, ofEnvironment env = .ok layer) ↔ HoldsJson env := by
  rw [HoldsJson, ← exists_codec?_iff]
  unfold ofEnvironment
  dsimp only
  cases codec? (folded env) <;> simp [Except.map]

theorem ofEnvironment_eq_error (h : ¬ HoldsJson env) : ∃ e, ofEnvironment env = .error e := by
  cases hl : ofEnvironment env with
  | error e => exact ⟨e, rfl⟩
  | ok layer => exact absurd (exists_ofEnvironment_iff.mp ⟨layer, hl⟩) h

end Layer

end Nullary
