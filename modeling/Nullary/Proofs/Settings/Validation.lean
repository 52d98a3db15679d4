import Nullary.Proofs.Settings.Discovery
import Nullary.Proofs.Settings.Issues
import Nullary.Proofs.Settings.Sources
import Nullary.Proofs.Toml.Names

/-!
# Validation

A call is refused exactly for what is wrong with the values that its sources come to
(`Sources.effective?`): each offence is one issue, at a place of its own, and there are no other
issues (`Settings.load_validation`).  A value that is hidden by a higher one is never complained of
(`Sources.Unmasked`).
-/

namespace Nullary

open Check

/-- The value that a mapping gives to the only field of a section. -/
def Value.strictEntry? (v : Value) : Option Value :=
  v.entries?.bind fun es => (textEntries es).get? "strict"

namespace Sources

/-! ### Sources that are valid -/

/-- Something that is not there, or can be read as a truth value. -/
def IsFlag (v? : Option Value) : Prop :=
  ∀ v, v? = some v → ∃ b, truth v = .ok b

/-- All names are known, and what the sources come to can be read as the settings. -/
structure Valid (src : Sources) : Prop where
  document : ∀ k ∈ Fields.keys src.document, k ∈ Settings.fieldNames
  overrides : ∀ k ∈ src.overrides.keys, k ∈ Settings.fieldNames
  verbose : IsFlag (src.effective? "verbose")
  logJson : IsFlag (src.effective? "log_json")
  codec : ∀ v, src.effective? "codec" = some v → Settings.IsSection v
  strict : IsFlag ((src.effective? "codec").bind Value.strictEntry?)

/-- What is complained of is what the highest source says, unless it is merged with lower ones. -/
structure Unmasked (src : Sources) (i : Issue) : Prop where
  name : ∀ k v, i.place = [.name k] → src.highest? k = some v → v.section? = none → i.input = v
  /-- A section of the caller that is no mapping to merge with is all that counts. -/
  alone : ∀ v, i.place = [.name "codec", .name "strict"] →
    src.overrides.get? "codec" = some v → v.section? = none → v.strictEntry? = some i.input
  layered : ∀ v, i.place = [.name "codec", .name "strict"] →
    Value.Mergeable (src.overrides.get? "codec") →
    src.strict? (Fields.last? Layer.isStrict) = some v → v.section? = none → i.input = v

variable {src : Sources} {v : Value}

theorem isFlag_iff {v? : Option Value} :
    IsFlag v? ↔ ∀ v kind, v? = some v → truth v ≠ .error kind := by
  constructor
  · intro h v kind hv herror
    obtain ⟨b, hb⟩ := h v hv
    cases hb.symm.trans herror
  · intro h v hv
    cases ht : truth v with
    | ok b => exact ⟨b, rfl⟩
    | error kind => exact absurd ht (h v kind hv)

theorem bind_strictEntry?_eq_some {x : Option Value} : x.bind Value.strictEntry? = some v ↔
    ∃ mk es, x = some (.mapping mk es) ∧ (Value.textEntries es).get? "strict" = some v := by
  cases x with
  | none => simp
  | some u => cases u <;> simp [Value.strictEntry?, Value.entries?]

/-- The sources are valid where nothing is wrong with what they come to. -/
theorem valid_iff : src.Valid ↔ ∀ i, ¬ Settings.Offends src.effective? i := by
  constructor
  · intro h i hi
    cases hi with
    | flag hk hv herror =>
      obtain rfl | rfl := hk
      · exact isFlag_iff.mp h.verbose _ _ hv herror
      · exact isFlag_iff.mp h.logJson _ _ hv herror
    | codec hv hsection => exact hsection (h.codec _ hv)
    | strict hv hs herror =>
      exact isFlag_iff.mp h.strict _ _ (bind_strictEntry?_eq_some.mpr ⟨_, _, hv, hs⟩) herror
    | unknown hk hv =>
      obtain hdoc | hover := (exists_effective?_iff hk).mp ⟨_, hv⟩
      · exact hk (h.document _ hdoc)
      · exact hk (h.overrides _ hover)
  · intro h
    refine ⟨?_, ?_, ?_, ?_, ?_, ?_⟩
    · intro k hk
      by_contra hunknown
      obtain ⟨v, hv⟩ := (exists_effective?_iff hunknown).mpr (Or.inl hk)
      exact h _ (.unknown hunknown hv)
    · intro k hk
      by_contra hunknown
      obtain ⟨v, hv⟩ := (exists_effective?_iff hunknown).mpr (Or.inr hk)
      exact h _ (.unknown hunknown hv)
    · exact isFlag_iff.mpr fun v kind hv herror => h _ (.flag (Or.inl rfl) hv herror)
    · exact isFlag_iff.mpr fun v kind hv herror => h _ (.flag (Or.inr rfl) hv herror)
    · intro v hv
      by_contra hsection
      exact h _ (.codec hv hsection)
    · refine isFlag_iff.mpr fun v kind hv herror => ?_
      obtain ⟨mk, es, hmapping, hs⟩ := bind_strictEntry?_eq_some.mp hv
      exact h _ (.strict hmapping hs herror)

end Sources

namespace Settings

variable {w : World} {call : LoadCall} {found : Option FilePath} {d : Toml.Table} {src : Sources}
  {i : Issue}

/-! ### Every name stands once -/

theorem nodup_keys_record {layer caller : Fields Value} (hd : (Fields.keys d).Nodup) :
    (Layer.merged d.toFields layer caller).keys.Nodup := by
  refine Fields.nodup_keys_merge ?_
  have hnames : d.toFields.keys = Fields.keys d := Fields.keys_mapValues Toml.toValue d
  rwa [hnames]

theorem nodup_keys_of_document (h : document w found = .ok d) : (Fields.keys d).Nodup := by
  cases found with
  | none =>
    rw [← Except.ok.inj h]
    exact List.nodup_nil
  | some p =>
    rw [document, documentAt] at h
    split at h
    · cases h
    · rw [← Except.ok.inj h]
      exact List.nodup_nil
    · exact Toml.nodup_keys_of_readToml (mapError_eq_ok_iff.mp h)

/-! ### Nothing hidden is complained of -/

theorem Offends.unmasked (h : Offends src.effective? i)
    (hone : Value.OneEach (src.overrides.get? "codec")) (hjson : Layer.HoldsJson src.environment) :
    src.Unmasked i := by
  refine ⟨?_, ?_, ?_⟩
  · intro k v hi hv hs
    have heffective := Sources.effective?_of_highest? hv hs
    exact Option.some.inj ((h.look_eq hi).symm.trans heffective)
  · intro v hi hv hs
    obtain ⟨mk, es, hcodec, hstrict⟩ := h.look_strict hi
    have hhighest : src.highest? "codec" = some v := by simp [Sources.highest?, hv]
    rw [Sources.effective?_of_highest? hhighest hs] at hcodec
    rw [Option.some.inj hcodec]
    exact hstrict
  · intro v hi hcaller hv hs
    obtain ⟨mk, es, hcodec, hstrict⟩ := h.look_strict hi
    have hmid := codec?_inVariables? hjson
    have hupper : Value.KeyByKey
        (Value.onTop (src.inVariables? "codec") (src.overrides.get? "codec")) :=
      (Layer.keyByKey_codec hmid).onTop hcaller.keyByKey
    have hkind := ((Toml.keyByKey_toValue _).onTop hupper) mk es hcodec
    have hread : Value.strict? (src.effective? "codec") = some i.input := by
      rw [hcodec, ← hstrict]
      simp [Value.strict?, Value.section?, hkind]
    have hlayers : Value.strict? (src.effective? "codec") = some v := by
      rw [strict?_effective? hjson hcaller hone (hupper.mergeable_of_onTop hcodec)]
      refine Value.onTop_onTop_of_or ?_ hs
      rw [Layer.strict?_codec hmid]
      exact hv
    exact Option.some.inj (hread.symm.trans hlayers)

/-! ### Loading -/

/--
**Validation is complete and precise.**  A call that has selected a file with a document, or none,
with a text for the section that can be read, answers with settings exactly where the names in the
document and those of the caller are settings and what the sources come to can be read.  Else it is
rejected, with one issue for each offence and no other; and never for a value that a higher one
hides.  Every name stands once among the arguments of a call, and every key once in a mapping; no
argument is an option, nor takes the place of the receiver.
-/
theorem load_validation (hf : Discovery.select w call.file call.start = .ok found)
    (hd : document w found = .ok d) (hjson : Layer.HoldsJson w.environment)
    (hkeys : call.overrides.keys.Nodup)
    (hentries : ∀ kind es, call.overrides.get? "codec" = some (.mapping kind es) →
      (Value.textEntries es).keys.Nodup)
    (hself : receiver ∉ call.overrides.keys) (ho : NoOptions call.overrides) :
    let src : Sources := ⟨call.overrides, w.environment, d⟩
    ((∃ s, load w call = .ok s) ↔ src.Valid) ∧
    (¬ src.Valid → ∃ issues, load w call = .error (.rejected ⟨name, issues⟩) ∧
      (issues.map Issue.place).Nodup ∧ (∀ i, i ∈ issues ↔ Offends src.effective? i) ∧
      ∀ i ∈ issues, src.Unmasked i) := by
  intro src
  obtain ⟨layer, hl⟩ := Layer.exists_ofEnvironment_iff.mpr hjson
  rw [load_eq_check hf hd hself ho hl]
  obtain ⟨haccepts, hrefuses⟩ := finds_check (optional_path_merged (d := d) hl found call.overrides)
  have hnodup : (Layer.merged d.toFields layer
      (Layer.ofCaller (given found call.overrides))).keys.Nodup :=
    nodup_keys_record (nodup_keys_of_document hd)
  have hplaces := nodup_places_issues hnodup
  have hcount : ∀ k ∉ fieldNames, call.overrides.keys.count k ≤ 1 := fun k _ =>
    List.nodup_iff_count_le_one.mp hkeys k
  have hmem := fun i => (mem_issues_iff (i := i) hnodup).trans
    (offends_congr fun k hk => get?_record (d := d) hl hcount found hk)
  generalize Layer.merged d.toFields layer (Layer.ofCaller (given found call.overrides)) =
    record at *
  have hvalid : src.Valid ↔ issues record = [] := by
    rw [Sources.valid_iff, List.eq_nil_iff_forall_not_mem]
    exact forall_congr' fun i => not_congr (hmem i).symm
  refine ⟨⟨?_, ?_⟩, ?_⟩
  · rintro ⟨s, hs⟩
    rw [mapError_eq_ok_iff] at hs
    by_contra hinvalid
    cases (hrefuses (mt hvalid.mpr hinvalid)).symm.trans hs
  · intro hv
    obtain ⟨s, hs⟩ := haccepts (hvalid.mp hv)
    exact ⟨s, mapError_eq_ok_iff.mpr hs⟩
  · intro hinvalid
    refine ⟨issues record, ?_, hplaces, hmem, ?_⟩
    · rw [hrefuses (mt hvalid.mpr hinvalid)]
      rfl
    · intro i hi
      exact ((hmem i).mp hi).unmasked (oneEach_caller hentries) hjson

/-- An unknown name, and two values that cannot be read. -/
def blemishedWorld : World :=
  .withFile "hue=1" [("VALOBJ_VERBOSE", "maybe"), ("VALOBJ_LOG_JSON", "maybe")]

/-- A call that hides one of the values, and gives the unknown name and a section that is wrong. -/
def blemishedCall : LoadCall :=
  ⟨.path World.topFile, .null, [("log_json", .bool true), ("hue", .text "red"),
    ("codec", .mapping .dict [(.text "strict", .text "never")])]⟩

theorem folded_blemished : Layer.folded blemishedWorld.environment =
    [("valobj_verbose", "maybe"), ("valobj_log_json", "maybe")] := by
  have hverbose : LowerCase.text "VALOBJ_VERBOSE" = "valobj_verbose" := by cbv
  have hlog : LowerCase.text "VALOBJ_LOG_JSON" = "valobj_log_json" := by cbv
  simp [blemishedWorld, World.withFile, Layer.folded, hverbose, hlog, Fields.ofList,
    Fields.insertAll, Fields.insert]

def blemishedSources : Sources :=
  ⟨blemishedCall.overrides, blemishedWorld.environment, [("hue", .int 1)]⟩

theorem effective?_verbose : blemishedSources.effective? "verbose" = some (.text "maybe") := by
  rw [Sources.effective?, Sources.inVariables?, if_pos (by decide), blemishedSources,
    folded_blemished]
  rfl

theorem effective?_logJson : blemishedSources.effective? "log_json" = some (.bool true) :=
  Sources.effective?_of_highest? rfl rfl

theorem effective?_hue : blemishedSources.effective? "hue" = some (.text "red") :=
  Sources.effective?_of_highest? rfl rfl

theorem effective?_codec : blemishedSources.effective? "codec" =
    some (.mapping .dict [(.text "strict", .text "never")]) := by
  have hnone : blemishedSources.inVariables? "codec" = none := by
    rw [Sources.inVariables?, if_neg (by decide), if_pos rfl, blemishedSources, folded_blemished]
    rfl
  rw [Sources.effective?, hnone]
  rfl

theorem load_validation_blemished : ∃ issues,
    load blemishedWorld blemishedCall = .error (.rejected ⟨name, issues⟩) ∧
    (issues.map Issue.place).Nodup ∧
    ⟨.boolParsing, [.name "verbose"], .text "maybe"⟩ ∈ issues ∧
    ⟨.boolParsing, [.name "codec", .name "strict"], .text "never"⟩ ∈ issues ∧
    ⟨.extraForbidden, [.name "hue"], .text "red"⟩ ∈ issues ∧
    ∀ i ∈ issues, i.place ≠ [.name "log_json"] := by
  have hd : blemishedWorld.readToml World.topFile =
      .ok [("hue", .int 1)] := World.readToml_withFile (by cbv)
  have hf : Discovery.select blemishedWorld blemishedCall.file blemishedCall.start =
      .ok (some World.topFile) := select_path (World.isFile_of_readToml hd) .null
  have hjson : Layer.HoldsJson blemishedWorld.environment := by
    intro s hs
    rw [folded_blemished] at hs
    cases hs
  have hentries : ∀ kind es, blemishedCall.overrides.get? "codec" = some (.mapping kind es) →
      (Value.textEntries es).keys.Nodup := by
    intro kind es he
    obtain ⟨-, rfl⟩ := Value.mapping.inj (Option.some.inj he)
    decide
  obtain ⟨-, hrefuses⟩ := load_validation hf (document_of_readToml hd) hjson (by decide) hentries
    (by decide) (by decide)
  obtain ⟨issues, hload, hplaces, hmem, -⟩ := hrefuses fun hvalid =>
    Sources.valid_iff.mp hvalid _ (.unknown (by decide) effective?_hue)
  refine ⟨issues, hload, hplaces, ?_, ?_, ?_, ?_⟩
  · exact (hmem _).mpr (.flag (Or.inl rfl) effective?_verbose rfl)
  · exact (hmem _).mpr (.strict effective?_codec rfl rfl)
  · exact (hmem _).mpr (.unknown (by decide) effective?_hue)
  · intro i hi hplace
    have hinput : some (.bool true) = some i.input :=
      effective?_logJson.symm.trans (((hmem i).mp hi).look_eq hplace)
    cases (hmem i).mp hi with
    | flag hk hv herror =>
      obtain rfl : Value.bool true = _ := Option.some.inj hinput
      cases herror
    | codec hv hsection => simp at hplace
    | strict hv hs herror => simp at hplace
    | unknown hk hv =>
      obtain rfl : _ = "log_json" := by simpa using hplace
      exact hk (by decide)

/-! ### Calls that are refused for other reasons -/

/-- A name that is no setting, but that of a parameter. -/
def receiverCall : LoadCall :=
  ⟨.null, .null, [(receiver, .int 1)]⟩

/-- Arrays nested deeper than the reader goes, hidden by a section of the caller. -/
def deepText : String := String.ofList (Json.brackets 1499 [])

def deepWorld : World := ⟨[], [], [("VALOBJ_CODEC", deepText)]⟩

def deepCall : LoadCall :=
  ⟨.null, .null, [("codec", .mapping .dict [(.text "strict", .bool true)])]⟩

theorem codec?_deep :
    Layer.codec? (Layer.folded deepWorld.environment) = .error (.tooDeep .array) := by
  have hread : Json.read deepText = .error (.tooDeep .array) := Json.read_brackets_of_le (by decide)
  rw [deepWorld, Layer.folded_codecVariable]
  simp only [Layer.codec?, Fields.get?, if_pos, hread]
  rfl

theorem ofEnvironment_deep :
    Layer.ofEnvironment deepWorld.environment = .error (.tooDeep .array) := by
  simp only [Layer.ofEnvironment, codec?_deep]
  rfl

def deepSources : Sources := ⟨deepCall.overrides, deepWorld.environment, []⟩

theorem effective?_deep_plain {k : String} (hk : k ∈ ["verbose", "log_json"]) :
    deepSources.effective? k = none := by
  rw [Sources.effective?, Sources.inVariables?, deepSources, deepWorld, Layer.folded_codecVariable]
  simp only [List.mem_cons, List.not_mem_nil, or_false] at hk
  obtain rfl | rfl := hk <;> rfl

theorem effective?_deep_codec : deepSources.effective? "codec" =
    some (.mapping .dict [(.text "strict", .bool true)]) := by
  have hnone : deepSources.inVariables? "codec" = none := by
    rw [Sources.inVariables?, if_neg (by decide), if_pos rfl, deepSources, codec?_deep]
    rfl
  rw [Sources.effective?, hnone]
  rfl

theorem valid_deep : deepSources.Valid where
  document := by simp [deepSources]
  overrides := by decide
  verbose := by
    rw [effective?_deep_plain (by decide)]
    exact fun v hv => by cases hv
  logJson := by
    rw [effective?_deep_plain (by decide)]
    exact fun v hv => by cases hv
  codec := by
    rw [effective?_deep_codec]
    rintro v ⟨⟩
    exact Or.inr ⟨_, _, rfl⟩
  strict := by
    rw [effective?_deep_codec]
    rintro v ⟨⟩
    exact ⟨true, rfl⟩

/-- A name that is no setting, but that of an option; as it is null the option is not given. -/
def optionCall : LoadCall :=
  ⟨.null, .null, [("_env_file", .null)]⟩

theorem load_optionCall : load .empty optionCall = .ok ⟨none, false, false, ⟨false⟩⟩ := by
  have hself : receiver ∉ optionCall.overrides.keys := by decide
  have hnone : withoutOptions optionCall.overrides = [] := by
    simp [optionCall, withoutOptions, optionNames]
  have hlayer : Layer.ofEnvironment
      (environmentFor World.empty.environment optionCall.overrides) = .ok [] := rfl
  rw [load_eq_answer (Discovery.select_without_files rfl) rfl, answer_of_not_mem_receiver hself,
    ofLayers_given hlayer, hnone]
  rfl

/--
Calls that are not answered by what their values are.  Two of them have nothing wrong with their
values but their names, or nothing at all, and are refused before these are looked at: one gives the
name of the receiver, the other one has a text that is JSON but nests too deep.  The third one gives
an option, which is no setting, and is not refused.
-/
theorem load_validation_fails :
    (¬ Sources.Valid ⟨receiverCall.overrides, [], []⟩ ∧
      load .empty receiverCall =
        .error (.arguments ⟨"BaseSettings.__init__", receiver, .repeated⟩)) ∧
    (Json.readWithin 1500 deepText = .ok (Json.nested 1499) ∧
      deepSources.Valid ∧
      load deepWorld deepCall = .error (.environment (.tooDeep .array))) ∧
    ¬ Sources.Valid ⟨optionCall.overrides, [], []⟩ ∧
      ∃ s, load .empty optionCall = .ok s := by
  refine ⟨⟨?_, ?_⟩, ⟨?_, ?_, ?_⟩, ?_, ?_⟩
  · intro hvalid
    have hknown := hvalid.overrides receiver List.mem_cons_self
    exact absurd hknown (by decide)
  · rw [load_eq_answer (Discovery.select_without_files rfl) rfl,
      answer_of_mem_receiver List.mem_cons_self]
  · exact Json.readWithin_brackets (by decide)
  · exact valid_deep
  · have hknown : ∀ k ∈ deepCall.overrides.keys, k ∈ fieldNames := by decide
    exact load_eq_error_of_known (Discovery.select_without_files rfl) rfl hknown ofEnvironment_deep
  · intro hvalid
    have hknown := hvalid.overrides "_env_file" List.mem_cons_self
    exact absurd hknown (by decide)
  · exact ⟨_, load_optionCall⟩

end Settings

end Nullary
