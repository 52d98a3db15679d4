import Mathlib.Data.List.Nodup
import Nullary.Proofs.Except
import Nullary.Proofs.Settings.Options
import Nullary.Proofs.Settings.Variables
import Nullary.Proofs.World
import Nullary.Settings.Load

/-!
# The layers of a call

A call selects a file, reads its document and answers (`Settings.load_eq_ok_iff`), with what its
three layers are read as (`Settings.check_of_answer_eq_ok`).  The record of these layers holds under
the name of a setting the value of the caller put on that of the variables put on that of the
document (`Layer.get?_merged`), and no name is lost (`Layer.mem_keys_merged`).
-/

namespace Nullary

namespace Layer

open Value

variable {document environment given : Fields Value} {k : String}

/-! ### The caller -/

theorem get?_surplus (hk : k ∈ Settings.fieldNames) :
    Fields.get? k (given.filter fun e => !Settings.fieldNames.contains e.1) = none :=
  Fields.get?_filter_eq_none (p := fun k => !Settings.fieldNames.contains k) (by simpa using hk)

theorem ofCaller_eq (given : Fields Value) :
    ofCaller given = Fields.pick (fun k => given.get? k) Settings.fieldNames ++
      given.filter fun e => !Settings.fieldNames.contains e.1 := rfl

variable (given k) in
theorem get?_ofCaller : (ofCaller given).get? k = given.get? k := by
  rw [ofCaller_eq, Fields.get?_append, Fields.get?_pick]
  by_cases hk : k ∈ Settings.fieldNames
  · rw [get?_surplus hk, if_pos hk, Option.or_none]
  · rw [if_neg hk, Option.none_or,
      Fields.get?_filter (p := fun k => !Settings.fieldNames.contains k) (by simpa using hk)]

theorem count_keys_ofCaller_le (hk : k ∈ Settings.fieldNames) :
    (ofCaller given).keys.count k ≤ 1 := by
  rw [ofCaller_eq, Fields.keys_append, List.count_append,
    List.count_eq_zero_of_not_mem (Fields.get?_eq_none_iff.mp (get?_surplus hk))]
  have hn : Settings.fieldNames.Nodup := by decide
  exact List.nodup_iff_count_le_one.mp ((Fields.keys_pick_sublist _ _).nodup hn) k

/-- A name that is no setting stands among the values of the caller as often as it was given. -/
theorem count_keys_ofCaller_le_of_unknown (hk : k ∉ Settings.fieldNames) :
    (ofCaller given).keys.count k ≤ given.keys.count k := by
  have hpick : k ∉ (Fields.pick (fun k => given.get? k) Settings.fieldNames).keys :=
    fun hm => hk ((Fields.keys_pick_sublist _ _).subset hm)
  rw [ofCaller_eq, Fields.keys_append, List.count_append, List.count_eq_zero_of_not_mem hpick,
    Nat.zero_add]
  exact (List.filter_sublist.map Prod.fst).count_le k

/-! ### The three layers -/

theorem mem_keys_merged (h : k ∈ document.keys) :
    k ∈ (merged document environment given).keys :=
  Fields.mem_keys_merge.mpr (Or.inl h)

variable (document environment given) in
/-- Under a name that the upper layers have once, every layer is put on the ones below it. -/
theorem get?_merged_of_count (he : environment.keys.count k ≤ 1)
    (hc : (ofCaller given).keys.count k ≤ 1) :
    (merged document environment (ofCaller given)).get? k =
      onTop (document.get? k) (onTop (environment.get? k) (given.get? k)) := by
  rw [merged, Fields.get?_merge (Fields.count_keys_merge_le he), Fields.get?_merge hc,
    get?_ofCaller]

variable (document environment given) in
/-- Under the name of a setting, every layer is put on the ones below it. -/
theorem get?_merged (hk : k ∈ Settings.fieldNames) (he : environment.keys.count k ≤ 1) :
    (merged document environment (ofCaller given)).get? k =
      onTop (document.get? k) (onTop (environment.get? k) (given.get? k)) :=
  get?_merged_of_count _ _ _ he (count_keys_ofCaller_le hk)

/-! ### The variables -/

variable {env : Environment} {layer : Fields Value}

theorem count_keys_ofEnvironment_le (h : ofEnvironment env = .ok layer) (k : String) :
    layer.keys.count k ≤ 1 := by
  obtain ⟨codec, -, rfl⟩ := ofEnvironment_eq_ok h
  have hn : (plainNames ++ ["codec"]).Nodup := by decide
  rw [Fields.keys_append]
  exact List.nodup_iff_count_le_one.mp
    (((Fields.keys_pick_sublist _ _).append (Fields.keys_pick_sublist _ _)).nodup hn) k

theorem get?_plain_ofEnvironment (h : ofEnvironment env = .ok layer) (hk : k ∈ plainNames) :
    layer.get? k = ((folded env).get? (stem ++ k)).map .text := by
  obtain ⟨codec, -, rfl⟩ := ofEnvironment_eq_ok h
  have hc : k ∉ ["codec"] := fun hm => by
    rw [List.mem_singleton.mp hm] at hk
    exact absurd hk (by decide)
  rw [Fields.get?_append, Fields.get?_pick, Fields.get?_pick, if_pos hk, if_neg hc, Option.or_none]

/-- Variables for names that are no settings do not count. -/
theorem get?_ofEnvironment_of_unknown (h : ofEnvironment env = .ok layer)
    (hk : k ∉ Settings.fieldNames) : layer.get? k = none := by
  obtain ⟨codec, -, rfl⟩ := ofEnvironment_eq_ok h
  have hnames : plainNames ⊆ Settings.fieldNames ∧ ["codec"] ⊆ Settings.fieldNames := by decide
  rw [Fields.get?_append, Fields.get?_pick, Fields.get?_pick, if_neg fun hm => hk (hnames.1 hm),
    if_neg fun hm => hk (hnames.2 hm), Option.none_or]

theorem get?_codec_ofEnvironment (h : ofEnvironment env = .ok layer) :
    codec? (folded env) = .ok (layer.get? "codec") := by
  obtain ⟨codec, hc, rfl⟩ := ofEnvironment_eq_ok h
  rw [hc, Fields.get?_append, Fields.get?_pick, Fields.get?_pick, if_neg (by decide),
    if_pos (by decide), Option.none_or]

end Layer

namespace Settings

variable {w : World} {call : LoadCall} {p : FilePath} {d : Toml.Table}

theorem get?_given {k : String} (hk : k ≠ "config_path") (found : Option FilePath)
    (overrides : Fields Value) : (given found overrides).get? k = overrides.get? k := by
  simp [given, Fields.get?, Ne.symm hk]

theorem withoutOptions_given (found : Option FilePath) (overrides : Fields Value) :
    withoutOptions (given found overrides) = given found (withoutOptions overrides) :=
  withoutOptions_cons_of_not_mem (by decide) _

theorem environmentFor_given (env : Environment) (found : Option FilePath)
    (overrides : Fields Value) :
    environmentFor env (given found overrides) = environmentFor env overrides :=
  environmentFor_cons_of_not_mem (by decide) _ env

/-! ### What a call does, stage by stage -/

theorem load_of_select_eq_error {e : Discovery.Failure}
    (h : Discovery.select w call.file call.start = .error e) :
    load w call = .error (.selection e) := by
  rw [load, h]

theorem load_of_select_eq_ok {found : Option FilePath}
    (h : Discovery.select w call.file call.start = .ok found) :
    load w call = build w found (Settings.given found call.overrides) := by
  rw [load, h]

/-- Without a file there is no document. -/
theorem eq_nil_of_documentFor_none {given : Fields Value} {d : Toml.Table}
    (h : documentFor w none given = .ok d) : d = [] := by
  unfold documentFor at h
  split at h
  · cases h
  · exact (Except.ok.inj h).symm

theorem build_of_documentFor_eq_error {slot : Option FilePath} {given : Fields Value}
    {e : LoadError} (h : documentFor w slot given = .error e) : build w slot given = .error e := by
  rw [build, h]

theorem build_of_documentFor_eq_ok {slot : Option FilePath} {given : Fields Value}
    {d : Toml.Table} (h : documentFor w slot given = .ok d) :
    build w slot given = ofLayers w.environment d given := by
  rw [build, h]

/-! ### The document of a call -/

/-- A file that a caller names is selected if it is there; no other one is looked for. -/
theorem select_path {there : Bool} (h : w.isFile p = .ok there) (start : Value) :
    Discovery.select w (.path p) start = .ok (if there then some p else none) := by
  have ht : (Value.path p).truthy = true := rfl
  cases there <;> simp [Discovery.select, ht, Discovery.pathOf, Discovery.ifFile, h]

theorem document_of_readToml (h : w.readToml p = .ok d) : document w (some p) = .ok d := by
  simp [document, documentAt, World.isFile_of_readToml h, h, Except.mapError]

/-- What a call answers with, given what it has selected and the document that is there. -/
def answer (w : World) (call : LoadCall) (found : Option FilePath) (d : Toml.Table) :
    Except LoadError Settings :=
  let given := given found call.overrides
  match ArgumentError.repeated? "BaseSettings.__init__" ["__pydantic_self__"] given.keys with
  | some e => .error (.arguments e)
  | none => ofLayers w.environment d given

theorem load_eq_answer {found : Option FilePath}
    (hf : Discovery.select w call.file call.start = .ok found) (hd : document w found = .ok d) :
    load w call = answer w call found d := by
  simp only [load, hf, build, documentFor, answer, hd]
  cases ArgumentError.repeated? "BaseSettings.__init__" ["__pydantic_self__"]
    (given found call.overrides).keys <;> rfl

/-- A call that answers with settings has selected, read and answered. -/
theorem load_eq_ok_iff {s : Settings} : load w call = .ok s ↔
    ∃ found d, Discovery.select w call.file call.start = .ok found ∧
      document w found = .ok d ∧ answer w call found d = .ok s := by
  constructor
  · intro h
    cases hf : Discovery.select w call.file call.start with
    | error e => simp [load, hf] at h
    | ok found =>
      cases hd : document w found with
      | error e =>
        simp only [load, hf, build, documentFor, hd] at h
        split at h
        · cases h
        next he => split at he <;> cases he
      | ok d => exact ⟨found, d, rfl, hd, load_eq_answer hf hd ▸ h⟩
  · rintro ⟨found, d, hf, hd, ha⟩
    rw [load_eq_answer hf hd, ha]

/-- Settings are built from the three layers, of which options are no part. -/
theorem check_of_answer_eq_ok {found : Option FilePath} {s : Settings}
    (h : answer w call found d = .ok s) :
    ∃ layer, Layer.ofEnvironment (environmentFor w.environment call.overrides) = .ok layer ∧
      check (Layer.merged d.toFields layer
        (Layer.ofCaller (given found (withoutOptions call.overrides)))) = .ok s := by
  unfold answer ofLayers at h
  dsimp only at h
  split at h
  · cases h
  rw [environmentFor_given, withoutOptions_given] at h
  split at h
  · cases h
  next layer hl =>
  exact ⟨layer, hl, mapError_eq_ok_iff.mp h⟩

/-! ### What a call answers from its layers -/

section Answers

variable {found : Option FilePath}

/-- The name under which the constructor of settings takes what it is called on. -/
def receiver : String := "__pydantic_self__"

theorem answer_of_mem_receiver (h : receiver ∈ call.overrides.keys) :
    answer w call found d =
      .error (.arguments ⟨"BaseSettings.__init__", receiver, .repeated⟩) := by
  have hgiven : "__pydantic_self__" ∈ (given found call.overrides).keys :=
    List.mem_cons_of_mem _ h
  rw [answer, ArgumentError.repeated?_of_mem hgiven]
  rfl

/-- Any other call answers from its layers. -/
theorem answer_of_not_mem_receiver (h : receiver ∉ call.overrides.keys) :
    answer w call found d = ofLayers w.environment d (given found call.overrides) := by
  have hgiven : ∀ k ∈ (given found call.overrides).keys, k ∉ ["__pydantic_self__"] := by
    intro k hk hself
    obtain rfl := List.mem_singleton.mp hself
    obtain hpath | hk := List.mem_cons.mp hk
    · have hother : "__pydantic_self__" ≠ "config_path" := by decide
      exact hother hpath
    · exact h hk
  rw [answer, ArgumentError.repeated?_eq_none hgiven]

/-- Options are no part of the layers that can be read. -/
theorem ofLayers_given {env : Environment} {layer overrides : Fields Value}
    (h : Layer.ofEnvironment (environmentFor env overrides) = .ok layer) :
    ofLayers env d (given found overrides) = (check (Layer.merged d.toFields layer
      (Layer.ofCaller (given found (withoutOptions overrides))))).mapError .rejected := by
  rw [ofLayers, environmentFor_given, withoutOptions_given, h]

theorem ofLayers_of_layer {env : Environment} {layer overrides : Fields Value}
    (ho : NoOptions overrides) (h : Layer.ofEnvironment env = .ok layer) :
    ofLayers env d (given found overrides) = (check (Layer.merged d.toFields layer
      (Layer.ofCaller (given found overrides)))).mapError .rejected := by
  rw [ofLayers_given (by rwa [ho.environmentFor_eq]), ho.withoutOptions_eq]

theorem ofLayers_of_error {env : Environment} {e : Layer.EnvironmentError}
    {overrides : Fields Value} (ho : NoOptions overrides)
    (h : Layer.ofEnvironment env = .error e) :
    ofLayers env d (given found overrides) = .error (.environment e) := by
  rw [ofLayers, environmentFor_given, ho.environmentFor_eq, h]

variable {layer : Fields Value}

/-- A call whose layers can be read is answered by the check of what they come to. -/
theorem load_eq_check (hf : Discovery.select w call.file call.start = .ok found)
    (hd : document w found = .ok d) (hself : receiver ∉ call.overrides.keys)
    (ho : NoOptions call.overrides) (hl : Layer.ofEnvironment w.environment = .ok layer) :
    load w call = (check (Layer.merged d.toFields layer
      (Layer.ofCaller (given found call.overrides)))).mapError .rejected := by
  rw [load_eq_answer hf hd, answer_of_not_mem_receiver hself, ofLayers_of_layer ho hl]

theorem not_mem_receiver_of_known {overrides : Fields Value}
    (h : ∀ k ∈ overrides.keys, k ∈ fieldNames) : receiver ∉ overrides.keys :=
  fun hm => absurd (h _ hm) (by decide)

/-- A call that gives settings only is answered so. -/
theorem load_eq_check_of_known (hf : Discovery.select w call.file call.start = .ok found)
    (hd : document w found = .ok d) (hknown : ∀ k ∈ call.overrides.keys, k ∈ fieldNames)
    (hl : Layer.ofEnvironment w.environment = .ok layer) :
    load w call = (check (Layer.merged d.toFields layer
      (Layer.ofCaller (given found call.overrides)))).mapError .rejected :=
  load_eq_check hf hd (not_mem_receiver_of_known hknown) (noOptions_of_known hknown) hl

/-- It is refused for variables that make no layer, be its other layers as they may. -/
theorem load_eq_error_of_known {e : Layer.EnvironmentError}
    (hf : Discovery.select w call.file call.start = .ok found) (hd : document w found = .ok d)
    (hknown : ∀ k ∈ call.overrides.keys, k ∈ fieldNames)
    (he : Layer.ofEnvironment w.environment = .error e) : load w call = .error (.environment e) := by
  rw [load_eq_answer hf hd, answer_of_not_mem_receiver (not_mem_receiver_of_known hknown),
    ofLayers_of_error (noOptions_of_known hknown) he]

end Answers

/-! ### The path -/

theorem section?_optionalPath (found : Option FilePath) : (optionalPath found).section? = none := by
  cases found <;> rfl

/-- The path among the values of a call is the one that was found, whatever lower layers name. -/
theorem optional_path_merged {env : Environment} {layer : Fields Value}
    (hl : Layer.ofEnvironment env = .ok layer) (found : Option FilePath)
    (overrides : Fields Value) :
    Check.optional []
      (Layer.merged d.toFields layer (Layer.ofCaller (given found overrides))) "config_path" none
      (fun p v => Check.atPlace p Check.path? v) = .ok found := by
  have hgiven : (given found overrides).get? "config_path" = some (optionalPath found) := if_pos rfl
  have hmerged := Layer.get?_merged d.toFields layer (given found overrides)
    (k := "config_path") (by decide) (Layer.count_keys_ofEnvironment_le hl _)
  rw [hgiven, Value.onTop_of_section?_eq_none (section?_optionalPath found),
    Value.onTop_of_section?_eq_none (section?_optionalPath found)] at hmerged
  rw [Check.optional_of_some hmerged, Check.atPlace_eq_ok_iff]
  cases found <;> rfl

/-! ### A call without file and variables -/

/-- The arguments of a caller who names a file and says how the log is to be. -/
def logFlags (verbose logJson : Bool) : Fields Value :=
  [("config_path", .path World.topFile), ("verbose", .bool verbose), ("log_json", .bool logJson)]

theorem loadBy_logFlags (loader : String) (verbose logJson : Bool) :
    loadBy loader .empty (logFlags verbose logJson) = .ok ⟨none, verbose, logJson, ⟨false⟩⟩ := by
  have hselect : Discovery.select .empty (.path World.topFile) .null = .ok none :=
    select_path (World.isFile_topFile_of_none rfl) .null
  have hknown : ∀ k ∈ Fields.keys [("verbose", Value.bool verbose), ("log_json", .bool logJson)],
      k ∈ fieldNames := by
    show ∀ k ∈ ["verbose", "log_json"], k ∈ fieldNames
    decide
  have hlayer : Layer.ofEnvironment World.empty.environment = .ok [] := rfl
  show load .empty ⟨.path World.topFile, .null,
    [("verbose", .bool verbose), ("log_json", .bool logJson)]⟩ = _
  rw [load_eq_check_of_known hselect rfl hknown hlayer]
  rfl

/-! ### A call that asks for other variables -/

/-- A call that has variables read under another beginning. -/
def otherBeginning : Fields Value := [("_env_prefix", .text "FOO_")]

theorem withoutOptions_otherBeginning : withoutOptions otherBeginning = [] := by
  simp [otherBeginning, withoutOptions, optionNames]

/-- The variables of a world without files are all that such a call reads. -/
theorem load_otherBeginning {env : Environment} {layer : Fields Value}
    (h : Layer.ofEnvironment (environmentFor env otherBeginning) = .ok layer) :
    load ⟨[], [], env⟩ ⟨.path World.topFile, .null, otherBeginning⟩ =
      (check (Layer.merged [] layer (Layer.ofCaller (given none [])))).mapError .rejected := by
  have hf : Discovery.select ⟨[], [], env⟩ (.path World.topFile) .null = .ok none :=
    select_path (World.isFile_topFile_of_none rfl) .null
  have hself : receiver ∉ otherBeginning.keys := by decide
  rw [load_eq_answer hf rfl, answer_of_not_mem_receiver hself, ofLayers_given h,
    withoutOptions_otherBeginning]
  rfl

end Settings

end Nullary
