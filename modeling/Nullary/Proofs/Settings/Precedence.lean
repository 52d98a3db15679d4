import Mathlib
import Nullary.Proofs.Json.Reader
import Nullary.Proofs.Settings.Load

/-!
# Which layer decides a setting

`Settings.load_precedence`: each truth value of loaded settings is read from the highest layer
that defines it, in the order caller, variables, document.  The codec section is merged entry by
entry, so that a section without its field hides nothing; a section of the caller that cannot be
merged stands alone.  Entries that variables give count without regard to the case of their names,
hence `Layer.isStrict`; `Settings.load_entry_in_capitals` shows that the spelling alone does not
decide.  A caller that gives options may have other variables read
(`Settings.load_usual_name_unread`).
-/

namespace Nullary

open Check

/--
What a call has to draw on: the values of the caller, the variables, and the selected document.
-/
structure Sources where
  overrides : Fields Value
  environment : Environment
  document : Toml.Table

namespace Sources

/-- The value of a plain setting in the highest layer that has one. -/
def plain? (src : Sources) (k : String) : Option Value :=
  ((src.overrides.get? k).or
    (((Layer.folded src.environment).get? (Layer.stem ++ k)).map .text)).or
    ((src.document.get? k).map Toml.toValue)

/--
The field of the section in the highest layer whose section has it; `entry` finds it among the
entries that variables give.
-/
def strict? (entry : Fields Value → Option Value) (src : Sources) : Option Value :=
  ((Value.strict? (src.overrides.get? "codec")).or
    ((Layer.sectionEntries? (Layer.folded src.environment)).bind entry)).or
    (Value.strict? ((src.document.get? "codec").map Toml.toValue))

/-- Every truth value of the settings is the one that the highest layer defines, or else false. -/
structure Decides (entry : Fields Value → Option Value) (src : Sources) (s : Settings) : Prop where
  verbose : flag (src.plain? "verbose") = .ok s.verbose
  logJson : flag (src.plain? "log_json") = .ok s.logJson
  /-- A section of the caller that is no mapping to merge with decides alone. -/
  alone : ∀ v, src.overrides.get? "codec" = some v → v.section? = none →
    Section.ofValue [.name "codec"] v = .ok s.codec
  layered : (∀ v, src.overrides.get? "codec" = some v → v.section?.isSome) →
    flag (src.strict? entry) = .ok s.codec.strict

end Sources

namespace Settings

variable {w : World} {call : LoadCall} {s : Settings}

/-! ### From the merged record to the layers -/

section Layers

variable {env : Environment} {layer given : Fields Value} {d : Toml.Table} {k : String}

/-- A plain setting is read from the highest layer. -/
theorem flag_merged (hl : Layer.ofEnvironment env = .ok layer) (hk : k ∈ Layer.plainNames) :
    flag ((Layer.merged d.toFields layer (Layer.ofCaller given)).get? k) =
      flag (Sources.plain? ⟨given, env, d⟩ k) := by
  have hf : k ∈ fieldNames := by
    have hsub : Layer.plainNames ⊆ fieldNames := by decide
    exact hsub hk
  rw [Layer.get?_merged _ _ _ hf (Layer.count_keys_ofEnvironment_le hl k), Toml.get?_toFields,
    Layer.get?_plain_ofEnvironment hl hk, flag, flag, map_truth_onTop, Option.map_or,
    map_truth_onTop, ← Option.map_or]
  rfl

/-- The field of the section is read from the highest layer whose section has it. -/
theorem flag_strict_merged (hl : Layer.ofEnvironment env = .ok layer)
    (hg : Value.Mergeable (given.get? "codec")) (hone : Value.OneEach (given.get? "codec"))
    {c : Section}
    (hc : optional [] (Layer.merged d.toFields layer (Layer.ofCaller given)) "codec" ⟨false⟩
      Section.ofValue = .ok c) :
    flag (Sources.strict? (Fields.last? Layer.isStrict) ⟨given, env, d⟩) = .ok c.strict := by
  have hcodec := Layer.get?_codec_ofEnvironment hl
  have hm := Layer.get?_merged d.toFields layer given (by decide)
    (Layer.count_keys_ofEnvironment_le hl "codec")
  rw [Toml.get?_toFields] at hm
  have hflag := Value.flag_strict?_of_layers hm (Toml.ordinary_toValue _)
    (Layer.ordinary_codec hcodec) hg (Layer.oneEach_codec hcodec) hone hc
  rwa [Layer.strict?_codec hcodec] at hflag

/-- A section of the caller that cannot be merged is all that counts. -/
theorem ofValue_of_merged (hl : Layer.ofEnvironment env = .ok layer) {v : Value}
    (hv : given.get? "codec" = some v) (hs : v.section? = none) {c : Section}
    (hc : optional [] (Layer.merged d.toFields layer (Layer.ofCaller given)) "codec" ⟨false⟩
      Section.ofValue = .ok c) : Section.ofValue [.name "codec"] v = .ok c := by
  have hm := Layer.get?_merged d.toFields layer given (by decide)
    (Layer.count_keys_ofEnvironment_le hl "codec")
  rw [hv, Value.onTop, Value.onTop, Value.putOn_of_section?_eq_none hs,
    Value.putOn_of_section?_eq_none hs] at hm
  rwa [optional_of_some hm] at hc

end Layers

/-- Every name stands once in a section of the caller, as it does in every mapping. -/
theorem oneEach_caller {overrides : Fields Value}
    (h : ∀ kind es, overrides.get? "codec" = some (.mapping kind es) →
      (Value.textEntries es).keys.Nodup) : Value.OneEach (overrides.get? "codec") := by
  intro f hf k
  obtain ⟨v, hv, hs⟩ := Option.bind_eq_some_iff.mp hf
  cases v with
  | mapping kind es =>
    simp only [Value.section?] at hs
    split_ifs at hs
    rw [← Option.some.inj hs]
    exact List.nodup_iff_count_le_one.mp (h kind es hv) k
  | _ => cases hs

/--
**Precedence of every setting.**  Settings that a call answers with take each truth value from the
highest of its sources that defines it, if the caller gives no options.  The mapping of the caller
has every text once among its keys, as mappings do.
-/
theorem load_precedence (ho : NoOptions call.overrides)
    (hkeys : ∀ kind es, call.overrides.get? "codec" = some (.mapping kind es) →
      (Value.textEntries es).keys.Nodup)
    (h : load w call = .ok s) :
    ∃ found d, Discovery.select w call.file call.start = .ok found ∧
      document w found = .ok d ∧
      Sources.Decides (Fields.last? Layer.isStrict) ⟨call.overrides, w.environment, d⟩ s := by
  obtain ⟨found, d, hf, hd, ha⟩ := load_eq_ok_iff.mp h
  obtain ⟨layer, hl, hc⟩ := check_of_answer_eq_ok ha
  rw [ho.environmentFor_eq] at hl
  rw [ho.withoutOptions_eq] at hc
  obtain ⟨-, hverbose, hlog, hcodec, -⟩ := check_eq_ok_iff.mp hc
  have hgiven : (given found call.overrides).get? "codec" = call.overrides.get? "codec" :=
    get?_given (by decide) found call.overrides
  refine ⟨found, d, hf, hd, ?_, ?_, ?_, ?_⟩
  · rw [flag_merged hl (by decide)] at hverbose
    simpa [Sources.plain?, get?_given] using hverbose
  · rw [flag_merged hl (by decide)] at hlog
    simpa [Sources.plain?, get?_given] using hlog
  · intro v hv hs
    exact ofValue_of_merged hl (hgiven.trans hv) hs hcodec
  · intro hmerge
    have hone := oneEach_caller hkeys
    have hflag := flag_strict_merged hl (hgiven ▸ hmerge) (hgiven ▸ hone) hcodec
    simpa [Sources.strict?, hgiven] using hflag

/-- A file with a section, a variable, and a section of the caller that has no field. -/
def layeredWorld : World :=
  .withFile "codec.strict=true" [("VALOBJ_LOG_JSON", "on")]

def layeredCall : LoadCall :=
  ⟨.path World.topFile, .null, [("codec", .mapping .dict [])]⟩

theorem load_precedence_layered : ∃ s, load layeredWorld layeredCall = .ok s ∧
    ∃ found d, Discovery.select layeredWorld layeredCall.file layeredCall.start = .ok found ∧
      document layeredWorld found = .ok d ∧
      Sources.Decides (Fields.last? Layer.isStrict)
        ⟨layeredCall.overrides, layeredWorld.environment, d⟩ s := by
  have hd : layeredWorld.readToml World.topFile =
      .ok [("codec", .table [("strict", .bool true)])] := World.readToml_withFile (by cbv)
  have hf : Discovery.select layeredWorld layeredCall.file layeredCall.start =
      .ok (some World.topFile) := select_path (World.isFile_of_readToml hd) .null
  have hlayer : Layer.ofEnvironment layeredWorld.environment =
      .ok [("log_json", .text "on")] := rfl
  have hload : load layeredWorld layeredCall =
      .ok ⟨some World.topFile, false, true, ⟨true⟩⟩ := by
    rw [load_eq_check_of_known hf (document_of_readToml hd) (by decide) hlayer]
    rfl
  have hkeys : ∀ kind es, layeredCall.overrides.get? "codec" = some (.mapping kind es) →
      (Value.textEntries es).keys.Nodup := by
    intro kind es he
    obtain ⟨-, rfl⟩ := Value.mapping.inj (Option.some.inj he)
    exact List.nodup_nil
  exact ⟨_, hload, load_precedence (by decide) hkeys hload⟩

/-! ### Entries in capitals -/

/-- A section in a variable, with the name of its field in capitals. -/
def capitals : Environment :=
  [("VALOBJ_CODEC", "\x7b\"STRICT\": true\x7d")]

theorem read_capitals :
    Json.read "\x7b\"STRICT\": true\x7d" = .ok (.object [("STRICT", .bool true)]) := by
  have hname : (Json.textBody? ['S', 'T', 'R', 'I', 'C', 'T', '\x22', ':', ' ', 't', 'r', 'u', 'e',
      '\x7d']).map Step.pair =
      some (['S', 'T', 'R', 'I', 'C', 'T'], [':', ' ', 't', 'r', 'u', 'e', '\x7d']) := by cbv
  have hcolon : Json.skipBlanks [':', ' ', 't', 'r', 'u', 'e', '\x7d'] =
      ':' :: [' ', 't', 'r', 'u', 'e', '\x7d'] := rfl
  have hvalue : (Json.value (Json.levelLimit - 1) ['t', 'r', 'u', 'e', '\x7d']).map Step.pair =
      .ok (.bool true, ['\x7d']) := by cbv
  have hmember := Json.members_last hname hcolon hvalue rfl
  have hobject : (Json.value Json.levelLimit ['\x7b', '\x22', 'S', 'T', 'R', 'I', 'C', 'T', '\x22',
      ':', ' ', 't', 'r', 'u', 'e', '\x7d']).map Step.pair =
      .ok (.object [("STRICT", .bool true)], []) :=
    Json.value_object (r := ['\x22', 'S', 'T', 'R', 'I', 'C', 'T', '\x22', ':', ' ', 't', 'r', 'u',
      'e', '\x7d']) (by decide) (fun r' h => by cases h) hmember
  have htext : "\x7b\"STRICT\": true\x7d".toList = ['\x7b', '\x22', 'S', 'T', 'R', 'I', 'C', 'T',
      '\x22', ':', ' ', 't', 'r', 'u', 'e', '\x7d'] := rfl
  refine Json.read_eq_ok (r := []) ?_ rfl
  rw [htext]
  exact hobject

theorem folded_capitals : Layer.folded capitals =
    [(Layer.codecVariable, "\x7b\"STRICT\": true\x7d")] := Layer.folded_codecVariable _

/-- An entry of a variable decides although no name in any source is the name of the field. -/
theorem load_entry_in_capitals : ∃ s found d,
    load ⟨[], [], capitals⟩ ⟨.path World.topFile, .null, []⟩ = .ok s ∧
    Discovery.select ⟨[], [], capitals⟩ (.path World.topFile) .null = .ok found ∧
    document ⟨[], [], capitals⟩ found = .ok d ∧
    ¬ Sources.Decides (Fields.get? "strict") ⟨[], capitals, d⟩ s := by
  have hf : Discovery.select ⟨[], [], capitals⟩ (.path World.topFile) .null = .ok none :=
    select_path (World.isFile_topFile_of_none rfl) .null
  have hnames : Layer.entryNames? Layer.codecVariable = none := by decide
  have hentries (s : String) : Layer.entries [(Layer.codecVariable, s)] = [] := by
    simp [Layer.entries, hnames]
  have hlayer : Layer.ofEnvironment capitals =
      .ok [("codec", .mapping .dict [(.text "strict", .bool true)])] := by
    simp only [Layer.ofEnvironment, folded_capitals, Layer.codec?, Fields.get?, if_pos, hentries,
      read_capitals]
    rfl
  have hload : load ⟨[], [], capitals⟩ ⟨.path World.topFile, .null, []⟩ =
      .ok ⟨none, false, false, ⟨true⟩⟩ := by
    rw [load_eq_check_of_known hf rfl (by decide) hlayer]
    rfl
  refine ⟨_, none, [], hload, hf, rfl, ?_⟩
  intro hdec
  have hstrict := hdec.layered (by rintro v ⟨⟩)
  have hsection : Layer.sectionEntries? (Layer.folded capitals) =
      some [("STRICT", .bool true)] := by
    simp only [Layer.sectionEntries?, folded_capitals, Fields.get?, if_pos, hentries, read_capitals]
    rfl
  have hread : Sources.strict? (Fields.get? "strict") ⟨[], capitals, []⟩ = none := by
    rw [Sources.strict?, hsection]
    rfl
  rw [hread] at hstrict
  exact absurd hstrict (by decide)

/-! ### Variables under other names -/

/-- A variable in use, under its usual name. -/
def verboseOn : Environment := [("VALOBJ_VERBOSE", "on")]

/-- A variable under its usual name decides nothing where another beginning is asked for. -/
theorem load_usual_name_unread : ∃ s found d,
    load ⟨[], [], verboseOn⟩ ⟨.path World.topFile, .null, otherBeginning⟩ = .ok s ∧
    Discovery.select ⟨[], [], verboseOn⟩ (.path World.topFile) .null = .ok found ∧
    document ⟨[], [], verboseOn⟩ found = .ok d ∧
    ∀ entry, ¬ Sources.Decides entry ⟨otherBeginning, verboseOn, d⟩ s := by
  have hnone : environmentFor verboseOn otherBeginning = [] := by decide +kernel
  have hload := @load_otherBeginning verboseOn [] (by rw [hnone]; rfl)
  have hf : Discovery.select ⟨[], [], verboseOn⟩ (.path World.topFile) .null = .ok none :=
    select_path (World.isFile_topFile_of_none rfl) .null
  refine ⟨⟨none, false, false, ⟨false⟩⟩, none, [], hload, hf, rfl, ?_⟩
  intro entry hdec
  have hon : Sources.plain? ⟨otherBeginning, verboseOn, []⟩ "verbose" = some (.text "on") := by
    cbv
  have hverbose := hdec.verbose
  rw [hon] at hverbose
  exact absurd hverbose (by decide)

/-- Loaded settings need not follow what their sources name as the settings are named. -/
theorem load_apart_from_sources :
    (∃ s found d, load ⟨[], [], capitals⟩ ⟨.path World.topFile, .null, []⟩ = .ok s ∧
      Discovery.select ⟨[], [], capitals⟩ (.path World.topFile) .null = .ok found ∧
      document ⟨[], [], capitals⟩ found = .ok d ∧
      ¬ Sources.Decides (Fields.get? "strict") ⟨[], capitals, d⟩ s) ∧
    ∃ s found d,
      load ⟨[], [], verboseOn⟩ ⟨.path World.topFile, .null, otherBeginning⟩ = .ok s ∧
      Discovery.select ⟨[], [], verboseOn⟩ (.path World.topFile) .null = .ok found ∧
      document ⟨[], [], verboseOn⟩ found = .ok d ∧
      ∀ entry, ¬ Sources.Decides entry ⟨otherBeginning, verboseOn, d⟩ s :=
  ⟨load_entry_in_capitals, load_usual_name_unread⟩

end Settings

end Nullary
