import Nullary.Proofs.Settings.Load
import Nullary.Proofs.Settings.Threads

/-!
# What settings are made of

A call selects a file (`Settings.Selects`), and then nothing counts but that file, the values of the
caller, and the variables for settings other than the file (`Layer.relevant`): where these are the
same, two calls come to the same, be it settings or an error, whatever else is different around
them.  The file that settings name is the one that was selected.
Main statement: `Settings.load_provenance`.
-/

namespace Nullary

/-! ### Variables that count -/

namespace Layer

/-- Whether a name without case is that of a variable for a setting other than the file. -/
def isRead (name : String) : Bool :=
  ["valobj_verbose", "valobj_log_json", "valobj_codec"].contains name ||
    "valobj_codec__".toList.isPrefixOf name.toList

/-- The variables for settings other than the file, in their order. -/
def relevant (env : Environment) : Environment :=
  env.filter fun e => isRead (LowerCase.text e.1)

theorem folded_relevant (env : Environment) :
    folded (relevant env) = (folded env).filter fun e => isRead e.1 := by
  rw [folded, folded, Fields.filter_ofList, relevant, List.filter_map]
  rfl

theorem isRead_of_entryNames? {name : String} {names : List String}
    (h : entryNames? name = some names) : isRead name = true := by
  have hmark : "valobj_codec__".toList = codecVariable.toList ++ ['_', '_'] := by decide
  unfold entryNames? at h
  dsimp only at h
  split_ifs at h with hp
  rw [isRead, hmark, hp, Bool.or_true]

/-- The entries of the section come from variables that count. -/
theorem entries_filter (env : Environment) :
    entries (env.filter fun e => isRead e.1) = entries env := by
  rw [entries, entries, List.foldl_filter]
  congr 1
  funext es e
  cases hn : entryNames? e.1 with
  | none => simp
  | some names => rw [if_pos (isRead_of_entryNames? hn)]

theorem codec?_filter (env : Environment) :
    codec? (env.filter fun e => isRead e.1) = codec? env := by
  have hcodec : isRead codecVariable = true := by decide
  rw [codec?, codec?, entries_filter, Fields.get?_filter hcodec]

/-- Of the layer of the variables, those that do not count make at most the name of the file. -/
theorem ofEnvironment_relevant (env : Environment) :
    ofEnvironment (relevant env) = (ofEnvironment env).map (Fields.erase "config_path") := by
  have hpath : isRead (stem ++ "config_path") = false := by decide
  have hverbose : isRead (stem ++ "verbose") = true := by decide
  have hlog : isRead (stem ++ "log_json") = true := by decide
  unfold ofEnvironment
  dsimp only
  rw [folded_relevant, codec?_filter]
  cases codec? (folded env) with
  | error e => rfl
  | ok codec =>
    simp only [List.filterMap_cons, List.filterMap_nil, Fields.get?_filter_eq_none hpath,
      Fields.get?_filter hverbose, Fields.get?_filter hlog, Except.map]
    cases (folded env).get? (stem ++ "config_path") <;>
      cases (folded env).get? (stem ++ "verbose") <;>
      cases (folded env).get? (stem ++ "log_json") <;>
      cases codec <;> rfl

end Layer

/-! ### Layers with a file that the caller gives -/

namespace Settings

variable {w w' : World} {call call' : LoadCall} {found : Option FilePath} {given : Fields Value}

/-- Records are read alike that hold the same under the names of settings and refuse the same. -/
theorem check_congr {f g : Fields Value} (h : ∀ k ∈ fieldNames, f.get? k = g.get? k)
    (hs : surplus f = surplus g) : check f = check g := by
  have hpath := h "config_path" (by decide)
  have hverbose := h "verbose" (by decide)
  have hlog := h "log_json" (by decide)
  have hcodec := h "codec" (by decide)
  have hknown : known f = known g := by rw [known, known, hs]
  simp only [check, hknown, Check.optional_congr hpath, Check.optional_congr hverbose,
    Check.optional_congr hlog, Check.optional_congr hcodec]

theorem surplus_merged_erase (document environment caller : Fields Value) {k : String}
    (hk : k ∈ fieldNames) :
    surplus (Layer.merged document (environment.erase k) caller) =
      surplus (Layer.merged document environment caller) := by
  have hmerge := Fields.filter_merge fun k => !fieldNames.contains k
  rw [surplus, surplus, Layer.merged, Layer.merged, hmerge, hmerge, hmerge, hmerge,
    filter_unknown_erase hk]

/-- What variables say about the file does not count against a value of the caller. -/
theorem check_merged_erase (document : Fields Value) {layer : Fields Value} {v : Value}
    (hv : given.get? "config_path" = some v) (hs : v.section? = none)
    (hone : ∀ k, layer.keys.count k ≤ 1) :
    check (Layer.merged document (layer.erase "config_path") (Layer.ofCaller given)) =
      check (Layer.merged document layer (Layer.ofCaller given)) := by
  have hsub : ∀ k, (layer.erase "config_path").keys.count k ≤ 1 := by
    intro k
    exact ((List.filter_sublist.map _).count_le k).trans (hone k)
  refine check_congr ?_ (surplus_merged_erase _ _ _ (by decide))
  intro k hk
  rw [Layer.get?_merged _ _ _ hk (hsub k), Layer.get?_merged _ _ _ hk (hone k)]
  by_cases hpath : k = "config_path"
  · simp only [hpath, hv, Value.onTop_of_section?_eq_none hs]
  · rw [Fields.get?_erase_of_ne hpath]

/-- The layers of a call are read alike with the variables that count alone. -/
theorem ofLayers_relevant (env : Environment) (d : Toml.Table) (found : Option FilePath)
    {overrides : Fields Value} (ho : NoOptions overrides) :
    ofLayers (Layer.relevant env) d (Settings.given found overrides) =
      ofLayers env d (Settings.given found overrides) := by
  cases hl : Layer.ofEnvironment env with
  | error e =>
    have hrelevant : Layer.ofEnvironment (Layer.relevant env) = .error e := by
      rw [Layer.ofEnvironment_relevant, hl]
      rfl
    rw [ofLayers_of_error ho hl, ofLayers_of_error ho hrelevant]
  | ok layer =>
    have hrelevant : Layer.ofEnvironment (Layer.relevant env) = .ok (layer.erase "config_path") := by
      rw [Layer.ofEnvironment_relevant, hl]
      rfl
    have hpath : (Settings.given found overrides).get? "config_path" = some (optionalPath found) :=
      if_pos rfl
    rw [ofLayers_of_layer ho hl, ofLayers_of_layer ho hrelevant,
      check_merged_erase d.toFields hpath (section?_optionalPath found)
        (Layer.count_keys_ofEnvironment_le hl)]

/-! ### The file of a call -/

/--
How a call selects its file.  A file that the caller names is taken if it is there, and no other one
is looked for; else it is the one that is found from where the search starts.
-/
structure Selects (w : World) (call : LoadCall) (found : Option FilePath) : Prop where
  named : call.file.truthy = true → ∃ p, Discovery.pathOf call.file = .ok p ∧
    (w.isFile p = .ok true ∧ found = some p ∨ w.isFile p = .ok false ∧ found = none)
  searched : call.file.truthy = false → Discovery.find w call.start = .ok found

theorem ifFile_eq_ok_iff {p : FilePath} : Discovery.ifFile w p = .ok found ↔
    w.isFile p = .ok true ∧ found = some p ∨ w.isFile p = .ok false ∧ found = none := by
  unfold Discovery.ifFile
  cases w.isFile p with
  | error e => simp
  | ok there => cases there <;> simp [eq_comm]

theorem select_eq_ok_iff :
    Discovery.select w call.file call.start = .ok found ↔ Selects w call found := by
  unfold Discovery.select
  cases ht : call.file.truthy with
  | false =>
    rw [if_neg Bool.false_ne_true]
    constructor
    · intro h
      exact ⟨fun hnamed => absurd (ht.symm.trans hnamed) Bool.false_ne_true, fun _ => h⟩
    · intro h
      exact h.searched ht
  | true =>
    rw [if_pos rfl]
    constructor
    · intro h
      split at h
      · next p hp =>
        refine ⟨fun _ => ⟨p, hp, ifFile_eq_ok_iff.mp h⟩, fun hsearched => ?_⟩
        exact absurd (hsearched.symm.trans ht) Bool.false_ne_true
      · cases h
    · intro h
      obtain ⟨p, hp, hfound⟩ := h.named ht
      rw [hp]
      exact ifFile_eq_ok_iff.mpr hfound

theorem isFile_of_firstIn {top : Anchor} {ls : List Location} {p : FilePath}
    (h : Discovery.firstIn w top ls = .ok (some p)) : w.isFile p = .ok true := by
  induction ls with
  | nil => cases h
  | cons l ls ih =>
    rw [Discovery.firstIn] at h
    split at h
    · exact ih h
    · obtain ⟨hp, hsame⟩ | ⟨-, hnone⟩ := ifFile_eq_ok_iff.mp h
      · obtain rfl := Option.some.inj hsame
        exact hp
      · cases hnone

/-- What is selected is a file. -/
theorem isFile_of_selects {p : FilePath} (h : Selects w call (some p)) : w.isFile p = .ok true := by
  have hfile {q : FilePath} (hq : Discovery.ifFile w q = .ok (some p)) : w.isFile p = .ok true := by
    obtain ⟨hq, hsame⟩ | ⟨-, hnone⟩ := ifFile_eq_ok_iff.mp hq
    · obtain rfl := Option.some.inj hsame
      exact hq
    · cases hnone
  cases ht : call.file.truthy with
  | true =>
    obtain ⟨q, -, hq⟩ := h.named ht
    exact hfile (ifFile_eq_ok_iff.mpr hq)
  | false =>
    have hfind := h.searched ht
    unfold Discovery.find at hfind
    split at hfind
    · exact hfile hfind
    · cases hs : Discovery.startOf call.start with
      | error e => simp [hs, Except.bind] at hfind
      | ok start =>
        simp only [hs, Except.bind, Discovery.search] at hfind
        split at hfind
        · exact isFile_of_firstIn hfind
        · cases hfind

/-- The document of a selected file is what its bytes say. -/
theorem document_of_selects (h : Selects w call found) : document w found =
    match found with
    | none => .ok []
    | some p => (w.readToml p).mapError .file := by
  cases found with
  | none => rfl
  | some p => rw [document, documentAt, isFile_of_selects h]

theorem documentFor_congr {given : Fields Value} (h : document w found = document w' found) :
    documentFor w found given = documentFor w' found given := by
  unfold documentFor
  rw [h]

/-! ### Two calls -/

/-- The same file, the same bytes, the same values and the same variables that count. -/
theorem load_congr (ho : NoOptions call.overrides) (hs : Selects w call found)
    (hs' : Selects w' call' found)
    (hbytes : ∀ p, found = some p → w'.read p = w.read p) (hcaller : call'.overrides = call.overrides)
    (henv : Layer.relevant w'.environment = Layer.relevant w.environment) :
    load w' call' = load w call := by
  have hdocument : document w' found = document w found := by
    rw [document_of_selects hs, document_of_selects hs']
    cases found with
    | none => rfl
    | some p => simp only [World.readToml, hbytes p rfl]
  rw [load_of_select_eq_ok (select_eq_ok_iff.mpr hs),
    load_of_select_eq_ok (select_eq_ok_iff.mpr hs'), hcaller, build, build,
    documentFor_congr hdocument]
  split
  · rfl
  · next d hd => rw [← ofLayers_relevant _ _ _ ho, henv, ofLayers_relevant _ _ _ ho]

/-- The file in settings is the one that was selected. -/
theorem path_of_load {s : Settings} (hs : Selects w call found) (h : load w call = .ok s) :
    s.path = found := by
  obtain ⟨found', d, hf, -, ha⟩ := load_eq_ok_iff.mp h
  obtain rfl : found = found' := by
    have hsame := (select_eq_ok_iff.mpr hs).symm.trans hf
    exact Except.ok.inj hsame
  obtain ⟨layer, hl, hc⟩ := check_of_answer_eq_ok ha
  obtain ⟨hpath, -⟩ := check_eq_ok_iff.mp hc
  have hsame := (optional_path_merged hl found (withoutOptions call.overrides)).symm.trans hpath
  exact (Except.ok.inj hsame).symm

/--
**What settings are made of.**  A call that answers with settings has selected the file that they
name.  Of two calls that select the same file with the same bytes, or none, with the same values of
the caller and the same variables that count, both come to the same settings or to the same error,
in whatever worlds they are made, and whatever a thread had left in its slot before.  So it is
for callers that give no options, which can have other variables read.
-/
theorem load_provenance (w : World) (call : LoadCall) (ho : NoOptions call.overrides) :
    (∀ s, load w call = .ok s → Selects w call s.path) ∧
    (∀ slot, Thread.outcomesFrom w slot (.load call) = [load w call]) ∧
    ∀ found, Selects w call found →
      (∀ s, load w call = .ok s → s.path = found) ∧
      ∀ w' call', Selects w' call' found → (∀ p, found = some p → w'.read p = w.read p) →
        call'.overrides = call.overrides →
        Layer.relevant w'.environment = Layer.relevant w.environment →
        load w' call' = load w call := by
  refine ⟨?_, fun slot => Thread.outcomesFrom_load w slot call, ?_⟩
  · intro s h
    obtain ⟨found, d, hf, -, -⟩ := load_eq_ok_iff.mp h
    have hs : Selects w call found := select_eq_ok_iff.mp hf
    rwa [path_of_load hs h]
  · intro found hs
    refine ⟨fun s h => path_of_load hs h, ?_⟩
    intro w' call' hs' hbytes hcaller henv
    exact load_congr ho hs hs' hbytes hcaller henv

/-- A file that the caller names, though a variable speaks of another one. -/
def namingWorld : World :=
  .withFile "verbose=true" [("VALOBJ_CONFIG_PATH", "other.toml"), ("VALOBJ_LOG_JSON", "on")]

def namingCall : LoadCall :=
  ⟨.path World.topFile, .null, []⟩

/-- The same file in another world, where a variable names it. -/
def findingWorld : World :=
  .withFile "verbose=true" [("VALOBJ_LOG_JSON", "on"), ("VALOBJ_CONFIG", "/valobj.toml")]

def findingCall : LoadCall :=
  ⟨.null, .null, []⟩

theorem relevant_naming : Layer.relevant namingWorld.environment = [("VALOBJ_LOG_JSON", "on")] := by
  have hpath : LowerCase.text "VALOBJ_CONFIG_PATH" = "valobj_config_path" := by cbv
  have hlog : LowerCase.text "VALOBJ_LOG_JSON" = "valobj_log_json" := by cbv
  simp [Layer.relevant, namingWorld, World.withFile, hpath, hlog, Layer.isRead]

theorem relevant_finding : Layer.relevant findingWorld.environment = [("VALOBJ_LOG_JSON", "on")] := by
  have hlog : LowerCase.text "VALOBJ_LOG_JSON" = "valobj_log_json" := by cbv
  have hfile : LowerCase.text "VALOBJ_CONFIG" = "valobj_config" := by cbv
  simp [Layer.relevant, findingWorld, World.withFile, hlog, hfile, Layer.isRead]

theorem readToml_verbose (env : Environment) :
    (World.withFile "verbose=true" env).readToml World.topFile = .ok [("verbose", .bool true)] :=
  World.readToml_withFile (by cbv)

theorem load_provenance_found : load findingWorld findingCall =
      .ok ⟨some World.topFile, true, true, ⟨false⟩⟩ ∧
    load findingWorld findingCall = load namingWorld namingCall := by
  have hnaming : Discovery.select namingWorld namingCall.file namingCall.start =
      .ok (some World.topFile) := select_path (World.isFile_of_readToml (readToml_verbose _)) .null
  have hfinding : Discovery.select findingWorld findingCall.file findingCall.start =
      .ok (some World.topFile) := by
    have hname : FilePath.ofString "/valobj.toml" = World.topFile := by cbv
    have hthere : findingWorld.isFile World.topFile = .ok true :=
      World.isFile_of_readToml (readToml_verbose _)
    show Discovery.ifFile findingWorld (FilePath.ofString "/valobj.toml") = _
    rw [hname]
    exact ifFile_eq_ok_iff.mpr (Or.inl ⟨hthere, rfl⟩)
  have hbytes : ∀ p, some World.topFile = some p → findingWorld.read p = namingWorld.read p := by
    intro p hp
    obtain rfl := Option.some.inj hp
    exact (World.read_withFile _ _).trans (World.read_withFile _ _).symm
  have henv : Layer.relevant findingWorld.environment = Layer.relevant namingWorld.environment :=
    relevant_finding.trans relevant_naming.symm
  have ho : NoOptions namingCall.overrides := by decide
  have hsame := ((load_provenance namingWorld namingCall ho).2.2 _ (select_eq_ok_iff.mp hnaming)).2
    findingWorld findingCall (select_eq_ok_iff.mp hfinding) hbytes rfl henv
  refine ⟨?_, hsame⟩
  rw [hsame, load_eq_answer hnaming (document_of_readToml (readToml_verbose _)),
    answer_of_not_mem_receiver (by decide), ← ofLayers_relevant _ _ _ ho, relevant_naming]
  have hlayer : Layer.ofEnvironment [("VALOBJ_LOG_JSON", "on")] = .ok [("log_json", .text "on")] :=
    rfl
  rw [ofLayers_of_layer ho hlayer]
  rfl

/-! ### Two calls that ask for other variables -/

/-- A variable whose name begins in another way than usual. -/
def fooVerbose : Environment := [("FOO_VERBOSE", "on")]

/--
Where another beginning is asked for, two calls can select the same, give the same values and have
the same of the usual variables, and yet come to different settings.
-/
theorem load_beyond_relevant : ∃ w w' call, Selects w call none ∧ Selects w' call none ∧
    Layer.relevant w'.environment = Layer.relevant w.environment ∧ load w' call ≠ load w call := by
  have hselects (env : Environment) :
      Selects ⟨[], [], env⟩ ⟨.path World.topFile, .null, otherBeginning⟩ none :=
    select_eq_ok_iff.mp (select_path (World.isFile_topFile_of_none rfl) .null)
  have hrelevant : Layer.relevant fooVerbose = [] := by
    have hname : LowerCase.text "FOO_VERBOSE" = "foo_verbose" := by cbv
    simp [Layer.relevant, fooVerbose, hname, Layer.isRead]
  have hread : environmentFor fooVerbose otherBeginning = [("valobj_verbose", "on")] := by
    decide +kernel
  have hon := @load_otherBeginning fooVerbose [("verbose", .text "on")] (by rw [hread]; rfl)
  have hoff := @load_otherBeginning [] [] rfl
  refine ⟨⟨[], [], fooVerbose⟩, ⟨[], [], []⟩, ⟨.path World.topFile, .null, otherBeginning⟩,
    hselects fooVerbose, hselects [], hrelevant.symm, ?_⟩
  intro hsame
  rw [hon, hoff] at hsame
  have hverbose : (⟨none, false, false, ⟨false⟩⟩ : Settings) = ⟨none, true, false, ⟨false⟩⟩ :=
    Except.ok.inj hsame
  cases hverbose

end Settings

end Nullary
