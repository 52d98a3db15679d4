import Nullary.Proofs.Except
import Nullary.Proofs.Settings.Discovery
import Nullary.Proofs.Settings.Sources

/-!
# Values of the caller

A caller that gives every setting (`Settings.Shadows`) decides them all: whatever variables and the
document of the file say about settings, it is hidden (`Settings.load_shadowed`).  But a text for
the section is read before it is hidden, and one that cannot be read is an error.
-/

namespace Nullary

open Check

namespace Settings

/-- The caller gives every setting, and nothing else. -/
structure Shadows (overrides : Fields Value) (verbose logJson strict : Bool) : Prop where
  verbose : overrides.get? "verbose" = some (.bool verbose)
  logJson : overrides.get? "log_json" = some (.bool logJson)
  codec : overrides.get? "codec" = some (.mapping .dict [(.text "strict", .bool strict)])
  known : ∀ k ∈ overrides.keys, k ∈ fieldNames

variable {src : Sources} {a b c : Bool}

theorem Shadows.effective?_verbose (h : Shadows src.overrides a b c) :
    src.effective? "verbose" = some (.bool a) := by
  have hhighest : src.highest? "verbose" = some (.bool a) := by simp [Sources.highest?, h.verbose]
  exact Sources.effective?_of_highest? hhighest rfl

theorem Shadows.effective?_logJson (h : Shadows src.overrides a b c) :
    src.effective? "log_json" = some (.bool b) := by
  have hhighest : src.highest? "log_json" = some (.bool b) := by simp [Sources.highest?, h.logJson]
  exact Sources.effective?_of_highest? hhighest rfl

/-- The section can be merged, whatever it is put on, and its field is that of the caller. -/
theorem Shadows.effective?_codec (h : Shadows src.overrides a b c)
    (hjson : Layer.HoldsJson src.environment) : ∃ v f, src.effective? "codec" = some v ∧
      v.section? = some f ∧ f.get? "strict" = some (.bool c) := by
  have hcaller : Value.Mergeable (src.overrides.get? "codec") := by
    rw [h.codec]
    exact Value.Mergeable.onTop_some rfl none
  have hone : Value.OneEach (src.overrides.get? "codec") := by
    refine oneEach_caller fun kind es hes => ?_
    obtain ⟨-, rfl⟩ := Value.mapping.inj (Option.some.inj (h.codec.symm.trans hes))
    exact List.nodup_singleton _
  have hupper : Value.Mergeable
      (Value.onTop (src.inVariables? "codec") (src.overrides.get? "codec")) := by
    rw [h.codec]
    exact Value.Mergeable.onTop_some rfl _
  have hstrict : Value.strict? (src.effective? "codec") = some (.bool c) := by
    rw [strict?_effective? hjson hcaller hone hupper]
    refine Value.onTop_onTop_of_or ?_ rfl
    rw [h.codec]
    rfl
  obtain ⟨f, hf, hfield⟩ := Option.bind_eq_some_iff.mp hstrict
  obtain ⟨v, hv, hs⟩ := Option.bind_eq_some_iff.mp hf
  exact ⟨v, f, hv, hs, hfield⟩

variable {w : World} {call : LoadCall} {found : Option FilePath} {d : Toml.Table}

/--
**Values of the caller win.**  A call that gives every setting, and that has selected a file in
whose document all names are settings, or none, answers with just these settings, whatever variables
and document say; only a text for the section that cannot be read as JSON is an error.
-/
theorem load_shadowed (hf : Discovery.select w call.file call.start = .ok found)
    (hd : document w found = .ok d) (hknown : ∀ k ∈ Fields.keys d, k ∈ fieldNames)
    (h : Shadows call.overrides a b c) :
    (Layer.HoldsJson w.environment → load w call = .ok ⟨found, a, b, ⟨c⟩⟩) ∧
    (¬ Layer.HoldsJson w.environment → ∃ e, load w call = .error (.environment e)) := by
  refine ⟨fun hjson => ?_, fun hjson => ?_⟩
  · obtain ⟨layer, hl⟩ := Layer.exists_ofEnvironment_iff.mpr hjson
    have hcount : ∀ k ∉ fieldNames, call.overrides.keys.count k ≤ 1 := by
      intro k hk
      rw [List.count_eq_zero_of_not_mem fun hm => hk (h.known k hm)]
      exact Nat.zero_le 1
    have hrecord {k : String} (hk : k ≠ "config_path") :=
      get?_record (d := d) hl hcount found hk
    have hshadows : Shadows (Sources.overrides ⟨call.overrides, w.environment, d⟩) a b c := h
    obtain ⟨v, f, hv, hs, hfield⟩ := hshadows.effective?_codec hjson
    rw [load_eq_check_of_known hf hd h.known hl, mapError_eq_ok_iff, check_eq_ok_iff]
    refine ⟨optional_path_merged hl found call.overrides, ?_, ?_, ?_, ?_⟩
    · rw [hrecord (by decide), hshadows.effective?_verbose]
      rfl
    · rw [hrecord (by decide), hshadows.effective?_logJson]
      rfl
    · rw [optional_of_some ((hrecord (by decide)).trans hv), Value.ofValue_of_section? hs,
        Section.checkFields_eq_ok_iff, hfield]
      rfl
    · intro k hk
      by_contra hunknown
      have hpath : k ≠ "config_path" := by
        rintro rfl
        exact hunknown (by decide)
      have hthere := mt Fields.get?_eq_none_iff.mp (not_not.mpr hk)
      obtain ⟨v, hv⟩ := Option.ne_none_iff_exists'.mp hthere
      rw [hrecord hpath] at hv
      obtain hdoc | hover := (Sources.exists_effective?_iff hunknown).mp ⟨v, hv⟩
      · exact hunknown (hknown k hdoc)
      · exact hunknown (h.known k hover)
  · obtain ⟨e, he⟩ := Layer.ofEnvironment_eq_error hjson
    exact ⟨e, load_eq_error_of_known hf hd h.known he⟩

/-- Values that are no settings, in the file and in variables. -/
def unreadableWorld : World :=
  .withFile "verbose=7" [("VALOBJ_LOG_JSON", "maybe"), ("VALOBJ_CODEC", "[]")]

/-- The arguments of a caller who gives every setting. -/
def allGiven (verbose logJson strict : Bool) : Fields Value :=
  [("codec", .mapping .dict [(.text "strict", .bool strict)]), ("log_json", .bool logJson),
    ("verbose", .bool verbose)]

theorem shadows_allGiven (verbose logJson strict : Bool) :
    Shadows (allGiven verbose logJson strict) verbose logJson strict where
  verbose := rfl
  logJson := rfl
  codec := rfl
  known := by
    show ∀ k ∈ ["codec", "log_json", "verbose"], k ∈ fieldNames
    decide

theorem holdsJson_unreadable : Layer.HoldsJson unreadableWorld.environment := by
  have hlog : LowerCase.text "VALOBJ_LOG_JSON" = "valobj_log_json" := by cbv
  have hcodec : LowerCase.text "VALOBJ_CODEC" = Layer.codecVariable := by cbv
  have hfolded :
      (Layer.folded unreadableWorld.environment).get? Layer.codecVariable = some "[]" := by
    simp [unreadableWorld, World.withFile, Layer.folded, hlog, hcodec, Fields.ofList,
      Fields.insertAll, Fields.insert, Fields.get?, Layer.codecVariable]
  intro s hs
  obtain rfl := Option.some.inj (hfolded.symm.trans hs)
  have hread : Json.read (String.ofList (Json.brackets 0 [])) = .ok (Json.nested 0) :=
    Json.read_brackets (by decide)
  exact ⟨Json.nested 0, hread⟩

theorem load_shadowed_unreadable :
    load unreadableWorld ⟨.path World.topFile, .null, allGiven true false true⟩ =
      .ok ⟨some World.topFile, true, false, ⟨true⟩⟩ := by
  have hd : unreadableWorld.readToml World.topFile =
      .ok [("verbose", .int 7)] := World.readToml_withFile (by cbv)
  have hf : Discovery.select unreadableWorld (.path World.topFile) .null =
      .ok (some World.topFile) := select_path (World.isFile_of_readToml hd) .null
  exact (load_shadowed hf (document_of_readToml hd) (by decide) (shadows_allGiven _ _ _)).1
    holdsJson_unreadable

/-- A text that is read before it is hidden. -/
def emptyText : Environment := [("VALOBJ_CODEC", "")]

theorem load_shadowed_empty :
    load ⟨[], [], emptyText⟩ ⟨.null, .null, allGiven false false true⟩ =
      .error (.environment .malformed) := by
  have hlayer : Layer.ofEnvironment emptyText = .error .malformed := by
    rw [Layer.ofEnvironment, emptyText, Layer.folded_codecVariable]
    simp only [Layer.codec?, Fields.get?, if_pos, Json.read_empty]
    rfl
  have hknown := (shadows_allGiven false false true).known
  exact load_eq_error_of_known (Discovery.select_without_files rfl) rfl hknown hlayer

end Settings

end Nullary
