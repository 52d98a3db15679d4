import Mathlib
import Nullary.Proofs.Settings.Load

/-!
# Names in a settings file that are no settings

A file with an unknown name at its top is refused, whatever else there is.  Unknown names in the
codec section of a file are passed over: the answer is the one for the document without them, be
it settings or an error (`Settings.answer_trimmed`).  So the files with unknown names that are
accepted are those whose unknown names all stand in the section and that would be accepted without
them (`Settings.load_unknown_names`).
-/

namespace Nullary

open Check

namespace Section

/-- The names of the fields of a section. -/
def fieldNames : List String := ["strict"]

end Section

namespace Value

/-- Two values are the same, or sections that have the same value under every known name. -/
def SameSection (x y : Option Value) : Prop :=
  x = y ∨ ∃ f g, x.bind section? = some f ∧ y.bind section? = some g ∧
    ∀ k ∈ Section.fieldNames, f.get? k = g.get? k

theorem SameSection.onTop {w w' : Option Value} (h : SameSection w w') (x : Option Value) :
    SameSection (onTop w x) (onTop w' x) := by
  rcases h with rfl | ⟨f, g, hf, hg, hfg⟩
  · exact Or.inl rfl
  cases x with
  | none => exact Or.inr ⟨f, g, hf, hg, hfg⟩
  | some v =>
    cases hv : v.section? with
    | none =>
      left
      rw [Value.onTop, Value.onTop, putOn_of_section?_eq_none hv, putOn_of_section?_eq_none hv]
    | some u =>
      right
      refine ⟨f.merge u, g.merge u, ?_, ?_, ?_⟩
      · rw [Value.onTop, Option.bind_some, section?_putOn hv, hf]
      · rw [Value.onTop, Option.bind_some, section?_putOn hv, hg]
      · intro k hk
        exact Fields.get?_merge_congr (hfg k hk)

/-- The same section is built from both, or the same issues are found. -/
theorem SameSection.optional_eq {f g : Fields Value}
    (h : SameSection (f.get? "codec") (g.get? "codec")) :
    optional [] f "codec" ⟨false⟩ Section.ofValue =
      optional [] g "codec" ⟨false⟩ Section.ofValue := by
  rcases h with h | ⟨u, u', hu, hu', hk⟩
  · exact optional_congr h
  obtain ⟨v, hv, hs⟩ := Option.bind_eq_some_iff.mp hu
  obtain ⟨v', hv', hs'⟩ := Option.bind_eq_some_iff.mp hu'
  rw [optional_of_some hv, optional_of_some hv', ofValue_of_section? hs, ofValue_of_section? hs',
    Section.checkFields, Section.checkFields, optional_congr (hk "strict" (by decide))]

end Value

/-! ### Records that differ in what their sections do not know -/

/-- Two records are the same but for entries of the codec section under unknown names. -/
structure Fields.Alike (f g : Fields Value) : Prop where
  others : f.erase "codec" = g.erase "codec"
  sections : Value.SameSection (f.get? "codec") (g.get? "codec")

namespace Fields.Alike

variable {f g : Fields Value}

theorem get?_eq (h : Alike f g) {k : String} (hk : k ≠ "codec") : f.get? k = g.get? k := by
  rw [← get?_erase_of_ne hk, h.others, get?_erase_of_ne hk]

/-- Putting a value into both keeps them alike. -/
theorem insert_putOn (h : Alike f g) (k : String) (v : Value) :
    Alike (f.insert k (Value.putOn (f.get? k) v)) (g.insert k (Value.putOn (g.get? k) v)) := by
  by_cases hk : k = "codec"
  · subst hk
    refine ⟨?_, ?_⟩
    · rw [erase_insert_self, erase_insert_self, h.others]
    · rw [get?_insert, if_pos rfl, get?_insert, if_pos rfl]
      exact h.sections.onTop (some v)
  · refine ⟨?_, ?_⟩
    · rw [erase_insert_of_ne hk, erase_insert_of_ne hk, h.others, h.get?_eq hk]
    · rw [get?_insert, if_neg hk, get?_insert, if_neg hk]
      exact h.sections

theorem merge (h : Alike f g) (u : Fields Value) : Alike (f.merge u) (g.merge u) := by
  induction u generalizing f g with
  | nil => exact h
  | cons e u ih =>
    obtain ⟨k, v⟩ := e
    rw [merge_cons, merge_cons]
    exact ih (h.insert_putOn k v)

/-- Alike records are read as the same settings, or rejected for the same issues. -/
theorem check_eq (h : Alike f g) : Settings.check f = Settings.check g := by
  have hpath : f.get? "config_path" = g.get? "config_path" := h.get?_eq (by decide)
  have hverbose : f.get? "verbose" = g.get? "verbose" := h.get?_eq (by decide)
  have hlog : f.get? "log_json" = g.get? "log_json" := h.get?_eq (by decide)
  have hknown : Settings.known f = Settings.known g := by
    have hcodec : "codec" ∈ Settings.fieldNames := by decide
    rw [Settings.known, Settings.known, ← Settings.surplus_erase hcodec f,
      ← Settings.surplus_erase hcodec g, h.others]
  simp only [Settings.check, h.sections.optional_eq, hknown, optional_congr hpath,
    optional_congr hverbose, optional_congr hlog]

end Fields.Alike

/-! ### Documents -/

namespace Toml

/-- A table without entries under names that a section does not know; anything else as it is. -/
def knownEntries : Toml → Toml
  | .table es => .table (es.filter fun e => Section.fieldNames.contains e.1)
  | t => t

/-- A document without the entries of its codec section that are unknown there. -/
def trimmed (d : Table) : Table :=
  d.map fun e => if e.1 = "codec" then (e.1, knownEntries e.2) else e

theorem sameSection_knownEntries (t : Toml) :
    Value.SameSection (some t.toValue) (some (knownEntries t).toValue) := by
  cases t with
  | table es =>
    refine Or.inr ⟨Fields.mapValues toValue es,
      Fields.mapValues toValue (es.filter fun e => Section.fieldNames.contains e.1), ?_, ?_, ?_⟩
    · exact congrArg some (textEntries_toEntries es)
    · exact congrArg some (textEntries_toEntries _)
    · intro k hk
      have hk' : Section.fieldNames.contains k = true := by simpa using hk
      rw [Fields.mapValues, Fields.get?_mapValues, Fields.mapValues, Fields.get?_mapValues,
        Fields.get?_filter hk']
  | _ => exact Or.inl rfl

theorem get?_trimmed (d : Table) :
    Fields.get? "codec" (trimmed d) = (Fields.get? "codec" d).map knownEntries := by
  induction d with
  | nil => rfl
  | cons e d ih =>
    obtain ⟨k, t⟩ := e
    by_cases hk : k = "codec"
    · simp [trimmed, Fields.get?, hk]
    · simpa [trimmed, Fields.get?, hk] using ih

theorem alike_trimmed (d : Table) : Fields.Alike d.toFields (trimmed d).toFields := by
  refine ⟨?_, ?_⟩
  · induction d with
    | nil => rfl
    | cons e d ih =>
      obtain ⟨k, t⟩ := e
      by_cases hk : k = "codec"
      · simpa [trimmed, Table.toFields, Fields.erase, hk] using ih
      · simpa [trimmed, Table.toFields, Fields.erase, hk] using ih
  · rw [get?_toFields, get?_toFields, get?_trimmed]
    cases Fields.get? "codec" d with
    | none => exact Or.inl rfl
    | some t => exact sameSection_knownEntries t

end Toml

/-! ### Loading -/

namespace Settings

variable {w : World} {call : LoadCall} {p : FilePath} {d : Toml.Table}

/-- Layers of which the lowest differ in unknown names of the section give the same settings. -/
theorem ofLayers_trimmed (env : Environment) (d : Toml.Table) (given : Fields Value) :
    ofLayers env (Toml.trimmed d) given = ofLayers env d given := by
  unfold ofLayers
  cases Layer.ofEnvironment (environmentFor env given) with
  | error e => rfl
  | ok layer =>
    have hmerged : Fields.Alike
        (Layer.merged d.toFields layer (Layer.ofCaller (withoutOptions given)))
        (Layer.merged (Toml.trimmed d).toFields layer (Layer.ofCaller (withoutOptions given))) :=
      (Toml.alike_trimmed d).merge _
    exact congrArg (Except.mapError LoadError.rejected) hmerged.check_eq.symm

theorem answer_trimmed (w : World) (call : LoadCall) (found : Option FilePath) (d : Toml.Table) :
    answer w call found (Toml.trimmed d) = answer w call found d := by
  simp only [answer, ofLayers_trimmed]

/-- Settings come only from documents whose names are all settings. -/
theorem known_of_answer_eq_ok {found : Option FilePath} {s : Settings}
    (h : answer w call found d = .ok s) : ∀ k ∈ Fields.keys d, k ∈ fieldNames := by
  intro k hk
  obtain ⟨layer, -, hc⟩ := check_of_answer_eq_ok h
  obtain ⟨-, -, -, -, hknown⟩ := check_eq_ok_iff.mp hc
  apply hknown
  apply Layer.mem_keys_merged
  show k ∈ Fields.keys (Fields.mapValues Toml.toValue d)
  rwa [Fields.keys_mapValues]

/--
**Unknown names in a settings file.**  A call that selects a file answers as if the unknown names
in the codec section of the file were not there.  It answers with settings exactly where all names
at the top of the document are settings and the document without the unknown names of its section
is accepted.
-/
theorem load_unknown_names (hf : Discovery.select w call.file call.start = .ok (some p))
    (hd : w.readToml p = .ok d) :
    load w call = answer w call (some p) (Toml.trimmed d) ∧
    ((∃ s, load w call = .ok s) ↔
      (∀ k ∈ Fields.keys d, k ∈ fieldNames) ∧
      ∃ s, answer w call (some p) (Toml.trimmed d) = .ok s) := by
  have hload : load w call = answer w call (some p) d :=
    load_eq_answer hf (document_of_readToml hd)
  rw [answer_trimmed, hload]
  refine ⟨rfl, ?_, ?_⟩
  · rintro ⟨s, hs⟩
    exact ⟨known_of_answer_eq_ok hs, s, hs⟩
  · rintro ⟨-, hs⟩
    exact hs

/-- A file whose only entry is none of the fields of the section, and a call that names the file. -/
def strayWorld : World :=
  .withFile "codec.strickt=true" []

def strayCall : LoadCall :=
  ⟨.path World.topFile, .null, []⟩

theorem load_stray_entry :
    load strayWorld strayCall = .ok ⟨some World.topFile, false, false, ⟨false⟩⟩ ∧
    load strayWorld strayCall = answer strayWorld strayCall (some World.topFile)
      [("codec", .table [])] := by
  have hd : strayWorld.readToml World.topFile =
      .ok [("codec", .table [("strickt", .bool true)])] := World.readToml_withFile (by cbv)
  have hf : Discovery.select strayWorld strayCall.file strayCall.start =
      .ok (some World.topFile) := select_path (World.isFile_of_readToml hd) .null
  have hlayer : Layer.ofEnvironment strayWorld.environment = .ok [] := rfl
  refine ⟨?_, (load_unknown_names hf hd).1⟩
  rw [load_eq_check_of_known hf (document_of_readToml hd) (by decide) hlayer]
  rfl

end Settings

end Nullary
