import Nullary.Proofs.Settings.Check

/-!
# What is wrong with named values

The issues that settings are refused for, read off the values under the names: `Settings.Offends`
has one case for each kind of complaint.  `Settings.check` finds exactly these, each at a place of
its own, and where there are none it succeeds (`Settings.finds_check`).
-/

namespace Nullary

namespace Check

variable {α β : Type}

/-- What a check finds; one that finds nothing succeeds. -/
inductive Finds : Checked α → List Issue → Prop
  | nothing (a : α) : Finds (.ok a) []
  | issues {is : List Issue} (h : is ≠ []) : Finds (.error is) is

/-- Two checks find what each of them finds. -/
theorem Finds.both {x : Checked α} {y : Checked β} {is js : List Issue} (hx : Finds x is)
    (hy : Finds y js) : Finds (both x y) (is ++ js) := by
  cases hx with
  | nothing a =>
    cases hy with
    | nothing b => exact .nothing (a, b)
    | issues h => exact .issues h
  | issues h =>
    cases hy with
    | nothing b => exact (List.append_nil is).symm ▸ .issues h
    | issues _ => exact .issues (List.append_ne_nil_of_left_ne_nil h js)

theorem Finds.cases {x : Checked α} {is : List Issue} (h : Finds x is) :
    (is = [] ∧ ∃ a, x = .ok a) ∨ is ≠ [] ∧ x = .error is := by
  cases h with
  | nothing a => exact Or.inl ⟨rfl, a, rfl⟩
  | issues h => exact Or.inr ⟨h, rfl⟩

theorem Finds.of_ok {x : Checked α} {a : α} (h : x = .ok a) : Finds x [] :=
  h ▸ .nothing a

theorem Finds.map {x : Checked α} {is : List Issue} (h : Finds x is) (f : α → β) :
    Finds (x.map f) is := by
  cases h with
  | nothing a => exact .nothing (f a)
  | issues h => exact .issues h

/-- The issue of a value that is there but cannot be read as a truth value. -/
def flagIssues (p : List Place) (v? : Option Value) : List Issue :=
  match v? with
  | none => []
  | some v =>
    match truth v with
    | .ok _ => []
    | .error k => [⟨k, p, v⟩]

variable {p : List Place} {v? : Option Value} {i : Issue}

theorem mem_flagIssues :
    i ∈ flagIssues p v? ↔ ∃ v k, v? = some v ∧ truth v = .error k ∧ i = ⟨k, p, v⟩ := by
  cases v? with
  | none => simp [flagIssues]
  | some v => cases h : truth v <;> simp [flagIssues, h]

theorem places_flagIssues : ((flagIssues p v?).map Issue.place).Sublist [p] := by
  cases v? with
  | none => exact List.nil_sublist _
  | some v => cases h : truth v <;> simp [flagIssues, h]

theorem finds_truth (p : List Place) (given : Fields Value) (name : String) :
    Finds (optional p given name false fun p v => atPlace p truth v)
      (flagIssues (p ++ [.name name]) (given.get? name)) := by
  cases hv : given.get? name with
  | none => exact Finds.of_ok (optional_of_none hv)
  | some v =>
    rw [optional_of_some hv, atPlace]
    cases h : truth v with
    | ok b => simpa [flagIssues, h] using Finds.nothing b
    | error k => simpa [flagIssues, h] using Finds.issues (List.cons_ne_nil (⟨k, _, v⟩ : Issue) [])

end Check

open Check

namespace Section

/-- Where the section of the settings is. -/
def place : List Place := [.name "codec"]

/-- The issue of what is there but no section, or of the only field of a section. -/
def issues (v? : Option Value) : List Issue :=
  match v? with
  | none => []
  | some (.codecSection _) => []
  | some (.mapping _ es) =>
    flagIssues (place ++ [.name "strict"]) ((Value.textEntries es).get? "strict")
  | some v => [⟨.recordType name, place, v⟩]

theorem finds_checkFields (p : List Place) (f : Fields Value) :
    Finds (checkFields p f) (flagIssues (p ++ [.name "strict"]) (f.get? "strict")) :=
  (finds_truth p f "strict").map Section.mk

theorem finds_ofValue (given : Fields Value) :
    Finds (optional [] given "codec" ⟨false⟩ ofValue) (issues (given.get? "codec")) := by
  cases hv : given.get? "codec" with
  | none => exact Finds.of_ok (optional_of_none hv)
  | some v =>
    rw [optional_of_some hv]
    cases v with
    | codecSection strict => exact .nothing _
    | mapping kind es => exact finds_checkFields place (Value.textEntries es)
    | _ => exact .issues (List.cons_ne_nil _ _)

theorem places_issues (v? : Option Value) :
    ((issues v?).map Issue.place).Sublist [place, place ++ [.name "strict"]] := by
  cases v? with
  | none => exact List.nil_sublist _
  | some v =>
    cases v with
    | codecSection strict => exact List.nil_sublist _
    | mapping kind es => exact places_flagIssues.cons _
    | _ => exact (List.nil_sublist _).cons_cons _

end Section

namespace Settings

/-- Whether a section can be built from a value, but for the value of its field. -/
def IsSection (v : Value) : Prop :=
  (∃ strict, v = .codecSection strict) ∨ ∃ kind es, v = .mapping kind es

/-- What is wrong with the values that are looked up under names. -/
inductive Offends (look : String → Option Value) : Issue → Prop
  /-- A truth value cannot be read as one. -/
  | flag {k : String} {v : Value} {kind : IssueKind} (hk : k = "verbose" ∨ k = "log_json")
      (hv : look k = some v) (h : truth v = .error kind) : Offends look ⟨kind, [.name k], v⟩
  /-- The section is none. -/
  | codec {v : Value} (hv : look "codec" = some v) (h : ¬ IsSection v) :
      Offends look ⟨.recordType Section.name, [.name "codec"], v⟩
  /-- The field of the section cannot be read as a truth value. -/
  | strict {mk : MappingKind} {es : List (Value × Value)} {v : Value} {kind : IssueKind}
      (hv : look "codec" = some (.mapping mk es))
      (hs : (Value.textEntries es).get? "strict" = some v) (h : truth v = .error kind) :
      Offends look ⟨kind, [.name "codec", .name "strict"], v⟩
  /-- There is no setting of this name. -/
  | unknown {k : String} {v : Value} (hk : k ∉ fieldNames) (hv : look k = some v) :
      Offends look ⟨.extraForbidden, [.name k], v⟩

/-- The issues of named values, those of the path apart. -/
def issues (given : Fields Value) : List Issue :=
  (flagIssues [.name "verbose"] (given.get? "verbose") ++
    (flagIssues [.name "log_json"] (given.get? "log_json") ++
      Section.issues (given.get? "codec"))) ++ surplus given

variable {given : Fields Value} {look look' : String → Option Value} {k : String} {i : Issue}

/-! ### What an issue is about -/

/-- Only what is found under other names than that of the path can be an offence. -/
theorem Offends.congr (hi : Offends look i)
    (h : ∀ k, k ≠ "config_path" → look k = look' k) : Offends look' i := by
  cases hi with
  | flag hk hv herror =>
    refine .flag hk ?_ herror
    rw [← hv, h]
    obtain rfl | rfl := hk <;> decide
  | codec hv hsection => exact .codec ((h _ (by decide)).symm.trans hv) hsection
  | strict hv hs herror => exact .strict ((h _ (by decide)).symm.trans hv) hs herror
  | unknown hk hv =>
    refine .unknown hk ?_
    rw [← hv, h]
    rintro rfl
    exact hk (by decide)

theorem offends_congr
    (h : ∀ k, k ≠ "config_path" → look k = look' k) : Offends look i ↔ Offends look' i :=
  ⟨fun hi => hi.congr h, fun hi => hi.congr fun k hk => (h k hk).symm⟩

theorem Offends.look_eq (h : Offends look i)
    (hi : i.place = [.name k]) : look k = some i.input := by
  cases h with
  | flag hk hv herror =>
    obtain rfl : _ = k := by simpa using hi
    exact hv
  | codec hv hsection =>
    obtain rfl : _ = k := by simpa using hi
    exact hv
  | strict hv hs herror => simp at hi
  | unknown hk hv =>
    obtain rfl : _ = k := by simpa using hi
    exact hv

theorem Offends.look_strict (h : Offends look i)
    (hi : i.place = [.name "codec", .name "strict"]) : ∃ mk es,
      look "codec" = some (.mapping mk es) ∧
        (Value.textEntries es).get? "strict" = some i.input := by
  cases h with
  | strict hv hs herror => exact ⟨_, _, hv, hs⟩
  | _ => simp at hi

/-! ### Each issue is one offence -/

theorem mem_section_issues {v? : Option Value} : i ∈ Section.issues v? ↔
    (∃ v, v? = some v ∧ ¬ IsSection v ∧ i = ⟨.recordType Section.name, [.name "codec"], v⟩) ∨
    ∃ mk es v kind, v? = some (.mapping mk es) ∧ (Value.textEntries es).get? "strict" = some v ∧
      truth v = .error kind ∧ i = ⟨kind, [.name "codec", .name "strict"], v⟩ := by
  cases v? with
  | none => simp [Section.issues]
  | some v =>
    cases v with
    | codecSection strict => simp [Section.issues, IsSection]
    | mapping kind es => simp [Section.issues, mem_flagIssues, IsSection, Section.place]
    | _ => simp [Section.issues, IsSection, Section.place]

/-- Where no name stands twice, every unknown name is one issue. -/
theorem mem_surplus (hkeys : given.keys.Nodup) : i ∈ surplus given ↔
    ∃ k v, k ∉ fieldNames ∧ given.get? k = some v ∧ i = ⟨.extraForbidden, [.name k], v⟩ := by
  unfold surplus
  rw [List.mem_map]
  constructor
  · rintro ⟨⟨k, v⟩, he, rfl⟩
    obtain ⟨hmem, hunknown⟩ := List.mem_filter.mp he
    exact ⟨k, v, by simpa using hunknown, (Fields.mem_iff_get?_eq_some hkeys).mp hmem, rfl⟩
  · rintro ⟨k, v, hk, hv, rfl⟩
    have hmem := (Fields.mem_iff_get?_eq_some hkeys).mpr hv
    exact ⟨(k, v), List.mem_filter.mpr ⟨hmem, by simpa using hk⟩, rfl⟩

theorem mem_issues_iff (hkeys : given.keys.Nodup) :
    i ∈ issues given ↔ Offends (fun k => given.get? k) i := by
  unfold issues
  rw [List.mem_append, List.mem_append, List.mem_append, mem_flagIssues, mem_flagIssues,
    mem_section_issues, mem_surplus hkeys]
  constructor
  · rintro ((⟨v, kind, hv, h, rfl⟩ | ⟨v, kind, hv, h, rfl⟩ | ⟨v, hv, h, rfl⟩ |
      ⟨mk, es, v, kind, hv, hs, h, rfl⟩) | ⟨k, v, hk, hv, rfl⟩)
    · exact .flag (Or.inl rfl) hv h
    · exact .flag (Or.inr rfl) hv h
    · exact .codec hv h
    · exact .strict hv hs h
    · exact .unknown hk hv
  · intro h
    cases h with
    | flag hk hv h =>
      obtain rfl | rfl := hk
      · exact Or.inl (Or.inl ⟨_, _, hv, h, rfl⟩)
      · exact Or.inl (Or.inr (Or.inl ⟨_, _, hv, h, rfl⟩))
    | codec hv h => exact Or.inl (Or.inr (Or.inr (Or.inl ⟨_, hv, h, rfl⟩)))
    | strict hv hs h => exact Or.inl (Or.inr (Or.inr (Or.inr ⟨_, _, _, _, hv, hs, h, rfl⟩)))
    | unknown hk hv => exact Or.inr ⟨_, _, hk, hv, rfl⟩

/-- The places of the settings that can have an issue. -/
def fieldPlaces : List (List Place) :=
  [[.name "verbose"], [.name "log_json"], [.name "codec"], [.name "codec", .name "strict"]]

theorem places_surplus (given : Fields Value) : (surplus given).map Issue.place =
    (Fields.keys (given.filter fun e => !fieldNames.contains e.1)).map fun k => [.name k] := by
  simp [surplus, Fields.keys, Function.comp_def]

/-- No two issues are at one place. -/
theorem nodup_places_issues (hkeys : given.keys.Nodup) :
    ((issues given).map Issue.place).Nodup := by
  have hfields : ((flagIssues [.name "verbose"] (given.get? "verbose") ++
      (flagIssues [.name "log_json"] (given.get? "log_json") ++
        Section.issues (given.get? "codec"))).map Issue.place).Sublist fieldPlaces := by
    rw [List.map_append, List.map_append]
    exact places_flagIssues.append (places_flagIssues.append (Section.places_issues _))
  have hnames : (Fields.keys (given.filter fun e => !fieldNames.contains e.1)).Nodup :=
    hkeys.sublist (List.filter_sublist.map Prod.fst)
  have hdistinct : fieldPlaces.Nodup := by decide
  rw [issues, List.map_append, places_surplus, List.nodup_append]
  refine ⟨hdistinct.sublist hfields, hnames.map fun a b hab => by simpa using hab, ?_⟩
  rintro p hp q hq rfl
  obtain ⟨k, hk, rfl⟩ := List.mem_map.mp hq
  obtain ⟨e, he, rfl⟩ := List.mem_map.mp hk
  have hunknown : e.1 ∉ fieldNames := by simpa using (List.mem_filter.mp he).2
  have hplace : [Place.name e.1] ∈ fieldPlaces := hfields.subset hp
  have hknown : e.1 ∈ fieldNames := by
    simp only [fieldPlaces, List.mem_cons, List.cons.injEq, Place.name.injEq] at hplace
    simp only [fieldNames, List.mem_cons]
    tauto
  exact hunknown hknown

/-! ### What the check finds -/

theorem finds_known (given : Fields Value) : Finds (known given) (surplus given) := by
  unfold known
  cases h : surplus given with
  | nil => exact .nothing ()
  | cons i is => exact .issues (List.cons_ne_nil i is)

/-- Named values whose path can be read are refused for their issues, if they have any. -/
theorem finds_check {path : Option FilePath}
    (hpath : optional [] given "config_path" none (fun p v => atPlace p path? v) = .ok path) :
    (issues given = [] → ∃ s, check given = .ok s) ∧
    (issues given ≠ [] → check given = .error ⟨name, issues given⟩) := by
  have hfinds := (((Finds.of_ok hpath).both (finds_truth [] given "verbose")).both
    ((finds_truth [] given "log_json").both (Section.finds_ofValue given))).both (finds_known given)
  change Finds _ (issues given) at hfinds
  unfold check
  dsimp only
  obtain ⟨hnone, a, ha⟩ | ⟨hsome, herror⟩ := hfinds.cases
  · rw [ha]
    exact ⟨fun _ => ⟨_, rfl⟩, fun h => absurd hnone h⟩
  · rw [herror]
    exact ⟨fun h => absurd h hsome, fun _ => rfl⟩

end Settings

end Nullary
