import Nullary.Proofs.Settings.Check
import Nullary.Toml

/-!
# Sections

A section is given by a mapping that can be merged with others of its kind.  `Value.section?` are
its entries under texts, `Value.strict?` is the value of its only field.  Of a section put on
another one, the field comes from the upper one if this has it (`Value.map_truth_strict?_onTop`).
-/

namespace Nullary

open Check

namespace Value

/-- The entries under texts of a mapping that is merged key by key. -/
def section? : Value → Option (Fields Value)
  | mapping kind es => if kind.merges then some (textEntries es) else none
  | _ => none

/-- The value that a section gives to its only field. -/
def strict? (x : Option Value) : Option Value :=
  (x.bind section?).bind (Fields.get? "strict")

theorem section?_eq_none_of_entries? {v : Value} (h : v.entries? = none) : v.section? = none := by
  cases v with
  | mapping kind es => cases h
  | _ => rfl

theorem putOn_of_section?_eq_none {v : Value} (h : v.section? = none) (w : Option Value) :
    putOn w v = v := by
  cases w with
  | none => rfl
  | some w =>
    cases v with
    | mapping kind es =>
      have hk : kind.merges = false := by
        by_contra hk
        simp [section?, hk] at h
      cases w <;> simp [putOn, merge, hk]
    | _ => simp [putOn, merge]

theorem onTop_of_section?_eq_none {v : Value} (h : v.section? = none) (w : Option Value) :
    onTop w (some v) = some v :=
  congrArg some (putOn_of_section?_eq_none h w)

theorem section?_putOn {v : Value} {g : Fields Value} (h : v.section? = some g) (w : Option Value) :
    (putOn w v).section? = some (match w.bind section? with
      | some f => f.merge g
      | none => g) := by
  cases v with
  | mapping kind es =>
    have hk : kind.merges = true := by
      by_contra hk
      simp [section?, hk] at h
    obtain rfl : textEntries es = g := by simpa [section?, hk] using h
    cases w with
    | none => simp [putOn, section?, hk]
    | some w =>
      cases w with
      | mapping kind' fs =>
        by_cases hk' : kind'.merges = true
        · simp [putOn, merge, section?, hk, hk', textEntries_mergeEntries]
        · simp [putOn, merge, section?, hk, hk']
      | _ => simp [putOn, merge, section?, hk]
  | _ => simp [section?] at h

theorem ofValue_of_section? {v : Value} {f : Fields Value} (h : v.section? = some f)
    (p : List Place) : Section.ofValue p v = Section.checkFields p f := by
  cases v with
  | mapping kind es =>
    simp only [section?] at h
    split_ifs at h
    rw [← Option.some.inj h]
    rfl
  | _ => simp [section?] at h

/-- Whatever is there is a mapping that can be merged. -/
def Mergeable (x : Option Value) : Prop :=
  ∀ v, x = some v → v.section?.isSome

/-- Whatever is there can be merged if a section can be built from it. -/
def Ordinary (x : Option Value) : Prop :=
  ∀ v, x = some v → ∀ p c, Section.ofValue p v = .ok c → v.section?.isSome

theorem Mergeable.ordinary {x : Option Value} (h : Mergeable x) : Ordinary x :=
  fun v hv _ _ _ => h v hv

theorem Ordinary.onTop {w x : Option Value} (hw : Ordinary w) (hx : Ordinary x) :
    Ordinary (onTop w x) := by
  cases x with
  | none => exact hw
  | some v =>
    intro m hm p c hc
    rw [Value.onTop, Option.some.injEq] at hm
    subst hm
    cases hv : v.section? with
    | none =>
      rw [putOn_of_section?_eq_none hv] at hc
      exact absurd (hx v rfl p c hc) (by simp [hv])
    | some g => simp [section?_putOn hv]

/-- What lies on top of something from which a section is built can be merged. -/
theorem Ordinary.mergeable_of_onTop {w x : Option Value} (hx : Ordinary x)
    (h : ∀ m, Value.onTop w x = some m → ∃ p c, Section.ofValue p m = .ok c) : Mergeable x := by
  rintro v rfl
  obtain ⟨p, c, hc⟩ := h (putOn w v) rfl
  by_contra hv
  have hv' : v.section? = none := by simpa using hv
  rw [putOn_of_section?_eq_none hv'] at hc
  exact hv (hx v rfl p c hc)

/-- A mapping that can be merged can still be merged when it is put on something. -/
theorem Mergeable.onTop_some {v : Value} (h : v.section?.isSome) (w : Option Value) :
    Mergeable (onTop w (some v)) := by
  intro m hm
  obtain ⟨g, hg⟩ := Option.isSome_iff_exists.mp h
  rw [← Option.some.inj hm, section?_putOn hg]
  rfl

/-- A mapping that is there is merged key by key. -/
def KeyByKey (x : Option Value) : Prop :=
  ∀ kind es, x = some (.mapping kind es) → kind.merges = true

theorem merges_of_section?_isSome {kind : MappingKind} {es : List (Value × Value)}
    (h : (Value.mapping kind es).section?.isSome) : kind.merges = true := by
  by_contra hk
  simp [section?, hk] at h

theorem Mergeable.keyByKey {x : Option Value} (h : Mergeable x) : KeyByKey x :=
  fun _ _ hx => merges_of_section?_isSome (h _ hx)

theorem KeyByKey.onTop {w x : Option Value} (hw : KeyByKey w) (hx : KeyByKey x) :
    KeyByKey (onTop w x) := by
  cases x with
  | none => exact hw
  | some v =>
    intro kind es h
    have hput : putOn w v = .mapping kind es := Option.some.inj h
    cases hv : v.section? with
    | none =>
      rw [putOn_of_section?_eq_none hv] at hput
      exact hx kind es (congrArg some hput)
    | some g =>
      have hsection : (Value.mapping kind es).section?.isSome := by
        rw [← hput, section?_putOn hv]
        rfl
      exact merges_of_section?_isSome hsection

/-- What lies on top of something that is a mapping can itself be merged. -/
theorem KeyByKey.mergeable_of_onTop {w x : Option Value} (hx : KeyByKey x) {kind : MappingKind}
    {es : List (Value × Value)} (h : Value.onTop w x = some (.mapping kind es)) : Mergeable x := by
  rintro v rfl
  by_contra hv
  have hnone : v.section? = none := by simpa using hv
  rw [onTop_of_section?_eq_none hnone] at h
  have hkind := hx kind es h
  rw [Option.some.inj h] at hv
  exact hv (by simp [section?, hkind])

/-- Of three values in layers the highest hides the others, if it is not merged with them. -/
theorem onTop_onTop_of_or {low mid top : Option Value} {v : Value}
    (h : (top.or mid).or low = some v) (hv : v.section? = none) :
    onTop low (onTop mid top) = some v := by
  cases top with
  | some t =>
    obtain rfl : t = v := Option.some.inj h
    rw [onTop_of_section?_eq_none hv, onTop_of_section?_eq_none hv]
  | none =>
    cases mid with
    | some m =>
      obtain rfl : m = v := Option.some.inj h
      exact onTop_of_section?_eq_none hv low
    | none => exact h

/-- Every name stands once in a section, if there is one. -/
def OneEach (x : Option Value) : Prop :=
  ∀ f, x.bind section? = some f → ∀ k, f.keys.count k ≤ 1

theorem OneEach.onTop {w x : Option Value} (hw : OneEach w) (hx : OneEach x) :
    OneEach (onTop w x) := by
  cases x with
  | none => exact hw
  | some v =>
    intro f hf k
    rw [Value.onTop, Option.bind_some] at hf
    cases hv : v.section? with
    | none =>
      rw [putOn_of_section?_eq_none hv, hv] at hf
      cases hf
    | some g =>
      rw [section?_putOn hv] at hf
      cases hs : w.bind section? with
      | none =>
        rw [hs] at hf
        exact hx f (by simpa [hv] using hf) k
      | some f' =>
        rw [hs] at hf
        rw [← Option.some.inj hf]
        exact Fields.count_keys_merge_le (hw f' hs k)

/-- From what is ordinary a section is built whose field is the one that is given there. -/
theorem Ordinary.flag_strict? {given : Fields Value} {c : Section}
    (h : Ordinary (given.get? "codec"))
    (hc : optional [] given "codec" ⟨false⟩ Section.ofValue = .ok c) :
    flag (strict? (given.get? "codec")) = .ok c.strict := by
  cases hx : given.get? "codec" with
  | none =>
    rw [optional_of_none hx] at hc
    rw [← Except.ok.inj hc]
    rfl
  | some v =>
    rw [optional_of_some hx] at hc
    obtain ⟨f, hf⟩ := Option.isSome_iff_exists.mp (h v hx _ c hc)
    rw [ofValue_of_section? hf, Section.checkFields_eq_ok_iff] at hc
    simpa [strict?, hf] using hc

/-- The field of a section that is put on a lower one is put on the field of the lower one. -/
theorem strict?_onTop {w x : Option Value} (hs : Mergeable x) (hx : OneEach x) :
    strict? (onTop w x) = onTop (strict? w) (strict? x) := by
  cases x with
  | none => rfl
  | some v =>
    obtain ⟨g, hg⟩ := Option.isSome_iff_exists.mp (hs v rfl)
    have hv : strict? (some v) = g.get? "strict" := by simp [strict?, hg]
    rw [onTop, hv, strict?, Option.bind_some, section?_putOn hg, Option.bind_some]
    cases hf : w.bind section? with
    | none =>
      have hw : strict? w = none := by simp [strict?, hf]
      rw [hw]
      cases g.get? "strict" <;> rfl
    | some f =>
      have hw : strict? w = f.get? "strict" := by simp [strict?, hf]
      rw [hw, Fields.get?_merge (hx g hg "strict")]

/-- A section put on a lower one hides the field of the lower one only by having it. -/
theorem map_truth_strict?_onTop {w x : Option Value} (hs : Mergeable x) (hx : OneEach x) :
    (strict? (onTop w x)).map truth = ((strict? x).or (strict? w)).map truth := by
  rw [strict?_onTop hs hx, map_truth_onTop]

/-- **Sections in layers**: the field of what is built comes from the highest layer that has it. -/
theorem flag_strict?_of_layers {given : Fields Value} {low mid top : Option Value} {c : Section}
    (hg : given.get? "codec" = onTop low (onTop mid top)) (hlow : Ordinary low)
    (hmid : Ordinary mid) (htop : Mergeable top) (hmid1 : OneEach mid) (htop1 : OneEach top)
    (hc : optional [] given "codec" ⟨false⟩ Section.ofValue = .ok c) :
    flag (((strict? top).or (strict? mid)).or (strict? low)) = .ok c.strict := by
  have hupper : Ordinary (onTop mid top) := hmid.onTop htop.ordinary
  have hall : Ordinary (given.get? "codec") := by
    rw [hg]
    exact hlow.onTop hupper
  -- what lies on the lowest layer could not be merged with it only if no section came of it
  have hmerge : Mergeable (onTop mid top) := by
    refine hupper.mergeable_of_onTop (w := low) fun m hm => ?_
    rw [← hg] at hm
    rw [optional_of_some hm] at hc
    exact ⟨_, c, hc⟩
  have hflag := hall.flag_strict? hc
  rw [hg, flag, map_truth_strict?_onTop hmerge (hmid1.onTop htop1), Option.map_or,
    map_truth_strict?_onTop htop htop1, ← Option.map_or] at hflag
  exact hflag

end Value

namespace Toml

/-! ### Sections of documents -/

theorem textEntries_toEntries (es : List (String × Toml)) :
    Value.textEntries (toEntries es) = Fields.mapValues toValue es := by
  induction es with
  | nil => rfl
  | cons e es ih =>
    obtain ⟨k, v⟩ := e
    rw [toEntries, Value.textEntries_text, ih]
    rfl

theorem get?_toFields (d : Table) (k : String) :
    Fields.get? k d.toFields = (Fields.get? k d).map toValue :=
  Fields.get?_mapValues toValue d

/-- A section of a document is built only from a table. -/
theorem ordinary_toValue (t : Option Toml) : Value.Ordinary (t.map toValue) := by
  intro v hv p c hc
  obtain ⟨t, rfl, rfl⟩ := Option.map_eq_some_iff.mp hv
  cases t with
  | table es => rfl
  | _ => simp [toValue, Section.ofValue] at hc

/-- A table of a document is merged key by key. -/
theorem keyByKey_toValue (t : Option Toml) : Value.KeyByKey (t.map toValue) := by
  intro kind es h
  obtain ⟨t, -, ht⟩ := Option.map_eq_some_iff.mp h
  cases t with
  | table fs =>
    obtain ⟨rfl, -⟩ := Value.mapping.inj ht
    rfl
  | _ => cases ht

end Toml

end Nullary
