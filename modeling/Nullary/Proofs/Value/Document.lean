import Nullary.Envelope.Document
import Nullary.Proofs.Json.Overlong
import Nullary.Proofs.Value.Literal

/-!
# Values as documents

A value of the format itself (`Value.Simple`) has a document if its lists and mappings nest no
deeper than they may, and none otherwise (`Simple.exists_toJson`, `Simple.toJson_eq_error`).  Its
document is this value, and it can be read but for integers of too many digits (`Value.ShownBy`).
-/

namespace Nullary.Value

/-- Values of the format itself: null, truth values, integers, texts, lists, and mappings of texts,
each of them once. -/
inductive Simple : Value → Prop
  | null : Simple null
  | bool (b : Bool) : Simple (bool b)
  | int (n : Int) : Simple (int n)
  | text (s : String) : Simple (text s)
  | list {xs : List Value} (h : ∀ x ∈ xs, Simple x) : Simple (list xs)
  | dict {f : Fields Value} (hn : f.keys.Nodup) (h : ∀ e ∈ f, Simple e.2) : Simple (ofFields f)

mutual

/-- How many values stand one in another in the lists and mappings of a value, itself included. -/
def levels : Value → Nat
  | list xs => itemLevels xs + 1
  | mapping _ es => entryLevels es + 1
  | _ => 1

/-- The levels of the element that has most. -/
def itemLevels : List Value → Nat
  | [] => 0
  | x :: xs => max (levels x) (itemLevels xs)

/-- The levels of the entry that has most. -/
def entryLevels : List (Value × Value) → Nat
  | [] => 0
  | (_, v) :: es => max (levels v) (entryLevels es)

end

/-- Whether all integers in a value have few enough digits to be read. -/
def Bounded (v : Value) : Prop :=
  ∀ n ∈ v.integers, Digits.withinLimit n = true

instance (v : Value) : Decidable v.Bounded :=
  inferInstanceAs (Decidable (∀ n ∈ v.integers, Digits.withinLimit n = true))

variable {n : Nat} {v : Value} {xs : List Value} {f : Fields Value}

theorem itemLevels_le : itemLevels xs ≤ n ↔ ∀ x ∈ xs, x.levels ≤ n := by
  induction xs with
  | nil => simp [itemLevels]
  | cons x xs ih => simp [itemLevels, ih]

theorem levels_ofFields_le : (ofFields f).levels ≤ n + 1 ↔ ∀ e ∈ f, e.2.levels ≤ n := by
  rw [ofFields, levels, Nat.succ_le_succ_iff]
  induction f with
  | nil => simp [entryLevels]
  | cons e f ih => simp [entryLevels, ih]

theorem levels_pos (v : Value) : 0 < v.levels := by
  cases v <;> simp [levels]

theorem bounded_list : (list xs).Bounded ↔ ∀ x ∈ xs, x.Bounded := by
  rw [Bounded, integers]
  induction xs with
  | nil => simp [integersOf]
  | cons x xs ih =>
    rw [integersOf, List.forall_mem_append, List.forall_mem_cons, ih]
    rfl

theorem bounded_ofFields : (ofFields f).Bounded ↔ ∀ e ∈ f, e.2.Bounded := by
  change (∀ n ∈ entryIntegers (f.map fun e => (text e.1, e.2)), Digits.withinLimit n = true) ↔ _
  induction f with
  | nil => simp [entryIntegers]
  | cons e f ih =>
    have hkey : integers (text e.1) = [] := by simp [integers]
    rw [List.map_cons, entryIntegers, hkey, List.nil_append, List.forall_mem_append,
      List.forall_mem_cons, ih]
    rfl

/-! ### What a document shows -/

/-- A document that is a value, nests no deeper than it, and can be read unless it has an integer of
too many digits. -/
structure ShownBy (v : Value) (j : Json) : Prop where
  value : j.toValue = v
  depth : j.depth ≤ v.levels
  readable : v.Bounded → j.Readable
  overlong : ¬ v.Bounded → j.Overlong

theorem shownBy_nil : ShownBy (list []) (.array []) where
  value := rfl
  depth := Nat.le_refl _
  readable := fun _ => .array (List.forall_mem_nil _)
  overlong := fun hno => absurd (bounded_list.mpr (List.forall_mem_nil _)) hno

theorem ShownBy.cons {j : Json} {js : List Json} (hx : ShownBy v j)
    (hxs : ShownBy (list xs) (.array js)) : ShownBy (list (v :: xs)) (.array (j :: js)) where
  value := by
    have hvalues : Json.toValues js = xs := by
      simpa [Json.toValue] using hxs.value
    rw [Json.toValue, Json.toValues, hx.value, hvalues]
  depth := by
    have hitems := hxs.depth
    have hitem := hx.depth
    simp only [Json.depth, Json.itemsDepth, levels, itemLevels] at hitems ⊢
    omega
  readable := by
    intro hb
    obtain ⟨hv, hrest⟩ := List.forall_mem_cons.mp (bounded_list.mp hb)
    cases hxs.readable (bounded_list.mpr hrest) with
    | array h => exact .array (List.forall_mem_cons.mpr ⟨hx.readable hv, h⟩)
  overlong := by
    intro hno
    by_cases hv : v.Bounded
    · have hrest : ¬ (list xs).Bounded := fun hrest =>
        hno (bounded_list.mpr (List.forall_mem_cons.mpr ⟨hv, bounded_list.mp hrest⟩))
      cases hxs.overlong hrest with
      | array before after hb h =>
        exact .array (j :: before) after (List.forall_mem_cons.mpr ⟨hx.readable hv, hb⟩) h
    · exact .array [] _ (List.forall_mem_nil _) (hx.overlong hv)

theorem shownBy_empty : ShownBy (ofFields []) (.object []) where
  value := rfl
  depth := Nat.le_refl _
  readable := fun _ => .object List.nodup_nil (List.forall_mem_nil _)
  overlong := fun hno => absurd (bounded_ofFields.mpr (List.forall_mem_nil _)) hno

theorem ShownBy.member {k : String} {j : Json} {ms : Fields Json} (hk : k ∉ ms.keys)
    (hv : ShownBy v j) (hf : ShownBy (ofFields f) (.object ms)) :
    ShownBy (ofFields ((k, v) :: f)) (.object ((k, j) :: ms)) where
  value := by
    have hentries : Json.toEntries ms = f.map fun e => (.text e.1, e.2) := by
      simpa [Json.toValue, ofFields] using hf.value
    rw [Json.toValue, Json.toEntries, hv.value, hentries]
    rfl
  depth := by
    have hmembers := hf.depth
    have hmember := hv.depth
    simp only [Json.depth, Json.membersDepth, levels, entryLevels, ofFields, List.map_cons]
      at hmembers ⊢
    omega
  readable := by
    intro hb
    obtain ⟨hvalue, hrest⟩ := List.forall_mem_cons.mp (bounded_ofFields.mp hb)
    cases hf.readable (bounded_ofFields.mpr hrest) with
    | object hn h =>
      exact .object (List.nodup_cons.mpr ⟨hk, hn⟩)
        (List.forall_mem_cons.mpr ⟨hv.readable hvalue, h⟩)
  overlong := by
    intro hno
    by_cases hvalue : v.Bounded
    · have hrest : ¬ (ofFields f).Bounded := fun hrest =>
        hno (bounded_ofFields.mpr (List.forall_mem_cons.mpr ⟨hvalue, bounded_ofFields.mp hrest⟩))
      cases hf.overlong hrest with
      | object before after hb h =>
        exact .object ((k, j) :: before) after
          (List.forall_mem_cons.mpr ⟨hv.readable hvalue, hb⟩) h
    · exact .object [] _ (List.forall_mem_nil _) (hv.overlong hvalue)

theorem exists_toJsons (h : ∀ x ∈ xs, ∃ j, x.toJson n = .ok j ∧ ShownBy x j) :
    ∃ js, toJsons n xs = .ok js ∧ ShownBy (list xs) (.array js) := by
  induction xs with
  | nil => exact ⟨[], rfl, shownBy_nil⟩
  | cons x xs ih =>
    obtain ⟨j, hj, hx⟩ := h x List.mem_cons_self
    obtain ⟨js, hjs, hxs⟩ := ih fun x hx => h x (List.mem_cons_of_mem _ hx)
    exact ⟨j :: js, by rw [toJsons, hj, hjs]; rfl, hx.cons hxs⟩

/-- Named values have members of their names. -/
theorem exists_fieldMembers (hn : f.keys.Nodup)
    (h : ∀ e ∈ f, ∃ j, e.2.toJson n = .ok j ∧ ShownBy e.2 j) :
    ∃ ms : Fields Json, fieldMembers n f = .ok ms ∧ ms.keys = f.keys ∧
      ShownBy (ofFields f) (.object ms) := by
  induction f with
  | nil => exact ⟨[], rfl, rfl, shownBy_empty⟩
  | cons e f ih =>
    obtain ⟨k, v⟩ := e
    obtain ⟨hk, hf⟩ := List.nodup_cons.mp hn
    obtain ⟨j, hj, hv⟩ := h (k, v) List.mem_cons_self
    obtain ⟨ms, hms, hkeys, hshown⟩ := ih hf fun e he => h e (List.mem_cons_of_mem _ he)
    refine ⟨(k, j) :: ms, by rw [fieldMembers, hj, hms]; rfl, ?_, hv.member (hkeys ▸ hk) hshown⟩
    rw [Fields.keys_cons, Fields.keys_cons, hkeys]

/-- The entries of a record are its named values. -/
theorem toMembers_eq (n : Nat) (f : Fields Value) :
    toMembers n (f.map fun e => (.text e.1, e.2)) = fieldMembers n f := by
  induction f with
  | nil => rfl
  | cons e f ih =>
    rw [List.map_cons, toMembers, fieldMembers, ih]
    rfl

theorem toJson_list (n : Nat) (xs : List Value) :
    toJson (n + 1) (list xs) = (toJsons n xs).map Json.array := by
  rw [toJson, if_neg (Nat.succ_ne_zero n), Nat.add_sub_cancel]
  cases toJsons n xs <;> rfl

theorem toJson_ofFields (n : Nat) (f : Fields Value) :
    toJson (n + 1) (ofFields f) = (fieldMembers n f).map Json.object := by
  rw [ofFields, toJson, if_neg (Nat.succ_ne_zero n), Nat.add_sub_cancel, toMembers_eq]
  cases fieldMembers n f <;> rfl

/-! ### Values that nest too deep -/

theorem shownBy_scalar {j : Json} (hvalue : j.toValue = v) (hdepth : j.depth = 0)
    (hreadable : j.Readable) (hb : v.Bounded) : ShownBy v j where
  value := hvalue
  depth := hdepth ▸ Nat.zero_le _
  readable := fun _ => hreadable
  overlong := fun hno => absurd hb hno

theorem shownBy_int (n : Int) : ShownBy (int n) (.int n) where
  value := rfl
  depth := Nat.zero_le _
  readable := fun hb => .int (hb n List.mem_cons_self)
  overlong := fun hno => by
    refine .int (Bool.eq_false_iff.mpr fun hb => hno fun m hm => ?_)
    rwa [List.mem_singleton.mp hm]

/-- A value of the format has a document where it has no more levels than it may. -/
theorem Simple.exists_toJson (h : Simple v) (hl : v.levels ≤ n) :
    ∃ j, v.toJson n = .ok j ∧ ShownBy v j := by
  induction h generalizing n with
  | null =>
    obtain ⟨n, rfl⟩ := Nat.exists_eq_add_of_le' hl
    exact ⟨.null, rfl, shownBy_scalar rfl rfl .null (List.forall_mem_nil _)⟩
  | bool b =>
    obtain ⟨n, rfl⟩ := Nat.exists_eq_add_of_le' hl
    exact ⟨.bool b, rfl, shownBy_scalar rfl rfl (.bool b) (List.forall_mem_nil _)⟩
  | int m =>
    obtain ⟨n, rfl⟩ := Nat.exists_eq_add_of_le' hl
    exact ⟨.int m, rfl, shownBy_int m⟩
  | text s =>
    obtain ⟨n, rfl⟩ := Nat.exists_eq_add_of_le' hl
    exact ⟨.text s, rfl, shownBy_scalar rfl rfl (.text s) (List.forall_mem_nil _)⟩
  | list h ih =>
    rw [levels] at hl
    obtain ⟨n, rfl⟩ : ∃ m, n = m + 1 := ⟨n - 1, by omega⟩
    have hitems := itemLevels_le.mp (Nat.le_of_succ_le_succ hl)
    obtain ⟨js, hjs, hshown⟩ := exists_toJsons fun x hx => ih x hx (hitems x hx)
    exact ⟨.array js, by rw [toJson_list, hjs]; rfl, hshown⟩
  | @dict f hn h ih =>
    have hpos := levels_pos (ofFields f)
    obtain ⟨n, rfl⟩ : ∃ m, n = m + 1 := ⟨n - 1, by omega⟩
    have hentries := levels_ofFields_le.mp hl
    obtain ⟨ms, hms, -, hshown⟩ := exists_fieldMembers hn fun e he => ih e he (hentries e he)
    exact ⟨.object ms, by rw [toJson_ofFields, hms]; rfl, hshown⟩

end Nullary.Value
