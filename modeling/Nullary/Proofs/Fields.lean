import Mathlib.Data.List.Induction
import Mathlib.Data.List.Nodup
import Mathlib.Tactic.SplitIfs
import Nullary.Fields

/-!
# Looking names up

What a record holds under a name, and under which names it holds something, after each way of making
records: setting values, joining, picking, and dropping names.  Main statements: `get?_insertAll`,
`get?_pick` and `get?_erase_of_ne`.
-/

namespace Nullary

namespace Fields

variable {α : Type} {a k k' : String} {v : α} {f : Fields α}

/-! ## Names after an insertion -/

@[simp] theorem keys_nil : keys ([] : Fields α) = [] := rfl

@[simp] theorem keys_cons (e : String × α) (f : Fields α) : keys (e :: f) = e.1 :: keys f := rfl

@[simp] theorem keys_append (f g : Fields α) : keys (f ++ g) = keys f ++ keys g := by
  simp [keys]

theorem mem_keys_insert :
    k' ∈ keys (insert k v f) ↔ k' = k ∨ k' ∈ keys f := by
  rw [keys_insert]
  split_ifs with h
  · exact ⟨Or.inr, fun h' => h'.elim (fun e => e ▸ h) id⟩
  · rw [List.mem_append, List.mem_singleton, or_comm]

/-- A name that occurs once at most does so after every insertion. -/
theorem count_keys_insert_le (h : (keys f).count k' ≤ 1) :
    (keys (insert k v f)).count k' ≤ 1 := by
  rw [keys_insert]
  split_ifs with hk
  · exact h
  · rw [List.count_append, List.count_singleton]
    by_cases he : k = k'
    · subst he
      simp [List.count_eq_zero_of_not_mem hk]
    · simpa [he] using h

/-- Names that are all different stay so. -/
theorem nodup_keys_insert (h : (keys f).Nodup) : (keys (insert k v f)).Nodup :=
  List.nodup_iff_count_le_one.mpr fun _ =>
    count_keys_insert_le (List.nodup_iff_count_le_one.mp h _)

/-- A new name goes to the end. -/
theorem insert_of_not_mem (h : k ∉ keys f) : insert k v f = f ++ [(k, v)] := by
  induction f with
  | nil => rfl
  | cons e f ih =>
    obtain ⟨ha, hf⟩ := not_or.mp (mt List.mem_cons.mpr h)
    rw [insert, if_neg (Ne.symm ha), ih hf, List.cons_append]

/-- Of two values that are set for one name the later one counts. -/
theorem insert_insert_self (k : String) (v w : α) (f : Fields α) :
    insert k w (insert k v f) = insert k w f := by
  induction f with
  | nil => simp [insert]
  | cons e f ih =>
    obtain ⟨a, u⟩ := e
    by_cases ha : a = k
    · simp [insert, ha]
    · simp [insert, ha, ih]

/-! ## Looking names up -/

theorem mem_of_get?_eq_some (h : get? k f = some v) : (k, v) ∈ f := by
  induction f with
  | nil => cases h
  | cons e f ih =>
    obtain ⟨a, u⟩ := e
    rw [get?] at h
    split_ifs at h with ha
    · rw [ha, Option.some.inj h]
      exact List.mem_cons_self
    · exact List.mem_cons_of_mem _ (ih h)

/-- Where no name occurs twice, an entry is what is found under its name. -/
theorem mem_iff_get?_eq_some (h : (keys f).Nodup) : (k, v) ∈ f ↔ get? k f = some v := by
  induction f with
  | nil => simp [get?]
  | cons e f ih =>
    obtain ⟨a, u⟩ := e
    obtain ⟨ha, hf⟩ := List.nodup_cons.mp h
    by_cases hk : a = k
    · subst hk
      have hnew : (a, v) ∉ f := fun hm => ha (List.mem_map.mpr ⟨_, hm, rfl⟩)
      simp [get?, hnew, eq_comm]
    · simp [get?, hk, Ne.symm hk, ih hf]

/-- Records that hold the same under every name have the same entries. -/
theorem perm_of_get?_eq {f g : Fields α} (hf : (keys f).Nodup) (hg : (keys g).Nodup)
    (h : ∀ k, get? k f = get? k g) : f.Perm g := by
  rw [List.perm_ext_iff_of_nodup hf.of_map hg.of_map]
  rintro ⟨k, v⟩
  rw [mem_iff_get?_eq_some hf, mem_iff_get?_eq_some hg, h]

theorem get?_append (f g : Fields α) : get? k (f ++ g) = (get? k f).or (get? k g) := by
  induction f with
  | nil => rfl
  | cons e f ih =>
    obtain ⟨a, v⟩ := e
    by_cases ha : a = k
    · simp [get?, ha]
    · simp [get?, ha, ih]

theorem get?_mapValues {β : Type} (g : α → β) (f : Fields α) :
    get? k (f.map fun e => (e.1, g e.2)) = (get? k f).map g := by
  induction f with
  | nil => rfl
  | cons e f ih =>
    obtain ⟨a, v⟩ := e
    by_cases ha : a = k
    · simp [get?, ha]
    · simp [get?, ha, ih]

@[simp] theorem keys_mapValues {β : Type} (g : α → β) (f : Fields α) :
    keys (mapValues g f) = keys f := by
  simp [keys, mapValues, Function.comp_def]

/-- The last value of a list of entries whose name passes a test. -/
def last? (p : String → Bool) (f : Fields α) : Option α :=
  (f.reverse.find? fun e => p e.1).map Prod.snd

theorem insertAll_concat (f g : Fields α) (e : String × α) :
    insertAll f (g ++ [e]) = insert e.1 e.2 (insertAll f g) := by
  simp [insertAll, List.foldl_append]

theorem ofList_concat (es : List (String × α)) (e : String × α) :
    ofList (es ++ [e]) = insert e.1 e.2 (ofList es) :=
  insertAll_concat [] es e

theorem get?_insertAll (f g : Fields α) :
    get? k (insertAll f g) = (last? (· == k) g).or (get? k f) := by
  induction g using List.reverseRecOn with
  | nil => rfl
  | append_singleton g e ih =>
    obtain ⟨a, v⟩ := e
    rw [insertAll_concat, get?_insert, ih]
    by_cases ha : a = k
    · simp [last?, ha]
    · simp [last?, ha]

theorem nodup_keys_insertAll {f : Fields α} (h : (keys f).Nodup) (g : Fields α) :
    (keys (insertAll f g)).Nodup := by
  induction g using List.reverseRecOn with
  | nil => exact h
  | append_singleton g e ih =>
    rw [insertAll_concat]
    exact nodup_keys_insert ih

/-- Of the entries of one name in a list the last one counts. -/
theorem get?_ofList (es : List (String × α)) : get? k (ofList es) = last? (· == k) es := by
  rw [ofList, get?_insertAll]
  simp [get?]

theorem count_keys_ofList_le (es : List (String × α)) : (keys (ofList es)).count k ≤ 1 := by
  induction es using List.reverseRecOn with
  | nil => exact Nat.zero_le 1
  | append_singleton es e ih =>
    rw [ofList_concat]
    exact count_keys_insert_le ih

/-- Entries of different names are a record as they stand. -/
theorem ofList_of_nodup {es : List (String × α)} (h : (keys es).Nodup) : ofList es = es := by
  induction es using List.reverseRecOn with
  | nil => rfl
  | append_singleton es e ih =>
    rw [keys_append, List.nodup_append] at h
    obtain ⟨hes, -, hdisjoint⟩ := h
    rw [ofList_concat, ih hes, insert_of_not_mem]
    exact fun he => hdisjoint _ he _ List.mem_cons_self rfl

/-- Where no name occurs twice, the last entry of a name is the only one. -/
theorem last?_eq_get? {f : Fields α} (h : (keys f).Nodup) : last? (· == k) f = get? k f := by
  rw [← get?_ofList, ofList_of_nodup h]

/-- The values that a look-up has for some names, in their order. -/
def pick (g : String → Option α) (ks : List String) : Fields α :=
  ks.filterMap fun k => (g k).map fun v => (k, v)

theorem get?_pick (g : String → Option α) (ks : List String) :
    get? k (pick g ks) = if k ∈ ks then g k else none := by
  induction ks with
  | nil => rfl
  | cons a ks ih =>
    cases ha : g a with
    | none =>
      have hstep : pick g (a :: ks) = pick g ks := by simp [pick, ha]
      rw [hstep, ih]
      by_cases hk : k = a
      · simp [hk, ha]
      · simp [hk]
    | some v =>
      have hstep : pick g (a :: ks) = (a, v) :: pick g ks := by simp [pick, ha]
      rw [hstep, get?, ih]
      by_cases hk : a = k
      · simp [← hk, ha]
      · simp [hk, Ne.symm hk]

theorem keys_pick_sublist (g : String → Option α) (ks : List String) :
    (keys (pick g ks)).Sublist ks := by
  induction ks with
  | nil => exact List.Sublist.slnil
  | cons a ks ih =>
    cases ha : g a with
    | none =>
      have hstep : pick g (a :: ks) = pick g ks := by simp [pick, ha]
      rw [hstep]
      exact ih.cons a
    | some v =>
      have hstep : pick g (a :: ks) = (a, v) :: pick g ks := by simp [pick, ha]
      rw [hstep]
      exact ih.cons_cons a

/-! ## Names that are dropped -/

/-- Dropping the names that fail a test, after an insertion. -/
theorem filter_insert (p : String → Bool) (k : String) (v : α) (f : Fields α) :
    (insert k v f).filter (fun e => p e.1) =
      if p k then insert k v (f.filter fun e => p e.1) else f.filter fun e => p e.1 := by
  induction f with
  | nil => cases hp : p k <;> simp [insert, hp]
  | cons e f ih =>
    obtain ⟨b, w⟩ := e
    by_cases hb : b = k
    · subst hb
      cases hp : p b <;> simp [insert, hp]
    · rw [insert, if_neg hb, List.filter_cons, List.filter_cons, ih]
      cases hp : p k <;> cases hpb : p b <;> simp [insert, hb]

theorem filter_ofList (p : String → Bool) (es : List (String × α)) :
    (ofList es).filter (fun e => p e.1) = ofList (es.filter fun e => p e.1) := by
  induction es using List.reverseRecOn with
  | nil => rfl
  | append_singleton es e ih =>
    rw [ofList_concat, filter_insert, ih, List.filter_append]
    cases hp : p e.1 with
    | false => simp [hp]
    | true => simp [hp, ofList_concat]

/-- A look-up for a name that passes a test is not changed by dropping others. -/
theorem get?_filter {p : String → Bool} (hk : p k = true) :
    get? k (f.filter fun e => p e.1) = get? k f := by
  induction f with
  | nil => rfl
  | cons e f ih =>
    obtain ⟨b, w⟩ := e
    by_cases hb : b = k
    · subst hb
      simp [get?, hk]
    · cases hp : p b <;> simp [get?, hp, hb, ih]

/-- A name that fails a test is not found after dropping those that do. -/
theorem get?_filter_eq_none {p : String → Bool} (hk : p k = false) :
    get? k (f.filter fun e => p e.1) = none := by
  rw [get?_eq_none_iff]
  intro hm
  obtain ⟨e, he, rfl⟩ := List.mem_map.mp hm
  exact Bool.false_ne_true (hk.symm.trans (List.mem_filter.mp he).2)

theorem erase_insert_self : erase k (insert k v f) = erase k f := by
  have hself : (k != k) = false := by simp
  rw [erase, erase, filter_insert (· != k), hself]
  rfl

theorem erase_insert_of_ne (ha : a ≠ k) : erase k (insert a v f) = insert a v (erase k f) := by
  have hother : (a != k) = true := by simpa using ha
  rw [erase, erase, filter_insert (· != k), hother]
  rfl

theorem get?_erase_self : get? k (erase k f) = none :=
  get?_filter_eq_none (p := (· != k)) (by simp)

theorem get?_erase_of_ne (ha : a ≠ k) : get? a (erase k f) = get? a f :=
  get?_filter (p := (· != k)) (by simpa using ha)

/-! ## Filling up -/

/-- What a record has for itself counts before what it is filled up with. -/
theorem get?_fill (f g : Fields α) : get? k (fill f g) = (get? k f).or (get? k g) := by
  rw [fill, get?_append]
  cases hk : has k f with
  | true =>
    obtain ⟨v, hv⟩ := Option.isSome_iff_exists.mp hk
    simp [hv]
  | false => rw [get?_filter (p := fun k => !has k f) (by simpa using hk)]

theorem nodup_keys_fill {f g : Fields α} (hf : (keys f).Nodup) (hg : (keys g).Nodup) :
    (keys (fill f g)).Nodup := by
  have hrest : (keys (g.filter fun e => !has e.1 f)).Nodup :=
    hg.sublist (List.filter_sublist.map Prod.fst)
  rw [fill, keys_append, List.nodup_append]
  refine ⟨hf, hrest, fun a ha b hb => ?_⟩
  rintro rfl
  obtain ⟨e, he, rfl⟩ := List.mem_map.mp hb
  have hnew : get? e.1 f = none := by simpa [has] using (List.mem_filter.mp he).2
  exact get?_eq_none_iff.mp hnew ha

/-! ## Names put to values -/

theorem has_iff : f.has k = true ↔ k ∈ f.keys := by
  rw [has, Option.isSome_iff_ne_none, ne_eq, get?_eq_none_iff, not_not]

/-- Names that are put to values in their order: each has the value at its place. -/
theorem get?_zip (ks : List String) (vs : List α) :
    get? k (ks.zip vs) = if k ∈ ks then vs[ks.idxOf k]? else none := by
  induction ks generalizing vs with
  | nil => rfl
  | cons a ks ih =>
    cases vs with
    | nil => simp [get?]
    | cons v vs =>
      by_cases ha : a = k
      · simp [get?, ha]
      · simp [get?, ha, Ne.symm ha, ih, List.idxOf_cons_ne ks ha]

theorem keys_zip (ks : List String) (vs : List α) : keys (ks.zip vs) = ks.take vs.length := by
  induction ks generalizing vs with
  | nil => simp [keys]
  | cons a ks ih => cases vs <;> simp [ih]

/-- In a record there is one value of a name at most. -/
theorem filter_eq_get? {f : Fields α} (h : f.keys.Nodup) :
    (f.filter fun e => e.1 == k).map Prod.snd = (f.get? k).toList := by
  induction f with
  | nil => rfl
  | cons e f ih =>
    obtain ⟨a, v⟩ := e
    obtain ⟨ha, hf⟩ := List.nodup_cons.mp h
    by_cases hk : a = k
    · subst hk
      have hnone : get? a f = none := get?_eq_none_iff.mpr ha
      simp [get?, ih hf, hnone]
    · simp [get?, hk, ih hf]

/-! ## All entries -/

theorem forall_mem_insert {P : String × α → Prop} {f : Fields α} (hf : ∀ e ∈ f, P e)
    (hv : P (k, v)) : ∀ e ∈ insert k v f, P e := by
  induction f with
  | nil => exact List.forall_mem_singleton.mpr hv
  | cons e f ih =>
    obtain ⟨he, hf⟩ := List.forall_mem_cons.mp hf
    rw [insert]
    split
    · next hk => exact List.forall_mem_cons.mpr ⟨hk ▸ hv, hf⟩
    · exact List.forall_mem_cons.mpr ⟨he, ih hf⟩

theorem forall_mem_fill {P : String × α → Prop} {f g : Fields α} (hf : ∀ e ∈ f, P e)
    (hg : ∀ e ∈ g, P e) : ∀ e ∈ fill f g, P e :=
  List.forall_mem_append.mpr ⟨hf, fun e he => hg e (List.mem_of_mem_filter he)⟩

end Fields

end Nullary
