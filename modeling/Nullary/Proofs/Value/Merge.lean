import Mathlib.Tactic.Tauto
import Nullary.Proofs.Fields
import Nullary.Value.Merge

/-!
# Merging, name by name

`Fields.get?_merge` says what a merged record holds under a name: the upper value, put on the lower
one where both are there.  Mappings merge by their keys of any class, records by names; as texts are
equal to texts only, the entries under texts of a merged mapping are the merged record of the
entries under texts (`textEntries_mergeEntries`).  So one law serves both.
-/

namespace Nullary

namespace Value

/-- A value put on a lower one, if there is a lower one. -/
def putOn (lower : Option Value) (v : Value) : Value :=
  match lower with
  | some w => w.merge v
  | none => v

/-- What comes of a value and a lower one, of which either may be missing. -/
def onTop (lower upper : Option Value) : Option Value :=
  match upper with
  | some v => some (putOn lower v)
  | none => lower

end Value

namespace Fields

variable {k k' : String} {f f' g : Fields Value}

/-! ## Merged records -/

theorem merge_nil (f : Fields Value) : merge f [] = f := rfl

theorem merge_cons (f : Fields Value) (k : String) (v : Value) (g : Fields Value) :
    merge f ((k, v) :: g) = merge (insert k (Value.putOn (get? k f) v) f) g := by
  rw [merge, List.foldl_cons, merge]
  congr 1
  cases get? k f <;> rfl

theorem mem_keys_merge : k ∈ keys (merge f g) ↔ k ∈ keys f ∨ k ∈ keys g := by
  induction g generalizing f with
  | nil => simp [merge_nil]
  | cons e g ih =>
    obtain ⟨a, v⟩ := e
    rw [merge_cons, ih, mem_keys_insert, keys_cons, List.mem_cons]
    tauto

theorem count_keys_merge_le (h : (keys f).count k ≤ 1) : (keys (merge f g)).count k ≤ 1 := by
  induction g generalizing f with
  | nil => exact h
  | cons e g ih =>
    rw [merge_cons]
    exact ih (count_keys_insert_le h)

theorem nodup_keys_merge (h : (keys f).Nodup) : (keys (merge f g)).Nodup :=
  List.nodup_iff_count_le_one.mpr fun _ =>
    count_keys_merge_le (List.nodup_iff_count_le_one.mp h _)

theorem get?_merge_of_not_mem (h : k ∉ keys g) : get? k (merge f g) = get? k f := by
  induction g generalizing f with
  | nil => rfl
  | cons e g ih =>
    obtain ⟨a, v⟩ := e
    rw [keys_cons, List.mem_cons, not_or] at h
    rw [merge_cons, ih h.2, get?_insert, if_neg (Ne.symm h.1)]

/--
Under a name that the upper record has once, a merged one has the upper value put on the lower.
-/
theorem get?_merge (h : (keys g).count k ≤ 1) :
    get? k (merge f g) = Value.onTop (get? k f) (get? k g) := by
  induction g generalizing f with
  | nil => rfl
  | cons e g ih =>
    obtain ⟨a, v⟩ := e
    rw [merge_cons]
    by_cases ha : a = k
    · subst ha
      have hg : a ∉ keys g := by
        rw [keys_cons, List.count_cons_self] at h
        exact List.count_eq_zero.mp (by omega)
      rw [get?_merge_of_not_mem hg, get?_insert, if_pos rfl]
      simp [get?, Value.onTop]
    · have hg : (keys g).count k ≤ 1 := by rwa [keys_cons, List.count_cons_of_ne ha] at h
      rw [ih hg, get?_insert, if_neg ha]
      simp [get?, ha]

/-- What a merged record has under a name hangs on what the lower one has there, and on no other. -/
theorem get?_merge_congr (h : get? k f = get? k f') : get? k (merge f g) = get? k (merge f' g) := by
  induction g generalizing f f' with
  | nil => exact h
  | cons e g ih =>
    obtain ⟨a, v⟩ := e
    rw [merge_cons, merge_cons]
    apply ih
    rw [get?_insert, get?_insert]
    by_cases ha : a = k
    · subst ha
      rw [h]
    · rw [if_neg ha, if_neg ha, h]

/-- Dropping the names that fail a test goes through both records. -/
theorem filter_merge (p : String → Bool) (f g : Fields Value) :
    (merge f g).filter (fun e => p e.1) =
      merge (f.filter fun e => p e.1) (g.filter fun e => p e.1) := by
  induction g generalizing f with
  | nil => rfl
  | cons e g ih =>
    obtain ⟨a, v⟩ := e
    rw [merge_cons, ih, filter_insert, List.filter_cons]
    cases hp : p a with
    | false => rfl
    | true => rw [if_pos rfl, if_pos rfl, merge_cons, get?_filter hp]

end Fields

namespace Value

variable {es fs : List (Value × Value)}

/-! ## The entries of a mapping under texts -/

/-- A text is equal to itself and to no value of another class. -/
theorem same_text (v : Value) (s : String) : same v (.text s) = true ↔ v = .text s := by
  cases v <;> simp [same, sameNumber, wholeNumber?]

theorem text_same (s : String) (v : Value) : same (.text s) v = true ↔ v = .text s := by
  cases v with
  | text t =>
    simp only [same, beq_iff_eq, text.injEq]
    exact eq_comm
  | _ => simp [same, sameNumber, wholeNumber?]

theorem textEntries_text (s : String) (v : Value) (es : List (Value × Value)) :
    textEntries ((.text s, v) :: es) = (s, v) :: textEntries es := rfl

theorem textEntries_other {k : Value} (h : ∀ s, k ≠ .text s) (v : Value)
    (es : List (Value × Value)) : textEntries ((k, v) :: es) = textEntries es := by
  cases k <;> first | rfl | exact absurd rfl (h _)

theorem textEntries_insertEntry_text (s : String) (v : Value) (es : List (Value × Value)) :
    textEntries (insertEntry (.text s) v es) = (textEntries es).insert s v := by
  induction es with
  | nil => rfl
  | cons e es ih =>
    obtain ⟨k, w⟩ := e
    rw [insertEntry]
    by_cases hk : ∃ t, k = .text t
    · obtain ⟨t, rfl⟩ := hk
      by_cases ht : t = s
      · subst ht
        simp [same, textEntries_text, Fields.insert]
      · have hne : same (.text t) (.text s) = false := by simp [same, ht]
        rw [hne, if_neg (by simp), textEntries_text, textEntries_text, ih]
        simp [Fields.insert, ht]
    · rw [not_exists] at hk
      have hne : same k (.text s) = false := by
        rw [← Bool.not_eq_true, same_text]
        exact hk s
      rw [hne, if_neg (by simp), textEntries_other hk, textEntries_other hk, ih]

theorem textEntries_insertEntry_other {k : Value} (h : ∀ s, k ≠ .text s) (v : Value)
    (es : List (Value × Value)) : textEntries (insertEntry k v es) = textEntries es := by
  induction es with
  | nil => exact textEntries_other h v []
  | cons e es ih =>
    obtain ⟨k', w⟩ := e
    rw [insertEntry]
    by_cases hk : ∃ t, k' = .text t
    · obtain ⟨t, rfl⟩ := hk
      have hne : same (.text t) k = false := by
        rw [← Bool.not_eq_true, text_same]
        exact h t
      rw [hne, if_neg (by simp), textEntries_text, textEntries_text, ih]
    · rw [not_exists] at hk
      split
      · rw [textEntries_other hk, textEntries_other hk]
      · rw [textEntries_other hk, textEntries_other hk, ih]

theorem lookup?_text (s : String) (es : List (Value × Value)) :
    lookup? (.text s) es = (textEntries es).get? s := by
  induction es with
  | nil => rfl
  | cons e es ih =>
    obtain ⟨k, w⟩ := e
    by_cases hk : ∃ t, k = .text t
    · obtain ⟨t, rfl⟩ := hk
      rw [textEntries_text]
      by_cases ht : t = s
      · simp [lookup?, same, Fields.get?, ht]
      · simp only [Fields.get?, ht, if_false, ← ih]
        simp [lookup?, same, ht]
    · rw [not_exists] at hk
      have hne : same k (.text s) = false := by
        rw [← Bool.not_eq_true, same_text]
        exact hk s
      rw [textEntries_other hk, ← ih]
      simp [lookup?, hne]

/-- The entries of a merged mapping under texts are those of the two, merged as records. -/
theorem textEntries_mergeEntries (fs es : List (Value × Value)) :
    textEntries (mergeEntries fs es) = (textEntries fs).merge (textEntries es) := by
  induction es generalizing fs with
  | nil => simp [mergeEntries, textEntries, Fields.merge_nil]
  | cons e es ih =>
    obtain ⟨k, v⟩ := e
    rw [mergeEntries, ih]
    by_cases hk : ∃ t, k = .text t
    · obtain ⟨t, rfl⟩ := hk
      rw [textEntries_text, Fields.merge_cons, textEntries_insertEntry_text, lookup?_text]
      cases (textEntries fs).get? t <;> rfl
    · rw [not_exists] at hk
      rw [textEntries_other hk, textEntries_insertEntry_other hk]

/-- A mapping keeps of the entries under one text the last. -/
theorem textEntries_mappingOf (es : List (Value × Value)) :
    textEntries (es.foldl (fun acc e => insertEntry e.1 e.2 acc) fs) =
      (textEntries fs).insertAll (textEntries es) := by
  induction es generalizing fs with
  | nil => rfl
  | cons e es ih =>
    obtain ⟨k, v⟩ := e
    rw [List.foldl_cons, ih]
    by_cases hk : ∃ t, k = .text t
    · obtain ⟨t, rfl⟩ := hk
      rw [textEntries_insertEntry_text, textEntries_text]
      rfl
    · rw [not_exists] at hk
      rw [textEntries_insertEntry_other hk, textEntries_other hk]

end Value

end Nullary
