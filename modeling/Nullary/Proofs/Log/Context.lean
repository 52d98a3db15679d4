import Nullary.Log.Context
import Nullary.Proofs.Fields

/-!
# Variables that are bound and restored

What a look-up finds after variables were bound, forgotten or picked.  A context in which every
variable occurs once and none holds the ellipsis is `Context.Sound`; each way of changing a context
keeps this.  Main statement: `Context.get?_restore`, work that binds variables of its own leaves
every variable as it was.
-/

namespace Nullary.Context

open Fields

variable {c c' : Context} {k name : String} {v : Value} {names : List String}

/-- What is found of a value that was bound; the ellipsis is not. -/
def found? : Value → Option Value
  | .ellipsis => none
  | v => some v

/-- Every variable occurs once, and each can be found. -/
structure Sound (c : Context) : Prop where
  nodup : c.keys.Nodup
  found : ∀ e ∈ c, found? e.2 = some e.2

/-! ### Look-ups -/

theorem found?_of_ne (h : v ≠ .ellipsis) : found? v = some v := by
  unfold found?
  split
  · exact absurd rfl h
  · rfl

theorem get?_bindOne : get? k (bindOne name v c) = if name = k then found? v else get? k c := by
  unfold bindOne
  split
  · split_ifs with h
    · exact h ▸ get?_erase_self
    · exact get?_erase_of_ne (Ne.symm h)
  · next hv => rw [get?_insert, found?_of_ne hv]

theorem bind_cons (e : String × Value) (vs : Fields Value) (c : Context) :
    bind (e :: vs) c = bind vs (bindOne e.1 e.2 c) := rfl

theorem get?_bind_of_not_mem {vs : Fields Value} (h : k ∉ vs.keys) :
    get? k (bind vs c) = get? k c := by
  induction vs generalizing c with
  | nil => rfl
  | cons e vs ih =>
    obtain ⟨he, hvs⟩ := not_or.mp (mt List.mem_cons.mpr h)
    rw [bind_cons, ih hvs, get?_bindOne, if_neg (Ne.symm he)]

/-- Of variables that can be found, binding puts each in the place of an earlier one. -/
theorem get?_bind {vs : Fields Value} (h : Sound vs) :
    get? k (bind vs c) = (get? k vs).or (get? k c) := by
  induction vs generalizing c with
  | nil => rfl
  | cons e vs ih =>
    obtain ⟨hnew, hnodup⟩ := List.nodup_cons.mp h.nodup
    have hvs : Sound vs := ⟨hnodup, fun e he => h.found e (List.mem_cons_of_mem _ he)⟩
    rw [bind_cons, ih hvs, get?_bindOne, h.found e List.mem_cons_self, Fields.get?]
    by_cases hk : e.1 = k
    · subst hk
      simp [get?_eq_none_iff.mpr hnew]
    · simp [hk]

theorem bind_congr (h : ∀ k, get? k c = get? k c') (vs : Fields Value) :
    get? k (bind vs c) = get? k (bind vs c') := by
  induction vs generalizing c c' with
  | nil => exact h k
  | cons e vs ih =>
    refine ih fun k => ?_
    rw [get?_bindOne, get?_bindOne, h]

theorem get?_unbind : get? k (unbind names c) = if k ∈ names then none else get? k c := by
  split_ifs with h
  · exact get?_filter_eq_none (p := fun k => !names.contains k) (by simpa using h)
  · exact get?_filter (p := fun k => !names.contains k) (by simpa using h)

theorem get?_select : get? k (select names c) = if k ∈ names then get? k c else none := by
  split_ifs with h
  · exact get?_filter (p := fun k => names.contains k) (by simpa using h)
  · exact get?_filter_eq_none (p := fun k => names.contains k) (by simpa using h)

/-! ### Soundness -/

theorem sound_nil : Sound [] := ⟨List.nodup_nil, fun _ he => absurd he List.not_mem_nil⟩

theorem Sound.filter (h : Sound c) (p : String × Value → Bool) : Sound (List.filter p c) where
  nodup := h.nodup.sublist (List.filter_sublist.map Prod.fst)
  found := fun e he => h.found e (List.mem_of_mem_filter he)

theorem Sound.bindOne (h : Sound c) (name : String) (v : Value) : Sound (bindOne name v c) := by
  unfold Context.bindOne
  split
  · exact h.filter _
  · next hv =>
    refine ⟨nodup_keys_insert h.nodup, fun e he => ?_⟩
    have hfound := (mem_iff_get?_eq_some (nodup_keys_insert h.nodup)).mp he
    rw [get?_insert] at hfound
    split_ifs at hfound with hk
    · obtain rfl := Option.some.inj hfound
      exact found?_of_ne hv
    · exact h.found e ((mem_iff_get?_eq_some h.nodup).mpr hfound)

theorem Sound.bind (h : Sound c) (vs : Fields Value) : Sound (bind vs c) := by
  induction vs generalizing c with
  | nil => exact h
  | cons e vs ih => exact ih (h.bindOne e.1 e.2)

theorem Sound.restore {inner : Context} (h : Sound inner) (vs : Fields Value) (c : Context) :
    Sound (restore vs c inner) :=
  (h.filter _).bind _

/-! ### Restoring -/

/-- **Restoring.**  Work that binds variables of its own leaves every variable as it was, also those
that it bound. -/
theorem get?_restore (h : Sound c) (vs : Fields Value) :
    get? k (restore vs c (bind vs c)) = get? k c := by
  have hselected : Sound (select vs.keys c) := h.filter _
  rw [restore, get?_bind hselected, get?_select, get?_unbind]
  split_ifs with hk
  · exact Option.or_none
  · exact get?_bind_of_not_mem hk

end Nullary.Context
