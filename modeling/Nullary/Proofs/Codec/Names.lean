import Mathlib
import Nullary.Codec

/-!
# The names of entries

`Blank.Names es names` says which list of texts names the entries of a mapping: the text of every
key, one for each entry, in the order of code points.  There is one such list if every key has a
text (`Blank.exists_names`), and never a second one (`Blank.Names.eq`); it hangs neither on the
order of the entries nor on what they hold (`Blank.Names.of_perm`).  It is the list that both the
decoder and the service compute (`Blank.fieldNames_eq_ok_iff`).
-/

namespace Nullary

namespace Value

theorem displays_eq_ok_iff {vs : List Value} {ss : List String} :
    displays vs = .ok ss ↔ vs.map display = ss.map .ok := by
  induction vs generalizing ss with
  | nil =>
    cases ss <;> simp [displays]
  | cons v vs ih =>
    rw [displays]
    constructor
    · intro h
      cases hv : display v with
      | error e => simp [hv, bind, Except.bind] at h
      | ok s =>
        cases hvs : displays vs with
        | error e => simp [hv, hvs, bind, Except.bind] at h
        | ok ts =>
          obtain rfl : s :: ts = ss := by simpa [hv, hvs, bind, Except.bind] using h
          rw [List.map_cons, List.map_cons, hv, ih.mp hvs]
    · intro h
      cases ss with
      | nil => simp at h
      | cons s ts =>
        rw [List.map_cons, List.map_cons, List.cons.injEq] at h
        rw [h.1, ih.mpr h.2]
        rfl

end Value

namespace Blank

/-- The numbers of the characters of a text. -/
def codePoints (s : String) : List Nat :=
  s.toList.map Char.toNat

/-- Texts are compared by the code points of their characters, from the first one on. -/
theorem codePoints_strictMono : StrictMono codePoints := by
  intro s t h
  rw [String.lt_iff_toList_lt] at h
  exact List.map_lt (fun _ _ hc => hc) h

theorem codePoints_le_iff {s t : String} : codePoints s ≤ codePoints t ↔ s ≤ t :=
  codePoints_strictMono.le_iff_le

/-- The names of entries: the text of every key, one an entry, in the order of code points. -/
structure Names (es : List (Value × Value)) (names : List String) : Prop where
  each : (es.map fun e => Value.display e.1).Perm (names.map .ok)
  ascending : names.Pairwise fun s t => codePoints s ≤ codePoints t

variable {es es' : List (Value × Value)} {names names' : List String}

/-- Entries with the same keys in any order have the same names. -/
theorem Names.of_perm (h : Names es names) (hp : (es.map Prod.fst).Perm (es'.map Prod.fst)) :
    Names es' names := by
  refine ⟨?_, h.ascending⟩
  have hdisplays := hp.symm.map Value.display
  rw [List.map_map, List.map_map] at hdisplays
  exact hdisplays.trans h.each

/-- Entries are named in one way. -/
theorem Names.eq (h : Names es names) (h' : Names es names') : names = names' := by
  have hok : Function.Injective (Except.ok : String → Except TooManyDigits String) :=
    fun s t hst => Except.ok.inj hst
  have hperm : names.Perm names' := (List.map_perm_map_iff hok).mp (h.each.symm.trans h'.each)
  refine hperm.eq_of_pairwise (fun s t _ _ hst hts => ?_) h.ascending h'.ascending
  exact le_antisymm (codePoints_le_iff.mp hst) (codePoints_le_iff.mp hts)

/-- The texts of all keys, sorted, name the entries. -/
theorem names_mergeSort {ss : List String}
    (h : es.map (fun e => Value.display e.1) = ss.map .ok) :
    Names es (ss.mergeSort fun s t => decide (s ≤ t)) := by
  refine ⟨?_, ?_⟩
  · rw [h]
    exact ((List.mergeSort_perm ss _).map _).symm
  · have htrans (a b c : String) (hab : decide (a ≤ b) = true) (hbc : decide (b ≤ c) = true) :
        decide (a ≤ c) = true :=
      decide_eq_true ((of_decide_eq_true hab).trans (of_decide_eq_true hbc))
    have htotal (a b : String) : (decide (a ≤ b) || decide (b ≤ a)) = true := by
      simpa using le_total a b
    exact (List.pairwise_mergeSort htrans htotal ss).imp fun hst =>
      codePoints_le_iff.mpr (of_decide_eq_true hst)

theorem exists_texts (h : ∀ e ∈ es, ∃ s, Value.display e.1 = .ok s) :
    ∃ ss : List String, es.map (fun e => Value.display e.1) = ss.map .ok := by
  induction es with
  | nil => exact ⟨[], rfl⟩
  | cons e es ih =>
    obtain ⟨s, hs⟩ := h e List.mem_cons_self
    obtain ⟨ss, hss⟩ := ih fun e' he' => h e' (List.mem_cons_of_mem _ he')
    exact ⟨s :: ss, by rw [List.map_cons, List.map_cons, hs, hss]⟩

/-- Where every key has a text, the entries have names. -/
theorem exists_names (h : ∀ e ∈ es, ∃ s, Value.display e.1 = .ok s) : ∃ names, Names es names := by
  obtain ⟨ss, hss⟩ := exists_texts h
  exact ⟨_, names_mergeSort hss⟩

/-- Where the entries have names, every key has a text. -/
theorem Names.exists_display (h : Names es names) : ∀ e ∈ es, ∃ s, Value.display e.1 = .ok s := by
  intro e he
  have hmem := h.each.subset (List.mem_map_of_mem he)
  obtain ⟨s, -, hs⟩ := List.mem_map.mp hmem
  exact ⟨s, hs.symm⟩

theorem Names.ne_nil (h : Names es names) (hes : es ≠ []) : names ≠ [] := by
  rintro rfl
  have hlength := h.each.length_eq
  rw [List.length_map, List.length_map, List.length_nil, List.length_eq_zero_iff] at hlength
  exact hes hlength

/-- What is computed are the names. -/
theorem fieldNames_eq_ok_iff : fieldNames es = .ok names ↔ Names es names := by
  rw [fieldNames]
  constructor
  · intro h
    cases hss : Value.displays (es.map Prod.fst) with
    | error e => simp [hss, Except.map] at h
    | ok ss =>
      obtain rfl : (ss.mergeSort fun s t => decide (s ≤ t)) = names := by
        simpa [hss, Except.map] using h
      rw [Value.displays_eq_ok_iff, List.map_map] at hss
      exact names_mergeSort hss
  · intro h
    obtain ⟨ss, hss⟩ := exists_texts h.exists_display
    have hdisplays : Value.displays (es.map Prod.fst) = .ok ss := by
      rw [Value.displays_eq_ok_iff, List.map_map]
      exact hss
    rw [hdisplays]
    exact congrArg Except.ok ((names_mergeSort hss).eq h)

end Blank

end Nullary
