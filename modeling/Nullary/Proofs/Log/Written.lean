import Nullary.Log
import Nullary.Proofs.Fields

/-!
# Records that are written

A handler writes a record if it can write each of its values (`Handler.Writes`), be it as a document
or in columns: `Handler.exists_text`.  It can write every text, so that what a record says about
itself is never in the way (`Handler.forall_writes_complete`).
-/

namespace Nullary

/-- Whether a handler can write a value under a name: whether it writes a record of this alone. -/
def Handler.Writes (h : Handler) (e : String × Value) : Prop :=
  ∃ s, h.text? [e] = some s

namespace Value

variable {f : Fields Value}

theorem exists_lineJson? {e : String × Value} {s : String} (h : jsonLine? [e] = some s) :
    ∃ j, lineJson? e.2 = some j := by
  obtain ⟨k, v⟩ := e
  cases hv : lineJson? v with
  | some j => exact ⟨j, rfl⟩
  | none => simp [jsonLine?, recordJson?, hv] at h

theorem exists_jsonLine? (h : ∀ e ∈ f, ∃ j, lineJson? e.2 = some j) :
    ∃ s, jsonLine? f = some s := by
  have hrecord : ∃ es, recordJson? f = some es := by
    induction f with
    | nil => exact ⟨[], rfl⟩
    | cons e f ih =>
      obtain ⟨k, v⟩ := e
      obtain ⟨⟨j, hj⟩, hf⟩ := List.forall_mem_cons.mp h
      obtain ⟨es, hes⟩ := ih hf
      exact ⟨(k, j) :: es, by simp [recordJson?, hj, hes]⟩
  obtain ⟨es, hes⟩ := hrecord
  exact ⟨(Json.object es).render Json.line, by rw [jsonLine?, hes, Option.map_some]⟩

end Value

namespace Console

variable {f : Fields Value} {p : Palette} {e : String × Value} {k : String} {v : Value}

/-! ### Columns -/

/-- Only names that stand in the line have a place in it. -/
theorem mem_of_mem_arranged (h : e ∈ arranged f) : e ∈ f ∧ e.1 ∉ belowNames := by
  have hdisjoint : ∀ k ∈ columnNames, k ∉ belowNames := by decide
  rcases List.mem_append.mp h with h | h
  · obtain ⟨k, hk, he⟩ := List.mem_filterMap.mp h
    obtain ⟨v, hv, rfl⟩ := Option.map_eq_some_iff.mp he
    exact ⟨Fields.mem_of_get?_eq_some hv, hdisjoint k hk⟩
  · have hrest := List.mem_filter.mp (List.mem_mergeSort.mp h)
    refine ⟨hrest.1, ?_⟩
    have hnames := (Bool.and_eq_true_iff.mp hrest.2).2
    simpa using hnames

theorem mem_arranged_singleton (h : e.1 ∉ belowNames) : e ∈ arranged [e] := by
  obtain ⟨k, v⟩ := e
  by_cases hk : k ∈ columnNames
  · refine List.mem_append_left _ (List.mem_filterMap.mpr ⟨k, hk, ?_⟩)
    simp [Fields.get?]
  · refine List.mem_append_right _ (List.mem_mergeSort.mpr (List.mem_filter.mpr ?_))
    refine ⟨List.mem_singleton_self _, ?_⟩
    simp [hk, h]

theorem exists_columns (h : ∀ e ∈ f, ∃ s, column p e.1 e.2 = .ok s) :
    ∃ cs, columns p f = .ok cs := by
  induction f with
  | nil => exact ⟨[], rfl⟩
  | cons e f ih =>
    obtain ⟨k, v⟩ := e
    obtain ⟨⟨s, hs⟩, hf⟩ := List.forall_mem_cons.mp h
    obtain ⟨cs, hcs⟩ := ih hf
    exact ⟨s :: cs, by rw [columns, hs, hcs]; rfl⟩

theorem exists_column {cs : List String} (h : columns p f = .ok cs) (he : e ∈ f) :
    ∃ s, column p e.1 e.2 = .ok s := by
  induction f generalizing cs with
  | nil => cases he
  | cons e' f ih =>
    obtain ⟨k, v⟩ := e'
    rw [columns] at h
    cases hcolumn : column p k v with
    | error err => simp [hcolumn, bind, Except.bind] at h
    | ok s =>
      cases hcs : columns p f with
      | error err => simp [hcolumn, hcs, bind, Except.bind] at h
      | ok cs' =>
        rcases List.mem_cons.mp he with rfl | he
        · exact ⟨s, hcolumn⟩
        · exact ih hcs he

/-! ### Records -/

/-- What a record needs to be written: columns for its line, and texts below it. -/
structure Fit (p : Palette) (f : Fields Value) : Prop where
  line : ∃ cs, columns p (arranged f) = .ok cs
  stack : ∃ o, below? f "stack" = some o
  exception : ∃ o, below? f "exception" = some o

theorem exists_text?_iff : (∃ s, text? p f = some s) ↔ Fit p f := by
  constructor
  · rintro ⟨s, h⟩
    cases hcs : columns p (arranged f) with
    | error e => simp [text?, line, hcs, Except.map, Except.toOption] at h
    | ok cs =>
      cases hstack : below? f "stack" with
      | none => simp [text?, tail?, hstack] at h
      | some stack =>
        cases hexc : below? f "exception" with
        | none => simp [text?, tail?, hstack, hexc] at h
        | some exc => exact ⟨⟨cs, hcs⟩, ⟨stack, hstack⟩, ⟨exc, hexc⟩⟩
  · rintro ⟨⟨cs, hcs⟩, ⟨stack, hstack⟩, ⟨exc, hexc⟩⟩
    simp [text?, line, tail?, hcs, hstack, hexc, Except.map, Except.toOption]

/-- What stands below the line hangs on the value under one name. -/
theorem exists_below? {name : String}
    (h : ∀ v, (name, v) ∈ f → ∃ o, below? [(name, v)] name = some o) :
    ∃ o, below? f name = some o := by
  cases hv : f.get? name with
  | none => exact ⟨none, by rw [below?, hv]⟩
  | some v =>
    obtain ⟨o, ho⟩ := h v (Fields.mem_of_get?_eq_some hv)
    refine ⟨o, ?_⟩
    rw [below?, Fields.get?, if_pos rfl] at ho
    rw [below?, hv]
    exact ho

theorem Fit.of_forall (h : ∀ e ∈ f, Fit p [e]) : Fit p f where
  line := by
    refine exists_columns fun e he => ?_
    obtain ⟨hmem, hbelow⟩ := mem_of_mem_arranged he
    obtain ⟨cs, hcs⟩ := (h e hmem).line
    exact exists_column hcs (mem_arranged_singleton hbelow)
  stack := exists_below? fun v hv => (h _ hv).stack
  exception := exists_below? fun v hv => (h _ hv).exception

theorem exists_column_text (p : Palette) (k s : String) : ∃ t, column p k (.text s) = .ok t := by
  unfold column
  split_ifs
  · exact ⟨_, rfl⟩
  · exact ⟨_, rfl⟩
  · exact ⟨_, rfl⟩
  · exact ⟨_, rfl⟩
  · exact ⟨_, rfl⟩

theorem fit_text (p : Palette) (k s : String) : Fit p [(k, .text s)] := by
  have hbelow (name : String) : ∃ o, below? [(k, .text s)] name = some o := by
    unfold below?
    rw [Fields.get?]
    split_ifs
    · exact ⟨some s, rfl⟩
    · exact ⟨none, rfl⟩
  refine ⟨exists_columns fun e he => ?_, hbelow "stack", hbelow "exception"⟩
  rw [List.mem_singleton.mp (mem_of_mem_arranged he).1]
  exact exists_column_text p k s

end Console

namespace Handler

variable {h : Handler} {f : Fields Value}

/-- A record is written if each of its values can be. -/
theorem exists_text (hf : ∀ e ∈ f, h.Writes e) : ∃ s, h.text? f = some s := by
  unfold text?
  unfold Writes text? at hf
  split_ifs at hf ⊢
  · refine Value.exists_jsonLine? fun e he => ?_
    obtain ⟨s, hs⟩ := hf e he
    exact Value.exists_lineJson? hs
  · exact Console.exists_text?_iff.mpr
      (Console.Fit.of_forall fun e he => Console.exists_text?_iff.mp (hf e he))
  · exact Console.exists_text?_iff.mpr
      (Console.Fit.of_forall fun e he => Console.exists_text?_iff.mp (hf e he))

theorem writes_text (h : Handler) (k s : String) : h.Writes (k, .text s) := by
  unfold Writes text?
  split_ifs
  · exact Value.exists_jsonLine? (List.forall_mem_singleton.mpr ⟨.text s, rfl⟩)
  · exact Console.exists_text?_iff.mpr (Console.fit_text _ k s)
  · exact Console.exists_text?_iff.mpr (Console.fit_text _ k s)

/-- What a record says about itself can always be written. -/
theorem forall_writes_complete {context own : Fields Value} (o : Origin)
    (hcontext : ∀ e ∈ context, h.Writes e) (hown : ∀ e ∈ own, h.Writes e) :
    ∀ e ∈ Event.complete context o own, h.Writes e := by
  have hvalues := Fields.forall_mem_fill hown hcontext
  have hvisible : ∀ e ∈ (own.fill context).filter fun e => !Event.hiddenNames.contains e.1,
      h.Writes e := fun e he => hvalues e (List.mem_of_mem_filter he)
  exact Fields.forall_mem_insert (Fields.forall_mem_insert (Fields.forall_mem_insert hvisible
    (h.writes_text _ _)) (h.writes_text _ _)) (h.writes_text _ _)

end Handler

end Nullary
