import Nullary.Proofs.Codec.Decoding
import Nullary.Proofs.Text.Quoted

/-!
# What is said of entries

A strict decoder, and the service that calls it, refuse entries in one sentence, and a lenient
service warns of them in one (`Codec.Says`).  Both sentences end with the literal of the names, from
which the names can be read back.  Main statement: `Codec.reports_iff`.
-/

namespace Nullary.Codec

open Printable

/-- The sentences that a payload is refused with and warned of, however long the calls take. -/
structure Says (v : Value) (refusal warning : String) : Prop where
  refused : ∃ err, Blank.decode true v = .error err ∧ err.message = refusal
  faulted : ∀ micros, ∃ e f, (run true micros (.decode v)).result = .ok e ∧
    e.fault = some f ∧ f.message = refusal
  warned : ∀ micros, ∃ e, (run false micros (.decode v)).result = .ok e ∧ e.warnings = [warning]

/-- The sentence of a refusal. -/
def refusal (names : List String) : String :=
  "Unknown field(s) for Type: " ++ Value.listLiteral names

/-- The sentence of a warning. -/
def warning (names : List String) : String :=
  "Ignored unknown field(s): " ++ Value.listLiteral names

variable {v : Value} {names names' : List String}

theorem Payload.Describes.says (h : (Payload.named names).Describes v) :
    Says v (refusal names) (warning names) where
  refused := ⟨_, h.decode_eq true, rfl⟩
  faulted := fun micros => ⟨_, _, h.result_run true micros, rfl, rfl⟩
  warned := fun micros => ⟨_, h.result_run false micros, rfl⟩

/-! ### Texts that end with a literal -/

theorem append_listLiteral_inj {opening : String} :
    opening ++ Value.listLiteral names = opening ++ Value.listLiteral names' ↔ names = names' := by
  constructor
  · intro h
    have hchars := congrArg String.toList h
    rw [String.toList_append, String.toList_append] at hchars
    exact Value.listLiteral_injective (String.toList_inj.mp (List.append_cancel_left hchars))
  · rintro rfl
    rfl

theorem shown_append_listLiteral {opening : String} (h : Shown opening.toList) :
    Shown (opening ++ Value.listLiteral names).toList := by
  rw [String.toList_append, shown_append]
  exact ⟨h, Value.shown_listLiteral names⟩

theorem refusal_inj : refusal names = refusal names' ↔ names = names' := append_listLiteral_inj

theorem warning_inj : warning names = warning names' ↔ names = names' := append_listLiteral_inj

theorem shown_refusal (names : List String) : Shown (refusal names).toList :=
  shown_append_listLiteral (shown_of_ascii rfl)

theorem shown_warning (names : List String) : Shown (warning names).toList :=
  shown_append_listLiteral (shown_of_ascii rfl)

/-! ### Two payloads -/

/--
**Reports tell the names.**  Let the keys of two mappings with entries have texts.  Then strict
decoders refuse both in the same sentence just if the entries have the same names, and lenient
services warn of both in the same sentence just if they have; and every character of these
sentences is printable, whatever the keys are.
-/
theorem reports_iff {v v' : Value} {es es' : List (Value × Value)}
    (hv : v.entries? = some es) (hes : es ≠ []) (htexts : Nameable v)
    (hv' : v'.entries? = some es') (hes' : es' ≠ []) (htexts' : Nameable v') :
    ∃ names names' r r' w w',
      Blank.Names es names ∧ Blank.Names es' names' ∧ Says v r w ∧ Says v' r' w' ∧
      (r = r' ↔ names = names') ∧ (w = w' ↔ names = names') ∧
      ∀ s ∈ [r, r', w, w'], ∀ c ∈ s.toList, isPrintable c = true := by
  obtain ⟨names, hnames⟩ := Blank.exists_names (htexts es hv)
  obtain ⟨names', hnames'⟩ := Blank.exists_names (htexts' es' hv')
  have hp : (Payload.named names).Describes v := ⟨es, hv, hes, hnames⟩
  have hp' : (Payload.named names').Describes v' := ⟨es', hv', hes', hnames'⟩
  refine ⟨names, names', refusal names, refusal names', warning names, warning names', hnames,
    hnames', hp.says, hp'.says, refusal_inj, warning_inj, ?_⟩
  intro s hs
  simp only [List.mem_cons, List.not_mem_nil, or_false] at hs
  rcases hs with rfl | rfl | rfl | rfl
  · exact shown_refusal names
  · exact shown_refusal names'
  · exact shown_warning names
  · exact shown_warning names'

/-- One key that reads like the literal of two, with a line end in it. -/
def posing : Value := .mapping .dict [(.text "a', 'b\n", .null)]

/-- Two keys. -/
def plain : Value := .mapping .dict [(.text "b\n", .null), (.text "a", .null)]

theorem names_posing : Blank.Names [(.text "a', 'b\n", .null)] ["a', 'b\n"] :=
  ⟨.refl _, List.pairwise_singleton _ _⟩

theorem names_plain : Blank.Names [(.text "b\n", .null), (.text "a", .null)] ["a", "b\n"] :=
  ⟨.swap _ _ _, by decide⟩

/-- A key that reads like two is reported in another way than the two. -/
theorem reports_posing : ∃ r r' w w', Says posing r w ∧ Says plain r' w' ∧ r ≠ r' ∧ w ≠ w' ∧
    '\n' ∉ r.toList ∧ '\n' ∉ w'.toList := by
  have hposing : posing.entries? = some [(.text "a', 'b\n", .null)] := rfl
  have hplain : plain.entries? = some [(.text "b\n", .null), (.text "a", .null)] := rfl
  obtain ⟨names, names', r, r', w, w', hnames, hnames', hs, hs', hr, hw, hshown⟩ :=
    reports_iff hposing (List.cons_ne_nil _ _) (nameable_of_names hposing names_posing)
      hplain (List.cons_ne_nil _ _) (nameable_of_names hplain names_plain)
  have hne : names ≠ names' := by
    rw [hnames.eq names_posing, hnames'.eq names_plain]
    decide
  have hbreak {s : String} (h : s ∈ [r, r', w, w']) : '\n' ∉ s.toList := by
    intro hc
    have hprintable := hshown s h '\n' hc
    exact absurd hprintable (by decide +kernel)
  exact ⟨r, r', w, w', hs, hs', fun h => hne (hr.mp h), fun h => hne (hw.mp h),
    hbreak (by simp), hbreak (by simp)⟩

end Nullary.Codec
