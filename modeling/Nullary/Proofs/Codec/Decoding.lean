import Nullary.Proofs.Codec.Names
import Nullary.Proofs.Except

/-!
# Two views of one payload

To a decoder a payload is no mapping, a mapping without entries, or a mapping whose entries have
names (`Codec.Payload`).  This alone decides what the decoder of value objects does
(`Payload.decode_eq`) and what the service answers (`Payload.result_decode`), strict or lenient.
Main statement: `Codec.decode_views`.
-/

namespace Nullary.Codec

/-! ### What a call adds to an answer -/

/-- An envelope with the elapsed time as its only remark. -/
def stamped (micros : Nat) (e : Envelope) : Envelope :=
  { e with remarks := some [("duration_ms", .float (elapsed micros))] }

theorem result_timed {micros : Nat} {op : String} {o : Outcome}
    (h : ∀ e, o.result = .ok e → e.remarks = none) :
    (timed micros op o).result = o.result.map (stamped micros) := by
  unfold timed
  cases ho : o.result with
  | error e => exact ho
  | ok e =>
    have hnone := h e ho
    simp [stamped, Except.map, hnone, Fields.insert]

/-- No operation leaves remarks of its own. -/
theorem remarks_perform {strict : Bool} {op : Operation} {e : Envelope}
    (h : (perform strict op).result = .ok e) : e.remarks = none := by
  cases op with
  | build => exact Except.ok.inj h ▸ rfl
  | encode v =>
    simp only [perform, encode] at h
    split at h
    · exact Except.ok.inj h ▸ rfl
    · exact Except.ok.inj h ▸ rfl
  | decode v =>
    simp only [perform, decode] at h
    split at h
    · obtain ⟨names, -, rfl⟩ := exists_of_map_eq_ok h
      rfl
    · exact Except.ok.inj h ▸ rfl
    · obtain ⟨names, -, rfl⟩ := exists_of_map_eq_ok h
      rfl

/-- A call answers what the operation does, with the elapsed time. -/
theorem result_run (strict : Bool) (micros : Nat) (op : Operation) :
    (run strict micros op).result = (perform strict op).result.map (stamped micros) :=
  result_timed fun _ h => remarks_perform h

/-! ### Classes of payloads -/

/-- What a payload is to a decoder. -/
inductive Payload
  | foreign (kind : String)
  | empty
  | named (names : List String)

/-- Every key of a mapping has a text. -/
def Nameable (v : Value) : Prop :=
  ∀ es, v.entries? = some es → ∀ e ∈ es, ∃ s, Value.display e.1 = .ok s

theorem nameable_of_names {v : Value} {es : List (Value × Value)} {names : List String}
    (hv : v.entries? = some es) (h : Blank.Names es names) : Nameable v := by
  intro fs hfs
  obtain rfl : es = fs := Option.some.inj (hv.symm.trans hfs)
  exact h.exists_display

namespace Payload

/-- Whether a value is a payload of a class. -/
def Describes (v : Value) : Payload → Prop
  | foreign kind => v.entries? = none ∧ v.kindName = kind
  | empty => v.entries? = some []
  | named names => ∃ es, v.entries? = some es ∧ es ≠ [] ∧ Blank.Names es names

/-- What the decoder of value objects makes of a payload. -/
def decoded (strict : Bool) : Payload → Except Blank.DecodeError Value
  | foreign kind => .error (.notMapping kind)
  | empty => .ok (.blank false)
  | named names => if strict then .error (.unknownFields names) else .ok (.blank false)

/-- What the service answers to a payload. -/
def view (strict : Bool) : Payload → Envelope
  | foreign kind =>
    Envelope.failed "decode" "INVALID_PAYLOAD" ("Type expects a mapping, got " ++ kind)
      [("type", .text kind)]
  | empty => succeeded "decode" (.blank false) []
  | named names =>
    if strict then
      Envelope.failed "decode" "UNKNOWN_FIELDS"
        ("Unknown field(s) for Type: " ++ Value.listLiteral names)
        [("fields", .list (names.map .text))]
    else
      succeeded "decode" (.blank false)
        ["Ignored unknown field(s): " ++ Value.listLiteral names]

variable {p q : Payload} {v v' : Value}

theorem exists_describes (h : Nameable v) : ∃ p, Describes v p := by
  cases hv : v.entries? with
  | none => exact ⟨.foreign v.kindName, hv, rfl⟩
  | some es =>
    by_cases hes : es = []
    · exact ⟨.empty, hv.trans (congrArg some hes)⟩
    · obtain ⟨names, hnames⟩ := Blank.exists_names (h es hv)
      exact ⟨.named names, es, hv, hes, hnames⟩

/-- A value is a payload of one class, and its entries are named in one way. -/
theorem Describes.eq (hp : Describes v p) (hq : Describes v q) : p = q := by
  cases p with
  | foreign kind =>
    obtain ⟨hv, rfl⟩ := hp
    cases q with
    | foreign kind' => rw [hq.2]
    | empty => cases hv.symm.trans hq
    | named names =>
      obtain ⟨es, hes, -⟩ := hq
      cases hv.symm.trans hes
  | empty =>
    cases q with
    | foreign kind => cases Eq.trans (Eq.symm hp) hq.1
    | empty => rfl
    | named names =>
      obtain ⟨es, hes, hne, -⟩ := hq
      exact absurd (Option.some.inj (hes.symm.trans hp)) hne
  | named names =>
    obtain ⟨es, hes, hne, hnames⟩ := hp
    cases q with
    | foreign kind => cases hes.symm.trans hq.1
    | empty => exact absurd (Option.some.inj (hes.symm.trans hq)) hne
    | named names' =>
      obtain ⟨es', hes', -, hnames'⟩ := hq
      obtain rfl := Option.some.inj (hes.symm.trans hes')
      rw [hnames.eq hnames']

/-- The decoder of value objects sees nothing of a payload but its class. -/
theorem Describes.decode_eq (h : Describes v p) (strict : Bool) :
    Blank.decode strict v = p.decoded strict := by
  cases p with
  | foreign kind =>
    obtain ⟨hv, rfl⟩ := h
    rw [Blank.decode, hv]
    rfl
  | empty =>
    rw [Blank.decode, show v.entries? = some [] from h]
    simp [decoded]
  | named names =>
    obtain ⟨es, hv, hes, hnames⟩ := h
    have hfields : Blank.fieldNames es = .ok names := Blank.fieldNames_eq_ok_iff.mpr hnames
    cases strict with
    | false => simp [Blank.decode, hv, decoded]
    | true => simp [Blank.decode, hv, hes, hfields, decoded]

theorem fieldNames_eq_ok {es : List (Value × Value)} {names : List String}
    (hv : v.entries? = some es) (h : Blank.Names es names) : Codec.fieldNames v = .ok names := by
  rw [Codec.fieldNames, hv]
  exact Blank.fieldNames_eq_ok_iff.mpr h

/-- Nor does the service. -/
theorem Describes.result_decode (h : Describes v p) (strict : Bool) :
    (Codec.decode strict v).result = .ok (p.view strict) := by
  have hdecode := h.decode_eq strict
  cases p with
  | foreign kind =>
    simp only [Codec.decode, hdecode, decoded]
    rfl
  | empty =>
    have hfields : Codec.fieldNames v = .ok [] := fieldNames_eq_ok h ⟨.refl _, .nil⟩
    simp only [Codec.decode, hdecode, decoded, hfields]
    rfl
  | named names =>
    obtain ⟨es, hv, hes, hnames⟩ := h
    have hfields : Codec.fieldNames v = .ok names := fieldNames_eq_ok hv hnames
    cases strict with
    | false =>
      have hwarn : warnings names = ["Ignored unknown field(s): " ++ Value.listLiteral names] := by
        rw [warnings, List.isEmpty_eq_false_iff.mpr (hnames.ne_nil hes)]
        rfl
      simp only [Codec.decode, hdecode, decoded, hfields, Bool.false_eq_true, if_false]
      rw [Except.map, hwarn]
      rfl
    | true =>
      simp only [Codec.decode, hdecode, decoded, hfields, if_true]
      rfl

theorem Describes.result_run (h : Describes v p) (strict : Bool) (micros : Nat) :
    (run strict micros (.decode v)).result = .ok (stamped micros (p.view strict)) := by
  rw [Codec.result_run]
  show (Codec.decode strict v).result.map _ = _
  rw [h.result_decode strict]
  rfl

/-- Two mappings, of whatever classes, that have the same keys in any order. -/
def SameKeys (v v' : Value) : Prop :=
  ∃ es es', v.entries? = some es ∧ v'.entries? = some es' ∧
    (es.map Prod.fst).Perm (es'.map Prod.fst)

theorem Describes.of_sameKeys (h : Describes v p) (hk : SameKeys v v') : Describes v' p := by
  obtain ⟨es, es', hv, hv', hperm⟩ := hk
  cases p with
  | foreign kind => cases hv.symm.trans h.1
  | empty =>
    obtain rfl : es = [] := Option.some.inj (hv.symm.trans h)
    have hes' : es' = [] := List.map_eq_nil_iff.mp hperm.symm.eq_nil
    exact hv'.trans (congrArg some hes')
  | named names =>
    obtain ⟨fs, hfs, hne, hnames⟩ := h
    obtain rfl : es = fs := Option.some.inj (hv.symm.trans hfs)
    refine ⟨es', hv', ?_, hnames.of_perm hperm⟩
    rintro rfl
    exact hne (List.map_eq_nil_iff.mp hperm.eq_nil)

end Payload

/-! ### A strict service and a lenient one -/

/--
**Two views of one payload.**  A payload is of exactly one class, and a strict service and a lenient
one both answer by this class: both refuse what is no mapping, in the same words; both accept the
empty mapping; and of the names of entries the strict one complains while the lenient one warns.
So nothing but the keys of a mapping counts, in whatever order they stand.
-/
theorem decode_views (v : Value) (h : Nameable v) (micros micros' : Nat) :
    (∃! p : Payload, p.Describes v ∧
      (run true micros (.decode v)).result = .ok (stamped micros (p.view true)) ∧
      (run false micros' (.decode v)).result = .ok (stamped micros' (p.view false))) ∧
    ∀ v', Payload.SameKeys v v' → ∀ strict,
      (run strict micros (.decode v')).result = (run strict micros (.decode v)).result := by
  obtain ⟨p, hp⟩ := Payload.exists_describes h
  refine ⟨⟨p, ⟨hp, hp.result_run true micros, hp.result_run false micros'⟩, ?_⟩, ?_⟩
  · rintro q ⟨hq, -, -⟩
    exact hq.eq hp
  · intro v' hk strict
    rw [hp.result_run, (hp.of_sameKeys hk).result_run]

/-- Two keys of different classes that have one text, after a key that follows them in order. -/
def twins : Value :=
  .mapping .ordered [(.text "b", .null), (.int 1, .null), (.text "1", .null)]

theorem describes_twins : (Payload.named ["1", "1", "b"]).Describes twins := by
  refine ⟨_, rfl, List.cons_ne_nil _ _, ?_, by decide⟩
  have hone : Value.display (.int 1) = .ok "1" := by cbv
  show [.ok "b", Value.display (.int 1), .ok "1"].Perm [.ok "1", .ok "1", .ok "b"]
  rw [hone]
  exact List.reverse_perm [Except.ok "1", Except.ok "1", Except.ok "b"]

theorem nameable_twins : Nameable twins := by
  obtain ⟨es, hes, -, hnames⟩ := describes_twins
  exact nameable_of_names hes hnames

theorem decode_views_twins : Nameable twins ∧
    (run true 0 (.decode twins)).result =
      .ok (stamped 0 (Payload.view true (.named ["1", "1", "b"]))) ∧
    (run false 0 (.decode twins)).result =
      .ok (stamped 0 (Payload.view false (.named ["1", "1", "b"]))) := by
  obtain ⟨⟨p, ⟨hp, hstrict, hlenient⟩, -⟩, -⟩ := decode_views twins nameable_twins 0 0
  obtain rfl := hp.eq describes_twins
  exact ⟨nameable_twins, hstrict, hlenient⟩

end Nullary.Codec
