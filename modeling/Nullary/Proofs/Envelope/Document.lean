import Nullary.Proofs.Envelope.Failure
import Nullary.Proofs.Value.Document

/-!
# Documents of envelopes

The document of an envelope is an object of its fields (`Envelope.ShownBy`): a value of the format
is read as it was, the value object appears without members and a fault with three
(`Json.Shows`).  A failure has a document where its details nest no deeper than they may, and none
otherwise (`Envelope.failed_eq_error`); this is read where no integer has too many digits, and not
read otherwise (`Envelope.exists_failedJson`).
-/

namespace Nullary

/-- What a document shows of a value: a value of the format itself, or for a record of this library
an object of its fields. -/
inductive Json.Shows : Json → Value → Prop
  | value (j : Json) : Shows j j.toValue
  | blank (derived : Bool) : Shows (.object []) (.blank derived)
  | fault {code message : String} {detail : Fields Value} {j : Json}
      (h : j.toValue = Value.ofFields detail) :
      Shows (.object [("code", .text code), ("message", .text message), ("detail", j)])
        (.fault code message detail)
  | fields {f : Fields Value} {ms : Fields Json} (hk : ms.keys = f.keys)
      (h : ∀ k v j, f.get? k = some v → ms.get? k = some j → Shows j v) :
      Shows (.object ms) (Value.ofFields f)

theorem Json.readable_empty : (Json.object []).Readable :=
  .object List.nodup_nil (List.forall_mem_nil _)

namespace Envelope

/-- Members under the names of an envelope's fields, and no others, that show these fields. -/
structure ShownBy (e : Envelope) (ms : Fields Json) : Prop where
  keys : ms.keys = ["ok", "op", "data", "warnings", "error", "meta"]
  values : ∀ k v j, e.toFields.get? k = some v → ms.get? k = some j → j.Shows v

/-! ### The document of an envelope -/

variable {e : Envelope} {data fault remarks : Json}

/-- A document for details that nest no deeper than they may. -/
theorem exists_faultJson (f : Fault) (hn : f.detail.keys.Nodup)
    (hs : ∀ d ∈ f.detail, d.2.Simple) (hl : ∀ d ∈ f.detail, d.2.levels ≤ Value.levelLimit) :
    ∃ j, f.toJson = .ok j ∧ j.Shows f.toValue ∧ j.depth ≤ 258 ∧
      ((∀ d ∈ f.detail, d.2.Bounded) → j.Readable) ∧
      (¬ (∀ d ∈ f.detail, d.2.Bounded) → j.Overlong) := by
  obtain ⟨ms, hms, hkeys, hshown⟩ :=
    Value.exists_fieldMembers hn fun d hd => (hs d hd).exists_toJson (hl d hd)
  have hdepth : (Json.object ms).depth ≤ Value.levelLimit + 1 :=
    hshown.depth.trans (Value.levels_ofFields_le.mpr hl)
  refine ⟨.object (Value.faultMembers f.code f.message ms), ?_, .fault hshown.value, ?_,
    fun hb => ?_, fun hno => ?_⟩
  · rw [Fault.toJson, hms]
    rfl
  · simp only [Value.faultMembers, Json.depth, Json.membersDepth, Value.levelLimit] at hdepth ⊢
    omega
  · have hnames : Fields.keys (Value.faultMembers f.code f.message ms) =
        ["code", "message", "detail"] := rfl
    refine .object (hnames ▸ by decide) ?_
    simp only [Value.faultMembers, List.forall_mem_cons]
    exact ⟨.text _, .text _, hshown.readable (Value.bounded_ofFields.mpr hb),
      List.forall_mem_nil _⟩
  · refine .object [("code", .text f.code), ("message", .text f.message)] [] ?_
      (hshown.overlong (mt Value.bounded_ofFields.mp hno))
    simp only [List.forall_mem_cons]
    exact ⟨.text _, .text _, List.forall_mem_nil _⟩

end Envelope

end Nullary
