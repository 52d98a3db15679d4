import Nullary.Envelope.Document
import Nullary.Log
import Nullary.Proofs.Fields
import Nullary.Proofs.Json.RoundTrip

/-!
# Lines of the log

A value that JSON has a form for (`Value.Native`) has a document that is read back as this value,
and so has a record of such values: its line is `Event.LineOf` the record.
-/

namespace Nullary

namespace Value

/-- Values with a form of their own on a log line. -/
inductive Native : Value → Prop
  | null : Native null
  | bool (b : Bool) : Native (bool b)
  | int {n : Int} (h : Digits.withinLimit n = true) : Native (int n)
  | text (s : String) : Native (text s)
  | list {xs : List Value} (h : ∀ x ∈ xs, Native x) : Native (list xs)
  | dict {f : Fields Value} (hn : f.keys.Nodup) (h : ∀ e ∈ f, Native e.2) : Native (ofFields f)

/-- A document that stands for a value on a line and from which the value is read. -/
structure StandsFor (j : Json) (v : Value) : Prop where
  written : v.lineJson? = some j
  readable : j.Readable
  value : j.toValue = v

theorem exists_lineJsons {xs : List Value} (h : ∀ x ∈ xs, ∃ j, StandsFor j x) :
    ∃ js, lineJsons? xs = some js ∧ (∀ j ∈ js, j.Readable) ∧ Json.toValues js = xs := by
  induction xs with
  | nil => exact ⟨[], rfl, List.forall_mem_nil _, rfl⟩
  | cons x xs ih =>
    obtain ⟨j, hj⟩ := h x List.mem_cons_self
    obtain ⟨js, hwritten, hreadable, hvalues⟩ := ih fun x hx => h x (List.mem_cons_of_mem _ hx)
    refine ⟨j :: js, ?_, List.forall_mem_cons.mpr ⟨hj.readable, hreadable⟩, ?_⟩
    · simp [lineJsons?, hj.written, hwritten]
    · rw [Json.toValues, hj.value, hvalues]

theorem exists_lineMembers {f : Fields Value} (h : ∀ e ∈ f, ∃ j, StandsFor j e.2) :
    ∃ es : Fields Json, lineMembers? (f.map fun e => (.text e.1, e.2)) = some es ∧
      es.keys = f.keys ∧ (∀ e ∈ es, e.2.Readable) ∧
      Json.toEntries es = f.map fun e => (.text e.1, e.2) := by
  induction f with
  | nil => exact ⟨[], rfl, rfl, List.forall_mem_nil _, rfl⟩
  | cons e f ih =>
    obtain ⟨k, v⟩ := e
    obtain ⟨j, hj⟩ := h (k, v) List.mem_cons_self
    obtain ⟨es, hwritten, hkeys, hreadable, hentries⟩ :=
      ih fun e he => h e (List.mem_cons_of_mem _ he)
    refine ⟨(k, j) :: es, ?_, ?_, List.forall_mem_cons.mpr ⟨hj.readable, hreadable⟩, ?_⟩
    · simp [lineMembers?, lineKey?, hj.written, hwritten]
    · rw [Fields.keys_cons, Fields.keys_cons, hkeys]
    · rw [Json.toEntries, hentries, hj.value]
      rfl

/-- A value with a form of its own is read back from its document. -/
theorem Native.exists_standsFor {v : Value} (h : Native v) : ∃ j, StandsFor j v := by
  induction h with
  | null => exact ⟨.null, rfl, .null, rfl⟩
  | bool b => exact ⟨.bool b, rfl, .bool b, rfl⟩
  | int h => exact ⟨.int _, if_pos h, .int h, rfl⟩
  | text s => exact ⟨.text s, rfl, .text s, rfl⟩
  | list h ih =>
    obtain ⟨js, hwritten, hreadable, hvalues⟩ := exists_lineJsons ih
    refine ⟨.array js, ?_, .array hreadable, ?_⟩
    · rw [lineJson?, hwritten, Option.map_some]
    · rw [Json.toValue, hvalues]
  | dict hn h ih =>
    obtain ⟨es, hwritten, hkeys, hreadable, hentries⟩ := exists_lineMembers ih
    refine ⟨.object es, ?_, .object (hkeys ▸ hn) hreadable, ?_⟩
    · rw [ofFields, lineJson?, hwritten, Option.map_some]
    · rw [Json.toValue, hentries, ofFields]

/-- The line of a record is that of the values as one value. -/
theorem jsonLine?_eq (f : Fields Value) :
    jsonLine? f = (lineJson? (ofFields f)).map (Json.render Json.line) := by
  have hmembers : recordJson? f = lineMembers? (f.map fun e => (.text e.1, e.2)) := by
    induction f with
    | nil => rfl
    | cons e f ih => simp [recordJson?, lineMembers?, lineKey?, ih]
  rw [jsonLine?, hmembers, ofFields, lineJson?, Option.map_map]
  rfl

end Value

namespace Event

/-- One line, on which whoever reads it finds an object of just these values, each once. -/
def LineOf (values : Fields Value) (s : String) : Prop :=
  ∃ (body : String) (j : Json), s = body ++ "\n" ∧ Json.Plain body.toList ∧
    (∀ levels, j.depth ≤ levels → Json.readWithin levels body = .ok j) ∧
    j.toValue = Value.ofFields values ∧ values.keys.Nodup

/-! ### The values of a record -/

/-- Values that a log line takes over as they are. -/
structure Loggable (f : Fields Value) : Prop where
  nodup : f.keys.Nodup
  native : ∀ e ∈ f, e.2.Native
  visible : ∀ k ∈ f.keys, k ∉ hiddenNames

variable {context own f : Fields Value} {o : Origin} {k : String}

theorem Loggable.get?_native (h : Loggable f) {v : Value} (hv : f.get? k = some v) : v.Native :=
  h.native _ (Fields.mem_of_get?_eq_some hv)

theorem Loggable.get?_hidden (h : Loggable f) (hk : k ∈ hiddenNames) : f.get? k = none :=
  Fields.get?_eq_none_iff.mpr fun hm => h.visible k hm hk

/-- Whether values can be logged is told by looking them up. -/
theorem loggable_of_get? (hn : f.keys.Nodup) (hnative : ∀ k v, f.get? k = some v → v.Native)
    (hhidden : ∀ k ∈ hiddenNames, f.get? k = none) : Loggable f where
  nodup := hn
  native := fun e he => hnative e.1 e.2 ((Fields.mem_iff_get?_eq_some hn).mp he)
  visible := fun k hm hk => Fields.get?_eq_none_iff.mp (hhidden k hk) hm

theorem exists_lineOf {values : Fields Value} (h : Loggable values) :
    ∃ body, Value.jsonLine? values = some body ∧ LineOf values (body ++ "\n") := by
  obtain ⟨j, hj⟩ := (Value.Native.dict h.nodup h.native).exists_standsFor
  refine ⟨j.render Json.line, ?_, j.render Json.line, j, rfl, ?_, ?_, hj.value, h.nodup⟩
  · rw [Value.jsonLine?_eq, hj.written, Option.map_some]
  · rw [Json.render, String.toList_ofList]
    exact hj.readable.plain
  · exact fun levels hl => Json.readWithin_render Json.legible_line hj.readable hl

theorem get?_visible (values : Fields Value) :
    Fields.get? k (values.filter fun e => !hiddenNames.contains e.1) =
      if k ∈ hiddenNames then none else values.get? k := by
  split_ifs with hk
  · exact Fields.get?_filter_eq_none (p := fun k => !hiddenNames.contains k) (by simpa using hk)
  · exact Fields.get?_filter (p := fun k => !hiddenNames.contains k) (by simpa using hk)

/-- What a record says about itself stands there whatever the values of a call or of the context. -/
theorem get?_complete : (complete context o own).get? k =
    if k = "timestamp" then some (.text o.timestamp)
    else if k = "logger" then some (.text o.logger)
    else if k = "level" then some (.text o.level)
    else if k ∈ hiddenNames then none
    else (own.get? k).or (context.get? k) := by
  simp only [complete, Fields.get?_insert, get?_visible, Fields.get?_fill, eq_comm (a := k)]

theorem loggable_complete (hown : Loggable own) (hcontext : Loggable context) :
    Loggable (complete context o own) := by
  have hfilled := Fields.nodup_keys_fill hown.nodup hcontext.nodup
  have hvisible := hfilled.sublist
    (List.filter_sublist (p := fun e => !hiddenNames.contains e.1).map Prod.fst)
  refine loggable_of_get? (Fields.nodup_keys_insert (Fields.nodup_keys_insert
    (Fields.nodup_keys_insert hvisible))) (fun k v hv => ?_) (fun k hk => ?_)
  · rw [get?_complete] at hv
    split_ifs at hv
    · exact Option.some.inj hv ▸ .text _
    · exact Option.some.inj hv ▸ .text _
    · exact Option.some.inj hv ▸ .text _
    · obtain hv | ⟨-, hv⟩ := Option.or_eq_some_iff.mp hv
      · exact hown.get?_native hv
      · exact hcontext.get?_native hv
  · rw [get?_complete, if_pos hk]
    simp only [hiddenNames, sourceName, List.mem_cons, List.not_mem_nil, or_false] at hk
    obtain rfl | rfl := hk
    · rfl
    · rfl

/-- A message, what a record says about itself, and under other names what `others` has there. -/
structure Shows (values : Fields Value) (message : String) (o : Origin)
    (others : String → Option Value) : Prop where
  event : values.get? "event" = some (.text message)
  level : values.get? "level" = some (.text o.level)
  logger : values.get? "logger" = some (.text o.logger)
  timestamp : values.get? "timestamp" = some (.text o.timestamp)
  others : ∀ k, k ∉ ["event", "level", "logger", "timestamp"] → values.get? k = others k

/-- One line that shows a message, what its record says about itself, and nothing but that and what
`others` has. -/
def Line (s message : String) (o : Origin) (others : String → Option Value) : Prop :=
  ∃ values, LineOf values s ∧ Shows values message o others

/-- Nothing but the message is said under its name. -/
theorem Line.congr {s message : String} {others others' : String → Option Value}
    (h : Line s message o others) (heq : ∀ k, k ≠ "event" → others k = others' k) :
    Line s message o others' := by
  obtain ⟨values, hline, hshows⟩ := h
  refine ⟨values, hline, { hshows with others := fun k hk => ?_ }⟩
  rw [hshows.others k hk, heq]
  exact fun hk' => hk (hk' ▸ List.mem_cons_self)

theorem loggable_ofMessage (message : String) : Loggable (ofMessage message) where
  nodup := List.nodup_singleton _
  native := fun e he => by
    rw [List.mem_singleton.mp he]
    exact .text message
  visible := fun k hk => by
    have hshown : "event" ∉ hiddenNames := by decide
    exact List.mem_singleton.mp hk ▸ hshown

theorem shows_complete {message : String} (hown : Loggable own) (hcontext : Loggable context)
    (hevent : own.get? "event" = some (.text message)) :
    Shows (complete context o own) message o fun k => (own.get? k).or (context.get? k) where
  event := by
    rw [get?_complete, hevent]
    rfl
  level := by
    rw [get?_complete]
    rfl
  logger := by
    rw [get?_complete]
    rfl
  timestamp := by
    rw [get?_complete]
    rfl
  others := by
    intro k hk
    simp only [List.mem_cons, List.not_mem_nil, or_false, not_or] at hk
    rw [get?_complete, if_neg hk.2.2.2, if_neg hk.2.2.1, if_neg hk.2.1]
    split_ifs with hhidden
    · rw [hown.get?_hidden hhidden, hcontext.get?_hidden hhidden]
      rfl
    · rfl

end Event

/-! ### What is written -/

namespace Logging

variable {l : Logging} {r : Record} {terminal : Bool}

/-- A record that is grave enough leaves one line in a log of documents. -/
theorem emit_json {message : String} {o : Origin} {own context : Fields Value}
    (hl : l.handlers = [⟨true, terminal⟩]) (hr : r.values = Event.complete context o own)
    (hlevel : l.threshold r.logger ≤ r.level) (hown : Event.Loggable own)
    (hcontext : Event.Loggable context) (hevent : own.get? "event" = some (.text message)) :
    ∃ line, l.emit r = [line] ∧
      Event.Line line message o fun k => (own.get? k).or (context.get? k) := by
  have hloggable := Event.loggable_complete (o := o) hown hcontext
  obtain ⟨body, hbody, hline⟩ := Event.exists_lineOf hloggable
  refine ⟨body ++ "\n", ?_, _, hline, Event.shows_complete hown hcontext hevent⟩
  simp [emit, hlevel, written, hl, Handler.text?, hr, hbody]

/-- Besides its message, a record of a message alone shows the context. -/
theorem emit_messageRecord {context : Context} {logger : String} {level : Level}
    (hl : l.handlers = [⟨true, terminal⟩]) (hlevel : l.threshold logger ≤ level)
    (hcontext : Event.Loggable context) (timestamp message : String) :
    ∃ line, l.emit (messageRecord context timestamp logger level message) = [line] ∧
      Event.Line line message (origin timestamp logger level) fun k => context.get? k := by
  obtain ⟨line, hwritten, hline⟩ := emit_json
    (r := messageRecord context timestamp logger level message) hl rfl hlevel
    (Event.loggable_ofMessage message) hcontext rfl
  refine ⟨line, hwritten, hline.congr fun k hk => ?_⟩
  rw [Event.ofMessage, Fields.get?, if_neg (Ne.symm hk), Fields.get?, Option.none_or]

end Logging

end Nullary
