import Nullary.Proofs.Codec.Notes
import Nullary.Proofs.Session.Lines

/-!
# The notes of a service in a session

The logger of the service passes what the logger of the library passes
(`Logging.Reflects.threshold_serviceName`), and a call writes its notes while its own variables are
bound on top of the context (`Session.call_of_reply`, `Session.get?_inner`).
Main statement: `Session.service_lines`.
-/

namespace Nullary

namespace Logging

variable {terminal : Bool} {c : Settings} {l : Logging}

/-- The service has the level of the library, whichever loggers there are between the two. -/
theorem Reflects.threshold_serviceName (h : Reflects terminal (some c) l) :
    l.threshold serviceName = levelBy c :=
  h.governed.threshold_below (Or.inr ⟨"services.codec".toList, by decide, by decide⟩)

end Logging

namespace Session

open Logging

variable {s : Session} {clock : Clock} {r : Request} {e : Envelope}

/-! ### What a call binds -/

theorem sound_callVariables (strict : Bool) (op : Codec.Operation) :
    Context.Sound (callVariables strict op) where
  nodup := by simp [callVariables, Fields.keys]
  found := by simp [callVariables, Context.found?]

theorem native_callVariables {strict : Bool} {op : Codec.Operation} {k : String} {v : Value}
    (h : Fields.get? k (callVariables strict op) = some v) : v.Native := by
  have hmem := Fields.mem_of_get?_eq_some h
  simp only [callVariables, List.mem_cons, List.not_mem_nil, or_false, Prod.mk.injEq] at hmem
  obtain ⟨-, rfl⟩ | ⟨-, rfl⟩ := hmem
  · exact .text _
  · exact .bool _

/-- While a call runs, the context can be logged if it could be before. -/
theorem loggable_inner {context : Context} (hs : context.Sound) (h : Event.Loggable context)
    (strict : Bool) (op : Codec.Operation) :
    Event.Loggable (context.bind (callVariables strict op)) := by
  refine Event.loggable_of_get? (hs.bind _).nodup (fun k v hv => ?_) (fun k hk => ?_)
  · rw [Context.get?_bind (sound_callVariables strict op)] at hv
    obtain hv | ⟨-, hv⟩ := Option.or_eq_some_iff.mp hv
    · exact native_callVariables hv
    · exact h.get?_native hv
  · have hown : Fields.get? k (callVariables strict op) = none := by
      refine Fields.get?_eq_none_iff.mpr fun hm => ?_
      simp only [callVariables, Fields.keys_cons, Fields.keys_nil, List.mem_cons, List.not_mem_nil,
        or_false] at hm
      obtain rfl | rfl := hm
      · exact absurd hk (by decide)
      · exact absurd hk (by decide)
    rw [Context.get?_bind (sound_callVariables strict op), hown, h.get?_hidden hk]
    rfl

theorem get?_inner {context : Context} {strict : Bool} {op : Codec.Operation} {k : String} :
    (context.bind (callVariables strict op)).get? k =
      if k = "op" then some (.text op.name)
      else if k = "strict" then some (.bool strict)
      else context.get? k := by
  rw [Context.get?_bind (sound_callVariables strict op)]
  simp only [callVariables, Fields.get?, eq_comm (a := k)]
  split_ifs
  · rfl
  · rfl
  · rfl

/-! ### What a call writes -/

/-- A call that answers has settings, and its notes are written within the context of the call. -/
theorem call_of_reply (h : (s.step clock (.request r)).reply = .ok (.envelope e)) :
    ∃ settings, s.settings = some settings ∧
      (Codec.run settings.codec.strict clock.micros (s.operation r)).result = .ok e ∧
      (s.step clock (.request r)).written =
        (noteRecords clock
          (s.context.bind (callVariables settings.codec.strict (s.operation r)))
          (Codec.run settings.codec.strict clock.micros (s.operation r)).notes).flatMap
            s.logging.emit := by
  cases hs : s.settings with
  | none => simp [step, hs, quiet] at h
  | some settings =>
    refine ⟨settings, rfl, ?_⟩
    simp only [step, hs, call] at h ⊢
    cases hr : (Codec.run settings.codec.strict clock.micros (s.operation r)).result with
    | error err => simp [hr] at h
    | ok e' =>
      simp only [hr] at h ⊢
      obtain rfl := Reply.envelope.inj (Except.ok.inj h)
      exact ⟨rfl, trivial⟩

theorem forall₂_flatMap {α β : Type} {R : α → β → Prop} {f : α → List β} {xs : List α}
    (h : ∀ x ∈ xs, ∃ y, f x = [y] ∧ R x y) : List.Forall₂ R xs (xs.flatMap f) := by
  induction xs with
  | nil => exact .nil
  | cons x xs ih =>
    obtain ⟨y, hy, hr⟩ := h x List.mem_cons_self
    rw [List.flatMap_cons, hy]
    exact .cons hr (ih fun x hx => h x (List.mem_cons_of_mem _ hx))

/--
**The trace of a service call.**  While the log is set up to write all that there is as documents, a
call that answers leaves just the lines that its answer tells of, and a closing one with the time
that also stands in its remarks.  Each line names the operation and the mode of decoding of the call,
whatever is bound under their names, and under other names has what the context has.
-/
theorem service_lines (w : World) (terminal : Bool) (moves : List Move) {c : Settings}
    (hc : (start w terminal).configured? moves = some c) (hverbose : c.verbose = true)
    (hjson : c.logJson = true)
    (hnative : ∀ e ∈ ((start w terminal).after moves).context, e.2.Native)
    (hvisible : ∀ k ∈ ((start w terminal).after moves).context.keys, k ∉ Event.hiddenNames)
    (clock : Clock) (r : Request) {e : Envelope}
    (h : (((start w terminal).after moves).step clock (.request r)).reply = .ok (.envelope e)) :
    let s := (start w terminal).after moves
    ∃ settings, s.settings = some settings ∧
      e.remarks = some [("duration_ms", .float (Codec.elapsed clock.micros))] ∧
      List.Forall₂
        (fun note line =>
          Event.Line line note ⟨"debug", "valobj.services.codec", clock.timestamp⟩ fun k =>
            if k = "op" then some (.text (s.operation r).name)
            else if k = "strict" then some (.bool settings.codec.strict)
            else s.context.get? k)
        (Codec.notesOf (s.operation r) e ++ [Codec.closing clock.micros (s.operation r) e])
        (s.step clock (.request r)).written := by
  intro s
  have hsound : s.context.Sound := sound_context_after w terminal moves
  have hreflects : Reflects terminal (some c) s.logging := hc ▸ reflects_after w terminal moves
  have hhandlers : s.logging.handlers = [⟨true, terminal⟩] := by
    rw [hreflects.handlers, ← hjson]
    rfl
  obtain ⟨settings, hsettings, hresult, hwritten⟩ := call_of_reply h
  refine ⟨settings, hsettings, ?_, ?_⟩
  · rw [Codec.result_run] at hresult
    obtain ⟨e₀, -, rfl⟩ := exists_of_map_eq_ok hresult
    rfl
  · rw [hwritten, Codec.notes_run hresult, noteRecords, List.flatMap_map]
    refine forall₂_flatMap fun note _ => ?_
    have hinner := loggable_inner hsound ⟨hsound.nodup, hnative, hvisible⟩ settings.codec.strict
      (s.operation r)
    have hlevel : s.logging.threshold serviceName ≤ Level.debug := by
      rw [hreflects.threshold_serviceName, levelBy, if_pos hverbose]
    obtain ⟨line, hwritten, hline⟩ :=
      emit_messageRecord hhandlers hlevel hinner clock.timestamp note
    exact ⟨line, hwritten, hline.congr fun k _ => get?_inner⟩

theorem service_lines_impostor :
    let s := (start .empty true).after (documents true impostor)
    let t := s.step .epoch (.request (.encode (.value .plain)))
    ∃ settings, s.settings = some settings ∧
      List.Forall₂
        (fun note line =>
          Event.Line line note ⟨"debug", "valobj.services.codec", Clock.epoch.timestamp⟩ fun k =>
            if k = "op" then some (.text "encode")
            else if k = "strict" then some (.bool settings.codec.strict)
            else s.context.get? k)
        ["Refusing to encode Plain", "encode finished ok=False in 0.000ms"] t.written := by
  intro s t
  have hreply : t.reply = .ok (.envelope (Codec.stamped 0 (Envelope.failed "encode" "INVALID_VALUE"
      "Cannot encode Plain as Type" [("type", .text "Plain")]))) :=
    congrArg (fun s : Session => (s.step .epoch (.request (.encode (.value .plain)))).reply)
      (after_documents true impostor)
  obtain ⟨settings, hsettings, -, hlines⟩ := service_lines .empty true (documents true impostor)
    (configured?_documents true impostor) rfl rfl
    (by rw [context_impostor]; exact native_impostor) (by rw [context_impostor]; decide)
    .epoch (.encode (.value .plain)) hreply
  exact ⟨settings, hsettings, hlines⟩

end Session

end Nullary
