import Nullary.Proofs.Log.NamedCall
import Nullary.Proofs.Session.Context
import Nullary.Proofs.Session.LogState

/-!
# The lines of a session

While the log is set up to write documents, every record that passes the level of its logger is one
line, whichever way it came to the log (`Session.written_log`, `Session.written_namedLog`).  What a
record says about itself cannot be taken by a variable of the context or a value of the call.
Main statement: `Session.json_lines`.
-/

namespace Nullary.Session

open Logging NamedCall

variable {s : Session} {clock : Clock} {logger message : String}

theorem written_log {choice : LevelChoice} {level : Level} {event : Value} {args : List Value}
    (hchoice : choice.level? = .ok level) (hmessage : Event.message? event args = some message) :
    (s.step clock (.log logger choice event args)).written =
      (s.logging.meet logger).emit
        (messageRecord s.context clock.timestamp logger level message) := by
  simp [step, Session.log, hchoice, hmessage]

theorem written_namedLog {bound own : Fields Value} {method : String} {m : Method}
    (hm : Method.ofText? method = some m) (hself : "self" ∉ bound.keys)
    (hparameters : ∀ k ∈ own.keys, k ∉ parameters) (hbound : Event.Loggable bound)
    (hown : Event.Loggable own) (hcontext : Event.Loggable s.context) :
    (s.step clock (.namedLog logger (ofMessage bound method message own))).written =
      (s.logging.meet logger).emit ⟨logger, m.level, none,
        Event.complete s.context (origin clock.timestamp logger m.level)
          (ofMessage bound method message own).fields⟩ := by
  have hhidden : Event.sourceName ∈ Event.hiddenNames := List.mem_cons_self
  have hsource : ((ofMessage bound method message own).fields.fill s.context).get?
      Event.sourceName = none := by
    rw [Fields.get?_fill, (loggable_fields_ofMessage hbound hown).get?_hidden hhidden,
      hcontext.get?_hidden hhidden, Option.or_none]
  simp only [step, Session.namedLog, makingError?_ofMessage hself]
  rw [emitNamed_ofMessage hm hparameters hsource]

/--
**Lines that are true to their records.**  While the log is set up to write documents, a message and
a call with values that pass the level of their logger leave one line each.  The line is read as an
object whose message, level, logger and time are those of the record, and whose other values are
those of the call, then those that its logger was bound to, then those of the context, unchanged.
-/
theorem json_lines (w : World) (terminal : Bool) (moves : List Move) {c : Settings}
    (hc : (start w terminal).configured? moves = some c) (hjson : c.logJson = true)
    (hnative : ∀ e ∈ ((start w terminal).after moves).context, e.2.Native)
    (hvisible : ∀ k ∈ ((start w terminal).after moves).context.keys, k ∉ Event.hiddenNames)
    (clock : Clock) (logger message : String) :
    let s := (start w terminal).after moves
    let threshold := (s.logging.meet logger).threshold logger
    (∀ choice level event args, choice.level? = .ok level →
      Event.message? event args = some message → threshold ≤ level →
      ∃ line, (s.step clock (.log logger choice event args)).written = [line] ∧
        Event.Line line message (origin clock.timestamp logger level) fun k => s.context.get? k) ∧
    ∀ bound method m own, Method.ofText? method = some m → "self" ∉ bound.keys →
      (∀ k ∈ own.keys, k ∉ parameters) → Event.Loggable bound → Event.Loggable own →
      threshold ≤ m.level →
      ∃ line, (s.step clock (.namedLog logger (ofMessage bound method message own))).written =
          [line] ∧
        Event.Line line message (origin clock.timestamp logger m.level) fun k =>
          (own.get? k).or ((bound.get? k).or (s.context.get? k)) := by
  intro s threshold
  have hcontext : Event.Loggable s.context :=
    ⟨(sound_context_after w terminal moves).nodup, hnative, hvisible⟩
  have hhandlers : (s.logging.meet logger).handlers = [⟨true, terminal⟩] := by
    rw [((reflects_after w terminal moves).meet logger).handlers, hc, ← hjson]
    rfl
  refine ⟨?_, ?_⟩
  · intro choice level event args hchoice hmessage hlevel
    rw [written_log hchoice hmessage]
    exact emit_messageRecord hhandlers hlevel hcontext clock.timestamp message
  · intro bound method m own hm hself hparameters hbound hown hlevel
    rw [written_namedLog hm hself hparameters hbound hown hcontext]
    obtain ⟨line, hwritten, hline⟩ := emit_json
      (r := ⟨logger, m.level, none, _⟩) hhandlers rfl hlevel
      (loggable_fields_ofMessage hbound hown) hcontext
      ((get?_fields_ofMessage hbound.nodup hown.nodup).trans (if_pos rfl))
    refine ⟨line, hwritten, hline.congr fun k hk => ?_⟩
    rw [get?_fields_ofMessage hbound.nodup hown.nodup, if_neg (Ne.symm hk), Option.or_assoc]

/-! ### A log of documents -/

/-- A service whose log writes documents, and variables of the context. -/
def documents (verbose : Bool) (vs : Fields Value) : List Move :=
  [⟨.epoch, .serviceLoad (Settings.logFlags verbose true)⟩, ⟨.epoch, .bind vs⟩]

theorem after_documents (verbose : Bool) (vs : Fields Value) :
    (start .empty true).after (documents verbose vs) =
      { configureBy { start .empty true with settings := some ⟨none, verbose, true, ⟨false⟩⟩ }
          ⟨none, verbose, true, ⟨false⟩⟩ with
        context := Context.bind vs [] } := by
  simp [documents, play, step, serviceLoad, quiet, changed, start, configureBy,
    Settings.loadBy_logFlags]

theorem configured?_documents (verbose : Bool) (vs : Fields Value) :
    (start .empty true).configured? (documents verbose vs) =
      some ⟨none, verbose, true, ⟨false⟩⟩ := by
  simp [documents, configured?, configuration?, play, step, serviceLoad, quiet, start,
    Settings.loadBy_logFlags]

/-- Variables under names that records and service calls have values of their own for. -/
def impostor : Fields Value := [("level", .int 5), ("op", .text "a")]

theorem context_impostor (verbose : Bool) :
    ((start .empty true).after (documents verbose impostor)).context = impostor := by
  rw [after_documents]
  rfl

theorem native_impostor : ∀ e ∈ impostor, e.2.Native := by
  simp only [impostor, List.forall_mem_cons]
  exact ⟨.int rfl, .text "a", List.forall_mem_nil _⟩

theorem json_lines_impostor :
    let s := (start .empty true).after (documents false impostor)
    (∃ line, (s.step .epoch (.log "root" (.number 30) (.text "a\nb") [])).written = [line] ∧
      Event.Line line "a\nb" ⟨"warning", "root", Clock.epoch.timestamp⟩ fun k =>
        s.context.get? k) ∧
    ∃ line, (s.step .epoch (.namedLog "root"
        (ofMessage [("op", .text "b")] "error" "a\nb" [("logger", .null)]))).written = [line] ∧
      Event.Line line "a\nb" ⟨"error", "root", Clock.epoch.timestamp⟩ fun k =>
        (Fields.get? k [("logger", .null)]).or
          ((Fields.get? k [("op", .text "b")]).or (s.context.get? k)) := by
  intro s
  have hthreshold : (s.logging.meet "root").threshold "root" = Level.warning :=
    congrArg (fun s : Session => (s.logging.meet "root").threshold "root")
      (after_documents false impostor)
  have hbound : Event.Loggable [("op", .text "b")] :=
    ⟨by decide, List.forall_mem_singleton.mpr (.text "b"), by decide⟩
  have hown : Event.Loggable [("logger", .null)] :=
    ⟨by decide, List.forall_mem_singleton.mpr .null, by decide⟩
  obtain ⟨hlog, hnamed⟩ := json_lines .empty true (documents false impostor)
    (configured?_documents false impostor) rfl
    (by rw [context_impostor]; exact native_impostor) (by rw [context_impostor]; decide)
    .epoch "root" "a\nb"
  exact ⟨hlog (.number 30) 30 _ [] rfl rfl (hthreshold ▸ by decide),
    hnamed _ "error" .error _ rfl (by decide) (by decide) hbound hown (hthreshold ▸ by decide)⟩

end Nullary.Session
