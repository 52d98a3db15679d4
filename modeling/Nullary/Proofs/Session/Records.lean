import Nullary.Proofs.Except
import Nullary.Proofs.Log.Written
import Nullary.Proofs.Session.Lines

/-!
# Which records are written

Once the log is set up, a record is written once if its level is a warning or above, or if it comes
from a verbose library and is for those who look for a mistake; all others are not written
(`Logging.Rule`).  Between the two stand the loggers whose names go on with two dots after that of
the library: whether they have its level hangs on which other loggers there are.
Main statement: `Session.records_written`.
-/

namespace Nullary

namespace Logging

open LoggerName

/-- Whether settings let records of a logger and a level pass. -/
def Admits (c : Settings) (logger : String) (level : Level) : Prop :=
  Level.warning ≤ level ∨ Level.debug ≤ level ∧ c.verbose = true ∧ Below packageName logger

/-- Whether they may do so: some names are within that of the library that are not below it. -/
def MayAdmit (c : Settings) (logger : String) (level : Level) : Prop :=
  Level.warning ≤ level ∨ Level.debug ≤ level ∧ c.verbose = true ∧ Within packageName logger

/-- What is written of a record with some values: the text that a handler makes of them, once where
the settings let the record pass and the handler can write it, and never where they do not. -/
structure Rule (c : Settings) (h : Handler) (logger : String) (level : Level)
    (values : Fields Value) (writable : Prop) (written : List String) : Prop where
  once : Admits c logger level → writable →
    ∃ s, h.text? values = some s ∧ written = [s ++ "\n"]
  never : ¬ MayAdmit c logger level → written = []
  atMostOnce : written = [] ∨ ∃ s, h.text? values = some s ∧ written = [s ++ "\n"]

variable {terminal : Bool} {c : Settings} {l : Logging} {r : Record}

theorem levelBy_le_iff {level : Level} :
    levelBy c ≤ level ↔ Level.warning ≤ level ∨ Level.debug ≤ level ∧ c.verbose = true := by
  unfold levelBy
  split_ifs with hverbose
  · have hlower : Level.debug ≤ Level.warning := by decide
    constructor
    · exact fun h => Or.inr ⟨h, hverbose⟩
    · rintro (h | ⟨h, -⟩)
      · exact hlower.trans h
      · exact h
  · constructor
    · exact Or.inl
    · rintro (h | ⟨-, h⟩)
      · exact h
      · exact absurd h hverbose

/-- What settings let pass has the level that its logger asks for. -/
theorem Reflects.threshold_le (h : Reflects terminal (some c) l) {logger : String} {level : Level}
    (hadmits : Admits c logger level) : l.threshold logger ≤ level := by
  have hgoverned := h.governed
  rcases hadmits with hwarning | ⟨hdebug, hverbose, hbelow⟩
  · rcases hgoverned.threshold_mem logger with ht | ht
    · rw [ht, levelBy_le_iff]
      exact Or.inl hwarning
    · rw [ht, h.rootLevel]
      exact hwarning
  · rw [hgoverned.threshold_below hbelow, levelBy_le_iff]
    exact Or.inr ⟨hdebug, hverbose⟩

theorem Reflects.mayAdmit (h : Reflects terminal (some c) l) {logger : String} {level : Level}
    (hlevel : l.threshold logger ≤ level) : MayAdmit c logger level := by
  have hgoverned := h.governed
  by_cases hwithin : Within packageName logger
  · rcases hgoverned.threshold_mem logger with ht | ht
    · rw [ht, levelBy_le_iff] at hlevel
      rcases hlevel with hwarning | ⟨hdebug, hverbose⟩
      · exact Or.inl hwarning
      · exact Or.inr ⟨hdebug, hverbose, hwithin⟩
    · rw [ht, h.rootLevel] at hlevel
      exact Or.inl hlevel
  · rw [hgoverned.threshold_of_not_within hwithin, h.rootLevel] at hlevel
    exact Or.inl hlevel

theorem writes_messageRecord {h : Handler} {context : Context}
    (hcontext : ∀ e ∈ context, h.Writes e) (timestamp logger : String) (level : Level)
    (message : String) :
    ∀ e ∈ (messageRecord context timestamp logger level message).values, h.Writes e :=
  h.forall_writes_complete _ hcontext (List.forall_mem_singleton.mpr (h.writes_text _ _))

/-- With one handler, a record that passes is written as this writes it. -/
theorem written_of_handlers {h : Handler} (hl : l.handlers = [h]) :
    l.written r = ((h.text? r.values).map (· ++ "\n")).toList := by
  cases ht : h.text? r.values <;> simp [written, hl, ht]

theorem Reflects.rule (h : Reflects terminal (some c) l) {writable : Prop}
    (hwritable : writable → ∀ e ∈ r.values, Handler.Writes ⟨c.logJson, terminal⟩ e) :
    Rule c ⟨c.logJson, terminal⟩ r.logger r.level r.values writable (l.emit r) := by
  have hwritten := written_of_handlers (r := r) h.handlers
  refine ⟨?_, ?_, ?_⟩
  · intro hadmits hw
    obtain ⟨s, hs⟩ := Handler.exists_text (hwritable hw)
    refine ⟨s, hs, ?_⟩
    rw [emit, if_pos (h.threshold_le hadmits), hwritten, hs]
    rfl
  · intro hmay
    rw [emit, if_neg fun hlevel => hmay (h.mayAdmit hlevel)]
  · unfold emit
    split_ifs
    · rw [hwritten]
      cases hs : Handler.text? ⟨c.logJson, terminal⟩ r.values with
      | none => exact Or.inl rfl
      | some s => exact Or.inr ⟨s, rfl, rfl⟩
    · exact Or.inl rfl

end Logging

/-! ### Calls with values -/

namespace NamedCall

open Logging

/-- The record that a call makes which comes through: of its values, or, where these are handed to
the logger beneath as its arguments, of the message among them. -/
inductive Makes (context : Context) (timestamp logger : String) (m : Method) (call : NamedCall) :
    Record → Prop
  | usual {r : Record} (hchain : call.chain = .usual)
      (h : namedRecord context timestamp logger m call.fields = .ok r) :
      Makes context timestamp logger m call r
  | plain {v : Value} {message : String} (hchain : call.chain = .empty)
      (hv : call.fields.get? "msg" = some v) (h : Event.message? v [] = some message) :
      Makes context timestamp logger m call
        (messageRecord context timestamp logger m.level message)

variable {context : Context} {timestamp logger : String} {m : Method} {call : NamedCall}
  {r : Record} {l : Logging} {texts : List String}

theorem Makes.logger_eq (h : Makes context timestamp logger m call r) : r.logger = logger := by
  cases h with
  | usual _ h =>
    obtain ⟨shown, -, rfl⟩ := exists_of_map_eq_ok h
    rfl
  | plain => rfl

theorem Makes.level_eq (h : Makes context timestamp logger m call r) : r.level = m.level := by
  cases h with
  | usual _ h =>
    obtain ⟨shown, -, rfl⟩ := exists_of_map_eq_ok h
    rfl
  | plain => rfl

/-- The values of a record can be written if those of the context and of the call can. -/
theorem Makes.writable (h : Makes context timestamp logger m call r) {handler : Handler}
    (hcontext : ∀ e ∈ context, handler.Writes e) (hcall : ∀ e ∈ call.fields, handler.Writes e) :
    ∀ e ∈ r.values, handler.Writes e := by
  cases h with
  | usual _ h =>
    obtain ⟨shown, -, rfl⟩ := exists_of_map_eq_ok h
    exact handler.forall_writes_complete _ hcontext hcall
  | plain => exact writes_messageRecord hcontext _ _ _ _

/-- A message that is handed on as an argument has a text. -/
def Told (call : NamedCall) : Prop :=
  call.chain = .empty → ∀ v, call.fields.get? "msg" = some v →
    ∃ message, Event.message? v [] = some message

theorem plainMessage_eq_ok {v : Value} {own : Fields Value} (h : m.plainMessage own = .ok v) :
    own.get? "msg" = some v := by
  unfold Method.plainMessage at h
  split_ifs at h
  split at h
  · next w hw => rw [hw, Except.ok.inj h]
  · cases h

theorem emitPlain_eq_ok {own : Fields Value}
    (h : l.emitPlain context timestamp logger m own = .ok texts) :
    ∃ v, own.get? "msg" = some v ∧ ∀ message, Event.message? v [] = some message →
      texts = l.emit (messageRecord context timestamp logger m.level message) := by
  unfold emitPlain at h
  split at h
  · cases h
  next v hv =>
  refine ⟨v, plainMessage_eq_ok hv, fun message hmessage => ?_⟩
  rw [emit]
  by_cases hlevel : l.threshold logger ≤ m.level
  · rw [if_pos hlevel] at h
    split at h
    · cases h
    · rw [hmessage] at h
      exact (Except.ok.inj h).symm.trans (if_pos hlevel).symm
  · rw [if_neg hlevel] at h
    exact (Except.ok.inj h).symm.trans (if_neg hlevel).symm

/-- A call that comes through leaves what its record leaves. -/
theorem exists_makes (h : l.emitNamed context timestamp logger call = .ok texts) :
    ∃ m, call.called = .ok m ∧ (call.Told →
      ∃ r, Makes context timestamp logger m call r ∧ texts = l.emit r) := by
  unfold emitNamed at h
  split at h
  · cases h
  next m hm =>
  refine ⟨m, hm, fun htold => ?_⟩
  split at h
  · next hchain =>
    obtain ⟨r, hr, rfl⟩ := exists_of_map_eq_ok h
    exact ⟨r, .usual hchain (mapError_eq_ok_iff.mp hr), rfl⟩
  · next hchain =>
    obtain ⟨v, hv, htexts⟩ := emitPlain_eq_ok (mapError_eq_ok_iff.mp h)
    obtain ⟨message, hmessage⟩ := htold hchain v hv
    exact ⟨_, .plain hchain hv hmessage, htexts message hmessage⟩
  · cases h

end NamedCall

namespace Session

open Logging NamedCall LoggerName

variable {s : Session} {clock : Clock} {logger : String}

theorem emitNamed_of_reply {call : NamedCall} {reply : Reply}
    (h : (s.step clock (.namedLog logger call)).reply = .ok reply) :
    (s.logging.meet logger).emitNamed s.context clock.timestamp logger call =
      .ok (s.step clock (.namedLog logger call)).written := by
  simp only [step, Session.namedLog] at h ⊢
  split at h
  · cases h
  split at h
  · next texts htexts => simp only [htexts]
  · cases h

/--
**Records that are written.**  Let the log be set up, the last time by some settings.  Then a
message whose arguments fit is written just once if the settings let its level pass for its logger,
in a context whose values can be written, and is not written if they do not.  The same holds of a
call with values that comes through, by the level of the method.  Loggers that are not within the
library stay at the level of warnings.
-/
theorem records_written (w : World) (terminal : Bool) (moves : List Move) {c : Settings}
    (hc : (start w terminal).configured? moves = some c) (clock : Clock) (logger : String) :
    let s := (start w terminal).after moves
    let h : Handler := ⟨c.logJson, terminal⟩
    (∀ choice level event args message, choice.level? = .ok level →
      Event.message? event args = some message →
      Rule c h logger level (messageRecord s.context clock.timestamp logger level message).values
        (∀ e ∈ s.context, h.Writes e) (s.step clock (.log logger choice event args)).written) ∧
    (∀ call reply, (s.step clock (.namedLog logger call)).reply = .ok reply →
      ∃ m, call.called = .ok m ∧ (call.Told →
        ∃ r, Makes s.context clock.timestamp logger m call r ∧
          Rule c h logger m.level r.values
            ((∀ e ∈ s.context, h.Writes e) ∧ ∀ e ∈ call.fields, h.Writes e)
            (s.step clock (.namedLog logger call)).written)) ∧
    (¬ Within packageName logger → (s.logging.meet logger).threshold logger = Level.warning) := by
  intro s h
  have hreflects : Reflects terminal (some c) (s.logging.meet logger) :=
    (hc ▸ reflects_after w terminal moves).meet logger
  refine ⟨?_, ?_, ?_⟩
  · intro choice level event args message hchoice hmessage
    rw [written_log hchoice hmessage]
    exact hreflects.rule (r := messageRecord s.context clock.timestamp logger level message)
      fun hcontext => writes_messageRecord hcontext _ _ _ _
  · intro call reply hreply
    obtain ⟨m, hm, hmakes⟩ := exists_makes (emitNamed_of_reply hreply)
    refine ⟨m, hm, fun htold => ?_⟩
    obtain ⟨r, hr, hwritten⟩ := hmakes htold
    have hrule := hreflects.rule (r := r) fun hwritable : (∀ e ∈ s.context, h.Writes e) ∧ _ =>
      hr.writable hwritable.1 hwritable.2
    rw [hr.logger_eq, hr.level_eq, ← hwritten] at hrule
    exact ⟨r, hr, hrule⟩
  · intro hwithin
    rw [hreflects.governed.threshold_of_not_within hwithin, hreflects.rootLevel]

theorem writes_impostor : ∀ e ∈ impostor, Handler.Writes ⟨true, true⟩ e := by
  simp only [impostor, List.forall_mem_cons]
  refine ⟨?_, Handler.writes_text _ _ _, List.forall_mem_nil _⟩
  exact Value.exists_jsonLine? (f := [("level", .int 5)])
    (List.forall_mem_singleton.mpr ⟨.int 5, rfl⟩)

/-- Two loggers whose names begin alike, of which one is not within the library. -/
theorem records_written_impostor :
    let s := (start .empty true).after (documents true impostor)
    (∃ line, (s.step .epoch (.log "valobj.x" (.number 10) (.text "a") [])).written = [line]) ∧
    (s.step .epoch (.log "valobjx" (.number 20) (.text "a") [])).written = [] ∧
    (∃ line, (s.step .epoch (.namedLog "valobj.x" (ofMessage [] "debug" "a" []))).written =
      [line]) ∧
    (s.logging.meet "valobjx").threshold "valobjx" = Level.warning := by
  intro s
  have hbelow : Below packageName "valobj.x" := Or.inr ⟨['x'], by decide, by decide⟩
  have hwithin : ¬ Within packageName "valobjx" := by
    rintro (h | ⟨r, h⟩)
    · exact absurd h (by decide)
    · exact absurd (congrArg (fun cs : List Char => cs[6]?) h) (by simp [packageName])
  have hadmits : Admits ⟨none, true, true, ⟨false⟩⟩ "valobj.x" 10 :=
    Or.inr ⟨by decide, rfl, hbelow⟩
  have hcontext : ∀ e ∈ s.context, Handler.Writes ⟨true, true⟩ e := by
    rw [context_impostor]
    exact writes_impostor
  have hconfigured := configured?_documents true impostor
  obtain ⟨hlog, hnamed, -⟩ :=
    records_written .empty true (documents true impostor) hconfigured .epoch "valobj.x"
  obtain ⟨hforeign, -, hthreshold⟩ :=
    records_written .empty true (documents true impostor) hconfigured .epoch "valobjx"
  refine ⟨?_, ?_, ?_, hthreshold hwithin⟩
  · have hrule := hlog (.number 10) 10 (.text "a") [] "a" rfl rfl
    obtain ⟨line, -, hline⟩ := hrule.once hadmits hcontext
    exact ⟨line ++ "\n", hline⟩
  · refine (hforeign (.number 20) 20 (.text "a") [] "a" rfl rfl).never ?_
    rintro (h | ⟨-, -, h⟩)
    · exact absurd h (by decide)
    · exact hwithin h
  · have hreply : (s.step .epoch (.namedLog "valobj.x" (ofMessage [] "debug" "a" []))).reply =
        .ok .done := by
      have hmaking : (ofMessage [] "debug" "a" []).makingError? = none :=
        makingError?_ofMessage List.not_mem_nil
      have hemit : ∃ texts, (s.logging.meet "valobj.x").emitNamed s.context Clock.epoch.timestamp
          "valobj.x" (ofMessage [] "debug" "a" []) = .ok texts :=
        ⟨_, emitNamed_ofMessage rfl (List.forall_mem_nil _) (by rw [context_impostor]; rfl)⟩
      obtain ⟨texts, htexts⟩ := hemit
      simp only [step, Session.namedLog, hmaking, htexts]
    obtain ⟨m, hm, hmakes⟩ := hnamed _ _ hreply
    obtain ⟨r, -, hrule⟩ := hmakes fun hchain => by cases hchain
    cases hm
    obtain ⟨line, -, hline⟩ := hrule.once hadmits ⟨hcontext,
      List.forall_mem_singleton.mpr (Handler.writes_text _ _ _)⟩
    exact ⟨line ++ "\n", hline⟩

/-- A variable that no document has a place for. -/
def unwritable : Fields Value := [("d", .mapping .dict [(.tuple [], .null)])]

/-- Of two dots in a row the first one does not separate, so that a logger whose name goes on with
them may miss the level of the library; and what cannot be written is left out. -/
theorem records_unwritten :
    let verbose := documents true []
    let s := (start .empty true).after verbose
    let terse := documents false unwritable
    let t := (start .empty true).after terse
    ((start .empty true).configured? verbose = some ⟨none, true, true, ⟨false⟩⟩ ∧
      Within packageName "valobj..x" ∧
      (s.step .epoch (.log "valobj..x" (.number Level.debug) (.text "a") [])).written = []) ∧
    (start .empty true).configured? terse = some ⟨none, false, true, ⟨false⟩⟩ ∧
      (t.step .epoch (.log "root" (.number Level.warning) (.text "a") [])).written = [] := by
  intro verbose s terse t
  refine ⟨⟨configured?_documents true [], Or.inr ⟨['.', 'x'], by decide⟩, ?_⟩,
    configured?_documents false unwritable, ?_⟩
  · have hlevel : (s.logging.meet "valobj..x").threshold "valobj..x" = Level.warning := by
      rw [show s = _ from after_documents true []]
      exact threshold_of_parent?_eq_none rfl rfl
    rw [written_log rfl rfl, emit, if_neg]
    show ¬ (s.logging.meet "valobj..x").threshold "valobj..x" ≤ Level.debug
    rw [hlevel]
    decide
  · rw [written_log rfl rfl, show t = _ from after_documents false unwritable]
    rfl

end Session

end Nullary
