import Nullary.Proofs.Codec.Decoding
import Nullary.Proofs.Session.LogState

/-!
# What a service answers from

A service is made of the settings that were loaded last (`Session.loaded?`), and no other step of a
session reaches it: at the end of a run it has the settings of the last load that succeeded
(`Session.settings_after`).  What it answers hangs on these and on the argument alone, but for the
time that the call took (`Session.untimed_reply_request`).
Main statement: `Session.service_answers`.
-/

namespace Nullary

/-! ### Answers without the time they took -/

/-- An envelope without the remark on how long the call took. -/
def Envelope.untimed (e : Envelope) : Envelope :=
  { e with remarks := e.remarks.map (Fields.erase "duration_ms") }

/-- A reply without the remark on how long the call took. -/
def Reply.untimed : Reply → Reply
  | envelope e => envelope e.untimed
  | r => r

/-- The elapsed time is the only remark of an answer. -/
theorem Codec.untimed_stamped (micros : Nat) (e : Envelope) :
    (stamped micros e).untimed = { e with remarks := some [] } := rfl

/-- Whether an action loads settings for the service, if it succeeds. -/
def Action.loads : Action → Bool
  | load _ => true
  | serviceLoad _ => true
  | _ => false

namespace Session

variable {s : Session}

/-! ### The settings of the service -/

/-- The settings that a move loads for the service, if it does. -/
def loading? (s : Session) (m : Move) : Option Settings :=
  match m.action, (s.play m).reply with
  | .load _, .ok (.settings c) => some c
  | .serviceLoad _, .ok (.settings c) => some c
  | _, _ => none

/-- The settings that were loaded last for the service in the course of some moves. -/
def loaded? (s : Session) : List Move → Option Settings
  | [] => none
  | m :: moves => (loaded? (s.play m).session moves).or (s.loading? m)

theorem loading?_of_loads_eq_false {m : Move} (h : m.action.loads = false) :
    s.loading? m = none := by
  obtain ⟨clock, action⟩ := m
  cases action with
  | load given => cases h
  | serviceLoad given => cases h
  | _ => rfl

theorem Leaves.settings {s' : Session} {a : Action} (h : Leaves s a s') (ha : a.loads = false) :
    s'.settings = s.settings := by
  cases h with
  | loaded => cases ha
  | served => cases ha
  | _ => rfl

/-- A load that succeeds makes a new service, and everything else leaves the one that is there. -/
theorem settings_play (s : Session) (m : Move) :
    (s.play m).session.settings = (s.loading? m).or s.settings := by
  obtain ⟨clock, action⟩ := m
  cases action with
  | load given =>
    simp only [loading?, play, step, Session.load]
    cases Settings.loadBy Settings.loaderName s.world given <;> simp [quiet]
  | serviceLoad given =>
    simp only [loading?, play, step, serviceLoad]
    cases Settings.loadBy Codec.loaderName s.world given <;> simp [quiet, configureBy]
  | _ =>
    rw [loading?_of_loads_eq_false rfl, Option.none_or]
    exact (leaves_step clock s _).settings rfl

theorem settings_after (s : Session) (moves : List Move) :
    (s.after moves).settings = (s.loaded? moves).or s.settings := by
  induction moves generalizing s with
  | nil => rfl
  | cons m moves ih => rw [after_cons, ih, settings_play, loaded?, Option.or_assoc]

/-! ### What the service answers -/

/-- What an operation is answered with, but for the time that it takes. -/
def answer (strict : Bool) (op : Codec.Operation) : Except ActionError Reply :=
  match (Codec.perform strict op).result with
  | .ok e => .ok (.envelope { e with remarks := some [] })
  | .error e => .error (.digits e)

theorem name_operation (s : Session) (r : Request) : (s.operation r).name = member r := by
  cases r <;> rfl

/-- The service answers by its settings and the argument, be the context and the log as they may. -/
theorem untimed_reply_request {c : Settings} (h : s.settings = some c) (clock : Clock)
    (r : Request) : (s.step clock (.request r)).reply.map Reply.untimed =
      answer c.codec.strict (s.operation r) := by
  simp only [step, h, call, answer, Codec.result_run]
  cases (Codec.perform c.codec.strict (s.operation r)).result with
  | ok e => exact congrArg (Except.ok ∘ Reply.envelope) (Codec.untimed_stamped clock.micros e)
  | error e => rfl

theorem reply_request_of_none (h : s.settings = none) (clock : Clock) (r : Request) :
    (s.step clock (.request r)).reply = .error (noService (s.operation r).name) := by
  simp [step, h, quiet, name_operation]

/-! ### Two sessions -/

/--
**What a service answers from.**  A service answers by the settings that were loaded last and by its
argument.  So in two sessions, however different, in which the settings that were loaded last agree
on the mode of decoding, the service says that it has the same mode and answers the same to the same
argument, but for the time that this takes.
-/
theorem service_answers (w w' : World) (terminal terminal' : Bool) (moves moves' : List Move)
    (clock clock' : Clock)
    (h : ((start w terminal).loaded? moves).map (·.codec.strict) =
      ((start w' terminal').loaded? moves').map (·.codec.strict)) :
    let s := (start w terminal).after moves
    let s' := (start w' terminal').after moves'
    (∀ c, (start w terminal).loaded? moves = some c →
      (s.step clock .strict).reply = .ok (.strict c.codec.strict) ∧
      ∀ r, (s.step clock (.request r)).reply.map Reply.untimed =
        answer c.codec.strict (s.operation r)) ∧
    (s.step clock .strict).reply = (s'.step clock' .strict).reply ∧
    ∀ r r', s.operation r = s'.operation r' →
      (s.step clock (.request r)).reply.map Reply.untimed =
        (s'.step clock' (.request r')).reply.map Reply.untimed := by
  intro s s'
  have hs : s.settings = (start w terminal).loaded? moves :=
    (settings_after _ moves).trans (Option.or_none ..)
  have hs' : s'.settings = (start w' terminal').loaded? moves' :=
    (settings_after _ moves').trans (Option.or_none ..)
  rw [← hs, ← hs'] at h
  refine ⟨?_, ?_⟩
  · intro c hc
    have hset : s.settings = some c := hs.trans hc
    exact ⟨by simp [step, hset, quiet], untimed_reply_request hset clock⟩
  · cases hset : s.settings with
    | none =>
      have hset' : s'.settings = none := by simpa [hset] using h.symm
      refine ⟨by simp [step, hset, hset', quiet], fun r r' hop => ?_⟩
      rw [reply_request_of_none hset, reply_request_of_none hset', hop]
    | some c =>
      obtain ⟨c', hset', hstrict⟩ : ∃ c', s'.settings = some c' ∧
          c'.codec.strict = c.codec.strict := by simpa [hset] using h.symm
      refine ⟨by simp [step, hset, hset', hstrict, quiet], fun r r' hop => ?_⟩
      rw [untimed_reply_request hset, untimed_reply_request hset', hstrict, hop]

/-- A verbose service, and much that happens around it before it is called. -/
def busyMoves : List Move :=
  [⟨.epoch, .serviceLoad (Settings.logFlags true false)⟩,
    ⟨.epoch, .setVariables [("VALOBJ_CODEC__STRICT", "true")] []⟩,
    ⟨.epoch, .load [("cls", .null)]⟩, ⟨.epoch, .setSetting "codec" .null⟩,
    ⟨.epoch, .bind [("strict", .bool true)]⟩, ⟨.epoch, .request .build⟩]

/-- A service that nothing happens to. -/
def plainMoves : List Move :=
  [⟨.epoch, .load (Settings.logFlags false true)⟩]

theorem loaded?_serviceLoad {moves : List Move} (h : ∀ s : Session, s.loaded? moves = none) :
    (start .empty true).loaded? (⟨.epoch, .serviceLoad (Settings.logFlags true false)⟩ :: moves) =
      some ⟨none, true, false, ⟨false⟩⟩ := by
  rw [loaded?, h, Option.none_or]
  simp [loading?, play, step, serviceLoad, start, Settings.loadBy_logFlags, quiet]

theorem loaded?_plainMoves :
    (start .empty false).loaded? plainMoves = some ⟨none, false, true, ⟨false⟩⟩ := by
  simp [plainMoves, loaded?, loading?, play, step, Session.load, start, Settings.loadBy_logFlags,
    quiet]

theorem last_busyMoves : ((start .empty true).after busyMoves).last = .blank false := by
  have hset : ((start .empty true).after busyMoves.dropLast).settings =
      some ⟨none, true, false, ⟨false⟩⟩ := by
    rw [settings_after]
    exact congrArg (Option.or · _) (loaded?_serviceLoad fun _ => rfl)
  have hlast : busyMoves = busyMoves.dropLast ++ [⟨.epoch, .request .build⟩] := rfl
  rw [hlast, after_concat]
  simp only [play, step, hset]
  rfl

/-- The value object that a service has built, and the same one given by the caller of another. -/
theorem service_answers_busy :
    let s := (start .empty true).after busyMoves
    let s' := (start .empty false).after plainMoves
    ((start .empty true).loaded? busyMoves).map (·.codec.strict) =
      ((start .empty false).loaded? plainMoves).map (·.codec.strict) ∧
    s.operation (.encode .last) = s'.operation (.encode (.value (.blank false))) ∧
    (s.step .epoch (.request (.encode .last))).reply.map Reply.untimed =
      (s'.step ⟨"", 7⟩ (.request (.encode (.value (.blank false))))).reply.map Reply.untimed := by
  have hmode : ((start .empty true).loaded? busyMoves).map (·.codec.strict) =
      ((start .empty false).loaded? plainMoves).map (·.codec.strict) := by
    rw [busyMoves, loaded?_serviceLoad fun _ => rfl, loaded?_plainMoves]
    rfl
  have hargument : ((start .empty true).after busyMoves).operation (.encode .last) =
      ((start .empty false).after plainMoves).operation (.encode (.value (.blank false))) :=
    congrArg Codec.Operation.encode last_busyMoves
  have hanswers :=
    service_answers .empty .empty true false busyMoves plainMoves .epoch ⟨"", 7⟩ hmode
  exact ⟨hmode, hargument, hanswers.2.2 _ _ hargument⟩

end Session

end Nullary
