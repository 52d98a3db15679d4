import Nullary.Proofs.Fields
import Nullary.Proofs.Log.Hierarchy
import Nullary.Proofs.Session.Runs
import Nullary.Proofs.Settings.Load

/-!
# The state of the log over a session

Two actions set up the log when they succeed (`Session.configuration?`); all others leave its
handlers and levels alone, and so does every action that fails (`Session.sameSetup_play`).  The log
always reflects the settings by which it was set up last (`Session.reflects_after`), as nothing of
an earlier setup is left by a later one.
Main statement: `Session.log_state`.
-/

namespace Nullary

namespace Logging

/-- The level of the loggers of this library that settings ask for. -/
def levelBy (c : Settings) : Level :=
  if c.verbose then Level.debug else Level.warning

/-- How records are written and which are: everything of a log but the loggers it has met. -/
structure SameSetup (l l' : Logging) : Prop where
  handlers : l.handlers = l'.handlers
  rootLevel : l.rootLevel = l'.rootLevel
  levels : l.levels = l'.levels

/-- A log as settings leave it, or one that was never set up. -/
structure Reflects (terminal : Bool) (c : Option Settings) (l : Logging) : Prop where
  handlers : l.handlers = (c.map fun c => ⟨c.logJson, terminal⟩).toList
  rootLevel : l.rootLevel = Level.warning
  levels : l.levels = (c.map fun c => (packageName, levelBy c)).toList
  known : packageName ∈ l.known

variable {terminal : Bool} {c : Option Settings} {l l' : Logging}

theorem SameSetup.refl (l : Logging) : SameSetup l l := ⟨rfl, rfl, rfl⟩

theorem sameSetup_meet (name : String) (l : Logging) : SameSetup (l.meet name) l := by
  unfold meet
  split
  · exact .refl l
  · exact ⟨rfl, rfl, rfl⟩

theorem mem_known_meet {name : String} (h : packageName ∈ l.known) :
    packageName ∈ (l.meet name).known := by
  unfold meet
  split
  · exact h
  · exact List.mem_append_left _ h

theorem reflects_initial : Reflects terminal none initial where
  handlers := rfl
  rootLevel := rfl
  levels := rfl
  known := List.mem_cons_self

theorem Reflects.meet (h : Reflects terminal c l) (name : String) :
    Reflects terminal c (l.meet name) where
  handlers := (sameSetup_meet name l).handlers.trans h.handlers
  rootLevel := (sameSetup_meet name l).rootLevel.trans h.rootLevel
  levels := (sameSetup_meet name l).levels.trans h.levels
  known := mem_known_meet h.known

/-- Whatever a log reflected before, it reflects the settings that it is set up by. -/
theorem Reflects.configure (h : Reflects terminal c l) (c' : Settings) :
    Reflects terminal (some c') (l.configure terminal c') where
  handlers := rfl
  rootLevel := rfl
  levels := by
    rw [Logging.configure, h.levels]
    cases c with
    | none => rfl
    | some c => simp [Fields.insert, levelBy]
  known := h.known

theorem Reflects.packageLevel_none (h : Reflects terminal none l) : l.packageLevel = 0 := by
  rw [packageLevel, h.levels]
  rfl

theorem Reflects.packageLevel_some {c : Settings} (h : Reflects terminal (some c) l) :
    l.packageLevel = levelBy c := by
  rw [packageLevel, h.levels]
  rfl

/-- The level of the library is the only one that settings set. -/
theorem Reflects.governed {c : Settings} (h : Reflects terminal (some c) l) :
    l.Governed (levelBy c) where
  package := by
    have hlevel : levelBy c ≠ 0 := by
      unfold levelBy
      split <;> decide
    simp [ownLevel?, h.levels, Fields.get?, hlevel]
  others := fun name hname => by simp [ownLevel?, h.levels, Fields.get?, Ne.symm hname]
  known := h.known

/-- A second setup replaces the first one. -/
theorem configure_configure (terminal : Bool) (c c' : Settings) (l : Logging) :
    (l.configure terminal c).configure terminal c' = l.configure terminal c' := by
  simp [Logging.configure, Fields.insert_insert_self]

end Logging

namespace Session

open Logging

variable {s : Session}

/-! ### What a move does to the log -/

/-- The settings by which a move sets up the log, if it does. -/
def configuration? (s : Session) (m : Move) : Option Settings :=
  match m.action, (s.play m).reply with
  | .configure, .ok _ => s.settings
  | .serviceLoad _, .ok (.settings c) => some c
  | _, _ => none

/-- The settings by which the log was set up last in the course of some moves. -/
def configured? (s : Session) : List Move → Option Settings
  | [] => none
  | m :: moves => (configured? (s.play m).session moves).or (s.configuration? m)

theorem configured?_concat (s : Session) (moves : List Move) (m : Move) :
    s.configured? (moves ++ [m]) = ((s.after moves).configuration? m).or (s.configured? moves) := by
  induction moves generalizing s with
  | nil => simp [configured?]
  | cons m' moves ih => simp [configured?, ih, Option.or_assoc]

theorem configuration?_of_setsUp_eq_false {m : Move} (h : m.action.setsUp = false) :
    s.configuration? m = none := by
  obtain ⟨clock, action⟩ := m
  cases action with
  | configure => cases h
  | serviceLoad given => cases h
  | _ => rfl

/-- Where a move sets up the log by settings, these count alone; any other move at most makes a
logger known. -/
theorem logging_play (s : Session) (m : Move) :
    (∃ c, s.configuration? m = some c ∧
      (s.play m).session.logging = s.logging.configure s.terminal c) ∨
    s.configuration? m = none ∧ ((s.play m).session.logging = s.logging ∨
      ∃ name, (s.play m).session.logging = s.logging.meet name) := by
  obtain ⟨clock, action⟩ := m
  have hleaves := leaves_step clock s action
  unfold play
  generalize (s.step clock action).session = s' at hleaves
  cases hleaves with
  | configured h =>
    exact Or.inl ⟨_, by simp [configuration?, play, step, h, changed, quiet], rfl⟩
  | served h =>
    exact Or.inl ⟨_, by simp [configuration?, play, step, serviceLoad, h, quiet], rfl⟩
  | unconfigured h =>
    exact Or.inr ⟨by simp [configuration?, play, step, h, quiet], Or.inl rfl⟩
  | refused h =>
    exact Or.inr ⟨by simp [configuration?, play, step, serviceLoad, h, quiet], Or.inl rfl⟩
  | met logger hs hb =>
    exact Or.inr ⟨configuration?_of_setsUp_eq_false hs, Or.inr ⟨logger, rfl⟩⟩
  | idle hs hb => exact Or.inr ⟨configuration?_of_setsUp_eq_false hs, Or.inl rfl⟩
  | world w hs hb => exact Or.inr ⟨configuration?_of_setsUp_eq_false hs, Or.inl rfl⟩
  | _ => exact Or.inr ⟨rfl, Or.inl rfl⟩

/-- The log reflects the settings by which it was set up last. -/
theorem reflects_after (w : World) (terminal : Bool) (moves : List Move) :
    Reflects terminal ((start w terminal).configured? moves)
      ((start w terminal).after moves).logging := by
  induction moves using List.reverseRecOn with
  | nil => exact reflects_initial
  | append_singleton moves m ih =>
    rw [configured?_concat, after_concat]
    obtain ⟨c, hc, hlog⟩ | ⟨hc, hlog | ⟨name, hlog⟩⟩ :=
      logging_play ((start w terminal).after moves) m
    · rw [hc, hlog, terminal_after]
      exact ih.configure c
    · rw [hc, hlog]
      exact ih
    · rw [hc, hlog]
      exact ih.meet name

/-- A move that does not set up the log leaves its setup. -/
theorem sameSetup_play {m : Move} (h : s.configuration? m = none) :
    SameSetup (s.play m).session.logging s.logging := by
  obtain ⟨c, hc, -⟩ | ⟨-, hlog | ⟨name, hlog⟩⟩ := logging_play s m
  · cases hc.symm.trans h
  · exact hlog ▸ .refl _
  · exact hlog ▸ sameSetup_meet name _

theorem configuration?_of_error {m : Move} {e : ActionError} (h : (s.play m).reply = .error e) :
    s.configuration? m = none := by
  simp [configuration?, h]

/-! ### Setting up the log by the settings of a service -/

/-- The loaders differ only in the name under which they complain. -/
theorem loadBy_eq_ok_iff {loader loader' : String} {w : World} {given : Fields Value}
    {c : Settings} :
    Settings.loadBy loader w given = .ok c ↔ Settings.loadBy loader' w given = .ok c := by
  unfold Settings.loadBy LoadCall.ofGiven ArgumentError.repeated?
  cases given.keys.find? ["cls"].contains <;> simp

theorem reply_load_eq_ok_iff {clock : Clock} {given : Fields Value} {r : Reply} :
    (s.step clock (.load given)).reply = .ok r ↔
      ∃ c, Settings.loadBy Settings.loaderName s.world given = .ok c ∧ r = .settings c := by
  simp only [step, Session.load]
  cases Settings.loadBy Settings.loaderName s.world given with
  | ok c => simp [quiet, eq_comm]
  | error e => simp [quiet]

theorem reply_serviceLoad_eq_ok_iff {clock : Clock} {given : Fields Value} {r : Reply} :
    (s.step clock (.serviceLoad given)).reply = .ok r ↔
      ∃ c, Settings.loadBy Codec.loaderName s.world given = .ok c ∧ r = .settings c := by
  simp only [step, serviceLoad]
  cases Settings.loadBy Codec.loaderName s.world given with
  | ok c => simp [quiet, eq_comm]
  | error e => simp [quiet]

/-- Loading a service is loading its settings and setting up the log by them. -/
theorem serviceLoad_eq_load_configure {clock clock₁ clock₂ : Clock} {given : Fields Value}
    {r : Reply} (h : (s.step clock (.serviceLoad given)).reply = .ok r) :
    (s.step clock₁ (.load given)).session.step clock₂ .configure =
      ⟨(s.step clock (.serviceLoad given)).session, .ok .done, []⟩ := by
  obtain ⟨c, hc, -⟩ := reply_serviceLoad_eq_ok_iff.mp h
  have hload : Settings.loadBy Settings.loaderName s.world given = .ok c := loadBy_eq_ok_iff.mp hc
  simp [step, Session.load, serviceLoad, hload, hc, quiet, changed]

/-! ### Any number of steps -/

/--
**The state of the log.**  At any point of a session the log has no handler and no level of its own
if it was never set up, and otherwise one handler and the levels that the settings ask for by which
it was set up last.  No other action and no action that fails touches this; to load a service is to
load its settings and then to set up the log by them; and of two setups the later one counts alone.
-/
theorem log_state (w : World) (terminal : Bool) (moves : List Move) (s : Session) :
    (match (start w terminal).configured? moves, ((start w terminal).after moves).logging with
      | none, l => l.handlers = [] ∧ l.rootLevel = Level.warning ∧ l.packageLevel = 0
      | some c, l => l.handlers = [⟨c.logJson, terminal⟩] ∧ l.rootLevel = Level.warning ∧
          l.packageLevel = if c.verbose then Level.debug else Level.warning) ∧
    (∀ m : Move, (m.action.setsUp = false ∨ ∃ e, (s.play m).reply = .error e) →
      SameSetup (s.play m).session.logging s.logging) ∧
    (∀ clock given r clock₁ clock₂, (s.step clock (.serviceLoad given)).reply = .ok r ↔
      (s.step clock₁ (.load given)).reply = .ok r ∧
        (s.step clock₁ (.load given)).session.step clock₂ .configure =
          ⟨(s.step clock (.serviceLoad given)).session, .ok .done, []⟩) ∧
    ∀ c c', (s.configureBy c).configureBy c' = s.configureBy c' := by
  refine ⟨?_, ?_, ?_, ?_⟩
  · have hreflects := reflects_after w terminal moves
    cases hc : (start w terminal).configured? moves with
    | none =>
      rw [hc] at hreflects
      exact ⟨hreflects.handlers, hreflects.rootLevel, hreflects.packageLevel_none⟩
    | some c =>
      rw [hc] at hreflects
      exact ⟨hreflects.handlers, hreflects.rootLevel, hreflects.packageLevel_some⟩
  · rintro m (hm | ⟨e, he⟩)
    · exact sameSetup_play (configuration?_of_setsUp_eq_false hm)
    · exact sameSetup_play (configuration?_of_error he)
  · intro clock given r clock₁ clock₂
    have hreply : (s.step clock (.serviceLoad given)).reply = .ok r ↔
        (s.step clock₁ (.load given)).reply = .ok r := by
      have hload : ∀ c, Settings.loadBy Codec.loaderName s.world given = .ok c ↔
          Settings.loadBy Settings.loaderName s.world given = .ok c := fun _ => loadBy_eq_ok_iff
      simp only [reply_serviceLoad_eq_ok_iff, reply_load_eq_ok_iff, hload]
    exact ⟨fun h => ⟨hreply.mp h, serviceLoad_eq_load_configure h⟩, fun h => hreply.mpr h.1⟩
  · intro c c'
    simp [configureBy, configure_configure]

/-- A verbose service, and then a log of documents by other settings. -/
def twoSetups : List Move :=
  [⟨.epoch, .serviceLoad (Settings.logFlags true false)⟩,
    ⟨.epoch, .load (Settings.logFlags false true)⟩, ⟨.epoch, .configure⟩]

theorem configured?_twoSetups :
    (start .empty true).configured? twoSetups = some ⟨none, false, true, ⟨false⟩⟩ := by
  simp [twoSetups, configured?, configuration?, play, step, serviceLoad, Session.load, quiet,
    changed, start, configureBy, Settings.loadBy_logFlags]

theorem log_state_twoSetups :
    let s := (start .empty true).after twoSetups
    s.logging.handlers = [⟨true, true⟩] ∧ s.logging.rootLevel = Level.warning ∧
      s.logging.packageLevel = Level.warning := by
  have h := (log_state .empty true twoSetups (start .empty true)).1
  rw [configured?_twoSetups] at h
  exact h

end Session

end Nullary
