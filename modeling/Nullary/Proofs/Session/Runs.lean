import Mathlib.Data.List.Induction
import Nullary.Session

/-!
# Runs of a session

What an action can leave of a session is said once, with one case for each kind of change
(`Session.Leaves`, `Session.leaves_step`).  The steps of a run follow one another on the session
that the ones before have left: `Session.after` is the session at the end, with a clock for each
step, and `Session.getElem?_run` ties it to the turns of a run under one clock.
-/

namespace Nullary

/-- Whether an action sets up the log, if it succeeds. -/
def Action.setsUp : Action → Bool
  | configure => true
  | serviceLoad _ => true
  | _ => false

/-- Whether an action is there to change the variables of the context. -/
def Action.binds : Action → Bool
  | bind _ => true
  | unbind _ => true
  | clear => true
  | _ => false

namespace Session

/-! ### One step -/

/-- What an action can leave of a session. -/
inductive Leaves (s : Session) : Action → Session → Prop
  | idle {a : Action} (hs : a.setsUp = false) (hb : a.binds = false) : Leaves s a s
  | world {a : Action} (w : World) (hs : a.setsUp = false) (hb : a.binds = false) :
      Leaves s a { s with world := w }
  | met {a : Action} (logger : String) (hs : a.setsUp = false) (hb : a.binds = false) :
      Leaves s a { s with logging := s.logging.meet logger }
  | loaded {given : Fields Value} {c : Settings}
      (h : Settings.loadBy Settings.loaderName s.world given = .ok c) :
      Leaves s (.load given) { s with settings := some c }
  | served {given : Fields Value} {c : Settings}
      (h : Settings.loadBy Codec.loaderName s.world given = .ok c) :
      Leaves s (.serviceLoad given) (configureBy { s with settings := some c } c)
  | refused {given : Fields Value} {e : LoadError}
      (h : Settings.loadBy Codec.loaderName s.world given = .error e) :
      Leaves s (.serviceLoad given) s
  | configured {c : Settings} (h : s.settings = some c) : Leaves s .configure (s.configureBy c)
  | unconfigured (h : s.settings = none) : Leaves s .configure s
  | called {c : Settings} (r : Request) (last : Value) (h : s.settings = some c) :
      Leaves s (.request r)
        { s with
          context :=
            let own := callVariables c.codec.strict (s.operation r)
            Context.restore own s.context (s.context.bind own)
          last := last }
  | bound (vs : Fields Value) : Leaves s (.bind vs) { s with context := s.context.bind vs }
  | unbound (names : List String) :
      Leaves s (.unbind names) { s with context := s.context.unbind names }
  | cleared : Leaves s .clear { s with context := [] }

theorem leaves_step (clock : Clock) (s : Session) (a : Action) :
    Leaves s a (s.step clock a).session := by
  cases a with
  | setVariables set unset =>
    simp only [step]
    split
    · exact .world _ rfl rfl
    · exact .world _ rfl rfl
  | write p bytes => exact .world _ rfl rfl
  | remove p => exact .world _ rfl rfl
  | load given =>
    simp only [step, Session.load]
    split
    · next h => exact .loaded h
    · exact .idle rfl rfl
  | serviceLoad given =>
    simp only [step, serviceLoad]
    split
    · next h => exact .served h
    · next h => exact .refused h
  | configure =>
    simp only [step]
    split
    · next h => exact .configured h
    · next h => exact .unconfigured h
  | request r =>
    simp only [step]
    split
    · next c h =>
      simp only [call]
      split
      · exact .called r _ h
      · exact .called r s.last h
    · exact .idle rfl rfl
  | log logger level event args =>
    simp only [step, Session.log]
    split
    · exact .met logger rfl rfl
    · exact .met logger rfl rfl
  | namedLog logger c =>
    simp only [step, Session.namedLog]
    split
    · exact .idle rfl rfl
    · split
      · exact .met logger rfl rfl
      · exact .met logger rfl rfl
  | plainSettings given =>
    simp only [step]
    split
    · exact .idle rfl rfl
    · exact .idle rfl rfl
  | setSetting name v =>
    simp only [step]
    split
    · exact .idle rfl rfl
    · exact .idle rfl rfl
  | strict =>
    simp only [step]
    split
    · exact .idle rfl rfl
    · exact .idle rfl rfl
  | bind vs => exact .bound vs
  | unbind names => exact .unbound names
  | clear => exact .cleared
  | context => exact .idle rfl rfl
  | state => exact .idle rfl rfl

theorem Leaves.terminal {s s' : Session} {a : Action} (h : Leaves s a s') :
    s'.terminal = s.terminal := by
  cases h <;> rfl

end Session

/-! ### Many steps -/

/-- A clock that stands still. -/
def Clock.epoch : Clock := ⟨"1970-01-01T00:00:00.000000Z", 0⟩

/-- An action, and what the clock says while it is done. -/
structure Move where
  clock : Clock
  action : Action

namespace Session

/-- The turn that a move takes. -/
def play (s : Session) (m : Move) : Turn :=
  s.step m.clock m.action

/-- The session that moves leave. -/
def after (s : Session) (moves : List Move) : Session :=
  moves.foldl (fun s m => (s.play m).session) s

@[simp] theorem after_nil (s : Session) : s.after [] = s := rfl

@[simp] theorem after_cons (s : Session) (m : Move) (moves : List Move) :
    s.after (m :: moves) = (s.play m).session.after moves := rfl

theorem after_concat (s : Session) (moves : List Move) (m : Move) :
    s.after (moves ++ [m]) = ((s.after moves).play m).session := by
  simp [after, List.foldl_append]

theorem terminal_after (s : Session) (moves : List Move) :
    (s.after moves).terminal = s.terminal := by
  induction moves using List.reverseRecOn with
  | nil => rfl
  | append_singleton moves m ih => rw [after_concat, play, (leaves_step _ _ _).terminal, ih]

/-- Each turn of a run is taken in the session that the actions before it have left. -/
theorem getElem?_run (clock : Clock) (s : Session) (actions : List Action) (i : Nat) :
    (run clock s actions)[i]? =
      actions[i]?.map fun a => (s.after ((actions.take i).map (Move.mk clock))).step clock a := by
  induction actions generalizing s i with
  | nil => rfl
  | cons action rest ih =>
    cases i with
    | zero => rfl
    | succ i =>
      rw [run, List.getElem?_cons_succ, ih, List.getElem?_cons_succ, List.take_succ_cons]
      rfl

end Session

end Nullary
