import Nullary.Settings.Load

/-!
# Loading on several threads

Between the selection of a file and the building of settings the path waits in a slot that every
thread has for itself.  A `Thread` takes a call through its stages one by one; a `Pool` lets its
threads go on in any order.  A call that ends, in whatever way, leaves an empty slot.
-/

namespace Nullary

/-- What a thread is asked for: settings from all layers, or settings without a file. -/
inductive Task
  | load (call : LoadCall)
  | plain (given : Fields Value)

/-- What loading comes to. -/
abbrev Loaded := Except LoadError Settings

/-- How far a thread has come with a task. -/
inductive Stage
  | idle
  | selecting (call : LoadCall)
  | storing (found : Option FilePath) (overrides : Fields Value)
  | reading (given : Fields Value) (clears : Bool)
  | merging (document : Toml.Table) (given : Fields Value) (clears : Bool)
  | clearing (outcome : Loaded)

/-- The outcome of a task, and what the slot held afterwards. -/
structure Answer where
  outcome : Loaded
  leftover : Option FilePath

/-- A thread: its slot, how far it has come, the tasks to come and the answers so far. -/
structure Thread where
  slot : Option FilePath
  stage : Stage
  tasks : List Task
  answers : List Answer

namespace Thread

/-- A thread that was never used. -/
def fresh (tasks : List Task) : Thread :=
  ⟨none, .idle, tasks, []⟩

/-- Ends a task with an outcome. -/
def finish (th : Thread) (outcome : Loaded) : Thread :=
  { th with stage := .idle, answers := th.answers ++ [⟨outcome, th.slot⟩] }

/-- Leaves a task; one that has filled the slot empties it first. -/
def leave (th : Thread) (clears : Bool) (outcome : Loaded) : Thread :=
  if clears then { th with stage := .clearing outcome } else th.finish outcome

/-- One step of a thread. -/
def step (w : World) (th : Thread) : Thread :=
  match th.stage with
  | .idle =>
    match th.tasks with
    | [] => th
    | .load call :: ts => { th with stage := .selecting call, tasks := ts }
    | .plain given :: ts => { th with stage := .reading given false, tasks := ts }
  | .selecting call =>
    match Discovery.select w call.file call.start with
    | .error e => th.finish (.error (.selection e))
    | .ok found => { th with stage := .storing found call.overrides }
  | .storing found overrides =>
    { th with slot := found, stage := .reading (Settings.given found overrides) true }
  | .reading given clears =>
    match Settings.documentFor w th.slot given with
    | .error e => th.leave clears (.error e)
    | .ok d => { th with stage := .merging d given clears }
  | .merging d given clears => th.leave clears (Settings.ofLayers w.environment d given)
  | .clearing outcome => finish { th with slot := none } outcome

/-- The most steps that one task takes. -/
def stepsPerTask : Nat := 6

end Thread

/-- Threads that work side by side. -/
abbrev Pool := List Thread

namespace Pool

/-- One step of the thread at an index. -/
def step (w : World) (pool : Pool) (i : Nat) : Pool :=
  pool.modify i (Thread.step w)

/-- Lets threads go on in the order of a schedule. -/
def run (w : World) (schedule : List Nat) (pool : Pool) : Pool :=
  schedule.foldl (step w) pool

/-- Tasks dealt out to threads like cards. -/
def deal (threads : Nat) (tasks : List Task) : Pool :=
  (List.range threads).map fun i =>
    .fresh (tasks.zipIdx.filterMap fun t => if t.2 % threads = i then some t.1 else none)

/-- Every thread in turn, for as many rounds as one thread may need for some tasks. -/
def turns (threads tasks : Nat) : List Nat :=
  (List.replicate (Thread.stepsPerTask * tasks) (List.range threads)).flatten

/-- The answer to the task at an index, where tasks were dealt out. -/
def answer? (pool : Pool) (threads i : Nat) : Option Answer :=
  pool[i % threads]?.bind fun th => th.answers[i / threads]?

end Pool

/-- The answers to tasks dealt out to threads that work in turn, in the order of the tasks. -/
def answersOnThreads (w : World) (threads : Nat) (tasks : List Task) : List Answer :=
  let pool := Pool.run w (Pool.turns threads tasks.length) (Pool.deal threads tasks)
  (List.range tasks.length).filterMap (Pool.answer? pool threads)

end Nullary
