import Mathlib
import Nullary.Proofs.Settings.Load
import Nullary.Settings.Threads

/-!
# Threads do not interfere

A thread of a pool takes as many steps as its index stands in the schedule, and nothing else happens
to it (`Pool.getElem?_run`).  What a thread has in its slot is tied to how far it has come with
which task (`Thread.Holds`); every step keeps this, and every task ends with its own outcome and an
empty slot (`Thread.OnCourse.step`).  As each step brings a thread nearer to the end of its tasks
(`Thread.left_step`), it answers all of them when it gets enough steps.
Main statement: `Pool.run_apart`.
-/

namespace Nullary

/-- What a task comes to by itself. -/
def Task.outcome (w : World) : Task → Loaded
  | .load call => Settings.load w call
  | .plain given => Settings.build w none given

/-- The answer to a task that leaves nothing in the slot. -/
def Task.answer (w : World) (t : Task) : Answer :=
  ⟨t.outcome w, none⟩

namespace Thread

variable {w : World}

/-! ### The slot and the task in hand -/

/-- What the slot and the stage of a thread say about the task in hand. -/
inductive Holds (w : World) : Option FilePath → Stage → List Task → Prop
  | idle : Holds w none .idle []
  | selecting (call : LoadCall) : Holds w none (.selecting call) [.load call]
  | storing {call : LoadCall} {found : Option FilePath}
      (h : Discovery.select w call.file call.start = .ok found) :
      Holds w none (.storing found call.overrides) [.load call]
  | reading {call : LoadCall} {found : Option FilePath}
      (h : Discovery.select w call.file call.start = .ok found) :
      Holds w found (.reading (Settings.given found call.overrides) true) [.load call]
  | merging {call : LoadCall} {found : Option FilePath} {d : Toml.Table}
      (h : Discovery.select w call.file call.start = .ok found)
      (hd : Settings.documentFor w found (Settings.given found call.overrides) = .ok d) :
      Holds w found (.merging d (Settings.given found call.overrides) true) [.load call]
  | clearing (call : LoadCall) (slot : Option FilePath) :
      Holds w slot (.clearing (Settings.load w call)) [.load call]
  | plainReading (given : Fields Value) : Holds w none (.reading given false) [.plain given]
  | plainMerging {given : Fields Value} {d : Toml.Table}
      (hd : Settings.documentFor w none given = .ok d) :
      Holds w none (.merging d given false) [.plain given]

theorem Holds.of_idle {slot : Option FilePath} {current : List Task}
    (h : Holds w slot .idle current) : slot = none ∧ current = [] := by
  cases h
  exact ⟨rfl, rfl⟩

/-- A task without a file has no document to merge. -/
theorem Holds.document_eq_nil {slot : Option FilePath} {d : Toml.Table} {given : Fields Value}
    {current : List Task} (h : Holds w slot (.merging d given false) current) : d = [] := by
  cases h with
  | plainMerging hd => exact Settings.eq_nil_of_documentFor_none hd

/-- A thread that was given tasks has answered some, has one in hand or none, and has the rest to
come. -/
def OnCourse (w : World) (tasks : List Task) (th : Thread) : Prop :=
  ∃ done current, tasks = done ++ current ++ th.tasks ∧
    th.answers = done.map (Task.answer w) ∧ Holds w th.slot th.stage current

theorem onCourse_fresh (tasks : List Task) : OnCourse w tasks (.fresh tasks) :=
  ⟨[], [], rfl, rfl, .idle⟩

/-- A task in hand that ends with its own outcome is answered. -/
theorem onCourse_finish {tasks done : List Task} {t : Task} {th : Thread} {o : Loaded}
    (htasks : tasks = done ++ [t] ++ th.tasks) (hanswers : th.answers = done.map (Task.answer w))
    (hslot : th.slot = none) (ho : o = t.outcome w) : OnCourse w tasks (th.finish o) := by
  refine ⟨done ++ [t], [], ?_, ?_, ?_⟩
  · rw [htasks, List.append_nil]
    rfl
  · show th.answers ++ [⟨o, th.slot⟩] = _
    rw [hanswers, hslot, ho, List.map_append]
    rfl
  · show Holds w th.slot .idle []
    rw [hslot]
    exact .idle

/-- Every step of a thread keeps it on course. -/
theorem OnCourse.step {tasks : List Task} {th : Thread} (h : OnCourse w tasks th) :
    OnCourse w tasks (th.step w) := by
  obtain ⟨done, current, htasks, hanswers, hholds⟩ := h
  obtain ⟨slot, stage, rest, answers⟩ := th
  dsimp only at htasks hanswers hholds
  cases hholds with
  | idle =>
    cases rest with
    | nil => exact ⟨done, [], htasks, hanswers, .idle⟩
    | cons t rest =>
      have htasks' : tasks = done ++ [t] ++ rest := by
        rw [htasks, List.append_nil, List.append_assoc]
        rfl
      cases t with
      | load call => exact ⟨done, _, htasks', hanswers, .selecting call⟩
      | plain given => exact ⟨done, _, htasks', hanswers, .plainReading given⟩
  | selecting call =>
    unfold Thread.step
    dsimp only
    split
    · next e he =>
      exact onCourse_finish htasks hanswers rfl (Settings.load_of_select_eq_error he).symm
    · next found hf => exact ⟨done, _, htasks, hanswers, .storing hf⟩
  | storing hf => exact ⟨done, _, htasks, hanswers, .reading hf⟩
  | @reading call _ hf =>
    unfold Thread.step
    dsimp only
    split
    · next e he =>
      have ho : Settings.load w call = .error e := by
        rw [Settings.load_of_select_eq_ok hf, Settings.build_of_documentFor_eq_error he]
      exact ⟨done, _, htasks, hanswers, ho ▸ .clearing call slot⟩
    · next d hd => exact ⟨done, _, htasks, hanswers, .merging hf hd⟩
  | @merging call _ d hf hd =>
    have ho : Settings.load w call =
        Settings.ofLayers w.environment d (Settings.given slot call.overrides) := by
      rw [Settings.load_of_select_eq_ok hf, Settings.build_of_documentFor_eq_ok hd]
    refine ⟨done, _, htasks, hanswers, ?_⟩
    show Holds w slot (.clearing (Settings.ofLayers _ _ _)) _
    rw [← ho]
    exact .clearing call slot
  | clearing call slot => exact onCourse_finish htasks hanswers rfl rfl
  | plainReading given =>
    unfold Thread.step
    dsimp only
    split
    · next e he =>
      exact onCourse_finish htasks hanswers rfl (Settings.build_of_documentFor_eq_error he).symm
    · next d hd => exact ⟨done, _, htasks, hanswers, .plainMerging hd⟩
  | plainMerging hd =>
    exact onCourse_finish htasks hanswers rfl (Settings.build_of_documentFor_eq_ok hd).symm

theorem OnCourse.iterate {tasks : List Task} {th : Thread} (h : OnCourse w tasks th) (n : Nat) :
    OnCourse w tasks ((Thread.step w)^[n] th) := by
  induction n with
  | zero => exact h
  | succ n ih =>
    rw [Function.iterate_succ_apply']
    exact ih.step

/-! ### A slot that was not emptied -/

/-- What a thread that starts with something in its slot comes to with a task. -/
def outcomesFrom (w : World) (slot : Option FilePath) (t : Task) : List Loaded :=
  ((Thread.step w)^[stepsPerTask] ⟨slot, .idle, [t], []⟩).answers.map Answer.outcome

/-- A call fills the slot anew before it is read, so that what was left there does not count. -/
theorem outcomesFrom_load (w : World) (slot : Option FilePath) (call : LoadCall) :
    outcomesFrom w slot (.load call) = [Settings.load w call] := by
  have hsteps (th : Thread) : (Thread.step w)^[stepsPerTask] th =
      Thread.step w (Thread.step w (Thread.step w (Thread.step w (Thread.step w
        (Thread.step w th))))) := rfl
  rw [outcomesFrom, hsteps]
  cases hf : Discovery.select w call.file call.start with
  | error e =>
    rw [Settings.load_of_select_eq_error hf]
    simp [Thread.step, hf, finish]
  | ok found =>
    rw [Settings.load_of_select_eq_ok hf]
    cases hd : Settings.documentFor w found (Settings.given found call.overrides) with
    | error e =>
      rw [Settings.build_of_documentFor_eq_error hd]
      simp [Thread.step, hf, hd, leave, finish]
    | ok d =>
      rw [Settings.build_of_documentFor_eq_ok hd]
      simp [Thread.step, hf, hd, leave, finish]

/-! ### How far it is to the end -/

/-- How many steps a stage is away from the end of its task at most. -/
def stepsLeft : Stage → Nat
  | .idle => 0
  | .selecting _ => 5
  | .storing .. => 4
  | .reading .. => 3
  | .merging .. => 2
  | .clearing _ => 1

/-- How many steps a thread is away from the end of its tasks at most. -/
def left (th : Thread) : Nat :=
  stepsLeft th.stage + stepsPerTask * th.tasks.length

theorem left_finish (th : Thread) (o : Loaded) :
    (th.finish o).left = stepsPerTask * th.tasks.length := by
  simp [left, finish, stepsLeft]

theorem left_leave_le (th : Thread) (clears : Bool) (o : Loaded) :
    (th.leave clears o).left ≤ 1 + stepsPerTask * th.tasks.length := by
  cases clears with
  | false =>
    rw [leave, if_neg Bool.false_ne_true, left_finish]
    omega
  | true => exact le_refl _

/-- A thread that has not come to the end comes nearer to it with every step. -/
theorem left_step (th : Thread) : (th.step w).left ≤ th.left - 1 := by
  obtain ⟨slot, stage, tasks, answers⟩ := th
  cases stage with
  | idle =>
    cases tasks with
    | nil => exact le_refl _
    | cons t tasks => cases t <;> simp [Thread.step, left, stepsLeft, stepsPerTask] <;> omega
  | selecting call =>
    unfold Thread.step
    dsimp only
    split
    · rw [left_finish]
      simp only [left, stepsLeft]
      omega
    · simp only [left, stepsLeft]
      omega
  | storing found overrides =>
    simp only [Thread.step, left, stepsLeft]
    omega
  | reading given clears =>
    unfold Thread.step
    dsimp only
    split
    · refine (left_leave_le _ _ _).trans ?_
      simp only [left, stepsLeft]
      omega
    · simp only [left, stepsLeft]
      omega
  | merging d given clears =>
    refine (left_leave_le _ _ _).trans ?_
    simp only [left, stepsLeft]
    omega
  | clearing o =>
    show (finish _ o).left ≤ _
    rw [left_finish]
    simp only [left, stepsLeft]
    omega

theorem left_iterate_le (th : Thread) (n : Nat) : ((Thread.step w)^[n] th).left ≤ th.left - n := by
  induction n with
  | zero => exact le_refl _
  | succ n ih =>
    rw [Function.iterate_succ_apply']
    have hstep := left_step (w := w) ((Thread.step w)^[n] th)
    omega

theorem stage_eq_idle {th : Thread} (h : th.left = 0) : th.stage = .idle ∧ th.tasks = [] := by
  unfold left stepsPerTask at h
  have htasks : th.tasks.length = 0 := by omega
  refine ⟨?_, List.length_eq_zero_iff.mp htasks⟩
  cases hs : th.stage with
  | idle => rfl
  | _ => simp [hs, stepsLeft] at h

/-- A thread that is on course and has come to the end has answered every task. -/
theorem OnCourse.answers_eq {tasks : List Task} {th : Thread} (h : OnCourse w tasks th)
    (hleft : th.left = 0) : th.answers = tasks.map (Task.answer w) := by
  obtain ⟨hstage, hrest⟩ := stage_eq_idle hleft
  obtain ⟨done, current, htasks, hanswers, hholds⟩ := h
  rw [hstage] at hholds
  rw [hanswers, htasks, hrest, hholds.of_idle.2, List.append_nil, List.append_nil]

end Thread

/-! ### Many threads -/

namespace Pool

variable {w : World}

/-- A thread takes as many steps as its index stands in the schedule. -/
theorem getElem?_run (schedule : List Nat) (pool : Pool) (i : Nat) :
    (run w schedule pool)[i]? = pool[i]?.map (Thread.step w)^[schedule.count i] := by
  induction schedule generalizing pool with
  | nil => simp [run]
  | cons j schedule ih =>
    have hcons : run w (j :: schedule) pool = run w schedule (step w pool j) := rfl
    rw [hcons, ih, step, List.getElem?_modify]
    by_cases hj : j = i
    · subst hj
      rw [List.count_cons_self, Function.iterate_succ]
      cases pool[j]? <;> simp
    · rw [List.count_cons_of_ne hj]
      cases pool[i]? <;> simp [hj]

/--
**Threads do not interfere.**  Threads that never ran before are given tasks and go on in any order.
Then each of them has answered the first of its tasks as it would by itself, with an empty slot
after each; between two tasks its slot is empty; a task without a file merges no document; and with
enough steps a thread has answered all its tasks, whatever the others do.
-/
theorem run_apart (w : World) (work : List (List Task)) (schedule : List Nat)
    (i : Fin work.length) :
    ∃ th, (run w schedule (work.map .fresh))[i.val]? = some th ∧
      th.answers = (work[i].take th.answers.length).map (Task.answer w) ∧
      (th.stage = .idle → th.slot = none) ∧
      (∀ d given, th.stage = .merging d given false → d = []) ∧
      (Thread.stepsPerTask * work[i].length ≤ schedule.count i.val →
        th.answers = work[i].map (Task.answer w)) := by
  have hrun : (run w schedule (work.map .fresh))[i.val]? =
      some ((Thread.step w)^[schedule.count i.val] (.fresh work[i])) := by
    rw [getElem?_run, List.getElem?_map, List.getElem?_eq_getElem i.isLt]
    rfl
  have hcourse : Thread.OnCourse w work[i]
      ((Thread.step w)^[schedule.count i.val] (.fresh work[i])) :=
    (Thread.onCourse_fresh work[i]).iterate _
  have hleft := Thread.left_iterate_le (w := w) (.fresh work[i]) (schedule.count i.val)
  refine ⟨_, hrun, ?_, ?_, ?_, ?_⟩
  · obtain ⟨done, current, htasks, hanswers, -⟩ := hcourse
    rw [hanswers, List.length_map]
    congr 1
    rw [htasks, List.append_assoc, List.take_left]
  · intro hstage
    obtain ⟨_, _, _, _, hholds⟩ := hcourse
    rw [hstage] at hholds
    exact hholds.of_idle.1
  · intro d given hstage
    obtain ⟨_, _, _, _, hholds⟩ := hcourse
    rw [hstage] at hholds
    exact hholds.document_eq_nil
  · intro hcount
    refine hcourse.answers_eq ?_
    have hfresh : (Thread.fresh work[i]).left = Thread.stepsPerTask * work[i].length := by
      simp [Thread.left, Thread.fresh, Thread.stepsLeft]
    omega

end Pool

end Nullary
