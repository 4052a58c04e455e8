/-
**The calls on a task, and what each of them did when it was accepted.**

`TaskDb.apply` runs one call as a transaction: what is refused is rolled back. `taskService` is every sequence of
calls, with the calls of the past kept beside the rows.
-/

import PawBackend.Lib.Machine
import PawBackend.Tasks.Bookkeeping

namespace PawBackend.Tasks

open Lib
open Authz (Capability)
open Tools (Uuid Instant TaskRun)

/-! ### Calls and runs -/

inductive TaskCall
  | create (new : TaskDb.NewTask)
  | execute (command : TaskCommand) (args : TaskDb.CommandArguments)
  | beginStep (name : Text) (run : TaskRun)
  | finishStep (stepId : ℤ) (status : StepStatus)
  | beginToolInvocation (stepId : ℤ) (toolName : Text) (invocationId : Option Uuid)
  | finishToolInvocation (invocationId : Uuid) (status : ToolInvocationStatus)
  | addLog (message : Text) (run : TaskRun) (level : LogLevel)
  | updateAttempt (run : TaskRun) (update : TaskDb.AttemptUpdate)
  | changeWorkingSet (change : TaskDb.WorkingSetChange)
  | admitUse (use : TaskDb.RepositoryUse)
  | release (reservationId : Uuid)
  | releaseStale (release : TaskDb.StaleRelease)

/-- What a call returns. -/
inductive TaskAnswer
  | event (row : TaskEventRow)
  | step (row : TaskStepRow)
  | invocation (row : TaskToolInvocationRow)
  | log (row : TaskLogRow)
  | state (row : TaskAttemptRepositoryRow)
  | reservation (id : Option Uuid)
  | released

namespace TaskDb

def perform (db : TaskDb) (env : Surroundings) : TaskCall → Except TaskError (TaskAnswer × TaskDb)
  | .create new => (db.createTask new env).map (Prod.map .event id)
  | .execute command args => (db.execute command args env).map (Prod.map .event id)
  | .beginStep name run => (db.beginStep name run env).map (Prod.map .step id)
  | .finishStep stepId status => (db.finishStep stepId status env).map (Prod.map .step id)
  | .beginToolInvocation stepId toolName invocationId =>
    (db.beginToolInvocation stepId toolName invocationId env).map (Prod.map .invocation id)
  | .finishToolInvocation invocationId status =>
    (db.finishToolInvocation invocationId status env).map (Prod.map .invocation id)
  | .addLog message run level => (db.addLog message run level env).map (Prod.map .log id)
  | .updateAttempt run update => (db.updateAttempt run update env).map (Prod.map .state id)
  | .changeWorkingSet change => (db.changeWorkingSet change env).map (Prod.map .event id)
  | .admitUse use => (db.admitRepositoryUse use env).map (Prod.map .reservation id)
  | .release reservationId =>
    (db.releaseRepositoryUse reservationId env).map (Prod.map (fun _ => .released) id)
  | .releaseStale release => (db.releaseStaleRepositoryWrite release env).map (Prod.map .event id)

/-- A call as a transaction: what is refused leaves the rows as they were. -/
def apply (db : TaskDb) (call : TaskCall) (env : Surroundings) : TaskDb :=
  match db.perform env call with
  | .ok (_, after) => after
  | .error _ => db

end TaskDb

/-- A call of the past: the rows it met, and what it met besides. -/
structure Moment where
  before : TaskDb
  call : TaskCall
  env : Surroundings

def Moment.answer (moment : Moment) : Except TaskError TaskAnswer :=
  (moment.before.perform moment.env moment.call).map Prod.fst

/-- The rows of a task, and every call on it, the last one first. -/
structure TaskTrace where
  db : TaskDb
  past : List Moment

def taskService : Machine TaskTrace (TaskCall × Surroundings) where
  initial t := t = ⟨.empty, []⟩
  step t event := some ⟨t.db.apply event.1 event.2, ⟨t.db, event.1, event.2⟩ :: t.past⟩

def served (calls : List (TaskCall × Surroundings)) : TaskTrace :=
  calls.foldl (fun t event => ⟨t.db.apply event.1 event.2, ⟨t.db, event.1, event.2⟩ :: t.past⟩)
    ⟨.empty, []⟩

theorem served_reachable (calls : List (TaskCall × Surroundings)) : taskService.Reachable (served calls) := by
  unfold served
  have start : taskService.Reachable ⟨.empty, []⟩ := .start rfl
  generalize (⟨.empty, []⟩ : TaskTrace) = t at start ⊢
  induction calls generalizing t with
  | nil => exact start
  | cons event rest ih => exact ih _ (start.next (e := event) rfl)

theorem taskService_invariant {P : TaskTrace → Prop} (base : P ⟨.empty, []⟩)
    (refused : ∀ t call env error, P t → t.db.perform env call = .error error →
      P ⟨t.db, ⟨t.db, call, env⟩ :: t.past⟩)
    (accepted : ∀ t call env answer after, P t → t.db.perform env call = .ok (answer, after) →
      P ⟨after, ⟨t.db, call, env⟩ :: t.past⟩)
    {t : TaskTrace} (reach : taskService.Reachable t) : P t := by
  refine reach.invariant ?_ ?_
  · rintro _ rfl
    exact base
  · rintro before ⟨call, env⟩ after _ kept taken
    rw [taskService, Option.some.injEq] at taken
    subst taken
    unfold TaskDb.apply
    dsimp only
    cases done : before.db.perform env call with
    | error error => exact refused before call env error kept done
    | ok result => exact accepted before call env result.1 result.2 kept done

/-! ### What an accepted call did -/

/-- What `_working_set` lets a task begin with. -/
structure WorkingSetChecked (entries : List TaskDb.WorkingSetEntry) (readOnly : Bool) : Prop where
  few : entries.length ≤ TaskDb.maxWorkingSetRepositories
  readOnlyShape : readOnly = true → entries ≠ [] ∧ ∀ entry ∈ entries, entry.role = .referenced
  targetShape : readOnly = false → entries = [] ∨ ∃ entry ∈ entries, entry.role = .target

structure CommandJudged (db : TaskDb) (task : TaskRow) (command : TaskCommand) (args : TaskDb.CommandArguments)
    (env : Surroundings) (plan : TransitionPlan) : Prop where
  found : db.task = some task
  planned : planTransition task.state command args.waitReason task.readOnly = .ok plan
  idle : command = .complete → TaskDb.isRunning (db.latestStep task.attempt) = false
  targeted : plan.target = .running → task.readOnly = false → ∃ row ∈ db.members, row.role = .target
  unreserved : TaskDb.isJudging command = true → db.liveWrites env.judgedAt none = []
  complete : command = .complete → db.requireCompletion task env.inspect = .ok ()

def TaskDb.closed (db : TaskDb) (task : TaskRow) (command : TaskCommand) (now : Instant) : TaskDb :=
  (TaskDb.closing command (db.latestStep task.attempt)).elim db fun (step, status) =>
    db.closeStep step status now

structure ChangeJudged (db : TaskDb) (task : TaskRow) (change : TaskDb.WorkingSetChange) (env : Surroundings)
    (discarded : Option RepositoryChangeState) : Prop where
  found : db.task = some task
  notCompleted : task.state ≠ .completed
  readOnly : task.readOnly = true →
    roleAfter change.operation ≠ some .working ∧ roleAfter change.operation ≠ some .target
  accepts : acceptsRole change.operation (db.role change.repositoryId) = true
  room : db.role change.repositoryId = none → db.members.length < TaskDb.maxWorkingSetRepositories
  keepsTarget : db.role change.repositoryId = some .target → roleAfter change.operation ≠ some .target →
    ∃ row ∈ db.members, row.role = .target ∧ row.repositoryId ≠ change.repositoryId
  unreserved : narrows change.operation = true →
    db.liveWrites env.judgedAt (some change.repositoryId) = []
  verified : db.requireDiscarded task change env = .ok discarded

inductive Accepted (db : TaskDb) (env : Surroundings) : TaskCall → TaskAnswer → TaskDb → Prop
  | create {new : TaskDb.NewTask} {event : TaskEventRow} {repositories : Keyed TaskRepositoryRow.repositoryId}
      {states : Keyed TaskAttemptRepositoryRow.key} (absent : db.task = none)
      (shape : WorkingSetChecked new.repositories new.readOnly)
      (members : db.repositories.insertAll
        (new.repositories.map fun entry => entry.row new.createdBy env.now) = some repositories)
      (fresh : db.attemptRepositories.insertAll (TaskDb.attemptRowsFor 1
        (new.repositories.map fun entry => entry.row new.createdBy env.now) env.now) = some states)
      (wrote : event = db.eventRow (TaskDb.createdRow new env.now) .create none (.user new.createdBy) none none
        event.detail env.gap) :
      Accepted db env (.create new) (.event event)
        { db with
          task := some (TaskDb.createdRow new env.now), repositories := repositories
          attemptRepositories := states, events := db.events ++ [event] }
  | execute {command : TaskCommand} {args : TaskDb.CommandArguments} {task : TaskRow} {plan : TransitionPlan}
      {event : TaskEventRow} {states : Keyed TaskAttemptRepositoryRow.key} {logs : List TaskLogRow}
      (judged : CommandJudged db task command args env plan)
      (wrote : event = db.eventRow (TaskDb.commandedRow task command args plan env.now) command
        (some task.state) args.actor args.reason event.stepName event.detail env.gap)
      (fresh : if command = .restart then db.attemptRepositories.insertAll
          (TaskDb.attemptRowsFor (task.attempt + 1) db.members env.now) = some states
        else states = db.attemptRepositories) :
      Accepted db env (.execute command args) (.event event)
        { db.closed task command env.now with
          task := some (TaskDb.commandedRow task command args plan env.now)
          attemptRepositories := states, events := db.events ++ [event], logs := logs }
  | beginStep {name : Text} {run : TaskRun} {task : TaskRow} {row : TaskStepRow}
      {steps : Keyed TaskStepRow.id} (found : db.task = some task)
      (current : run.attempt = task.attempt ∧ run.retryCount = task.retryCount)
      (active : TaskDb.isStepActive task.state = true)
      (alone : ∀ other ∈ db.steps.rows, other.attempt = task.attempt →
        other.status ≠ .running ∧ other.sequence ≠ row.sequence)
      (wrote : row.attempt = task.attempt ∧ row.status = .running ∧
        row.sequence = ((db.latestStep task.attempt).map TaskStepRow.sequence).getD 0 + 1)
      (added : db.steps.tryInsert row = some steps) :
      Accepted db env (.beginStep name run) (.step row) { db with steps := steps }
  | finishStep {stepId : ℤ} {status : StepStatus} {task : TaskRow} {step row : TaskStepRow}
      (found : db.task = some task) (there : db.steps.get stepId = some step)
      (current : step.attempt = task.attempt) (running : step.status = .running)
      (ends : status ≠ .running) :
      Accepted db env (.finishStep stepId status) (.step row) (db.endStep stepId status env.now)
  | beginToolInvocation {stepId : ℤ} {toolName : Text} {invocationId : Option Uuid} {task : TaskRow}
      {step : TaskStepRow} {row : TaskToolInvocationRow} {invocations : Keyed TaskToolInvocationRow.id}
      (found : db.task = some task) (there : db.steps.get stepId = some step)
      (current : step.attempt = task.attempt) (running : step.status = .running)
      (wrote : row.stepId = stepId ∧ row.status = .started)
      (added : db.invocations.tryInsert row = some invocations) :
      Accepted db env (.beginToolInvocation stepId toolName invocationId) (.invocation row)
        { db with invocations := invocations }
  | finishToolInvocation {invocationId : Uuid} {status : ToolInvocationStatus}
      {row : TaskToolInvocationRow} (there : db.invocations.get invocationId = some row)
      (started : row.status = .started) (ends : status ≠ .started) :
      Accepted db env (.finishToolInvocation invocationId status)
        (.invocation { row with status := status, finishedAt := some env.now })
        { db with
          invocations := db.invocations.put { row with status := status, finishedAt := some env.now } }
  | addLog {message : Text} {run : TaskRun} {level : LogLevel} {row : TaskLogRow} :
      Accepted db env (.addLog message run level) (.log row) { db with logs := db.logs ++ [row] }
  | updateAttempt {run : TaskRun} {update : TaskDb.AttemptUpdate} {task : TaskRow}
      {row : TaskAttemptRepositoryRow} (found : db.task = some task)
      (current : run.attempt = task.attempt ∧ run.retryCount = task.retryCount)
      (there : db.attemptRepositoryRow task update.repositoryId = some row)
      (unreserved : update.review.any TaskDb.ReviewState.isPassing = true →
        db.liveWrites env.judgedAt (some update.repositoryId) = []) :
      Accepted db env (.updateAttempt run update) (.state (TaskDb.updatedState row update env.now))
        { db with
          attemptRepositories := db.attemptRepositories.put (TaskDb.updatedState row update env.now) }
  | changeWorkingSet {change : TaskDb.WorkingSetChange} {task : TaskRow} {event : TaskEventRow}
      {discarded : Option RepositoryChangeState} (judged : ChangeJudged db task change env discarded)
      (wrote : event = db.eventRow (TaskDb.stampedRow task env.now) .changeWorkingSet (some task.state)
        change.actor change.reason none event.detail env.gap) :
      Accepted db env (.changeWorkingSet change) (.event event)
        { db with
          task := some (TaskDb.stampedRow task env.now)
          repositories := db.repositories.put (db.changedRepository change env.now)
          attemptRepositories := db.changedStates task change discarded env.now
          events := db.events ++ [event] }
  | admitUse {use : TaskDb.RepositoryUse} {task : TaskRow} {after : TaskDb} (found : db.task = some task)
      (current : use.run.attempt = task.attempt ∧ use.run.retryCount = task.retryCount)
      (active : marksChanged use.capability use.executes = true → task.state.isTerminal = false)
      (admitted : use.repositoryIds.eraseDups.foldlM (TaskDb.admitOne task use env) db = .ok after) :
      Accepted db env (.admitUse use)
        (.reservation (if marksChanged use.capability use.executes then some env.freshId else none)) after
  | release {reservationId : Uuid} :
      Accepted db env (.release reservationId) .released
        { db with
          writes := db.writes.update
            (fun row => decide (row.id = reservationId) && row.releasedAt.isNone)
            (fun row => { row with releasedAt := some env.now }) fun _ _ => rfl }
  | releaseStale {release : TaskDb.StaleRelease} {task : TaskRow} {event : TaskEventRow}
      (found : db.task = some task)
      (wrote : event = db.eventRow (TaskDb.stampedRow task env.now) .releaseRepositoryWrite (some task.state)
        release.actor (some release.reason) none event.detail env.gap) :
      Accepted db env (.releaseStale release) (.event event)
        { db with
          task := some (TaskDb.stampedRow task env.now)
          writes := db.writes.update (fun write => decide (write.id = release.reservationId))
            (fun write => { write with releasedAt := some env.now }) fun _ _ => rfl
          attemptRepositories := db.attemptRepositories.update
            (fun state => (db.reservation release.reservationId).any fun write =>
              decide (write.attempt = state.attempt ∧ write.repositoryId = state.repositoryId))
            (fun state => TaskDb.unknownState state env.now) fun _ _ => rfl
          events := db.events ++ [event] }

/-! ### From the code to what it did -/

variable {db : TaskDb} {task : TaskRow} {run : TaskRun} {stepId : ℤ} {env : Surroundings} {event : TaskEventRow}
  {use : TaskDb.RepositoryUse}

theorem requireTask_eq_ok :
    db.requireTask = .ok task ↔ db.task = some task := by
  unfold TaskDb.requireTask
  cases db.task <;> simp

theorem requireCurrentRun_eq_ok {done : Unit} (current : TaskDb.requireCurrentRun task run = .ok done) :
    run.attempt = task.attempt ∧ run.retryCount = task.retryCount := by
  unfold TaskDb.requireCurrentRun at current
  simp only [refuse_eq_ok, not_not] at current
  exact ⟨current.1, current.2.1⟩

theorem requireStep_eq_ok {step : TaskStepRow} (found : db.requireStep task stepId = .ok step) :
    db.steps.get stepId = some step ∧ step.attempt = task.attempt := by
  unfold TaskDb.requireStep TaskDb.requireCurrentAttempt at found
  simp only [bind_eq_ok, orThrow_eq_ok, refuse_eq_ok, pure_eq_ok, not_not] at found
  obtain ⟨row, there, _, ⟨current, -⟩, rfl⟩ := found
  exact ⟨there, current⟩

theorem checkedWorkingSet_eq_ok {entries : List TaskDb.WorkingSetEntry} {readOnly : Bool} {done : Unit}
    (checked : TaskDb.checkedWorkingSet entries readOnly = .ok done) : WorkingSetChecked entries readOnly := by
  unfold TaskDb.checkedWorkingSet at checked
  simp only [↓check_eq_ok, bind_eq_ok] at checked
  obtain ⟨few, _, -, -, shape⟩ := checked
  refine ⟨not_lt.mp few, ?_, ?_⟩
  · rintro rfl
    rw [if_pos rfl, throw_or_eq_ok, not_or] at shape
    refine ⟨shape.1.1, fun entry mem => ?_⟩
    by_contra other
    exact shape.1.2 ⟨entry, mem, other⟩
  · rintro rfl
    rw [if_neg (by simp), throw_or_eq_ok, not_and] at shape
    by_cases empty : entries = []
    · exact .inl empty
    · have some_target := shape.1 empty
      push Not at some_target
      exact .inr some_target

theorem createTask_accepted {new : TaskDb.NewTask}
    {after : TaskDb} (done : db.createTask new env = .ok (event, after)) :
    Accepted db env (.create new) (.event event) after := by
  unfold TaskDb.createTask TaskDb.checkedNewTask at done
  simp only [↓check_eq_ok, bind_eq_ok, orThrow_eq_ok, pure_eq_ok, Prod.mk.injEq, not_not] at done
  obtain ⟨_, ⟨_, -, _, -, _, shape, -⟩, -, absent, repositories, members, states, fresh, -, rfl, rfl⟩ := done
  exact .create absent (checkedWorkingSet_eq_ok shape) members fresh rfl

theorem judgeCommand_eq_ok {command : TaskCommand}
    {args : TaskDb.CommandArguments} {judged : TaskDb.Judged} (found : db.task = some task)
    (done : db.judgeCommand task command args env = .ok judged) :
    CommandJudged db task command args env judged.plan ∧ judged.step = db.latestStep task.attempt := by
  unfold TaskDb.judgeCommand at done
  simp only [↓check_eq_ok, ↓when_eq_ok, bind_eq_ok, pure_eq_ok] at done
  obtain ⟨-, plan, planned, -, -, idle, targeted, unreserved, complete, rfl⟩ := done
  refine ⟨⟨found, planned, ?_, ?_, ?_, complete⟩, rfl⟩
  · intro completes
    simpa using fun running => idle ⟨completes, running⟩
  · intro runs writes
    by_contra none
    push Not at none
    exact targeted ⟨runs, by simp [writes], none⟩
  · intro judges
    by_contra some
    exact unreserved ⟨judges, some⟩

theorem execute_accepted {command : TaskCommand} {args : TaskDb.CommandArguments} {after : TaskDb}
    (done : db.execute command args env = .ok (event, after)) :
    Accepted db env (.execute command args) (.event event) after := by
  unfold TaskDb.execute TaskDb.commitCommand at done
  simp only [↓check_eq_ok, bind_eq_ok, orThrow_eq_ok, pure_eq_ok, requireTask_eq_ok, Prod.mk.injEq] at done
  obtain ⟨_, -, task, found, judged, judging, -, states, fresh, -, rfl, rfl⟩ := done
  obtain ⟨facts, step⟩ := judgeCommand_eq_ok found judging
  obtain ⟨-, source, -⟩ := planTransition_eq_ok facts.planned
  rw [source, step]
  refine .execute facts rfl ?_
  split_ifs at fresh ⊢ with restarts
  · simpa [TaskDb.commandedRow, restarts] using fresh
  · exact (Option.some.inj fresh).symm

theorem beginStep_accepted {name : Text} {row : TaskStepRow}
    {after : TaskDb} (done : db.beginStep name run env = .ok (row, after)) :
    Accepted db env (.beginStep name run) (.step row) after := by
  unfold TaskDb.beginStep at done
  simp only [↓check_eq_ok, bind_eq_ok, orThrow_eq_ok, pure_eq_ok, requireTask_eq_ok, Prod.mk.injEq] at done
  obtain ⟨_, -, task, found, _, current, active, -, -, alone, steps, added, rfl, rfl⟩ := done
  refine .beginStep found (requireCurrentRun_eq_ok current) (by simpa using active) ?_ ⟨rfl, rfl, rfl⟩ added
  intro other mem same
  rw [List.any_eq_true] at alone
  push Not at alone
  have apart := of_decide_eq_false (Bool.eq_false_iff.mpr (alone other mem))
  push Not at apart
  exact apart same

theorem finishStep_accepted {status : StepStatus}
    {row : TaskStepRow} {after : TaskDb} (done : db.finishStep stepId status env = .ok (row, after)) :
    Accepted db env (.finishStep stepId status) (.step row) after := by
  unfold TaskDb.finishStep at done
  simp only [↓check_eq_ok, bind_eq_ok, pure_eq_ok, requireTask_eq_ok, Prod.mk.injEq, not_not] at done
  obtain ⟨_, -, ends, task, found, step, there, running, rfl, rfl⟩ := done
  obtain ⟨there, current⟩ := requireStep_eq_ok there
  have isId : step.id = stepId := Keyed.key_of_get there
  rw [TaskDb.closeStep, if_neg (not_not.mpr running), isId]
  exact .finishStep found there current running ends

theorem beginToolInvocation_accepted {toolName : Text} {invocationId : Option Uuid}
    {row : TaskToolInvocationRow} {after : TaskDb}
    (done : db.beginToolInvocation stepId toolName invocationId env = .ok (row, after)) :
    Accepted db env (.beginToolInvocation stepId toolName invocationId) (.invocation row) after := by
  unfold TaskDb.beginToolInvocation at done
  simp only [↓check_eq_ok, bind_eq_ok, orThrow_eq_ok, pure_eq_ok, requireTask_eq_ok, Prod.mk.injEq,
    not_not] at done
  obtain ⟨_, -, _, -, task, found, step, there, -, running, -, -, invocations, added, rfl, rfl⟩ := done
  obtain ⟨there, current⟩ := requireStep_eq_ok there
  have isId : step.id = stepId := Keyed.key_of_get there
  exact .beginToolInvocation found there current running ⟨isId, rfl⟩ added

theorem finishToolInvocation_accepted {invocationId : Uuid} {status : ToolInvocationStatus}
    {row : TaskToolInvocationRow} {after : TaskDb}
    (done : db.finishToolInvocation invocationId status env = .ok (row, after)) :
    Accepted db env (.finishToolInvocation invocationId status) (.invocation row) after := by
  unfold TaskDb.finishToolInvocation at done
  simp only [↓check_eq_ok, bind_eq_ok, orThrow_eq_ok, pure_eq_ok, Prod.mk.injEq, not_not] at done
  obtain ⟨ends, _, -, stored, there, _, -, _, -, started, rfl, rfl⟩ := done
  exact .finishToolInvocation there started ends

theorem updateAttempt_accepted {update : TaskDb.AttemptUpdate} {row : TaskAttemptRepositoryRow} {after : TaskDb}
    (done : db.updateAttempt run update env = .ok (row, after)) :
    Accepted db env (.updateAttempt run update) (.state row) after := by
  unfold TaskDb.updateAttempt at done
  simp only [↓check_eq_ok, bind_eq_ok, orThrow_eq_ok, pure_eq_ok, requireTask_eq_ok, Prod.mk.injEq] at done
  obtain ⟨_, -, task, found, _, current, -, stored, there, unreserved, rfl, rfl⟩ := done
  refine .updateAttempt found (requireCurrentRun_eq_ok current) there ?_
  intro passing
  by_contra some
  exact unreserved ⟨passing, some⟩

theorem judgeChange_eq_ok {change : TaskDb.WorkingSetChange}
    {discarded : Option RepositoryChangeState} (found : db.task = some task)
    (done : db.judgeChange task change env = .ok discarded) : ChangeJudged db task change env discarded := by
  have rest : ¬task.state = .completed ∧
      ¬(task.readOnly = true ∧
        (roleAfter change.operation = some .working ∨ roleAfter change.operation = some .target)) ∧
      ¬(!acceptsRole change.operation (db.role change.repositoryId)) = true ∧
      ¬(db.role change.repositoryId = none ∧ TaskDb.maxWorkingSetRepositories ≤ db.members.length) ∧
      ¬(db.role change.repositoryId = some .target ∧ roleAfter change.operation ≠ some .target ∧
        ∀ row ∈ db.members, row.role = .target → row.repositoryId = change.repositoryId) ∧
      ¬(narrows change.operation = true ∧ db.liveWrites env.judgedAt (some change.repositoryId) ≠ []) ∧
      db.requireDiscarded task change env = .ok discarded := by
    unfold TaskDb.judgeChange at done
    simp only [↓check_eq_ok] at done
    cases isRun : change.run with
    | none =>
      simp only [isRun, ↓check_eq_ok] at done
      obtain ⟨-, completed, readOnly, -, accepts, room, keeps, unreserved, verified⟩ := done
      exact ⟨completed, readOnly, accepts, room, keeps, unreserved, verified⟩
    | some run =>
      simp only [isRun, ↓check_eq_ok, bind_eq_ok] at done
      obtain ⟨-, -, -, -, completed, readOnly, -, accepts, room, keeps, unreserved, verified⟩ := done
      exact ⟨completed, readOnly, accepts, room, keeps, unreserved, verified⟩
  obtain ⟨completed, readOnly, accepts, room, keeps, unreserved, verified⟩ := rest
  refine ⟨found, completed, ?_, by simpa using accepts, ?_, ?_, ?_, verified⟩
  · intro reads
    exact ⟨fun working => readOnly ⟨reads, .inl working⟩, fun target => readOnly ⟨reads, .inr target⟩⟩
  · intro joins
    by_contra full
    exact room ⟨joins, not_lt.mp full⟩
  · intro isTarget lowers
    by_contra last
    push Not at last
    exact keeps ⟨isTarget, lowers, last⟩
  · intro shrinks
    by_contra some
    exact unreserved ⟨shrinks, some⟩

theorem changeWorkingSet_accepted {change : TaskDb.WorkingSetChange}
    {after : TaskDb} (done : db.changeWorkingSet change env = .ok (event, after)) :
    Accepted db env (.changeWorkingSet change) (.event event) after := by
  unfold TaskDb.changeWorkingSet at done
  simp only [↓check_eq_ok, bind_eq_ok, pure_eq_ok, requireTask_eq_ok, Prod.mk.injEq] at done
  obtain ⟨_, -, task, found, discarded, judging, -, rfl, rfl⟩ := done
  exact .changeWorkingSet (judgeChange_eq_ok found judging) rfl

theorem admit_accepted {id : Option Uuid} {after : TaskDb} (done : db.admitRepositoryUse use env = .ok (id, after)) :
    Accepted db env (.admitUse use) (.reservation id) after := by
  unfold TaskDb.admitRepositoryUse at done
  simp only [↓check_eq_ok, bind_eq_ok, pure_eq_ok, requireTask_eq_ok, Prod.mk.injEq] at done
  obtain ⟨-, task, found, _, current, active, admitted, folded, rfl, rfl⟩ := done
  refine .admitUse found (requireCurrentRun_eq_ok current) ?_ folded
  intro changes
  exact Bool.eq_false_iff.mpr fun ended => active ⟨changes, ended⟩

theorem releaseStale_accepted {release : TaskDb.StaleRelease} {after : TaskDb}
    (done : db.releaseStaleRepositoryWrite release env = .ok (event, after)) :
    Accepted db env (.releaseStale release) (.event event) after := by
  unfold TaskDb.releaseStaleRepositoryWrite at done
  simp only [↓check_eq_ok, bind_eq_ok, pure_eq_ok, requireTask_eq_ok, Prod.mk.injEq] at done
  obtain ⟨_, -, task, found, first, -, -, -, rfl, rfl⟩ := done
  exact .releaseStale found rfl

theorem accepted_of_map {α : Type} {call : TaskCall} {answer : TaskAnswer}
    {after : TaskDb} {x : Except TaskError (α × TaskDb)} {f : α → TaskAnswer}
    (done : x.map (Prod.map f id) = .ok (answer, after))
    (each : ∀ a b, x = .ok (a, b) → Accepted db env call (f a) b) : Accepted db env call answer after := by
  obtain ⟨⟨a, b⟩, accepted, same⟩ := map_eq_ok.mp done
  rw [Prod.map_apply, Prod.mk.injEq] at same
  obtain ⟨rfl, rfl⟩ := same
  exact each a b accepted

theorem accepted_of_perform {call : TaskCall} {answer : TaskAnswer}
    {after : TaskDb} (done : db.perform env call = .ok (answer, after)) :
    Accepted db env call answer after := by
  cases call with
  | release reservationId =>
    simp only [TaskDb.perform, TaskDb.releaseRepositoryUse, map_eq_ok, refuse_eq_ok, Except.ok.injEq] at done
    obtain ⟨_, ⟨-, rfl⟩, same⟩ := done
    cases same
    exact .release
  | addLog message run level =>
    simp only [TaskDb.perform, TaskDb.addLog, map_eq_ok, bind_eq_ok, pure_eq_ok] at done
    obtain ⟨_, ⟨_, -, _, -, _, -, rfl⟩, same⟩ := done
    cases same
    exact .addLog
  | create new =>
    exact accepted_of_map done fun _ _ => createTask_accepted
  | execute command args =>
    exact accepted_of_map done fun _ _ => execute_accepted
  | beginStep name run =>
    exact accepted_of_map done fun _ _ => beginStep_accepted
  | finishStep stepId status =>
    exact accepted_of_map done fun _ _ => finishStep_accepted
  | beginToolInvocation stepId toolName invocationId =>
    exact accepted_of_map done fun _ _ => beginToolInvocation_accepted
  | finishToolInvocation invocationId status =>
    exact accepted_of_map done fun _ _ => finishToolInvocation_accepted
  | updateAttempt run update =>
    exact accepted_of_map done fun _ _ => updateAttempt_accepted
  | changeWorkingSet change =>
    exact accepted_of_map done fun _ _ => changeWorkingSet_accepted
  | admitUse use =>
    exact accepted_of_map done fun _ _ => admit_accepted
  | releaseStale release =>
    exact accepted_of_map done fun _ _ => releaseStale_accepted

/-! ### Admissions, one repository at a time -/

theorem admitOne_eq_ok {after : TaskDb}
    {repositoryId : Uuid} (done : TaskDb.admitOne task use env db repositoryId = .ok after) :
    ∃ member state, db.member repositoryId = some member ∧
      db.attemptRepositoryRow task repositoryId = some state ∧
      roleAllows member.role use.capability use.executes = true ∧
      ((marksChanged use.capability use.executes = false ∧ after = db) ∨
        (marksChanged use.capability use.executes = true ∧ ∃ writes,
          db.writes.tryInsert (TaskDb.reservationRow task env.freshId repositoryId env.now) = some writes ∧
          after = { db with
            attemptRepositories :=
              db.attemptRepositories.put (TaskDb.admittedState state member.role env.now)
            writes := writes })) := by
  unfold TaskDb.admitOne at done
  split at done
  · rename_i member state isMember isState
    simp only [refuse_eq_ok, Bool.not_eq_true', Bool.not_eq_false] at done
    obtain ⟨allowed, done⟩ := done
    refine ⟨member, state, isMember, isState, allowed, ?_⟩
    split_ifs at done with reads
    · exact .inl ⟨reads, (Except.ok.inj done).symm⟩
    · split at done
      · cases done
      · rename_i writes added
        exact .inr ⟨Bool.not_eq_false _ ▸ reads, writes, added, (Except.ok.inj done).symm⟩
  · cases done

/-- An admission writes to the state rows and the reservations only. -/
structure AdmitFrame (db after : TaskDb) : Prop where
  task : after.task = db.task
  repositories : after.repositories = db.repositories
  steps : after.steps = db.steps
  invocations : after.invocations = db.invocations
  events : after.events = db.events
  logs : after.logs = db.logs

theorem AdmitFrame.refl (db : TaskDb) : AdmitFrame db db := ⟨rfl, rfl, rfl, rfl, rfl, rfl⟩

theorem AdmitFrame.admitOne {mid after : TaskDb} {repositoryId : Uuid} (frame : AdmitFrame db mid)
    (done : TaskDb.admitOne task use env mid repositoryId = .ok after) : AdmitFrame db after := by
  obtain ⟨_, _, -, -, -, ⟨-, rfl⟩ | ⟨-, _, -, rfl⟩⟩ := admitOne_eq_ok done
  · exact frame
  · exact ⟨frame.task, frame.repositories, frame.steps, frame.invocations, frame.events, frame.logs⟩

theorem admitFrame_of_foldlM {after : TaskDb} {ids : List Uuid}
    (done : ids.foldlM (TaskDb.admitOne task use env) db = .ok after) : AdmitFrame db after :=
  foldlM_invariant done (fun _ _ _ _ frame => frame.admitOne) (.refl db)

end PawBackend.Tasks
