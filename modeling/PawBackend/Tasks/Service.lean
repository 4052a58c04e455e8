/-
**The task service** (`tasks/service.py`).

Every call is one transaction on the rows of its task, which it locks first: calls on a task run one after the other,
and a call that is refused leaves the rows as they were (`TaskDb.apply`).
-/

import PawBackend.Tasks.Tables

namespace PawBackend.Tasks

open Lib
open Authz (Capability)
open Tools (Uuid Instant TaskRun)

structure Surroundings where
  /-- `utcnow()` of the call, and of its `_live_writes`. -/
  now : Instant
  judgedAt : Instant
  projectActive : Bool := true
  inspect : Uuid → Option RepositoryChangeState := fun _ => none
  /-- The `uuid4()` of the call, and whether another task has it. -/
  freshId : Uuid := 0
  idTaken : Bool := false
  /-- Whether a worker holds a valid lease on the task's queue entry. -/
  leaseAlive : Bool := false
  /-- What the identity column gave to others. -/
  gap : ℕ := 0
  /-- Whether the `in_transaction` step of the caller goes through. -/
  stepPasses : Bool := true

namespace TaskDb

variable (db : TaskDb)

/-- `_append_event`: the row it adds. -/
def eventRow (task : TaskRow) (command : TaskCommand) (fromState : Option TaskState) (actor : Actor)
    (reason stepName : Option Text) (detail : EventDetail) (gap : ℕ) : TaskEventRow :=
  { seq := db.nextSeq gap, attempt := task.attempt, retryCount := task.retryCount, command := command
    fromState := fromState, toState := task.state, waitReason := task.waitReason, actor := actor
    reason := reason, stepName := stepName, detail := detail, taskVersion := task.version
    createdAt := task.updatedAt }

/-! ### Creation -/

structure WorkingSetEntry where
  repositoryId : Uuid
  role : RepoRole
  startingCommit : Option Text := none
  deriving DecidableEq

structure NewTask where
  createdBy : Uuid
  title : Text
  input : JsonArgument := .fits
  repositories : List WorkingSetEntry := []
  agent : Option Text := none
  model : Option Text := none
  requestKey : Option Text := none
  readOnly : Bool := false

def maxWorkingSetRepositories : ℕ := 32

def tooManyRepositories : TaskError :=
  .invalidCommandArgument "a working set holds at most 32 repositories"

/-- `_working_set`. -/
def checkedWorkingSet (entries : List WorkingSetEntry) (readOnly : Bool) : Except TaskError Unit := do
  if maxWorkingSetRepositories < entries.length then throw tooManyRepositories
  entries.forM fun entry => checkedOptionalText "starting_commit" entry.startingCommit 64
  if ¬(entries.map WorkingSetEntry.repositoryId).Nodup then
    throw (.invalidCommandArgument "a repository is listed twice")
  if readOnly then
    if entries = [] ∨ ∃ entry ∈ entries, entry.role ≠ .referenced then
      throw (.invalidCommandArgument "a read-only task needs referenced repositories only, at least one")
  else if entries ≠ [] ∧ ∀ entry ∈ entries, entry.role ≠ .target then
    throw (.invalidCommandArgument "a working set needs at least one target repository")

/-- `_REQUEST_KEY`. -/
def isRequestKey (key : Text) : Bool :=
  decide (1 ≤ key.length ∧ key.length ≤ 64) &&
    key.all fun c => Text.isUpper c || Text.isLower c || Text.isDigit c || c ∈ Text.lit "._:-"

def checkedNewTask (new : NewTask) : Except TaskError Unit := do
  checkedText "title" new.title 200
  new.input.checked
  checkedWorkingSet new.repositories new.readOnly
  checkedOptionalText "agent" new.agent 100
  checkedOptionalText "model" new.model 100
  if new.requestKey.any fun key => !isRequestKey key then
    throw (.invalidCommandArgument
      "request_key must be 1 to 64 characters of letters, digits and . _ : -")

/-- A member as `create_task` adds it. -/
def WorkingSetEntry.row (entry : WorkingSetEntry) (createdBy : Uuid) (now : Instant) : TaskRepositoryRow :=
  { repositoryId := entry.repositoryId, role := entry.role, startingCommit := entry.startingCommit
    addedBy := .user createdBy, addedAt := now, updatedAt := now, removedAt := none }

/-- `_attempt_rows_for`, of one member. -/
def freshState (attempt : ℕ) (now : Instant) (repositoryId : Uuid) (role : RepoRole) :
    TaskAttemptRepositoryRow :=
  { attempt := attempt, repositoryId := repositoryId, worktree := {}, reviewStatus := .notStarted
    evaluationResult := .notRun, pullRequest := none, strongestRole := role, modified := false
    updatedAt := now }

def attemptRowsFor (attempt : ℕ) (members : List TaskRepositoryRow) (now : Instant) :
    List TaskAttemptRepositoryRow :=
  members.map fun member => freshState attempt now member.repositoryId member.role

def createdRow (new : NewTask) (now : Instant) : TaskRow :=
  { state := .queued, waitReason := none, agent := new.agent, model := new.model, attempt := 1
    retryCount := 0, readOnly := new.readOnly, version := 1, updatedAt := now }

/-- `create_task`; the tables know nothing of the task's id before. -/
def createTask (new : NewTask) (env : Surroundings) : Except TaskError (TaskEventRow × TaskDb) := do
  checkedNewTask new
  if !env.projectActive then throw .projectNotActive
  if db.task ≠ none then throw .integrity
  let task := createdRow new env.now
  let members := new.repositories.map fun entry => entry.row new.createdBy env.now
  let repositories ← orThrow (db.repositories.insertAll members) .integrity
  let states ← orThrow (db.attemptRepositories.insertAll (attemptRowsFor 1 members env.now)) .integrity
  let event := db.eventRow task .create none (.user new.createdBy) none none
    (.created (new.repositories.map fun entry => (entry.repositoryId, entry.role)) new.requestKey
      new.readOnly) env.gap
  if !env.stepPasses then throw .aborted
  return (event,
    { db with task := some task, repositories := repositories, attemptRepositories := states
              events := db.events ++ [event] })

/-! ### Commands -/

structure CommandArguments where
  actor : Actor
  expectedVersion : Option ℤ := none
  reason : Option Text := none
  waitReason : Option WaitReason := none
  agent : Option Text := none
  model : Option Text := none
  result : Option JsonArgument := none

/-- `_GATED_COMMANDS`. -/
def isGated (command : TaskCommand) : Bool :=
  decide (command = .start ∨ command = .retry ∨ command = .restart)

/-- `_JUDGING_COMMANDS`. -/
def isJudging (command : TaskCommand) : Bool :=
  decide (command = .beginEvaluation ∨ command = .complete)

/-- `_STEP_ENDING_COMMANDS`. -/
def endsStep : TaskCommand → Option StepStatus
  | .stopNow => some .interrupted
  | .fail => some .failed
  | .restart => some .interrupted
  | _ => none

def checkedVersion (expected : Option ℤ) : Except TaskError Unit :=
  match expected with
  | none => .ok ()
  | some expected => checkedInt "expected_version" expected 1 maxInteger

def checkedCommand (command : TaskCommand) (args : CommandArguments) : Except TaskError Unit := do
  checkedVersion args.expectedVersion
  checkedOptionalText "reason" args.reason 500
  if command = .stopNow ∧ args.reason = none then
    throw (.invalidCommandArgument "Stop Now needs a reason")
  checkedOptionalText "agent" args.agent 100
  checkedOptionalText "model" args.model 100
  if (args.agent.isSome ∨ args.model.isSome) ∧ command ≠ .retry ∧ command ≠ .restart then
    throw (.invalidCommandArgument "Only Retry and Restart accept an agent or model")
  match args.result with
  | none => pure ()
  | some result =>
    result.checked
    if command ≠ .complete then throw (.invalidCommandArgument "Only Complete accepts a result")

/-- What `_require_completion` judges a repository of the attempt on. -/
def completionFacts (inspect : Uuid → Option RepositoryChangeState) (state : TaskAttemptRepositoryRow) :
    AttemptRepositoryFacts :=
  let role := db.role state.repositoryId
  let startingCommit := (db.repositories.get state.repositoryId).bind TaskRepositoryRow.startingCommit
  let unverified := !state.modified && decide (role ≠ some .target) && state.pullRequest.isNone &&
    couldHaveChanged role (some state)
  { repositoryId := state.repositoryId, role := role, startingCommit := startingCommit
    strongestRole := state.strongestRole
    modified :=
      if unverified then (verifyDiscarded (inspect state.repositoryId) startingCommit false).isNone
      else state.modified
    headCommit := state.worktree.headCommit, evaluation := state.evaluationResult
    review := state.reviewStatus, pullRequest := state.pullRequest.map PullRequestInfo.state }

def requireCompletion (task : TaskRow) (inspect : Uuid → Option RepositoryChangeState) :
    Except TaskError Unit :=
  let states := db.attemptRepositories.rows.filter fun row => decide (row.attempt = task.attempt)
  if !task.readOnly ∧ ∀ row ∈ db.members, row.role ≠ .target then .error .completionRequirementsNotMet
  else if ∃ row ∈ db.members, ∀ state ∈ states, state.repositoryId ≠ row.repositoryId then
    .error .completionRequirementsNotMet
  else if unmetRepositories (states.map (db.completionFacts inspect)) ≠ [] then
    .error .completionRequirementsNotMet
  else .ok ()

/-- What `execute` found under the lock. -/
structure Judged where
  plan : TransitionPlan
  step : Option TaskStepRow
  inFlight : List TaskRepositoryWriteRow

def isRunning (step : Option TaskStepRow) : Bool := step.any fun step => decide (step.status = .running)

def judgeCommand (task : TaskRow) (command : TaskCommand) (args : CommandArguments) (env : Surroundings) :
    Except TaskError Judged := do
  if args.expectedVersion.any fun expected => decide (task.version ≠ expected) then throw .taskConflict
  let plan ← planTransition task.state command args.waitReason task.readOnly
  if args.result.isSome ∧ !task.readOnly then
    throw (.invalidCommandArgument "Only the completion of a read-only task takes a result")
  if isGated command ∧ !env.projectActive then throw .projectNotActive
  let step := db.latestStep task.attempt
  if command = .complete ∧ isRunning step then throw (.taskStep "A step is still running")
  if plan.target = .running ∧ !task.readOnly ∧ ∀ row ∈ db.members, row.role ≠ .target then
    throw .noTargetRepository
  let inFlight := db.liveWrites env.judgedAt none
  if isJudging command ∧ inFlight ≠ [] then throw .repositoryWriteInFlight
  if command = .complete then db.requireCompletion task env.inspect
  return ⟨plan, step, inFlight⟩

def commandedRow (task : TaskRow) (command : TaskCommand) (args : CommandArguments) (plan : TransitionPlan)
    (now : Instant) : TaskRow :=
  { task with
    state := plan.target
    waitReason := plan.waitReason
    updatedAt := now
    agent := if command = .retry ∨ command = .restart then args.agent.or task.agent else task.agent
    model := if command = .retry ∨ command = .restart then args.model.or task.model else task.model
    retryCount := if command = .retry then task.retryCount + 1 else task.retryCount
    attempt := if command = .restart then task.attempt + 1 else task.attempt
    version := task.version + 1 }

def inRange (task : TaskRow) : Bool :=
  decide ((task.attempt : ℤ) ≤ maxInteger ∧ (task.retryCount : ℤ) ≤ maxInteger ∧ task.version ≤ maxInteger)

/-- A switch of the agent or the model, as the event says it. -/
def switched (given old : Option Text) : Option (Option Text × Text) :=
  match given with
  | none => none
  | some new => if given = old then none else some (old, new)

def endStep (id : ℤ) (status : StepStatus) (now : Instant) : TaskDb :=
  { db with
    steps := db.steps.update (fun row => decide (row.id = id))
      (fun row => { row with status := status, finishedAt := some now }) fun _ _ => rfl
    invocations := db.invocations.update
      (fun row => decide (row.stepId = id) && decide (row.status = .started))
      (fun row => { row with status := .interrupted, finishedAt := some now }) fun _ _ => rfl }

def closeStep (step : TaskStepRow) (status : StepStatus) (now : Instant) : TaskDb :=
  if step.status ≠ .running then db else db.endStep step.id status now

def closing (command : TaskCommand) (step : Option TaskStepRow) : Option (TaskStepRow × StepStatus) :=
  match step, endsStep command with
  | some step, some status => if step.status = .running then some (step, status) else none
  | _, _ => none

def commitCommand (task : TaskRow) (command : TaskCommand) (args : CommandArguments) (env : Surroundings)
    (judged : Judged) : Except TaskError (TaskEventRow × TaskDb) := do
  let row := commandedRow task command args judged.plan env.now
  if !inRange row then throw .outOfRange
  let states ← orThrow
    (if command = .restart then
      db.attemptRepositories.insertAll (attemptRowsFor row.attempt db.members env.now)
    else some db.attemptRepositories) .integrity
  let closed := closing command judged.step
  let written : TaskDb := closed.elim db fun (step, status) => db.closeStep step status env.now
  let endedStep := closed.map fun (step, _) => step.name
  let inFlight := judged.inFlight.map fun row => ⟨row.repositoryId, row.attempt, row.retryCount⟩
  let event := db.eventRow row command (some judged.plan.fromState) args.actor args.reason
    (if command = .stopNow ∨ command = .fail then endedStep else judged.step.map TaskStepRow.name)
    (.commanded inFlight args.result.isSome
      (if command = .retry ∨ command = .restart then switched args.agent task.agent else none)
      (if command = .retry ∨ command = .restart then switched args.model task.model else none)
      (if command = .restart then some task.attempt else none))
    env.gap
  let logs := if command = .stopNow then
      [{ attempt := row.attempt, retryCount := row.retryCount, level := .warning, createdAt := env.now
         message := .stopNow endedStep (args.reason.getD []) judged.inFlight.length }]
    else []
  if !env.stepPasses then throw .aborted
  return (event,
    { written with
      task := some row, attemptRepositories := states, events := db.events ++ [event]
      logs := db.logs ++ logs })

def execute (command : TaskCommand) (args : CommandArguments) (env : Surroundings) :
    Except TaskError (TaskEventRow × TaskDb) := do
  checkedCommand command args
  let task ← db.requireTask
  let judged ← db.judgeCommand task command args env
  db.commitCommand task command args env judged

end TaskDb

end PawBackend.Tasks
