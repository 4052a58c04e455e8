/-
**Steps, tool calls, attempt state and the Working Set** (`tasks/service.py`: what workers write, the
changes of the Working Set, the admission of repository uses).

Each is a transaction of its own on the rows of the task, in the order of the source's checks.
-/

import PawBackend.Tasks.Service

namespace PawBackend.Tasks

open Lib
open Authz (Capability)
open Tools (Uuid Instant TaskRun)

namespace TaskDb

variable (db : TaskDb)

/-! ### Steps and tool calls -/

/-- `_STEP_ACTIVE_STATES`. -/
def isStepActive (state : TaskState) : Bool :=
  decide (state = .running ∨ state = .waiting ∨ state = .evaluating)

def beginStep (name : Text) (run : TaskRun) (env : Surroundings) : Except TaskError (TaskStepRow × TaskDb) := do
  checkedText "name" name 100
  let task ← db.requireTask
  requireCurrentRun task run
  if !isStepActive task.state then
    throw (.taskStep "A step can only start while the task is active")
  let latest := db.latestStep task.attempt
  if isRunning latest then throw (.taskStep "Another step is already running")
  let row : TaskStepRow :=
    { id := db.nextStepId env.gap, attempt := task.attempt
      sequence := (latest.map TaskStepRow.sequence).getD 0 + 1, name := name, status := .running
      startedAt := env.now, finishedAt := none }
  if maxInteger < row.sequence then throw .outOfRange
  -- The unique indexes: one running step in an attempt, and one step at each place.
  if db.steps.rows.any fun other => decide (other.attempt = task.attempt ∧
      (other.status = .running ∨ other.sequence = row.sequence)) then throw .taskConflict
  let steps ← orThrow (db.steps.tryInsert row) .taskConflict
  return (row, { db with steps := steps })

def requireStep (task : TaskRow) (stepId : ℤ) : Except TaskError TaskStepRow := do
  let step ← orThrow (db.steps.get stepId) (.taskStep "Unknown step")
  requireCurrentAttempt task step.attempt
  return step

def finishStep (stepId : ℤ) (status : StepStatus) (env : Surroundings) :
    Except TaskError (TaskStepRow × TaskDb) := do
  checkedInt "step_id" stepId 1 maxBigint
  if status = .running then
    throw (.invalidCommandArgument "A step is finished as succeeded, failed or interrupted")
  let task ← db.requireTask
  let step ← db.requireStep task stepId
  if step.status ≠ .running then throw (.taskStep "The step is not running")
  return ({ step with status := status, finishedAt := some env.now }, db.closeStep step status env.now)

def maxActiveToolInvocations : ℕ := 1000

def beginToolInvocation (stepId : ℤ) (toolName : Text) (invocationId : Option Uuid) (env : Surroundings) :
    Except TaskError (TaskToolInvocationRow × TaskDb) := do
  checkedInt "step_id" stepId 1 maxBigint
  checkedText "tool_name" toolName 100
  let task ← db.requireTask
  let step ← db.requireStep task stepId
  if !isStepActive task.state then
    throw (.taskStep "A tool call can only start while the task is active")
  if step.status ≠ .running then throw (.taskStep "The step is not running")
  if maxActiveToolInvocations ≤ db.invocations.rows.countP fun row =>
      decide (row.stepId = step.id) && decide (row.status = .started) then
    throw (.taskStep "The step already runs too many tool calls")
  let row : TaskToolInvocationRow :=
    { id := invocationId.getD env.freshId, stepId := step.id, toolName := toolName, status := .started
      startedAt := env.now, finishedAt := none }
  if env.idTaken then throw .taskConflict
  let invocations ← orThrow (db.invocations.tryInsert row) .taskConflict
  return (row, { db with invocations := invocations })

def finishToolInvocation (invocationId : Uuid) (status : ToolInvocationStatus) (env : Surroundings) :
    Except TaskError (TaskToolInvocationRow × TaskDb) := do
  if status = .started then
    throw (.invalidCommandArgument "A tool call is finished as succeeded, failed or interrupted")
  let task ← db.requireTask
  let row ← orThrow (db.invocations.get invocationId) (.taskStep "Unknown tool invocation")
  let step ← orThrow (db.steps.get row.stepId) .integrity
  requireCurrentAttempt task step.attempt
  if row.status ≠ .started then throw (.taskStep "The tool call is not running")
  let finished := { row with status := status, finishedAt := some env.now }
  return (finished, { db with invocations := db.invocations.put finished })

/-- `MAX_LOG_MESSAGE_LENGTH`, and what is put where a message was cut. -/
def keptMessage (message : Text) : Text :=
  if 8000 < message.length then message.take (8000 - 14) ++ Text.lit "...[truncated]" else message

def addLog (message : Text) (run : TaskRun) (level : LogLevel) (env : Surroundings) :
    Except TaskError (TaskLogRow × TaskDb) := do
  storable "message" message
  let task ← db.requireTask
  requireCurrentRun task run
  let row : TaskLogRow :=
    { attempt := run.attempt, retryCount := run.retryCount, level := level
      message := .written (keptMessage message), createdAt := env.now }
  return (row, { db with logs := db.logs ++ [row] })

/-! ### The state of an attempt -/

/-- What `update_attempt` replaces, and where. -/
structure AttemptUpdate where
  repositoryId : Uuid
  worktree : Option WorktreeState := none
  review : Option ReviewState := none
  pullRequest : Option PullRequestInfo := none
  inState : Option TaskState := none

/-- `_worktree`. -/
def checkedWorktree (worktree : WorktreeState) : Except TaskError Unit := do
  checkedOptionalText "worktree branch" worktree.branch 255
  checkedOptionalText "worktree path" worktree.path 1024
  checkedOptionalText "worktree head_commit" worktree.headCommit 64

/-- `_pull_request`. -/
def checkedPullRequest (pullRequest : PullRequestInfo) : Except TaskError Unit := do
  if ¬(1 ≤ pullRequest.number ∧ pullRequest.number ≤ maxInteger) then
    throw (.invalidCommandArgument "pull request number must be an integer from 1 to 2147483647")
  checkedText "pull request url" pullRequest.url 2048

def ReviewState.isPassing (review : ReviewState) : Bool :=
  decide (review.reviewStatus = .approved ∨ review.evaluationResult = .passed)

/-- The row after an update: results belong to the revision they were recorded for. -/
def updatedState (row : TaskAttemptRepositoryRow) (update : AttemptUpdate) (now : Instant) :
    TaskAttemptRepositoryRow :=
  let moved := update.worktree.any fun worktree => decide (worktree.headCommit ≠ row.worktree.headCommit)
  { row with
    worktree := update.worktree.getD row.worktree
    reviewStatus := match update.review with
      | some review => review.reviewStatus
      | none => if moved then .notStarted else row.reviewStatus
    evaluationResult := match update.review with
      | some review => review.evaluationResult
      | none => if moved then .notRun else row.evaluationResult
    pullRequest := update.pullRequest.or row.pullRequest
    updatedAt := now }

def checkedUpdate (update : AttemptUpdate) : Except TaskError Unit := do
  match update.worktree with
  | some worktree => checkedWorktree worktree
  | none => pure ()
  match update.pullRequest with
  | some pullRequest => checkedPullRequest pullRequest
  | none => pure ()

def updateAttempt (run : TaskRun) (update : AttemptUpdate) (env : Surroundings) :
    Except TaskError (TaskAttemptRepositoryRow × TaskDb) := do
  checkedUpdate update
  let task ← db.requireTask
  requireCurrentRun task run
  if update.inState.any fun state => decide (task.state ≠ state) then throw .taskStateChanged
  let row ← orThrow (db.attemptRepositoryRow task update.repositoryId) .repositoryNotInAttempt
  if (update.review.any ReviewState.isPassing) ∧ db.liveWrites env.judgedAt (some update.repositoryId) ≠ [] then
    throw .repositoryWriteInFlight
  let updated := updatedState row update env.now
  return (updated, { db with attemptRepositories := db.attemptRepositories.put updated })

/-! ### Changes of the Working Set -/

structure WorkingSetChange where
  operation : WorkingSetOperation
  repositoryId : Uuid
  actor : Actor
  expectedRole : Option RepoRole
  startingCommit : Option Text := none
  agentId : Option Uuid := none
  reason : Option Text := none
  expectedVersion : Option ℤ := none
  run : Option TaskRun := none

def checkedChange (change : WorkingSetChange) : Except TaskError Unit := do
  checkedOptionalText "starting_commit" change.startingCommit 64
  checkedOptionalText "reason" change.reason 500
  checkedVersion change.expectedVersion

def hasOpenPullRequest (state : Option TaskAttemptRepositoryRow) : Bool :=
  state.any fun row => row.pullRequest.any fun request =>
    decide (request.state = .opened ∨ request.state = .draft)

/-- What `change_working_set` found in the repository: needed for a downgrade or a removal of one the
attempt could have changed, `none` where nothing had to be verified. -/
def requireDiscarded (task : TaskRow) (change : WorkingSetChange) (env : Surroundings) :
    Except TaskError (Option RepositoryChangeState) :=
  let state := db.attemptRepositoryRow task change.repositoryId
  if narrows change.operation && couldHaveChanged (db.role change.repositoryId) state then
    match verifyDiscarded (env.inspect change.repositoryId)
      ((db.member change.repositoryId).bind TaskRepositoryRow.startingCommit) (hasOpenPullRequest state) with
    | none => .error .modifiedRepositoryDowngradeRefused
    | some found => .ok (some found)
  else .ok none

/-- What is judged under the lock; the answer is what was found discarded. -/
def judgeChange (task : TaskRow) (change : WorkingSetChange) (env : Surroundings) :
    Except TaskError (Option RepositoryChangeState) := do
  if change.expectedVersion.any fun expected => decide (task.version ≠ expected) then throw .taskConflict
  match change.run with
  | none => pure ()
  | some run =>
    requireCurrentRun task run
    if task.state.isTerminal then throw .taskNotActive
  if task.state = .completed then throw (.illegalTransition task.state .changeWorkingSet)
  if task.readOnly ∧ (roleAfter change.operation = some .working ∨ roleAfter change.operation = some .target) then
    throw .readOnlyTask
  let current := db.role change.repositoryId
  if current ≠ change.expectedRole then throw .workingSetConflict
  if !acceptsRole change.operation current then throw .workingSetChangeInvalid
  if current = none ∧ maxWorkingSetRepositories ≤ db.members.length then throw tooManyRepositories
  if current = some .target ∧ roleAfter change.operation ≠ some .target ∧
      ∀ row ∈ db.members, row.role = .target → row.repositoryId = change.repositoryId then
    throw .lastTargetRemovalRefused
  if narrows change.operation ∧ db.liveWrites env.judgedAt (some change.repositoryId) ≠ [] then
    throw .repositoryWriteInFlight
  db.requireDiscarded task change env

/-- The baseline a change sets, if any: a repository that joins gets a new one, one that is promoted gets
its first, unless it could have been changed already. -/
def newBaseline (change : WorkingSetChange) : Option Text :=
  match db.member change.repositoryId with
  | none => change.startingCommit
  | some member =>
    if member.startingCommit = none ∧
        !db.couldEverHaveChanged change.repositoryId (db.role change.repositoryId) then
      change.startingCommit
    else none

def changedRepository (change : WorkingSetChange) (now : Instant) : TaskRepositoryRow :=
  let role := db.role change.repositoryId
  let stored := db.repositories.get change.repositoryId
  { repositoryId := change.repositoryId
    role := (roleAfter change.operation).getD ((stored.map TaskRepositoryRow.role).getD .referenced)
    startingCommit :=
      if role = none then change.startingCommit
      else (db.newBaseline change).or (stored.bind TaskRepositoryRow.startingCommit)
    addedBy := change.actor
    addedAt := if role = none then now else (stored.map TaskRepositoryRow.addedAt).getD now
    updatedAt := now
    removedAt := if roleAfter change.operation = none then some now else none }

def changedStates (task : TaskRow) (change : WorkingSetChange) (discarded : Option RepositoryChangeState)
    (now : Instant) : Keyed TaskAttemptRepositoryRow.key :=
  match db.attemptRepositoryRow task change.repositoryId with
  | none =>
    match roleAfter change.operation with
    | none => db.attemptRepositories
    | some role => db.attemptRepositories.put (freshState task.attempt now change.repositoryId role)
  | some row =>
    if discarded.isSome then
      db.attemptRepositories.put
        { row with
          modified := false, strongestRole := (roleAfter change.operation).getD .referenced
          updatedAt := now }
    else
      match roleAfter change.operation with
      | none => db.attemptRepositories
      | some role =>
        if row.strongestRole.strength < role.strength then
          db.attemptRepositories.put { row with strongestRole := role, updatedAt := now }
        else db.attemptRepositories

def stampedRow (task : TaskRow) (now : Instant) : TaskRow :=
  { task with
    updatedAt := now
    version := if task.updatedAt = now then task.version else task.version + 1 }

def changeWorkingSet (change : WorkingSetChange) (env : Surroundings) :
    Except TaskError (TaskEventRow × TaskDb) := do
  checkedChange change
  let task ← db.requireTask
  let discarded ← db.judgeChange task change env
  let row := stampedRow task env.now
  if !inRange row then throw .outOfRange
  let event := db.eventRow row .changeWorkingSet (some task.state) change.actor change.reason none
    (.workingSetChanged change.operation change.repositoryId (db.role change.repositoryId)
      (roleAfter change.operation) change.agentId (db.newBaseline change) discarded)
    env.gap
  return (event,
    { db with
      task := some row
      repositories := db.repositories.put (db.changedRepository change env.now)
      attemptRepositories := db.changedStates task change discarded env.now
      events := db.events ++ [event] })

/-! ### Repository uses -/

structure RepositoryUse where
  run : TaskRun
  repositoryIds : List Uuid
  capability : Capability
  executes : Bool

def admittedState (row : TaskAttemptRepositoryRow) (role : RepoRole) (now : Instant) :
    TaskAttemptRepositoryRow :=
  { row with
    modified := true
    strongestRole := role.stronger row.strongestRole
    evaluationResult := .notRun
    reviewStatus := .notStarted
    updatedAt := now }

def reservationRow (task : TaskRow) (reservation repositoryId : Uuid) (now : Instant) :
    TaskRepositoryWriteRow :=
  { id := reservation, repositoryId := repositoryId, attempt := task.attempt
    retryCount := task.retryCount, admittedAt := now, expiresAt := now + writeReservation
    releasedAt := none }

def admitOne (task : TaskRow) (use : RepositoryUse) (env : Surroundings) (db : TaskDb) (repositoryId : Uuid) :
    Except TaskError TaskDb :=
  match db.member repositoryId, db.attemptRepositoryRow task repositoryId with
  | some member, some state =>
    if !roleAllows member.role use.capability use.executes then .error .repositoryRoleInsufficient
    else if !marksChanged use.capability use.executes then .ok db
    else if env.idTaken then .error .integrity
    else
      match db.writes.tryInsert (reservationRow task env.freshId repositoryId env.now) with
      | none => .error .integrity
      | some writes => .ok
          { db with
            attemptRepositories := db.attemptRepositories.put (admittedState state member.role env.now)
            writes := writes }
  | _, _ => .error .repositoryRoleUnresolved

/-- `admit_repository_use`: the reservation, `none` for a use that changes nothing. -/
def admitRepositoryUse (use : RepositoryUse) (env : Surroundings) : Except TaskError (Option Uuid × TaskDb) := do
  if use.repositoryIds = [] ∨ maxWorkingSetRepositories < use.repositoryIds.length then
    throw (.invalidCommandArgument "repository_ids must hold 1 to 32 ids")
  let task ← db.requireTask
  requireCurrentRun task use.run
  if marksChanged use.capability use.executes ∧ task.state.isTerminal then throw .taskNotActive
  let admitted ← use.repositoryIds.eraseDups.foldlM (admitOne task use env) db
  return (if marksChanged use.capability use.executes then some env.freshId else none, admitted)

/-- `release_repository_use`: `released_at` is not before the admission. -/
def releaseRepositoryUse (reservationId : Uuid) (env : Surroundings) : Except TaskError (Unit × TaskDb) :=
  let held := fun row : TaskRepositoryWriteRow => decide (row.id = reservationId) && row.releasedAt.isNone
  if db.writes.rows.any fun row => held row && decide (env.now < row.admittedAt) then .error .integrity
  else .ok ((),
    { db with
      writes := db.writes.update held (fun row => { row with releasedAt := some env.now }) fun _ _ => rfl })

structure StaleRelease where
  reservationId : Uuid
  actor : Actor
  reason : Text
  expectedVersion : Option ℤ := none

def checkedRelease (release : StaleRelease) : Except TaskError Unit := do
  if release.actor.kind ≠ .user then
    throw (.invalidCommandArgument "only a user releases a repository write by hand")
  checkedText "reason" release.reason 500
  checkedVersion release.expectedVersion

def unknownState (row : TaskAttemptRepositoryRow) (now : Instant) : TaskAttemptRepositoryRow :=
  { row with
    modified := true, evaluationResult := .notRun, reviewStatus := .notStarted, updatedAt := now }

def reservation (reservationId : Uuid) : List TaskRepositoryWriteRow :=
  (db.writes.rows.filter fun row => decide (row.id = reservationId)).insertionSort
    fun a b => a.repositoryId ≤ b.repositoryId

/-- What is judged before a reservation is released by hand: its first row. -/
def judgeRelease (task : TaskRow) (release : StaleRelease) (env : Surroundings) :
    Except TaskError TaskRepositoryWriteRow := do
  if release.expectedVersion.any fun expected => decide (task.version ≠ expected) then throw .taskConflict
  let rows := db.reservation release.reservationId
  let first ← orThrow (rows.head?) .repositoryWriteNotFound
  if rows.any fun row => !isLive env.now row then throw .repositoryWriteNotHeld
  if env.leaseAlive then throw .repositoryWriteHolderAlive
  if rows.any fun row => decide (env.now < row.admittedAt) then throw .integrity
  return first

def releasedDetail (release : StaleRelease) (first : TaskRepositoryWriteRow) : EventDetail :=
  .writeReleased release.reservationId
    ((db.reservation release.reservationId).map TaskRepositoryWriteRow.repositoryId) first.attempt
    first.retryCount first.admittedAt first.expiresAt

def releaseStaleRepositoryWrite (release : StaleRelease) (env : Surroundings) :
    Except TaskError (TaskEventRow × TaskDb) := do
  checkedRelease release
  let task ← db.requireTask
  let first ← db.judgeRelease task release env
  let row := stampedRow task env.now
  if !inRange row then throw .outOfRange
  let touched := fun state : TaskAttemptRepositoryRow =>
    (db.reservation release.reservationId).any fun write =>
      decide (write.attempt = state.attempt ∧ write.repositoryId = state.repositoryId)
  let event := db.eventRow row .releaseRepositoryWrite (some task.state) release.actor
    (some release.reason) none (db.releasedDetail release first) env.gap
  if !env.stepPasses then throw .aborted
  return (event,
    { db with
      task := some row
      writes := db.writes.update (fun write => decide (write.id = release.reservationId))
        (fun write => { write with releasedAt := some env.now }) fun _ _ => rfl
      attemptRepositories := db.attemptRepositories.update touched (fun state => unknownState state env.now)
        fun _ _ => rfl
      events := db.events ++ [event] })

end TaskDb

end PawBackend.Tasks
