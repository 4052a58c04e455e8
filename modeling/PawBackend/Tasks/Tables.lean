/-
**The rows of a task** (`tasks/models.py`), and what the service reads of them (`tasks/service.py`: its
internals).

`TaskDb` is what the tables hold about one task. A primary key or a unique constraint is a `Keyed` table.
Of the columns nothing reads, the texts of a task and of its attempts are left out.
-/

import PawBackend.Lib.Checks
import PawBackend.Tasks.WorkingSet

namespace PawBackend.Tasks

open Lib
open Tools (Uuid Instant TaskRun)

/-! ### Rows -/

structure TaskRow where
  state : TaskState
  waitReason : Option WaitReason
  agent : Option Text
  model : Option Text
  attempt : ℕ
  retryCount : ℕ
  readOnly : Bool
  version : ℤ
  updatedAt : Instant
  deriving DecidableEq, Repr

structure TaskRepositoryRow where
  repositoryId : Uuid
  role : RepoRole
  startingCommit : Option Text
  addedBy : Actor
  addedAt : Instant
  updatedAt : Instant
  removedAt : Option Instant
  deriving DecidableEq

structure TaskAttemptRepositoryRow where
  attempt : ℕ
  repositoryId : Uuid
  worktree : WorktreeState
  reviewStatus : ReviewStatus
  evaluationResult : EvaluationResult
  pullRequest : Option PullRequestInfo
  strongestRole : RepoRole
  modified : Bool
  updatedAt : Instant
  deriving DecidableEq

structure TaskRepositoryWriteRow where
  id : Uuid
  repositoryId : Uuid
  attempt : ℕ
  retryCount : ℕ
  admittedAt : Instant
  expiresAt : Instant
  releasedAt : Option Instant
  deriving DecidableEq

structure TaskStepRow where
  id : ℤ
  attempt : ℕ
  sequence : ℤ
  name : Text
  status : StepStatus
  startedAt : Instant
  finishedAt : Option Instant
  deriving DecidableEq, Repr

structure TaskToolInvocationRow where
  id : Uuid
  stepId : ℤ
  toolName : Text
  status : ToolInvocationStatus
  startedAt : Instant
  finishedAt : Option Instant
  deriving DecidableEq

/-- A reservation as an event names it. -/
structure WriteInFlight where
  repositoryId : Uuid
  attempt : ℕ
  retryCount : ℕ
  deriving DecidableEq

/-- The `detail` of an event, by what wrote it. -/
inductive EventDetail
  | created (workingSet : List (Uuid × RepoRole)) (requestKey : Option Text) (readOnly : Bool)
  | commanded (writesInFlight : List WriteInFlight) (hasResult : Bool)
      (agent model : Option (Option Text × Text)) (previousAttempt : Option ℕ)
  | workingSetChanged (operation : WorkingSetOperation) (repositoryId : Uuid)
      (fromRole toRole : Option RepoRole) (agentId : Option Uuid) (startingCommit : Option Text)
      (discarded : Option RepositoryChangeState)
  | writeReleased (reservationId : Uuid) (repositoryIds : List Uuid) (attempt retryCount : ℕ)
      (admittedAt expiresAt : Instant)
  deriving DecidableEq

structure TaskEventRow where
  seq : ℤ
  attempt : ℕ
  retryCount : ℕ
  command : TaskCommand
  fromState : Option TaskState
  toState : TaskState
  waitReason : Option WaitReason
  actor : Actor
  reason : Option Text
  stepName : Option Text
  detail : EventDetail
  taskVersion : ℤ
  createdAt : Instant
  deriving DecidableEq

inductive LogLevel
  | debug
  | info
  | warning
  | error
  deriving DecidableEq, Repr

/-- A log line: a worker's, or what `_stop_now_message` says. -/
inductive LogMessage
  | written (message : Text)
  | stopNow (interruptedStep : Option Text) (reason : Text) (writesInFlight : ℕ)
  deriving DecidableEq, Repr

structure TaskLogRow where
  attempt : ℕ
  retryCount : ℕ
  level : LogLevel
  message : LogMessage
  createdAt : Instant
  deriving DecidableEq

def TaskAttemptRepositoryRow.key (row : TaskAttemptRepositoryRow) : ℕ × Uuid :=
  (row.attempt, row.repositoryId)

def TaskRepositoryWriteRow.key (row : TaskRepositoryWriteRow) : Uuid × Uuid := (row.id, row.repositoryId)

/-- What the tables hold about one task: `task` is `none` before it is created. -/
structure TaskDb where
  task : Option TaskRow
  repositories : Keyed TaskRepositoryRow.repositoryId
  attemptRepositories : Keyed TaskAttemptRepositoryRow.key
  writes : Keyed TaskRepositoryWriteRow.key
  steps : Keyed TaskStepRow.id
  invocations : Keyed TaskToolInvocationRow.id
  events : List TaskEventRow
  logs : List TaskLogRow

def TaskDb.empty : TaskDb := ⟨none, .empty, .empty, .empty, .empty, .empty, [], []⟩

/-! ### Reading -/

/-- The largest `INTEGER`. -/
def maxInteger : ℤ := 2 ^ 31 - 1

/-- The largest `BIGINT`. -/
def maxBigint : ℤ := 2 ^ 63 - 1

namespace TaskDb

variable (db : TaskDb)

def requireTask : Except TaskError TaskRow :=
  match db.task with
  | none => .error .taskNotFound
  | some task => .ok task

def members : List TaskRepositoryRow := db.repositories.rows.filter fun row => row.removedAt.isNone

def member (repositoryId : Uuid) : Option TaskRepositoryRow :=
  (db.repositories.get repositoryId).filter fun row => row.removedAt.isNone

def role (repositoryId : Uuid) : Option RepoRole := (db.member repositoryId).map TaskRepositoryRow.role

def attemptRepositoryRow (task : TaskRow) (repositoryId : Uuid) : Option TaskAttemptRepositoryRow :=
  db.attemptRepositories.get (task.attempt, repositoryId)

def isLive (now : Instant) (row : TaskRepositoryWriteRow) : Bool :=
  row.releasedAt.isNone && decide (now < row.expiresAt)

/-- `ORDER BY admitted_at, id, repository_id`. -/
def admittedBefore (a b : TaskRepositoryWriteRow) : Prop :=
  a.admittedAt < b.admittedAt ∨ (a.admittedAt = b.admittedAt ∧
    (a.id < b.id ∨ (a.id = b.id ∧ a.repositoryId ≤ b.repositoryId)))

instance : DecidableRel admittedBefore := fun _ _ => inferInstanceAs (Decidable (_ ∨ _))

/-- `_live_writes`, of the task or of one repository. -/
def liveWrites (now : Instant) (repositoryId : Option Uuid) : List TaskRepositoryWriteRow :=
  (db.writes.rows.filter fun row =>
    isLive now row && repositoryId.all fun repositoryId => decide (row.repositoryId = repositoryId)).insertionSort
      admittedBefore

def laterStep (latest : Option TaskStepRow) (row : TaskStepRow) : Option TaskStepRow :=
  match latest with
  | none => some row
  | some latest => if latest.sequence < row.sequence then some row else some latest

def latestStep (attempt : ℕ) : Option TaskStepRow :=
  (db.steps.rows.filter fun row => decide (row.attempt = attempt)).foldl laterStep none

def requireCurrentAttempt (task : TaskRow) (attempt : ℕ) : Except TaskError Unit :=
  if attempt ≠ task.attempt then .error .staleAttempt else .ok ()

def requireCurrentRun (task : TaskRow) (run : TaskRun) : Except TaskError Unit :=
  if run.attempt ≠ task.attempt then .error .staleAttempt
  else if run.retryCount ≠ task.retryCount then .error .staleRun
  else .ok ()

def couldHaveChanged (current : Option RepoRole) (stateRow : Option TaskAttemptRepositoryRow) : Bool :=
  if current.any fun role => decide (role ≠ .referenced) then true
  else stateRow.any fun row => row.modified || decide (row.strongestRole ≠ .referenced)

def couldEverHaveChanged (repositoryId : Uuid) (current : Option RepoRole) : Bool :=
  if current.any fun role => decide (role ≠ .referenced) then true
  else db.attemptRepositories.rows.any fun row =>
    decide (row.repositoryId = repositoryId) && (row.modified || decide (row.strongestRole ≠ .referenced))

/-- The next number of an identity column: later than every one the task has, with whatever the other
tasks and the transactions that failed took in between. -/
def nextSeq (gap : ℕ) : ℤ := (db.events.getLast?.map TaskEventRow.seq).getD 0 + 1 + gap

def nextStepId (gap : ℕ) : ℤ := db.steps.rows.foldl (fun id row => max id row.id) 0 + 1 + gap

end TaskDb

/-! ### Arguments -/

def isSurrogate (c : ℕ) : Bool := 0xD800 ≤ c ∧ c ≤ 0xDFFF

def storable (name : String) (value : Text) : Except TaskError Unit :=
  if 0 ∈ value then .error (.invalidCommandArgument s!"{name} must not contain NUL characters")
  else if value.any isSurrogate then
    .error (.invalidCommandArgument s!"{name} must be valid Unicode text (no surrogate characters)")
  else .ok ()

/-- `_text`. -/
def checkedText (name : String) (value : Text) (limit : ℕ) : Except TaskError Unit :=
  if value.all Text.isSpace ∨ limit < value.length then
    .error (.invalidCommandArgument s!"{name} must be 1 to {limit} characters")
  else storable name value

/-- `_optional_text`. -/
def checkedOptionalText (name : String) (value : Option Text) (limit : ℕ) : Except TaskError Unit :=
  match value with
  | none => .ok ()
  | some value => checkedText name value limit

/-- `_int`. -/
def checkedInt (name : String) (value low high : ℤ) : Except TaskError Unit :=
  if low ≤ value ∧ value ≤ high then .ok ()
  else .error (.invalidCommandArgument s!"{name} must be an integer from {low} to {high}")

/-- What `_checked_json` says of an object: nothing else of it is read. -/
inductive JsonArgument
  | fits
  | refused (message : String)
  deriving DecidableEq, Repr

def JsonArgument.checked : JsonArgument → Except TaskError Unit
  | .fits => .ok ()
  | .refused message => .error (.invalidCommandArgument message)

end PawBackend.Tasks
