/-
**Stopping the tasks of a project whose deletion began** (`projects/task_stop.py`, `projects/task_gate.py`;
`projects/service.py`: `_lifecycle`, `purge_expired`; `projects/store.py`: `request_task_stop`,
`mark_task_stop_processed`; `tasks/service.py`: `execute`, `create_task`; `tasks/queueing/task_queue.py`: `enqueue`,
`cancel_in`).

Each operation is one transaction with the row locks its statements take.
-/

import PawBackend.Lib.Transactions
import PawBackend.Projects.Domain
import PawBackend.Tasks.Queue

namespace PawBackend.Projects.TaskStop

open Lib
open Tools (Instant Uuid)
open Tasks (Priority QueueEntryRow QueueTable TaskCommand TaskState WaitReason)

/-! ### Rows -/

structure TaskRow where
  id : Uuid
  projectId : Uuid
  state : TaskState
  readOnly : Bool
  deriving DecidableEq, Repr

/-- A row of `project_task_stops`. -/
structure StopRow where
  projectId : Uuid
  requestedAt : Instant
  processedAt : Option Instant
  deriving DecidableEq, Repr

structure StopTables where
  projects : Keyed Project.id
  stops : Keyed StopRow.projectId
  tasks : Keyed TaskRow.id
  entries : QueueTable

def stopping : List ProjectStatus := [.pendingDeletion, .deleted]

namespace StopTables

variable (db : StopTables)

def status (projectId : Uuid) : Option ProjectStatus := (db.projects.get projectId).map Project.status

def isStopping (projectId : Uuid) : Bool := (db.status projectId).any fun status => decide (status ∈ stopping)

def taskIn (projectId taskId : Uuid) (p : TaskState → Bool) : Bool :=
  (db.tasks.get taskId).any fun task => decide (task.projectId = projectId) && p task.state

def hasActiveTask (projectId : Uuid) : Bool :=
  db.tasks.rows.any fun task => decide (task.projectId = projectId) && !task.state.isTerminal

def hasActiveQueueEntry (projectId : Uuid) : Bool :=
  db.entries.rows.any fun entry => entry.isActive && db.taskIn projectId entry.taskId fun _ => true

def activeEntries (taskId : Uuid) : List ℤ := (db.entries.rows.filter (Tasks.TaskQueue.isActiveOf taskId)).map QueueEntryRow.id

/-- `task.state = plan.target`. -/
def setState (taskId : Uuid) (state : TaskState) : StopTables :=
  { db with tasks := db.tasks.update (fun task => decide (task.id = taskId)) (fun task => { task with state }) fun _ _ => rfl }

/-- The `UPDATE` of `cancel_in` on the entries it found. -/
def cancelEntries (taskId : Uuid) (found : List ℤ) (now : Instant) : StopTables :=
  { db with
    entries := db.entries.update (fun entry => decide (entry.id ∈ found) && Tasks.TaskQueue.isActiveOf taskId entry)
      (fun entry => entry.cancel now) fun _ _ => rfl }

def requestTaskStop (projectId : Uuid) (now : Instant) : StopTables :=
  { db with stops := db.stops.put ⟨projectId, now, none⟩ }

def markTaskStopProcessed (projectId : Uuid) (now : Instant) : StopTables :=
  { db with
    stops := db.stops.update (fun stop => decide (stop.projectId = projectId ∧ stop.processedAt = none))
      (fun stop => { stop with processedAt := some now }) fun _ _ => rfl }

/-- `set_lifecycle` and `mark_deleted`, on a project's row. -/
def writeProject (projectId : Uuid) (write : Project → Project) (keeps : ∀ project, (write project).id = project.id) :
    StopTables :=
  { db with projects := db.projects.update (fun project => decide (project.id = projectId)) write fun project _ => keeps project }

end StopTables

/-! ### Transactions -/

/-- The row locks: `FOR SHARE` and `FOR UPDATE` a project or a task (a command takes `FOR NO KEY UPDATE`), and the
entries a statement writes. -/
inductive StopLock
  | projectShare (id : Uuid)
  | projectUpdate (id : Uuid)
  | taskShare (id : Uuid)
  | taskUpdate (id : Uuid)
  | entry (id : ℤ)
  deriving DecidableEq, Repr

def StopLock.conflict : StopLock → StopLock → Bool
  | .projectShare a, .projectUpdate b => decide (a = b)
  | .projectUpdate a, .projectShare b => decide (a = b)
  | .projectUpdate a, .projectUpdate b => decide (a = b)
  | .taskShare a, .taskUpdate b => decide (a = b)
  | .taskUpdate a, .taskShare b => decide (a = b)
  | .taskUpdate a, .taskUpdate b => decide (a = b)
  | .entry a, .entry b => decide (a = b)
  | _, _ => false

theorem StopLock.conflict_comm (l l' : StopLock) : l.conflict l' = l'.conflict l := by
  cases l <;> cases l' <;> simp only [conflict, eq_comm]

inductive StopFailure
  | projectNotFound
  | projectNotActive
  | projectIsLive
  | illegalProjectTransition
  | deletionWindowClosed
  | taskNotFound
  | task (error : Tasks.TaskError)
  | queue (error : Tasks.QueueError)
  | refused
  deriving DecidableEq, Repr

/-- What a transaction did. -/
inductive StopReply
  /-- The stopper cancelled a task, and its entry where there was one. -/
  | stopped (taskId : Uuid) (entry : Bool)
  | entryOfFinished (taskId : Uuid) (cancelled : Bool)
  | finished (projectId : Uuid) (done : Bool)
  /-- The id was not listed. -/
  | skipped
  | project (projectId : Uuid) (status : ProjectStatus)
  | task (taskId : Uuid)
  | entry (id : ℤ)
  deriving DecidableEq, Repr

abbrev StopTxn := Txn StopTables StopLock StopFailure StopReply

def shareLockStatus (projectId : Uuid) (next : Option ProjectStatus → StopTxn) : StopTxn :=
  .lock (.projectShare projectId) (fun db => (db.projects.get projectId).isSome) fun db => next (db.status projectId)

def requireActive (projectId : Uuid) (next : StopTxn) : StopTxn :=
  shareLockStatus projectId fun status => if status ≠ some .active then .raise .projectNotActive else next

def requireStopping (projectId : Uuid) (next : StopTxn) : StopTxn :=
  shareLockStatus projectId fun status =>
    match status with
    | none => .raise .projectNotFound
    | some status => if status ∉ stopping then .raise .projectIsLive else next

def gatedCommands : List TaskCommand := [.start, .retry, .restart]

/-- `TaskService.execute`: the checks, and then what the transaction goes on with, given the task's project and the
state that the command writes. -/
def execute (taskId : Uuid) (command : TaskCommand) (waitReason : Option WaitReason) (refused : Bool)
    (next : Uuid → TaskState → StopTxn) : StopTxn :=
  .lock (.taskUpdate taskId) (fun db => (db.tasks.get taskId).isSome) fun db =>
    match db.tasks.get taskId with
    | none => .raise .taskNotFound
    | some task =>
      match Tasks.planTransition task.state command waitReason task.readOnly with
      | .error error => .raise (.task error)
      | .ok plan =>
        let go := if refused then .raise .refused else next task.projectId plan.target
        if command ∈ gatedCommands then requireActive task.projectId go else go

/-- The rows of an `UPDATE`, locked one after another. -/
def lockEntries (next : StopTxn) : List ℤ → StopTxn
  | [] => next
  | id :: rest => .lock (.entry id) (fun db => (db.entries.get id).isSome) fun _ => lockEntries next rest

/-- The `UPDATE` of `cancel_in`, with the rest of the transaction. -/
def cancelIn (taskId : Uuid) (commit : List ℤ → StopTxn) : StopTxn :=
  .read fun db => lockEntries (commit (db.activeEntries taskId)) (db.activeEntries taskId)

/-- `_stop_task`, where the task was listed as an active one of the project. -/
def stopTask (projectId taskId : Uuid) (refused : Bool) (now : Instant) : StopTxn :=
  .read fun db =>
    if (db.isStopping projectId && db.taskIn projectId taskId fun state => !state.isTerminal) = false then
      .commit fun db => .ok (db, .skipped)
    else
      execute taskId .cancel none refused fun project target =>
        requireStopping project <|
          cancelIn taskId fun found =>
            .commit fun db =>
              .ok ((db.setState taskId target).cancelEntries taskId found now, .stopped taskId (!found.isEmpty))

/-- `_cancel_entry_of_finished_task`, where the task was listed as one of the project. -/
def cancelEntryOfFinishedTask (projectId taskId : Uuid) (now : Instant) : StopTxn :=
  .read fun db =>
    if (db.isStopping projectId && db.taskIn projectId taskId fun _ => true) = false then .commit fun db => .ok (db, .skipped)
    else
      requireStopping projectId <|
        .lock (.taskShare taskId) (fun db => (db.tasks.get taskId).isSome) fun db =>
          if ((db.tasks.get taskId).any fun task => task.state.isTerminal) = false then
            .commit fun db => .ok (db, .entryOfFinished taskId false)
          else
            cancelIn taskId fun found =>
              .commit fun db => .ok (db.cancelEntries taskId found now, .entryOfFinished taskId (!found.isEmpty))

def finish (projectId : Uuid) (now : Instant) : StopTxn :=
  shareLockStatus projectId fun status =>
    let mark : StopTxn := .commit fun db => .ok (db.markTaskStopProcessed projectId now, .finished projectId true)
    let open_ : StopTxn := .commit fun db => .ok (db, .finished projectId false)
    match status with
    | none => .raise .projectNotFound
    | some status =>
      if status ∈ stopping then
        .read fun db =>
          if db.hasActiveTask projectId then open_
          else .read fun db => if db.hasActiveQueueEntry projectId then open_ else mark
      else mark

/-! ### What others do -/

def deletedProjectName : Text := Text.lit "Deleted Project"

/-- The row that `_lifecycle` or `purge_expired` writes. -/
def lifecycleRow (action : LifecycleAction) (newStatus : ProjectStatus) (now : Instant) (project : Project) : Project :=
  match action with
  | .purge => { project with status := newStatus, name := deletedProjectName }
  | .beginDeletion =>
    { project with status := newStatus, deletionStartedAt := some now, deletionScheduledAt := some (deletionSchedule now) }
  | _ => { project with status := newStatus, deletionStartedAt := none, deletionScheduledAt := none }

theorem lifecycleRow_id (action : LifecycleAction) (newStatus : ProjectStatus) (now : Instant) (project : Project) :
    (lifecycleRow action newStatus now project).id = project.id := by
  cases action <;> rfl

/-- `_lifecycle`, and the part of `purge_expired` about one project; `refused` is what the Authorizer, the confirmation
and the check of the Managers decide. -/
def lifecycle (projectId : Uuid) (action : LifecycleAction) (refused : Bool) (now : Instant) : StopTxn :=
  .lock (.projectUpdate projectId) (fun db => (db.projects.get projectId).isSome) fun db =>
    match db.projects.get projectId with
    | none => .raise .projectNotFound
    | some project =>
      match planTransition project.status action with
      | none => .raise .illegalProjectTransition
      | some plan =>
        if refused then .raise .refused
        else if plan.changed = false then .commit fun db => .ok (db, .project projectId project.status)
        else if action = .restore ∧ project.deletionScheduledAt.any (fun deadline => restoreWindowOpen deadline now) = false then
          .raise .deletionWindowClosed
        else if action = .purge ∧ project.deletionScheduledAt.any (fun deadline => decide (deadline ≤ now)) = false then
          .raise .refused
        else
          .commit fun db =>
            let written := db.writeProject projectId (lifecycleRow action plan.newStatus now) (lifecycleRow_id _ _ _)
            .ok (if action = .beginDeletion then written.requestTaskStop projectId now else written,
              .project projectId plan.newStatus)

def createTask (projectId taskId : Uuid) (readOnly refused : Bool) : StopTxn :=
  requireActive projectId <|
    if refused then .raise .refused
    else
      .commit fun db =>
        match db.tasks.tryInsert ⟨taskId, projectId, .queued, readOnly⟩ with
        | none => .error .refused
        | some tasks => .ok ({ db with tasks }, .task taskId)

/-- A command of a user, of a worker or of the orchestrator. -/
def executeCommand (taskId : Uuid) (command : TaskCommand) (waitReason : Option WaitReason) (refused : Bool) : StopTxn :=
  execute taskId command waitReason refused fun _ target =>
    .commit fun db => .ok (db.setState taskId target, .task taskId)

/-- The entry that `enqueue` inserts. -/
def newEntry (id : ℤ) (taskId : Uuid) (priority : Priority) (now : Instant) : QueueEntryRow :=
  ⟨id, taskId, priority, .queued, now, none, none, none, 0, none⟩

/-- `enqueue`: the task's project never changes, so it is read without a lock. -/
def enqueue (taskId : Uuid) (id : ℤ) (priority : Priority) (now : Instant) : StopTxn :=
  .read fun db =>
    match db.tasks.get taskId with
    | none => .raise .taskNotFound
    | some task =>
      requireActive task.projectId <|
        .commit fun db =>
          if (db.activeEntries taskId).isEmpty = false then .error (.queue .taskAlreadyQueued)
          else
            match db.entries.tryInsert (newEntry id taskId priority now) with
            | none => .error (.queue .integrity)
            | some entries => .ok ({ db with entries }, .entry id)

inductive StopOperation
  | stopTask (projectId taskId : Uuid) (refused : Bool) (now : Instant)
  | cancelEntryOfFinishedTask (projectId taskId : Uuid) (now : Instant)
  | finish (projectId : Uuid) (now : Instant)
  | lifecycle (projectId : Uuid) (action : LifecycleAction) (refused : Bool) (now : Instant)
  | createTask (projectId taskId : Uuid) (readOnly refused : Bool)
  | execute (taskId : Uuid) (command : TaskCommand) (waitReason : Option WaitReason) (refused : Bool)
  | enqueue (taskId : Uuid) (id : ℤ) (priority : Priority) (now : Instant)

def StopOperation.txn : StopOperation → StopTxn
  | .stopTask projectId taskId refused now => TaskStop.stopTask projectId taskId refused now
  | .cancelEntryOfFinishedTask projectId taskId now => TaskStop.cancelEntryOfFinishedTask projectId taskId now
  | .finish projectId now => TaskStop.finish projectId now
  | .lifecycle projectId action refused now => TaskStop.lifecycle projectId action refused now
  | .createTask projectId taskId readOnly refused => TaskStop.createTask projectId taskId readOnly refused
  | .execute taskId command waitReason refused => executeCommand taskId command waitReason refused
  | .enqueue taskId id priority now => TaskStop.enqueue taskId id priority now

inductive EntryMove
  | claim (workerId : Text) (now lease : Instant)
  | extend (expiry : Instant)
  | giveBack
  | complete (now : Instant)
  | cancel (now : Instant)
  deriving DecidableEq, Repr

def EntryMove.write : EntryMove → QueueEntryRow → QueueEntryRow
  | .claim workerId now lease, entry => entry.claim workerId now lease
  | .extend expiry, entry => entry.extend expiry
  | .giveBack, entry => entry.giveBack
  | .complete now, entry => entry.complete now
  | .cancel now, entry => entry.cancel now

inductive StopChange
  | project (row : Project)
  | entry (id : ℤ) (move : EntryMove)

theorem EntryMove.write_id (move : EntryMove) (entry : QueueEntryRow) : (move.write entry).id = entry.id := by
  cases move <;> rfl

def StopChange.apply (change : StopChange) (db : StopTables) : StopTables :=
  match change with
  | .project row => if row.status = .active then { db with projects := (db.projects.tryInsert row).getD db.projects } else db
  | .entry id move =>
    { db with
      entries := db.entries.update (fun entry => decide (entry.id = id) && entry.isActive) move.write
        fun entry _ => move.write_id entry }

def stopSystem : Transactional StopTables StopLock StopFailure StopReply StopOperation StopChange where
  conflict := StopLock.conflict
  symmetric := StopLock.conflict_comm
  program := StopOperation.txn
  ambient := StopChange.apply

end PawBackend.Projects.TaskStop
