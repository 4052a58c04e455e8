/-
**The task queue** (`tasks/queueing/task_queue.py`, `tasks/queueing/validation.py`).

Every method is one transaction on the table of entries, with the readings of the database clock as arguments: a claim
judges leases by one reading and stamps its own with a later one, a call of a worker is judged by a reading taken
while the entry's row is locked, and the readings of an enqueue and a cancel only stamp their row.
-/

import PawBackend.Lib.Machine
import PawBackend.Tasks.Tables

namespace PawBackend.Tasks

open Lib
open Tools (Uuid Instant)

/-! ### Entries -/

inductive Priority
  | high
  | normal
  | low
  deriving DecidableEq, Repr

/-- `PRIORITY_RANKS`. -/
def Priority.rank : Priority → ℕ
  | .high => 0
  | .normal => 1
  | .low => 2

inductive QueueStatus
  | queued
  | claimed
  | completed
  | cancelled
  deriving DecidableEq, Repr

/-- A row of `queue_entries`. -/
structure QueueEntryRow where
  id : ℤ
  taskId : Uuid
  priority : Priority
  status : QueueStatus
  enqueuedAt : Instant
  claimedBy : Option Text
  claimedAt : Option Instant
  leaseExpiresAt : Option Instant
  claimCount : ℤ
  finishedAt : Option Instant
  deriving DecidableEq, Repr

abbrev QueueTable := Keyed QueueEntryRow.id

inductive QueueError
  | invalidArgument (parameter : String)
  | taskNotFound
  | projectNotActive
  | taskAlreadyQueued
  | leaseLost
  | integrity
  | outOfRange
  deriving DecidableEq, Repr

namespace QueueEntryRow

variable (row : QueueEntryRow)

/-- `ACTIVE_QUEUE_STATUSES`. -/
def isActive : Bool := decide (row.status = .queued ∨ row.status = .claimed)

/-- Whether a claim that reads the clock may take the entry. -/
def isClaimable (now : Instant) : Bool :=
  decide (row.status = .queued) ||
    (decide (row.status = .claimed) && row.leaseExpiresAt.any fun expires => decide (expires ≤ now))

def isHeldBy (workerId : Text) (claimCount : ℤ) (now : Instant) : Bool :=
  decide (row.status = .claimed) && decide (row.claimedBy = some workerId) &&
    decide (row.claimCount = claimCount) && row.leaseExpiresAt.any fun expires => decide (now < expires)

/-- What `claim_next` writes. -/
def claim (workerId : Text) (now lease : Instant) : QueueEntryRow :=
  { row with
    status := .claimed, claimedBy := some workerId, claimedAt := some now
    leaseExpiresAt := some (now + lease), claimCount := row.claimCount + 1 }

/-- What `heartbeat` writes. -/
def extend (expiry : Instant) : QueueEntryRow :=
  { row with leaseExpiresAt := row.leaseExpiresAt.map fun expires => max expires expiry }

/-- What `release` writes. -/
def giveBack : QueueEntryRow :=
  { row with status := .queued, claimedBy := none, claimedAt := none, leaseExpiresAt := none }

/-- What `complete` writes. -/
def complete (now : Instant) : QueueEntryRow :=
  { row with status := .completed, finishedAt := some now, leaseExpiresAt := none }

/-- What `cancel` writes. -/
def cancel (now : Instant) : QueueEntryRow :=
  { row with status := .cancelled, finishedAt := some now, leaseExpiresAt := none }

/-- `ORDER BY priority_rank, enqueued_at, id`. -/
def before (a b : QueueEntryRow) : Prop :=
  a.priority.rank < b.priority.rank ∨ (a.priority.rank = b.priority.rank ∧
    (a.enqueuedAt < b.enqueuedAt ∨ (a.enqueuedAt = b.enqueuedAt ∧ a.id ≤ b.id)))

instance : DecidableRel before := fun _ _ => inferInstanceAs (Decidable (_ ∨ _))

end QueueEntryRow

/-! ### Arguments -/

def checkEntryId (value : ℤ) : Except QueueError Unit :=
  if 1 ≤ value ∧ value ≤ maxBigint then .ok () else .error (.invalidArgument "entry_id")

def checkClaimCount (value : ℤ) : Except QueueError Unit :=
  if 1 ≤ value ∧ value ≤ maxInteger then .ok () else .error (.invalidArgument "claim_count")

/-- `_WORKER_ID`. -/
def isWorkerId (value : Text) : Bool :=
  let isFirst := fun c => Text.isUpper c || Text.isLower c || Text.isDigit c
  match value with
  | [] => false
  | c :: rest => isFirst c && rest.all fun c => isFirst c || decide (c ∈ Text.lit "._:@/-")

def checkWorkerId (value : Text) : Except QueueError Unit :=
  if value.length ≤ 100 ∧ isWorkerId value then .ok () else .error (.invalidArgument "worker_id")

/-- What a worker presents, and the reading its lease is judged by. -/
structure Hold where
  entryId : ℤ
  workerId : Text
  claimCount : ℤ
  now : Instant
  deriving DecidableEq, Repr

def checkHold (hold : Hold) : Except QueueError Unit := do
  checkEntryId hold.entryId
  checkWorkerId hold.workerId
  checkClaimCount hold.claimCount

/-- `QueueLease`: what a worker presents, checked. -/
structure QueueLease where
  entryId : ℤ
  workerId : Text
  claimCount : ℤ
  entryId_checked : checkEntryId entryId = .ok ()
  workerId_checked : checkWorkerId workerId = .ok ()
  claimCount_checked : checkClaimCount claimCount = .ok ()

/-! ### The queue -/

/-- What a transaction meets besides the entries. -/
structure QueueView where
  /-- The state of a task, and whether its project is Active. -/
  task : Uuid → Option (TaskState × Bool)
  /-- Whether a row of `deploy_maintenance` exists. -/
  maintenance : Bool := false
  /-- The entries a claim skips: another transaction has locked them, or inserted them too late. -/
  hidden : ℤ → Bool := fun _ => false
  /-- What the identity column gives. -/
  newId : ℤ := 1

/-- A queue, with its `lease_seconds`. -/
structure TaskQueue where
  leaseSeconds : ℤ
  leaseSeconds_bound : 1 ≤ leaseSeconds ∧ leaseSeconds ≤ 86400

namespace TaskQueue

variable (queue : TaskQueue) (t : QueueTable)

def lease : Instant := queue.leaseSeconds * 10 ^ 6

/-- `_NEEDS_A_WORKER`. -/
def needsWorker (state : Option TaskState) : Bool := decide (state = some .queued ∨ state = some .running)

/-- What `finish` writes: an entry is given back where its task needs a worker. -/
def ended (state : Option TaskState) (now : Instant) (row : QueueEntryRow) : QueueEntryRow :=
  if needsWorker state then row.giveBack else row.complete now

def isActiveOf (taskId : Uuid) (row : QueueEntryRow) : Bool := decide (row.taskId = taskId) && row.isActive

def enqueue (taskId : Uuid) (priority : Priority) (now : Instant) (view : QueueView) :
    Except QueueError (QueueEntryRow × QueueTable) := do
  let task ← orThrow (view.task taskId) .taskNotFound
  if !task.2 then throw .projectNotActive
  let row : QueueEntryRow :=
    { id := view.newId, taskId := taskId, priority := priority, status := .queued, enqueuedAt := now
      claimedBy := none, claimedAt := none, leaseExpiresAt := none, claimCount := 0, finishedAt := none }
  -- The unique index: one active entry of a task.
  if t.rows.any (isActiveOf taskId) then throw .taskAlreadyQueued
  let entries ← orThrow (t.tryInsert row) .integrity
  return (row, entries)

def nextEntry (judgedAt : Instant) (view : QueueView) : Option QueueEntryRow :=
  ((t.rows.filter fun row => row.isClaimable judgedAt && !view.hidden row.id &&
    (view.task row.taskId).any Prod.snd).insertionSort QueueEntryRow.before).head?

def claimNext (workerId : Text) (judgedAt now : Instant) (view : QueueView) :
    Except QueueError (Option QueueEntryRow × QueueTable) := do
  checkWorkerId workerId
  if view.maintenance then return (none, t)
  match nextEntry t judgedAt view with
  | none => return (none, t)
  | some row =>
    let claimed := row.claim workerId now queue.lease
    if maxInteger < claimed.claimCount then throw .outOfRange
    return (some claimed, t.put claimed)

/-- `_update_held_in`. -/
def updateHeld (hold : Hold) (written : QueueEntryRow → QueueEntryRow) :
    Except QueueError (QueueEntryRow × QueueTable) :=
  match t.get hold.entryId with
  | none => .error .leaseLost
  | some row =>
    if row.isHeldBy hold.workerId hold.claimCount hold.now then .ok (written row, t.put (written row))
    else .error .leaseLost

def heartbeat (hold : Hold) : Except QueueError (QueueEntryRow × QueueTable) := do
  checkHold hold
  updateHeld t hold fun row => row.extend (hold.now + queue.lease)

def release (hold : Hold) : Except QueueError (QueueEntryRow × QueueTable) := do
  checkHold hold
  updateHeld t hold QueueEntryRow.giveBack

def complete (hold : Hold) : Except QueueError (QueueEntryRow × QueueTable) := do
  checkHold hold
  updateHeld t hold fun row => row.complete hold.now

def finish (hold : Hold) (view : QueueView) : Except QueueError (QueueEntryRow × QueueTable) := do
  checkHold hold
  let row ← orThrow (t.get hold.entryId) .leaseLost
  updateHeld t hold (ended ((view.task row.taskId).map Prod.fst) hold.now)

def cancel (taskId : Uuid) (onlyIfTaskTerminal : Bool) (now : Instant) (view : QueueView) :
    Bool × QueueTable :=
  if onlyIfTaskTerminal && !((view.task taskId).any fun task => task.1.isTerminal) then (false, t)
  else
    (t.rows.any (isActiveOf taskId), t.update (isActiveOf taskId) (fun row => row.cancel now) fun _ _ => rfl)

def holdsLease (taskId : Uuid) (lease : QueueLease) (now : Instant) : Bool :=
  (t.get lease.entryId).any fun row =>
    decide (row.taskId = taskId) && row.isHeldBy lease.workerId lease.claimCount now

end TaskQueue

/-! ### Runs -/

inductive QueueCall
  | enqueue (taskId : Uuid) (priority : Priority) (now : Instant)
  | claimNext (workerId : Text) (judgedAt now : Instant)
  | heartbeat (hold : Hold)
  | release (hold : Hold)
  | complete (hold : Hold)
  | finish (hold : Hold)
  | cancel (taskId : Uuid) (onlyIfTaskTerminal : Bool) (now : Instant)

/-- What a call returns. -/
inductive QueueAnswer
  | entry (row : QueueEntryRow)
  | claimed (row : Option QueueEntryRow)
  | cancelled (any : Bool)
  deriving DecidableEq

namespace TaskQueue

variable (queue : TaskQueue)

def perform (t : QueueTable) (view : QueueView) : QueueCall → Except QueueError (QueueAnswer × QueueTable)
  | .enqueue taskId priority now => (enqueue t taskId priority now view).map (Prod.map .entry id)
  | .claimNext workerId judgedAt now =>
    (queue.claimNext t workerId judgedAt now view).map (Prod.map .claimed id)
  | .heartbeat hold => (queue.heartbeat t hold).map (Prod.map .entry id)
  | .release hold => (release t hold).map (Prod.map .entry id)
  | .complete hold => (complete t hold).map (Prod.map .entry id)
  | .finish hold => (finish t hold view).map (Prod.map .entry id)
  | .cancel taskId onlyIfTaskTerminal now =>
    .ok (Prod.map .cancelled id (cancel t taskId onlyIfTaskTerminal now view))

/-- A call as a transaction: what is refused leaves the entries as they were. -/
def apply (t : QueueTable) (call : QueueCall) (view : QueueView) : QueueTable :=
  match queue.perform t view call with
  | .ok (_, after) => after
  | .error _ => t

end TaskQueue

def QueueCall.inOrder : QueueCall → Bool
  | .claimNext _ judgedAt now => decide (judgedAt ≤ now)
  | _ => true

/-- Every sequence of committed calls, whatever else their transactions met. -/
def TaskQueue.machine (queue : TaskQueue) : Machine QueueTable (QueueCall × QueueView) where
  initial t := t = .empty
  step t event := if event.1.inOrder then some (queue.apply t event.1 event.2) else none

def minuteQueue : TaskQueue := ⟨60, ⟨by omega, by omega⟩⟩

end PawBackend.Tasks
