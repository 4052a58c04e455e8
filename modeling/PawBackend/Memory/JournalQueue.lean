/-
**The consolidation queue** (`memory/journal/queue.py`, `memory/journal/consolidator.py`, `memory/journal/service.py`).

A journal entry waits as a Pending Observation until the output of the memory worker is applied.
-/

import PawBackend.Memory.Consolidation
import PawBackend.Tasks.Queue

namespace PawBackend.Memory

open Lib
open Tools (Uuid Instant)
open Tasks (Priority isWorkerId)

/-! ### The tables -/

inductive EntryState
  | pending
  | consolidated
  deriving DecidableEq, Repr

inductive JobStatus
  | queued
  | claimed
  | completed
  | dead
  deriving DecidableEq, Repr

inductive FailureKind
  | workerUnavailable
  | workerTimeout
  | workerError
  | workerOutputInvalid
  | applyFailed
  deriving DecidableEq, Repr

def FailureKind.countsTowardDeadLetter (kind : FailureKind) : Bool := decide (kind ≠ .workerUnavailable)

/-- A row of `memory_consolidation_queue`. -/
structure QueueJob where
  id : ℕ
  entryId : Uuid
  priority : Priority
  status : JobStatus := .queued
  enqueuedAt : Instant
  availableAt : Instant
  attempts : ℕ := 0
  deferrals : ℕ := 0
  claimCount : ℕ := 0
  claimedBy : Option Text := none
  claimedAt : Option Instant := none
  leaseExpiresAt : Option Instant := none
  lastFailure : Option FailureKind := none
  finishedAt : Option Instant := none
  deriving DecidableEq

/-- A row of `memory_journal_entries`. -/
structure JournalEntry where
  id : Uuid
  state : EntryState := .pending
  context : EntryContext

/-- `applied` lists the entries whose output was applied, in the order of the commits. -/
structure JournalTables where
  jobs : Keyed QueueJob.id
  entries : Keyed JournalEntry.id
  journal : JournalDb
  applied : List Uuid

inductive JournalError
  | invalidInput (field : String)
  | entryNotFound
  | entryNotPending
  | leaseLost
  | database
  deriving DecidableEq, Repr

namespace QueueJob

variable (job : QueueJob)

/-- `ACTIVE_JOB_STATUSES`. -/
def isActive : Bool := decide (job.status = .queued ∨ job.status = .claimed)

def isClaimable (now : Instant) : Bool :=
  decide (job.status = .queued ∧ job.availableAt ≤ now) ||
    (decide (job.status = .claimed) && job.leaseExpiresAt.any fun expires => decide (expires ≤ now))

def isHeldBy (workerId : Text) (claimCount : ℕ) (now : Instant) : Bool :=
  decide (job.status = .claimed) && decide (job.claimedBy = some workerId) && decide (job.claimCount = claimCount) &&
    job.leaseExpiresAt.any fun expires => decide (now < expires)

/-- `ORDER BY priority_rank, enqueued_at, id`. -/
def before (a b : QueueJob) : Prop :=
  a.priority.rank < b.priority.rank ∨ (a.priority.rank = b.priority.rank ∧
    (a.enqueuedAt < b.enqueuedAt ∨ (a.enqueuedAt = b.enqueuedAt ∧ a.id ≤ b.id)))

instance : DecidableRel before := fun _ _ => inferInstanceAs (Decidable (_ ∨ _))

/-- What `claim_next` writes: an expired lease counts as a failed attempt. -/
def claim (workerId : Text) (now lease : Instant) : QueueJob :=
  { job with
    status := .claimed, claimedBy := some workerId, claimedAt := some now, leaseExpiresAt := some (now + lease)
    claimCount := job.claimCount + 1
    attempts := if job.status = .claimed then job.attempts + 1 else job.attempts
    lastFailure := if job.status = .claimed then some .workerError else job.lastFailure }

/-- What `heartbeat` writes. -/
def extend (expiry : Instant) : QueueJob := { job with leaseExpiresAt := job.leaseExpiresAt.map fun expires => max expires expiry }

/-- What `complete_job` writes. -/
def complete (now : Instant) : QueueJob := { job with status := .completed, finishedAt := some now, leaseExpiresAt := none }

/-- What `dead_letter` writes. -/
def bury (now : Instant) : QueueJob :=
  { job with
    status := .dead, finishedAt := some now, leaseExpiresAt := none, attempts := max job.attempts 1
    lastFailure := job.lastFailure.or (some .workerError) }

end QueueJob

/-! ### The queue -/

def maxJobId : ℕ := 2 ^ 63 - 1

def maxClaimCount : ℕ := 2 ^ 31 - 1

/-- The delays of a job that failed. -/
structure Backoff where
  baseSeconds : ℕ := 30
  factor : ℕ := 2
  maxSeconds : ℕ := 900
  base_bound : 1 ≤ baseSeconds ∧ baseSeconds ≤ 86400 := by decide
  factor_bound : 1 ≤ factor ∧ factor ≤ 10 := by decide
  max_bound : baseSeconds ≤ maxSeconds ∧ maxSeconds ≤ 86400 := by decide

/-- The loop of `delay_seconds`. -/
def Backoff.grow (backoff : Backoff) : ℕ → ℕ → ℕ
  | 0, delay => delay
  | rounds + 1, delay => if backoff.maxSeconds ≤ delay then delay else backoff.grow rounds (delay * backoff.factor)

def Backoff.delaySeconds (backoff : Backoff) (failures : ℕ) : Except JournalError ℕ :=
  if ¬(1 ≤ failures ∧ failures ≤ maxClaimCount) then throw (.invalidInput "failures")
  else if backoff.factor = 1 then pure backoff.baseSeconds
  else pure (min (backoff.grow (failures - 1) backoff.baseSeconds) backoff.maxSeconds)

structure ConsolidationQueue where
  leaseSeconds : ℕ
  maxAttempts : ℕ
  backoff : Backoff
  leaseSeconds_bound : 1 ≤ leaseSeconds ∧ leaseSeconds ≤ 86400
  maxAttempts_bound : 1 ≤ maxAttempts ∧ maxAttempts ≤ 100

def ConsolidationQueue.lease (queue : ConsolidationQueue) : Instant := queue.leaseSeconds * 10 ^ 6

/-- What a worker presents. -/
structure Hold where
  jobId : ℕ
  workerId : Text
  claimCount : ℕ
  deriving DecidableEq

def validateWorkerId (workerId : Text) : Except JournalError Unit :=
  if workerId.length ≤ 100 ∧ isWorkerId workerId then pure () else throw (.invalidInput "worker_id")

def validateHold (hold : Hold) : Except JournalError Unit := do
  if ¬(1 ≤ hold.jobId ∧ hold.jobId ≤ maxJobId) then throw (.invalidInput "job_id")
  validateWorkerId hold.workerId
  if ¬(1 ≤ hold.claimCount ∧ hold.claimCount ≤ maxClaimCount) then throw (.invalidInput "claim_count")

namespace JournalTables

variable (t : JournalTables)

def putJob (job : QueueJob) : JournalTables := { t with jobs := t.jobs.put job }

def activeJob (entryId : Uuid) : Option QueueJob := t.jobs.rows.find? fun job => decide (job.entryId = entryId) && job.isActive

/-- `insert_job`: the job of an entry, or its active one. -/
def insertJob (entryId : Uuid) (priority : Priority) (newId : ℕ) (now : Instant) : Except JournalError (QueueJob × JournalTables) :=
  match t.activeJob entryId with
  | some job => pure (job, t)
  | none => do
    let job : QueueJob := { id := newId, entryId := entryId, priority := priority, enqueuedAt := now, availableAt := now }
    let jobs ← orThrow (t.jobs.tryInsert job) .database
    return (job, { t with jobs := jobs })

/-- `record_user_message`, of a message that was accepted: the entry and its job. -/
def record (entryId : Uuid) (context : EntryContext) (priority : Priority) (newId : ℕ) (now : Instant) :
    Except JournalError (QueueJob × JournalTables) := do
  let entries ← orThrow (t.entries.tryInsert { id := entryId, context := context }) .database
  insertJob { t with entries := entries } entryId priority newId now

def enqueue (entryId : Uuid) (priority : Priority) (newId : ℕ) (now : Instant) : Except JournalError (QueueJob × JournalTables) := do
  let entry ← orThrow (t.entries.get entryId) .entryNotFound
  if entry.state ≠ .pending then throw .entryNotPending
  t.insertJob entryId priority newId now

def nextJob (judgedAt : Instant) (hidden : ℕ → Bool) : Option QueueJob :=
  ((t.jobs.rows.filter fun job => job.isClaimable judgedAt && !hidden job.id).insertionSort QueueJob.before).head?

def claimNext (queue : ConsolidationQueue) (workerId : Text) (judgedAt now : Instant) (hidden : ℕ → Bool) :
    Except JournalError (Option QueueJob × JournalTables) := do
  validateWorkerId workerId
  match t.nextJob judgedAt hidden with
  | none => return (none, t)
  | some job =>
    if maxClaimCount < job.claimCount + 1 then throw .database
    return (some (job.claim workerId now queue.lease), t.putJob (job.claim workerId now queue.lease))

def lockHeld (hold : Hold) (judgedAt : Instant) : Except JournalError QueueJob := do
  let job ← orThrow (t.jobs.get hold.jobId) .leaseLost
  if !job.isHeldBy hold.workerId hold.claimCount judgedAt then throw .leaseLost
  return job

def heartbeat (queue : ConsolidationQueue) (hold : Hold) (judgedAt now : Instant) : Except JournalError (QueueJob × JournalTables) := do
  validateHold hold
  let job ← t.lockHeld hold judgedAt
  return (job.extend (now + queue.lease), t.putJob (job.extend (now + queue.lease)))

/-- What `fail` writes. -/
def failed (queue : ConsolidationQueue) (job : QueueJob) (failure : FailureKind) (now : Instant) : Except JournalError QueueJob := do
  let counts := failure.countsTowardDeadLetter
  let attempts := if counts then job.attempts + 1 else job.attempts
  let deferrals := if counts then job.deferrals else job.deferrals + 1
  let delay ← queue.backoff.delaySeconds (if counts then attempts else deferrals)
  let job := { job with attempts := attempts, deferrals := deferrals, lastFailure := some failure, leaseExpiresAt := none }
  return if counts && decide (queue.maxAttempts ≤ attempts) then { job with status := .dead, finishedAt := some now }
    else { job with status := .queued, claimedBy := none, claimedAt := none, availableAt := now + delay * 10 ^ 6 }

def fail (queue : ConsolidationQueue) (hold : Hold) (failure : FailureKind) (judgedAt now : Instant) :
    Except JournalError (QueueJob × JournalTables) := do
  validateHold hold
  let job ← t.lockHeld hold judgedAt
  let job ← failed queue job failure now
  return (job, t.putJob job)

def deadLetter (hold : Hold) (judgedAt now : Instant) : Except JournalError (QueueJob × JournalTables) := do
  validateHold hold
  let job ← t.lockHeld hold judgedAt
  return (job.bury now, t.putJob (job.bury now))

/-- `mark_consolidated`, and the log. -/
def markConsolidated (entry : JournalEntry) (journal : JournalDb) : JournalTables :=
  { t with
    entries := t.entries.put { entry with state := .consolidated }
    journal := journal
    applied := t.applied ++ [entry.id] }

/-- `_apply`: the tables where it commits. -/
def apply (fold : Folding) (hold : Hold) (entryId : Uuid) (items : List WorkerMemory) (given : ℕ → Given) (judgedAt now : Instant) :
    Except JournalError JournalTables := do
  let job ← t.lockHeld hold judgedAt
  let entry ← orThrow (t.entries.get entryId) .leaseLost
  match entry.state with
  | .consolidated => return t.putJob (job.complete now)
  | .pending =>
    match t.journal.applyItems fold entry.context items given with
    | .error _ => throw .database
    | .ok (journal, _) => return (t.markConsolidated entry journal).putJob (job.complete now)

end JournalTables

/-! ### Consolidators -/

/-- Where `run_once` is. -/
inductive Stage
  | idle
  | claimed (job : QueueJob)
  | extracting (job : QueueJob)
  | applying (job : QueueJob) (items : List WorkerMemory)
  | failing (job : QueueJob) (kind : FailureKind)
  | deadLettering (job : QueueJob)

/-- A text that was handed to a worker: of which claim, with the counts of that claim, and whether the worker was unavailable. -/
structure Handing where
  jobId : ℕ
  generation : ℕ
  attempts : ℕ
  deferrals : ℕ
  unavailable : Bool := false
  deriving DecidableEq

/-- The tables, where each consolidator is, and the texts that were handed out. -/
structure JournalSystem where
  tables : JournalTables
  stage : ℕ → Stage
  handed : List Handing

inductive JournalEvent
  | record (entryId : Uuid) (context : EntryContext) (priority : Priority) (newId : ℕ) (now : Instant)
  | enqueue (entryId : Uuid) (priority : Priority) (newId : ℕ) (now : Instant)
  | heartbeat (hold : Hold) (judgedAt now : Instant)
  | claim (consolidator : ℕ) (judgedAt now : Instant) (hidden : ℕ → Bool)
  | read (consolidator : ℕ)
  | extracted (consolidator : ℕ) (output : Except FailureKind (List WorkerMemory))
  | commit (consolidator : ℕ) (given : ℕ → Given) (judgedAt now : Instant)
  | rolledBack (consolidator : ℕ)
  | stop (consolidator : ℕ)

namespace JournalSystem

variable (queue : ConsolidationQueue) (fold : Folding) (workerId : ℕ → Text) (s : JournalSystem)

def goTo (consolidator : ℕ) (stage : Stage) : JournalSystem := { s with stage := assign s.stage consolidator stage }

/-- What `run_once` does with the job it claimed. -/
def begin (job : QueueJob) : Stage := if queue.maxAttempts ≤ job.attempts then .deadLettering job else .claimed job

def holdOf (consolidator : ℕ) (job : QueueJob) : Hold := ⟨job.id, workerId consolidator, job.claimCount⟩

def after {α : Type} (done : Except JournalError (α × JournalTables)) : JournalSystem :=
  match done with
  | .ok (_, tables) => { s with tables := tables }
  | .error _ => s

/-- The worker could not be reached with this text. -/
def markUnavailable (job : QueueJob) (handing : Handing) : Handing :=
  if handing.jobId = job.id ∧ handing.generation = job.claimCount then { handing with unavailable := true } else handing

def claim (consolidator : ℕ) (judgedAt now : Instant) (hidden : ℕ → Bool) : JournalSystem :=
  match s.tables.claimNext queue (workerId consolidator) judgedAt now hidden with
  | .ok (some job, tables) => ({ s with tables := tables }).goTo consolidator (begin queue job)
  | _ => s

def hand (job : QueueJob) : JournalSystem :=
  { s with handed := s.handed ++ [{ jobId := job.id, generation := job.claimCount, attempts := job.attempts, deferrals := job.deferrals }] }

/-- `_read`, and what `run_once` does next. -/
def read (consolidator : ℕ) (job : QueueJob) : JournalSystem :=
  match s.tables.entries.get job.entryId with
  | none => s.goTo consolidator .idle
  | some entry =>
    match entry.state with
    | .consolidated => s.goTo consolidator (.applying job [])
    | .pending => (s.hand job).goTo consolidator (.extracting job)

/-- `_extract`. -/
def extracted (consolidator : ℕ) (job : QueueJob) (output : Except FailureKind (List WorkerMemory)) : JournalSystem :=
  match output with
  | .ok items => s.goTo consolidator (.applying job items)
  | .error .workerUnavailable =>
    ({ s with handed := s.handed.map (markUnavailable job) }).goTo consolidator (.failing job .workerUnavailable)
  | .error kind => s.goTo consolidator (.failing job kind)

/-- `_apply`, `_fail` and `_dead_letter`: the transaction a consolidator is at. -/
def commit (consolidator : ℕ) (given : ℕ → Given) (judgedAt now : Instant) : Option JournalSystem :=
  match s.stage consolidator with
  | .applying job items =>
    match s.tables.apply fold (holdOf workerId consolidator job) job.entryId items given judgedAt now with
    | .ok tables => some (({ s with tables := tables }).goTo consolidator .idle)
    | .error .leaseLost => some (s.goTo consolidator .idle)
    | .error _ => some (s.goTo consolidator (.failing job .applyFailed))
  | .failing job kind =>
    some ((s.after (s.tables.fail queue (holdOf workerId consolidator job) kind judgedAt now)).goTo consolidator .idle)
  | .deadLettering job =>
    some ((s.after (s.tables.deadLetter (holdOf workerId consolidator job) judgedAt now)).goTo consolidator .idle)
  | _ => none

/-- A transaction the database gave up: `_apply` reports it, the others leave `run_once`. -/
def rolledBack (consolidator : ℕ) : JournalSystem :=
  match s.stage consolidator with
  | .applying job _ => s.goTo consolidator (.failing job .applyFailed)
  | _ => s.goTo consolidator .idle

def step : JournalEvent → Option JournalSystem
  | .record entryId context priority newId now => some (s.after (s.tables.record entryId context priority newId now))
  | .enqueue entryId priority newId now => some (s.after (s.tables.enqueue entryId priority newId now))
  | .heartbeat hold judgedAt now => some (s.after (s.tables.heartbeat queue hold judgedAt now))
  | .claim consolidator judgedAt now hidden =>
    match s.stage consolidator with
    | .idle => some (s.claim queue workerId consolidator judgedAt now hidden)
    | _ => none
  | .read consolidator =>
    match s.stage consolidator with
    | .claimed job => some (s.read consolidator job)
    | _ => none
  | .extracted consolidator output =>
    match s.stage consolidator with
    | .extracting job => some (s.extracted consolidator job output)
    | _ => none
  | .commit consolidator given judgedAt now => s.commit queue fold workerId consolidator given judgedAt now
  | .rolledBack consolidator => some (s.rolledBack consolidator)
  | .stop consolidator => some (s.goTo consolidator .idle)

end JournalSystem

/-- Any interleaving of the consolidators' steps and of what others commit. -/
def journalMachine (queue : ConsolidationQueue) (fold : Folding) (workerId : ℕ → Text) : Machine JournalSystem JournalEvent where
  initial s := s.tables.jobs = .empty ∧ s.tables.entries = .empty ∧ s.tables.applied = [] ∧ s.handed = [] ∧
    ∀ consolidator, s.stage consolidator = .idle
  step := JournalSystem.step queue fold workerId

end PawBackend.Memory
