/-
**The rows of the shared connections** (`connections/models.py`, `connections/store.py`).

A usage row says who used which connection for which task, and since when; `UsageOutcome` is the part of it that
changes until the call has ended.
-/

import PawBackend.Connections.Domain

namespace PawBackend.Connections

open Lib
open Tools (Instant TaskRun Uuid)
open Tasks (TaskState)

structure TaskRow where
  id : Uuid
  state : TaskState
  attempt : ℕ
  retryCount : ℕ
  createdBy : Uuid
  projectId : Option Uuid
  deriving DecidableEq, Repr

/-- The `tokens` row of a task in `budget_usages`. -/
structure TokenBudgetRow where
  taskId : Uuid
  consumed : ℕ
  limit : Option ℕ
  deriving DecidableEq, Repr

structure ConnectionRow where
  id : Uuid
  kind : ConnectionKind
  secretHandle : Uuid
  status : ConnectionStatus
  enabled : Bool
  deriving DecidableEq, Repr

structure QuotaRow where
  userId : Uuid
  kind : ConnectionKind
  metric : QuotaMetric
  period : QuotaPeriod
  limit : Option ℕ
  deriving DecidableEq, Repr

abbrev QuotaKey := Uuid × ConnectionKind × QuotaMetric × QuotaPeriod

def QuotaRow.key (row : QuotaRow) : QuotaKey := (row.userId, row.kind, row.metric, row.period)

/-- The part of a usage row that a turn, a settlement or the reaper writes. -/
structure UsageOutcome where
  status : UsageStatus := .inFlight
  failureCode : Option FailureCode := none
  inputTokens : Option ℕ := none
  outputTokens : Option ℕ := none
  finishedAt : Option Instant := none
  durationMs : Option ℕ := none
  deriving DecidableEq, Repr

structure UsageRow where
  id : Uuid
  userId : Uuid
  taskId : Uuid
  projectId : Option Uuid
  kind : ConnectionKind
  startedAt : Instant
  session : Bool
  outcome : UsageOutcome := {}
  deriving DecidableEq, Repr

/-- Who used what, for which task and since when: the part of a usage row that no statement changes. -/
structure UsageEntry where
  id : Uuid
  userId : Uuid
  taskId : Uuid
  kind : ConnectionKind
  startedAt : Instant
  deriving DecidableEq, Repr

def UsageRow.entry (row : UsageRow) : UsageEntry := ⟨row.id, row.userId, row.taskId, row.kind, row.startedAt⟩

def UsageEntry.isOf (entry : UsageEntry) (userId : Uuid) (kind : ConnectionKind) : Bool :=
  decide (entry.userId = userId ∧ entry.kind = kind)

def UsageEntry.isFor (entry : UsageEntry) (taskId : Uuid) (kind : ConnectionKind) : Bool :=
  decide (entry.taskId = taskId ∧ entry.kind = kind)

structure UsageTables where
  tasks : Keyed TaskRow.id
  budgets : Keyed TokenBudgetRow.taskId
  connections : Keyed ConnectionRow.kind
  quotas : Keyed QuotaRow.key
  usage : Keyed UsageRow.id
  clock : Instant

/-! ### Sums -/

structure Sums where
  requests : ℕ
  tasks : ℕ
  tokens : ℕ
  runtimeMs : ℕ
  deriving DecidableEq, Repr

def Sums.used (sums : Sums) : QuotaMetric → ℕ
  | .requests => sums.requests
  | .tasks => sums.tasks
  | .tokens => sums.tokens
  | .runtimeSeconds => sums.runtimeMs / 1000

/-- `SUMS_SQL` on the rows of a table. -/
def sumsOf (rows : List UsageRow) (userId : Uuid) (kind : ConnectionKind) (since : Instant) : Sums :=
  let counted := rows.filter fun row => row.entry.isOf userId kind && decide (since ≤ row.startedAt)
  { requests := counted.length
    tasks := (counted.map UsageRow.taskId).dedup.length
    tokens := (counted.map fun row => row.outcome.inputTokens.getD 0 + row.outcome.outputTokens.getD 0).sum
    runtimeMs := (counted.map fun row => row.outcome.durationMs.getD 0).sum }

namespace UsageTables

variable (db : UsageTables)

/-- `CONTINUING_SQL`. -/
def continuing (taskId : Uuid) (kind : ConnectionKind) : Bool := db.usage.rows.any fun row => row.entry.isFor taskId kind

def sums (userId : Uuid) (kind : ConnectionKind) (since : Instant) : Sums := sumsOf db.usage.rows userId kind since

/-- The settled part of an `in_flight` row is replaced; any other row stays. -/
def writeOutcome (id : Uuid) (write : UsageRow → UsageOutcome) : UsageTables :=
  { db with
    usage := db.usage.update (fun row => decide (row.id = id ∧ row.outcome.status = .inFlight))
      (fun row => { row with outcome := write row }) fun _ _ => rfl }

def durationMs (row : UsageRow) : ℕ := ((db.clock - row.startedAt) / 1000).toNat

def settle (id : Uuid) (status : UsageStatus) (failure : Option FailureCode) (inputTokens outputTokens : Option ℕ) :
    UsageTables :=
  db.writeOutcome id fun row =>
    { status, failureCode := failure, inputTokens, outputTokens, finishedAt := some (max db.clock row.startedAt)
      durationMs := some (db.durationMs row) }

end UsageTables

/-- `MAX_CALL_TIMEOUT_SECONDS`, in milliseconds. -/
def maxCallMs : ℕ := 86400 * 1000

/-- `ABANDONED_CALL_AGE_SECONDS`. -/
def abandonedCallAge : Instant := (86400 + 3600) * 10 ^ 6

namespace UsageTables

variable (db : UsageTables)

/-- The rows of one run of the reaper: the oldest of those nobody else has locked. -/
def doomed (limit : ℕ) (skipped : List Uuid) : List Uuid :=
  let abandoned := db.usage.rows.filter fun row =>
    decide (row.outcome.status = .inFlight ∧ row.startedAt < db.clock - abandonedCallAge ∧ row.id ∉ skipped)
  ((abandoned.mergeSort fun a b => decide (a.startedAt ≤ b.startedAt)).take limit).map UsageRow.id

/-- What the reaper knows of a call: its tokens stay as they were counted, its duration is capped. -/
def reaped (row : UsageRow) : UsageOutcome :=
  { row.outcome with
    status := .failed, failureCode := some .internalError, finishedAt := some (max db.clock row.startedAt)
    durationMs := some (min maxCallMs (db.durationMs row)) }

def reapAbandoned (limit : ℕ) (skipped : List Uuid) : UsageTables :=
  (db.doomed limit skipped).foldl (fun tables id => tables.writeOutcome id db.reaped) db

end UsageTables

/-! ### What does not change -/

/-- The calls so far, in the order in which they were committed. -/
def UsageTables.entries (db : UsageTables) : List UsageEntry := db.usage.rows.map UsageRow.entry

theorem entries_writeOutcome (db : UsageTables) (id : Uuid) (write : UsageRow → UsageOutcome) :
    (db.writeOutcome id write).entries = db.entries := by
  unfold UsageTables.entries UsageTables.writeOutcome
  rw [Keyed.rows_update, List.map_map]
  refine List.map_congr_left fun row _ => ?_
  rw [Function.comp_apply]
  split_ifs <;> rfl

/-- Nothing changed but what the calls came to. -/
structure SameEntries (db db' : UsageTables) : Prop where
  entries : db'.entries = db.entries
  quotas : db'.quotas = db.quotas
  tasks : db'.tasks = db.tasks
  clock : db'.clock = db.clock

theorem sameEntries_writeOutcome (db : UsageTables) (id : Uuid) (write : UsageRow → UsageOutcome) :
    SameEntries db (db.writeOutcome id write) := ⟨entries_writeOutcome db id write, rfl, rfl, rfl⟩

theorem SameEntries.trans {a b c : UsageTables} (first : SameEntries a b) (second : SameEntries b c) : SameEntries a c where
  entries := second.entries.trans first.entries
  quotas := second.quotas.trans first.quotas
  tasks := second.tasks.trans first.tasks
  clock := second.clock.trans first.clock

theorem sameEntries_writeAll (write : UsageRow → UsageOutcome) (ids : List Uuid) (db : UsageTables) :
    SameEntries db (ids.foldl (fun tables id => tables.writeOutcome id write) db) := by
  induction ids generalizing db with
  | nil => exact ⟨rfl, rfl, rfl, rfl⟩
  | cons id rest ih => exact (sameEntries_writeOutcome db id write).trans (ih _)

end PawBackend.Connections
