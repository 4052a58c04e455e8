/-
**The admission of a call** (`connections/store.py`: `admit`).

One transaction: the task's row, its budget where a session has a floor, the connection's row, and the quota rows of
the user and kind, one after the other; then whether the task continues, the clock, and the sums of the windows, each
read once for all periods that start at the same instant.
-/

import PawBackend.Connections.Store
import PawBackend.Lib.Transactions

namespace PawBackend.Connections

open Lib
open Tools (Instant TaskActivity TaskRun Uuid)
open Tasks (TaskState)

/-- The rows an admission locks: `FOR SHARE` the task and the connection, `FOR UPDATE` the budget and the quotas. -/
inductive UsageLock
  | task (id : Uuid)
  | budget (taskId : Uuid)
  | connection (kind : ConnectionKind)
  | quota (key : QuotaKey)
  deriving DecidableEq, Repr

/-- Shared locks exclude nobody here. -/
def UsageLock.conflict : UsageLock → UsageLock → Bool
  | .budget a, .budget b => decide (a = b)
  | .quota a, .quota b => decide (a = b)
  | _, _ => false

theorem UsageLock.conflict_comm (l l' : UsageLock) : l.conflict l' = l'.conflict l := by
  cases l <;> cases l' <;> simp only [conflict, eq_comm]

/-- `Admitted` and `Refused`, with the task and kind that were asked about. -/
inductive AdmissionReply
  | admitted (usageId connectionId : Uuid) (projectId : Option Uuid) (secretHandle : Uuid)
  | refused (taskId : Uuid) (kind : ConnectionKind) (reason : RefusalReason) (quota : Option (QuotaMetric × QuotaPeriod))
      (resetsAt : Option Instant) (projectId : Option Uuid)
  | written
  deriving DecidableEq, Repr

/-- The unique constraint of the ids. -/
inductive UsageFailure
  | integrity
  deriving DecidableEq, Repr

abbrev UsageTxn := Txn UsageTables UsageLock UsageFailure AdmissionReply

/-- The order of `QUOTA_LOCK_SQL`: by the texts of metric and period. -/
def lockOrder : List (QuotaMetric × QuotaPeriod) :=
  [QuotaMetric.requests, .runtimeSeconds, .tasks, .tokens].flatMap fun metric =>
    [QuotaPeriod.day, .month, .rolling5h, .week].map fun period => (metric, period)

def checkOrder : List (QuotaMetric × QuotaPeriod) :=
  [QuotaMetric.requests, .tasks, .tokens, .runtimeSeconds].flatMap fun metric =>
    [QuotaPeriod.rolling5h, .day, .week, .month].map fun period => (metric, period)

/-- `sorted(…)`: the quota rows in the order of the checks. -/
def inCheckOrder (quotas : List QuotaRow) : List QuotaRow :=
  checkOrder.filterMap fun (metric, period) =>
    quotas.find? fun quota => decide (quota.metric = metric ∧ quota.period = period)

/-- What a call asks for. -/
structure AdmissionRequest where
  userId : Uuid
  taskId : Uuid
  run : TaskRun
  kind : ConnectionKind
  session : Bool
  minTokens : Option ℕ
  usageId : Uuid

namespace AdmissionRequest

variable (request : AdmissionRequest)

/-- Leave without a row. -/
def refuse (reason : RefusalReason) (projectId : Option Uuid) : UsageTxn :=
  .commit fun db => .ok (db, .refused request.taskId request.kind reason none none projectId)

/-- `QUOTA_LOCK_SQL`: each row there is is locked and read. -/
def lockQuotas (next : List QuotaRow → UsageTxn) : List (QuotaMetric × QuotaPeriod) → List QuotaRow → UsageTxn
  | [], found => next found
  | (metric, period) :: rest, found =>
    let key : QuotaKey := (request.userId, request.kind, metric, period)
    .lock (.quota key) (fun db => (db.quotas.get key).isSome) fun db =>
      lockQuotas next rest (found ++ (db.quotas.get key).toList)

def row (projectId : Option Uuid) (now : Instant) : UsageRow :=
  { id := request.usageId, userId := request.userId, taskId := request.taskId, projectId, kind := request.kind
    startedAt := now, session := request.session }

/-- The `INSERT`, and the end of the transaction. -/
def insert (connection : ConnectionRow) (projectId : Option Uuid) (now : Instant) : UsageTxn :=
  .commit fun db =>
    match db.usage.tryInsert (request.row projectId now) with
    | none => .error .integrity
    | some usage =>
      .ok ({ db with usage }, .admitted request.usageId connection.id projectId connection.secretHandle)

def checkQuotas (zone : Zone) (projectId : Option Uuid) (now : Instant) (next : UsageTxn) :
    List QuotaRow → List (Instant × Sums) → UsageTxn
  | [], _ => next
  | quota :: rest, sums =>
    match quota.limit with
    | none => checkQuotas zone projectId now next rest sums
    | some limit =>
      let since := windowStart quota.period now zone
      let exceeded : UsageTxn :=
        .commit fun db => .ok (db, .refused request.taskId request.kind .quotaExceeded
          (some (quota.metric, quota.period)) (windowEnd quota.period now zone) projectId)
      match sums.lookup since with
      | some known =>
        if limit ≤ known.used quota.metric then exceeded
        else checkQuotas zone projectId now next rest sums
      | none =>
        .read fun db =>
          let read := db.sums request.userId request.kind since
          if limit ≤ read.used quota.metric then exceeded
          else checkQuotas zone projectId now next rest ((since, read) :: sums)

/-- The part of `admit` after the locks. -/
def decide (zone : Zone) (connection : ConnectionRow) (projectId : Option Uuid) (quotas : List QuotaRow) : UsageTxn :=
  .read fun db =>
    let continuing := db.continuing request.taskId request.kind
    .read fun db =>
      let now := db.clock
      let insert := request.insert connection projectId now
      if continuing then insert
      else request.checkQuotas zone projectId now insert (inCheckOrder quotas) []

/-- The part of `admit` from the connection's row on. -/
def useConnection (zone : Zone) (projectId : Option Uuid) : UsageTxn :=
  .lock (.connection request.kind) (fun db => (db.connections.get request.kind).isSome) fun db =>
    match db.connections.get request.kind with
    | none => request.refuse .connectionUnavailable projectId
    | some connection =>
      if connection.enabled = false ∨ connection.status ≠ .connected then
        request.refuse .connectionUnavailable projectId
      else request.lockQuotas (request.decide zone connection projectId) lockOrder []

def requireFloor (projectId : Option Uuid) (next : UsageTxn) : UsageTxn :=
  match request.minTokens with
  | none => next
  | some minTokens =>
    .lock (.budget request.taskId) (fun db => (db.budgets.get request.taskId).isSome) fun db =>
      match db.budgets.get request.taskId with
      | none => request.refuse .taskBudgetNotConfigured projectId
      | some budget =>
        if budget.limit.any fun limit => Decidable.decide (limit < budget.consumed + minTokens) then
          request.refuse .taskTokenFloor projectId
        else next

/-- `admit`. -/
def admitted (zone : Zone) : UsageTxn :=
  .lock (.task request.taskId) (fun db => (db.tasks.get request.taskId).isSome) fun db =>
    match db.tasks.get request.taskId with
    | none => request.refuse .taskNotFound none
    | some task =>
      if task.createdBy ≠ request.userId then request.refuse .taskNotFound none
      else
        match activityOf task.state task.attempt task.retryCount request.run with
        | .ended => request.refuse .taskEnded task.projectId
        | .superseded => request.refuse .taskSuperseded task.projectId
        | .unknown => request.refuse .taskNotFound task.projectId
        | .active => request.requireFloor task.projectId (request.useConnection zone task.projectId)

end AdmissionRequest

/-! ### The system -/

inductive UsageOperation
  | admission (request : AdmissionRequest)
  | settle (id : Uuid) (status : UsageStatus) (failure : Option FailureCode) (inputTokens outputTokens : Option ℕ)
  | reap (limit : ℕ) (skipped : List Uuid)

def UsageOperation.txn (zone : Zone) : UsageOperation → UsageTxn
  | .admission request => request.admitted zone
  | .settle id status failure inputTokens outputTokens =>
    .commit fun db => .ok (db.settle id status failure inputTokens outputTokens, .written)
  | .reap limit skipped => .commit fun db => .ok (db.reapAbandoned limit skipped, .written)

/-- What other components write: nothing that says who started what, or that a quota says. -/
inductive Change
  | clock (passed : ℕ)
  | newTask (row : TaskRow)
  | task (id : Uuid) (state : TaskState) (attempt retryCount : ℕ)
  | budget (row : TokenBudgetRow)
  | connection (row : ConnectionRow)
  | outcome (id : Uuid) (written : UsageOutcome)

def Change.apply (change : Change) (db : UsageTables) : UsageTables :=
  match change with
  | .clock passed => { db with clock := db.clock + passed }
  | .newTask row => { db with tasks := (db.tasks.tryInsert row).getD db.tasks }
  | .task id state attempt retryCount =>
    { db with
      tasks := db.tasks.update (fun row => decide (row.id = id))
        (fun row => { row with state, attempt, retryCount }) fun _ _ => rfl }
  | .budget row => { db with budgets := db.budgets.put row }
  | .connection row => { db with connections := db.connections.put row }
  | .outcome id written => db.writeOutcome id fun _ => written

def usageSystem (zone : Zone) : Transactional UsageTables UsageLock UsageFailure AdmissionReply UsageOperation Change where
  conflict := UsageLock.conflict
  symmetric := UsageLock.conflict_comm
  program := UsageOperation.txn zone
  ambient := Change.apply

end PawBackend.Connections
