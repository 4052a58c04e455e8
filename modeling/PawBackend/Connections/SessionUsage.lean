/-
**What a CLI session uses** (`connections/store.py`: `add_session_turn`, `settle_session`, `reap_abandoned`;
`connections/service.py`: `_session_finals`, `_settle_session`; `tasks/queueing/budget.py`: `record_in`).

A session's row carries tokens while it is in flight: each turn adds its own and charges them to the task's budget,
the settlement writes the final ones and charges what was not counted yet, the reaper leaves them as they are.
-/

import PawBackend.Connections.Store
import PawBackend.Lib.Transactions
import PawBackend.Tasks.Queue

namespace PawBackend.Connections

open Lib
open Tools (Instant TaskRun Uuid)
open Tasks (QueueLease QueueTable)

/-! ### Rows -/

/-- An amount charged to a task's token budget, and the session whose turn or settlement charged it. -/
structure Charge where
  taskId : Uuid
  usageId : Option Uuid
  amount : ℕ
  deriving DecidableEq, Repr

structure SessionTables extends UsageTables where
  queue : QueueTable
  charges : List Charge

def maxTokensPerCall : ℕ := 10 ^ 9

/-- `MAX_CONSUMED` of the token budgets. -/
def maxConsumedTokens : ℕ := 10 ^ 15

/-- The input and output tokens of a session as far as the CLI reported them. -/
abbrev Totals := Option ℕ × Option ℕ

/-- `COALESCE(input_tokens, 0)` and `COALESCE(output_tokens, 0)`. -/
def UsageRow.counted (row : UsageRow) : ℕ × ℕ := (row.outcome.inputTokens.getD 0, row.outcome.outputTokens.getD 0)

/-- A session's row that a turn or a settlement may still change. -/
def UsageRow.isOpen (row : UsageRow) : Bool := decide (row.outcome.status = .inFlight) && row.session

/-- The condition of `SESSION_ADD_SQL`: no part is taken past the stored range. -/
def UsageRow.takes (row : UsageRow) (input output : ℕ) : Bool :=
  row.isOpen && decide (row.counted.1 + input ≤ maxTokensPerCall ∧ row.counted.2 + output ≤ maxTokensPerCall)

namespace SessionTables

variable (db : SessionTables)

/-- `LEAST(consumed + amount, MAX_CONSUMED)`, where the task has a budget. -/
def charge (taskId : Uuid) (usageId : Option Uuid) (amount : ℕ) : SessionTables :=
  { db with
    budgets := db.budgets.update (fun row => decide (row.taskId = taskId))
      (fun row => { row with consumed := min (row.consumed + amount) maxConsumedTokens }) fun _ _ => rfl
    charges := db.charges ++ [⟨taskId, usageId, amount⟩] }

/-- The part of an `in_flight` row that changes is replaced. -/
def writeOutcome (id : Uuid) (write : UsageRow → UsageOutcome) : SessionTables :=
  { db with toUsageTables := db.toUsageTables.writeOutcome id write }

/-- `SESSION_ADD_SQL`. -/
def addTurn (id : Uuid) (input output : ℕ) : SessionTables :=
  db.writeOutcome id fun row =>
    { row.outcome with
      inputTokens := some (row.counted.1 + input), outputTokens := some (row.counted.2 + output) }

end SessionTables

/-! ### Final tokens -/

/-- The statement's `parts`: per part the larger of what was counted and the known total. -/
def largerParts (counted : ℕ × ℕ) (totals : Totals) : ℕ × ℕ :=
  (max counted.1 (totals.1.getD 0), max counted.2 (totals.2.getD 0))

/-- The statement's `final`: the unknown part is raised until the estimate is reached. -/
def settledParts (counted : ℕ × ℕ) (totals : Totals) (estimate : ℕ) : ℕ × ℕ :=
  let parts := largerParts counted totals
  (parts.1 + (if totals.1 = none then max 0 (estimate - parts.1 - parts.2) else 0),
    parts.2 + (if totals.1 ≠ none ∧ totals.2 = none then max 0 (estimate - parts.1 - parts.2) else 0))

def sessionFinals (counted : ℕ × ℕ) (totals : Totals) (estimate : ℕ) : ℕ × ℕ :=
  let finalInput := max counted.1 (totals.1.getD 0)
  let finalOutput := max counted.2 (totals.2.getD 0)
  let gap := max 0 (estimate - finalInput - finalOutput)
  match totals with
  | (none, _) => (finalInput + gap, finalOutput)
  | (some _, none) => (finalInput, finalOutput + gap)
  | (some _, some _) => (finalInput, finalOutput)

/-! ### Transactions -/

/-- The rows they lock: `FOR SHARE` the task and the queue entry, the others to write them. -/
inductive SessionLock
  | task (id : Uuid)
  | entry (id : ℤ)
  | budget (taskId : Uuid)
  | usage (id : Uuid)
  deriving DecidableEq, Repr

def SessionLock.conflict : SessionLock → SessionLock → Bool
  | .budget a, .budget b => decide (a = b)
  | .usage a, .usage b => decide (a = b)
  | _, _ => false

theorem SessionLock.conflict_comm (l l' : SessionLock) : l.conflict l' = l'.conflict l := by
  cases l <;> cases l' <;> simp only [conflict, eq_comm]

inductive SessionTurn
  | recorded
  | usedUp
  | leaseLost
  | runReplaced
  | noBudget
  | closed
  deriving DecidableEq, Repr

/-- What a transaction was rolled back for. -/
inductive SessionFailure
  | staleRun
  | budgetNotConfigured
  | turnRefused (turn : SessionTurn)
  | integrity
  deriving DecidableEq, Repr

/-- What a transaction returns, with what it was asked. -/
inductive SessionReply
  | turn (usageId : Uuid) (input output : ℕ) (turn : SessionTurn)
  | settled (usageId : Uuid) (totals : Totals) (estimate : ℕ) (result : Option (UsageRow × ℕ × ℕ))
  | reaped (ids : List Uuid)
  deriving DecidableEq, Repr

abbrev SessionTxn := Txn SessionTables SessionLock SessionFailure SessionReply

def requireRun (taskId : Uuid) (run : TaskRun) (next : SessionTxn) : SessionTxn :=
  .lock (.task taskId) (fun db => (db.tasks.get taskId).isSome) fun db =>
    match db.tasks.get taskId with
    | none => .raise .staleRun
    | some task =>
      if task.state.isTerminal ∨ (task.attempt, task.retryCount) ≠ (run.attempt, run.retryCount) then .raise .staleRun
      else next

/-- The `UPDATE` of `record_in` locks the task's budget; what it adds is written by the commit. -/
def lockBudget (taskId : Uuid) (next : TokenBudgetRow → SessionTxn) : SessionTxn :=
  .lock (.budget taskId) (fun db => (db.budgets.get taskId).isSome) fun db =>
    match db.budgets.get taskId with
    | none => .raise .budgetNotConfigured
    | some budget => next budget

structure TurnRequest where
  usageId : Uuid
  run : TaskRun
  lease : QueueLease
  input : ℕ
  output : ℕ

/-- May the task do one more, after the turn was charged? -/
def usedUp (budget : TokenBudgetRow) (amount : ℕ) : Bool :=
  budget.limit.any fun limit => decide (limit < min (budget.consumed + amount) maxConsumedTokens + 1)

/-- `SESSION_LEASE_SQL`. -/
def holdsSessionLease (db : SessionTables) (taskId : Uuid) (lease : QueueLease) : Bool :=
  Tasks.TaskQueue.holdsLease db.queue taskId lease db.clock

/-- The statements of a turn after the charge. -/
def TurnRequest.record (request : TurnRequest) (taskId : Uuid) (budget : TokenBudgetRow) : SessionTxn :=
  .lock (.entry request.lease.entryId) (fun db => holdsSessionLease db taskId request.lease) fun db =>
    if holdsSessionLease db taskId request.lease = false then .raise (.turnRefused .leaseLost)
    else
      let takes (db : SessionTables) := (db.usage.get request.usageId).any fun row => row.takes request.input request.output
      .lock (.usage request.usageId) takes fun db =>
        if takes db = false then .raise (.turnRefused .closed)
        else
          .commit fun db =>
            .ok ((db.addTurn request.usageId request.input request.output).charge taskId (some request.usageId)
              (request.input + request.output),
              .turn request.usageId request.input request.output
                (if usedUp budget (request.input + request.output) then .usedUp else .recorded))

def TurnRequest.addSessionTurn (request : TurnRequest) (taskId : Uuid) : SessionTxn :=
  requireRun taskId request.run (lockBudget taskId (request.record taskId))

/-- What `add_session_turn` answers. -/
def turnOf : Except SessionFailure SessionReply → Option SessionTurn
  | .ok (.turn _ _ _ turn) => some turn
  | .error .staleRun => some .runReplaced
  | .error .budgetNotConfigured => some .noBudget
  | .error (.turnRefused turn) => some turn
  | _ => none

structure SettleRequest where
  usageId : Uuid
  status : UsageStatus
  failure : Option FailureCode
  totals : Totals
  estimate : ℕ

/-- The checks of the table on a settled row. -/
def SettleRequest.violates (request : SettleRequest) (parts : ℕ × ℕ) : Bool :=
  decide (request.status = .inFlight ∨ ¬(request.status = .failed ↔ request.failure ≠ none) ∨
    maxTokensPerCall < parts.1 ∨ maxTokensPerCall < parts.2)

def SettleRequest.settledRow (request : SettleRequest) (db : SessionTables) (row : UsageRow) (parts : ℕ × ℕ) : UsageRow :=
  { row with
    outcome := ⟨request.status, request.failure, some parts.1, some parts.2, some (max db.clock row.startedAt),
      some (db.toUsageTables.durationMs row)⟩ }

def SettleRequest.settleSession (request : SettleRequest) (taskId : Uuid) : SessionTxn :=
  let isOpen (db : SessionTables) := (db.usage.get request.usageId).filter UsageRow.isOpen
  let reply (result : Option (UsageRow × ℕ × ℕ)) := SessionReply.settled request.usageId request.totals request.estimate result
  lockBudget taskId fun _ =>
    .lock (.usage request.usageId) (fun db => (isOpen db).isSome) fun db =>
      match isOpen db with
      | none => .commit fun db => .ok (db, reply none)
      | some row =>
        let parts := settledParts row.counted request.totals request.estimate
        let settled := request.settledRow db row parts
        let remainder := parts.1 + parts.2 - (row.counted.1 + row.counted.2)
        if request.violates parts then .raise .integrity
        else
          .commit fun db =>
            let closed := db.writeOutcome request.usageId fun _ => settled.outcome
            .ok (if 0 < remainder then closed.charge taskId (some request.usageId) remainder else closed,
              reply (some (settled, row.counted)))

/-- The rows of the reaper, locked one after another where they are still in flight. -/
def lockDoomed (next : List Uuid → SessionTxn) : List Uuid → List Uuid → SessionTxn
  | [], found => next found
  | id :: rest, found =>
    let abandoned (db : SessionTables) := (db.usage.get id).any fun row => decide (row.outcome.status = .inFlight)
    .lock (.usage id) abandoned fun db => lockDoomed next rest (if abandoned db then found ++ [id] else found)

/-- `reap_abandoned`; `skipped` are the rows that others have locked. -/
def reapSessions (limit : ℕ) (skipped : List Uuid) : SessionTxn :=
  .read fun started =>
    lockDoomed (fun found => .commit fun db =>
        .ok (found.foldl (fun tables id => tables.writeOutcome id started.toUsageTables.reaped) db, .reaped found))
      (started.toUsageTables.doomed limit skipped) []

/-! ### The system -/

inductive SessionOperation
  | turn (request : TurnRequest)
  | settle (request : SettleRequest)
  | reap (limit : ℕ) (skipped : List Uuid)

/-- What else moves these rows: the clock, runs and leases that are replaced, budgets that are configured, other
charges, and calls that are admitted. -/
inductive SessionChange
  | clock (passed : ℕ)
  | task (row : TaskRow)
  | queue (table : QueueTable)
  | budget (taskId : Uuid) (limit : Option ℕ)
  | charge (taskId : Uuid) (amount : ℕ)
  | admitted (row : UsageRow)

section

variable (taskOf : Uuid → Uuid)

def SessionOperation.txn : SessionOperation → SessionTxn
  | .turn request => request.addSessionTurn (taskOf request.usageId)
  | .settle request => request.settleSession (taskOf request.usageId)
  | .reap limit skipped => reapSessions limit skipped

def SessionChange.apply (change : SessionChange) (db : SessionTables) : SessionTables :=
  match change with
  | .clock passed => { db with clock := db.clock + passed }
  | .task row => { db with tasks := db.tasks.put row }
  | .queue table => { db with queue := table }
  | .budget taskId limit =>
    { db with budgets := db.budgets.put ⟨taskId, ((db.budgets.get taskId).map TokenBudgetRow.consumed).getD 0, limit⟩ }
  | .charge taskId amount => if (db.budgets.get taskId).isSome then db.charge taskId none amount else db
  | .admitted row =>
    if row.outcome = {} ∧ row.taskId = taskOf row.id then
      { db with usage := (db.usage.tryInsert row).getD db.usage }
    else db

def sessionSystem : Transactional SessionTables SessionLock SessionFailure SessionReply SessionOperation SessionChange where
  conflict := SessionLock.conflict
  symmetric := SessionLock.conflict_comm
  program := SessionOperation.txn taskOf
  ambient := SessionChange.apply taskOf

end

/-! ### The caller -/

/-- `_settle_session`: the totals reported, from what this side counted and the answers to its attempts (`none` for
one that raised). -/
def reportedTotals (counted : ℕ × ℕ) (totals : Totals) (estimate : ℕ) (attempts : List (Option (Option (UsageRow × ℕ × ℕ)))) :
    ℕ × ℕ :=
  match attempts.findSome? id with
  | some (some (row, _)) => row.counted
  | _ => sessionFinals counted totals estimate

end PawBackend.Connections
