/-
**Approvals in PostgreSQL** (`tools/approval_store.py`, migration `0031_tool_approvals.py`).

Every change is one conditional `UPDATE` whose `WHERE` holds the whole rule, with its history row: `updateWhere` is
that statement, and each `WHERE` is a condition on a row under the statement's name.
-/

import PawBackend.Tools.ApprovalMemory

namespace PawBackend.Tools

open Lib

/-- A row of `tool_approval_events`, without its identity column. -/
structure ToolApprovalEventRow (Δ : Type) where
  approvalId : Uuid
  kind : ApprovalEventKind
  actorUserId : Option Uuid := none
  agentId : Option Uuid := none
  createdAt : Instant
  summary : Option Δ := none

structure PostgresApprovalStore (Δ : Type) where
  approvals : Approvals Δ
  events : List (ToolApprovalEventRow Δ)

namespace PostgresApprovalStore

variable {Δ : Type} (t : PostgresApprovalStore Δ)

def empty : PostgresApprovalStore Δ := ⟨.empty, []⟩

/-! ### The statements -/

/-- An `UPDATE` of the rows of a condition, and a history row for each. -/
def updateWhere (selected : ApprovalRecord Δ → Bool) (change : ApprovalRecord Δ → ApprovalRecord Δ)
    (keeps : ∀ row, selected row = true → (change row).approvalId = row.approvalId)
    (event : Uuid → ToolApprovalEventRow Δ) : PostgresApprovalStore Δ where
  approvals := t.approvals.update selected change keeps
  events := t.events ++ (t.approvals.rows.filter selected).map fun row => event row.approvalId

/-- The `WHERE` of `_mark_expired_statement`. -/
def timedOut (now : Instant) (row : ApprovalRecord Δ) : Bool :=
  row.status.isOpen && decide (row.expiresAt ≤ now)

/-- The `WHERE` of the revocations. -/
def revocable (now : Instant) (row : ApprovalRecord Δ) : Bool :=
  row.status.isOpen && decide (now < row.expiresAt)

/-- `_mark_expired_statement`, over the rows of a column's value. -/
def markExpired (column : ApprovalRecord Δ → Bool) (now : Instant) : PostgresApprovalStore Δ :=
  t.updateWhere (fun row => column row && timedOut now row) ApprovalRecord.expire (fun _ _ => rfl)
    fun id => { approvalId := id, kind := .expired, createdAt := now }

def revokeRows (column : ApprovalRecord Δ → Bool) (actor : Option Uuid) (now : Instant) :
    PostgresApprovalStore Δ :=
  t.updateWhere (fun row => column row && revocable now row) (fun row => row.revoke actor now)
    (fun _ _ => rfl)
    fun id => { approvalId := id, kind := .revoked, actorUserId := actor, createdAt := now }

def hasId (id : Uuid) (row : ApprovalRecord Δ) : Bool := decide (row.approvalId = id)

def hasCallHash (callHash : CallHash) (row : ApprovalRecord Δ) : Bool := decide (row.callHash = callHash)

def hasTask (taskId : Uuid) (row : ApprovalRecord Δ) : Bool := decide (row.taskId = taskId)

/-- The `WHERE` of `_REVOKE_EARLIER_RUNS`, but for the status and the time. -/
def earlierRun (taskId : Uuid) (run : TaskRun) (row : ApprovalRecord Δ) : Bool :=
  hasTask taskId row &&
    (decide (row.taskRun.attempt ≠ run.attempt) || decide (row.taskRun.retryCount ≠ run.retryCount))

/-- The `WHERE` of `_OPEN_EXISTING`, and of the partial unique index. -/
def openCall (callHash : CallHash) (row : ApprovalRecord Δ) : Bool :=
  hasCallHash callHash row && row.status.isOpen

/-- The `WHERE` of `_REJECTED_LATELY`. -/
def rejectedLately (callHash : CallHash) (since : Instant) (row : ApprovalRecord Δ) : Bool :=
  hasCallHash callHash row && decide (row.status = .rejected) &&
    row.decidedAt.any fun decidedAt => decide (since < decidedAt)

/-- The `WHERE` of `_COUNT_OPEN`. -/
def countsOpen (taskId userId : Uuid) (now : Instant) (row : ApprovalRecord Δ) : Bool :=
  hasTask taskId row && decide (row.requesterUserId = userId) && revocable now row

/-- The `WHERE` of `_decide_statement`. -/
def decidable (id approver : Uuid) (now : Instant) (withoutStrong : Bool) (row : ApprovalRecord Δ) :
    Bool :=
  hasId id row && decide (row.status = .pending) && decide (now < row.expiresAt) &&
    decide (row.requesterUserId = approver) && decide (row.agentId ≠ approver) &&
    (!withoutStrong || decide (row.level ≠ .strongApproval))

/-- The `WHERE` of `_CONSUME`. -/
def consumable (id : Uuid) (binding : ApprovalBinding) (now : Instant) (row : ApprovalRecord Δ) : Bool :=
  hasId id row && decide (row.status = .approved) && decide (now < row.expiresAt) &&
    hasTask binding.taskId row && decide (row.taskRun.attempt = binding.taskRun.attempt) &&
    decide (row.taskRun.retryCount = binding.taskRun.retryCount) &&
    decide (row.agentId = binding.agentId) &&
    decide (row.requesterUserId = binding.requesterUserId) && decide (row.tool = binding.tool) &&
    decide (row.level = binding.level) && decide (row.callHash = binding.callHash)

/-- `_INSERT_REQUEST` and its history row; `none` when an open request for the call is there. -/
def insertRequest (new : NewApproval Δ) (now : Instant) :
    Except StoreError (PostgresApprovalStore Δ × Option (OpenResult Δ)) :=
  if new.expiresAt ≤ now then .error .expiresBeforeCreation
  else if t.approvals.rows.any (openCall new.callHash) then .ok (t, none)
  else if fresh : t.approvals.get new.approvalId = none then
    .ok (
      { approvals := t.approvals.insert (new.record now) fresh
        events := t.events ++ [
          { approvalId := new.approvalId, kind := .requested, agentId := some new.agentId,
            createdAt := now, summary := some new.details }] },
      some ⟨.created, some (new.record now)⟩)
  else .error .duplicateId

/-! ### The calls -/

/-- `_open_once`, in its transaction. -/
def openOnce (new : NewApproval Δ) (now judged : Instant) (limits : OpenLimits)
    (requireActiveTask : Bool) (activity : TaskActivity) :
    Except StoreError (PostgresApprovalStore Δ × Option (OpenResult Δ)) :=
  match (if requireActiveTask then openTaskRefusal activity else none) with
  | some refusal => .ok (t, some ⟨refusal, none⟩)
  | none =>
    let marked := t.markExpired (hasCallHash new.callHash) judged
    let swept :=
      if requireActiveTask then marked.revokeRows (earlierRun new.taskId new.taskRun) none judged
      else marked
    match swept.approvals.rows.find? (openCall new.callHash) with
    | some row => .ok (swept, some ⟨.existing, some row⟩)
    | none =>
      if swept.approvals.rows.any (rejectedLately new.callHash (now - limits.rejectionCooldown)) then
        .ok (swept, some ⟨.coolingDown, none⟩)
      else if limits.maxPending ≤
          swept.approvals.rows.countP (countsOpen new.taskId new.requesterUserId judged) then
        .ok (swept, some ⟨.tooManyPending, none⟩)
      else swept.insertRequest new now

/-- `open_request`: a few attempts, each a transaction of its own. -/
def openRequest (new : NewApproval Δ) (now judged : Instant) (limits : OpenLimits)
    (requireActiveTask : Bool) (activity : TaskActivity) :
    ℕ → PostgresApprovalStore Δ → PostgresApprovalStore Δ × Except StoreError (OpenResult Δ)
  | 0, t => (t, .error .couldNotOpen)
  | attempts + 1, t =>
    match t.openOnce new now judged limits requireActiveTask activity with
    | .error error => (t, .error error)
    | .ok (t, some opened) => (t, .ok opened)
    | .ok (t, none) => openRequest new now judged limits requireActiveTask activity attempts t

def openAttempts : ℕ := 3

def decide (id approver : Uuid) (approve : Bool) (now : Instant) (stepUpVerified : Bool) :
    PostgresApprovalStore Δ × DecideResult Δ :=
  let verified := approve && stepUpVerified
  let selected := decidable id approver now (approve && !verified)
  match t.approvals.rows.find? selected with
  | some row =>
    (t.updateWhere selected (fun row => row.decide approver approve now stepUpVerified) (fun _ _ => rfl)
      fun id =>
        { approvalId := id, kind := if approve then .approved else .rejected,
          actorUserId := some approver, createdAt := now },
      ⟨.decided, some (row.decide approver approve now stepUpVerified)⟩)
  | none =>
    match diagnoseDecide (t.approvals.get id) approver now approve stepUpVerified with
    | .decided => (t, ⟨.notPending, none⟩)
    | .expired => (t.markExpired (hasId id) now, ⟨.expired, none⟩)
    | outcome => (t, ⟨outcome, none⟩)

/-- `_consume_once`. -/
def consume (id : Uuid) (binding : ApprovalBinding) (judged : Instant) (requireActiveTask : Bool)
    (activity : TaskActivity) : PostgresApprovalStore Δ × ConsumeOutcome :=
  let outcome := diagnoseConsume (t.approvals.get id) binding judged
  match (if requireActiveTask then consumeTaskRefusal activity else none) with
  | some refusal => (t, if outcome = .consumed ∨ outcome = .superseded then refusal else outcome)
  | none =>
    if t.approvals.rows.any (consumable id binding judged) then
      (t.updateWhere (consumable id binding judged) (fun row => row.consume judged) (fun _ _ => rfl)
        fun id =>
          { approvalId := id, kind := .consumed, agentId := some binding.agentId, createdAt := judged },
        .consumed)
    else
      match outcome with
      | .consumed => (t, .pending)
      | .expired => (t.markExpired (hasId id) judged, .expired)
      | outcome => (t, outcome)

def revoke (id : Uuid) (actor : Option Uuid) (now : Instant) : PostgresApprovalStore Δ × RevokeOutcome :=
  if t.approvals.rows.any (fun row => hasId id row && revocable now row) then
    (t.revokeRows (hasId id) actor now, .revoked)
  else
    match diagnoseRevoke (t.approvals.get id) now with
    | .revoked => (t, .notOpen)
    | outcome => (t, outcome)

def revokeTask (arrange : List Uuid → List Uuid) (taskId : Uuid) (now : Instant) :
    PostgresApprovalStore Δ × List Uuid :=
  (t.revokeRows (hasTask taskId) none now,
    arrange ((t.approvals.rows.filter fun row => hasTask taskId row && revocable now row).map
      ApprovalRecord.approvalId))

end PostgresApprovalStore

end PawBackend.Tools
