/-
**The value types and the shared rules of tool approvals** (`tools/approval_types.py`,
`tasks/domain.py`: `TaskRun`, `tools/task_state.py`: `TaskActivity`).

An approval belongs to one exact call.
-/

import PawBackend.Lib.Keyed
import Mathlib.Data.BitVec

namespace PawBackend.Tools

/-! ### Ids, times and the run of a task -/

abbrev Uuid := BitVec 128

instance Uuid.lawfulBEq : LawfulBEq Uuid := inferInstance

/-- A SHA-256 digest. -/
abbrev CallHash := BitVec 256

/-- An aware `datetime`, in microseconds. -/
abbrev Instant := ℤ

def maxCounter : ℕ := 2 ^ 31 - 1

@[ext]
structure TaskRun where
  attempt : ℕ
  retryCount : ℕ
  attempt_bound : 1 ≤ attempt ∧ attempt ≤ maxCounter := by decide
  retryCount_bound : retryCount ≤ maxCounter := by decide
  deriving DecidableEq, Repr

theorem one_le_maxCounter : 1 ≤ 1 ∧ 1 ≤ maxCounter := by decide

def TaskRun.first : TaskRun := ⟨1, 0, one_le_maxCounter, Nat.zero_le maxCounter⟩

inductive TaskActivity
  | active
  | ended
  | superseded
  | unknown
  deriving DecidableEq, Repr

inductive ApprovalLevel
  | auto
  | scopedAuto
  | approval
  | strongApproval
  | deny
  deriving DecidableEq, Repr

inductive ApprovalStatus
  | pending
  | approved
  | rejected
  | consumed
  | revoked
  | expired
  deriving DecidableEq, Repr

/-- `_OPEN`. -/
def ApprovalStatus.isOpen (status : ApprovalStatus) : Bool :=
  decide (status = .pending ∨ status = .approved)

inductive ApprovalEventKind
  | requested
  | approved
  | rejected
  | consumed
  | revoked
  | expired
  deriving DecidableEq, Repr

/-! ### Requests, records and their history -/

/-- `OpenLimits`; the cooldown is in microseconds. -/
structure OpenLimits where
  maxPending : ℕ := 10
  rejectionCooldown : ℤ := 5 * 60 * 10 ^ 6
  maxPending_bound : 1 ≤ maxPending ∧ maxPending ≤ 100 := by decide
  cooldown_bound : 60 * 10 ^ 6 ≤ rejectionCooldown ∧ rejectionCooldown ≤ 24 * 3600 * 10 ^ 6 := by decide
  deriving DecidableEq

/-- `OpenLimits()`. -/
def OpenLimits.default : OpenLimits := {}

variable {Δ : Type}

/-- The call an approval is used for: all of it must match what was granted. -/
structure ApprovalBinding where
  taskId : Uuid
  taskRun : TaskRun
  agentId : Uuid
  requesterUserId : Uuid
  tool : String
  level : ApprovalLevel
  callHash : CallHash
  deriving DecidableEq, Repr

structure NewApproval (Δ : Type) where
  approvalId : Uuid
  taskId : Uuid
  taskRun : TaskRun
  agentId : Uuid
  requesterUserId : Uuid
  tool : String
  level : ApprovalLevel
  callHash : CallHash
  expiresAt : Instant
  details : Δ
  agent_not_user : agentId ≠ requesterUserId := by decide
  tool_bound : 1 ≤ tool.length ∧ tool.length ≤ 64 := by decide
  level_human : level = .approval ∨ level = .strongApproval := by decide

structure ApprovalRecord (Δ : Type) where
  approvalId : Uuid
  taskId : Uuid
  taskRun : TaskRun
  agentId : Uuid
  requesterUserId : Uuid
  tool : String
  level : ApprovalLevel
  callHash : CallHash
  details : Δ
  status : ApprovalStatus
  createdAt : Instant
  expiresAt : Instant
  approverId : Option Uuid := none
  decidedAt : Option Instant := none
  consumedAt : Option Instant := none
  stepUpVerified : Bool := false
  revokedAt : Option Instant := none
  revokedBy : Option Uuid := none
  deriving DecidableEq

def NewApproval.binding (new : NewApproval Δ) : ApprovalBinding :=
  ⟨new.taskId, new.taskRun, new.agentId, new.requesterUserId, new.tool, new.level, new.callHash⟩

def NewApproval.record (new : NewApproval Δ) (now : Instant) : ApprovalRecord Δ where
  approvalId := new.approvalId
  taskId := new.taskId
  taskRun := new.taskRun
  agentId := new.agentId
  requesterUserId := new.requesterUserId
  tool := new.tool
  level := new.level
  callHash := new.callHash
  details := new.details
  status := .pending
  createdAt := now
  expiresAt := new.expiresAt

namespace ApprovalRecord

def binding (record : ApprovalRecord Δ) : ApprovalBinding :=
  ⟨record.taskId, record.taskRun, record.agentId, record.requesterUserId, record.tool, record.level,
    record.callHash⟩

def isExpired (record : ApprovalRecord Δ) (now : Instant) : Bool := decide (record.expiresAt ≤ now)

def expire (record : ApprovalRecord Δ) : ApprovalRecord Δ := { record with status := .expired }

def revoke (record : ApprovalRecord Δ) (actor : Option Uuid) (now : Instant) : ApprovalRecord Δ :=
  { record with status := .revoked, revokedAt := some now, revokedBy := actor }

def decide (record : ApprovalRecord Δ) (approver : Uuid) (approve : Bool) (now : Instant)
    (stepUpVerified : Bool) : ApprovalRecord Δ :=
  { record with
    status := if approve then .approved else .rejected
    approverId := some approver
    decidedAt := some now
    stepUpVerified := approve && stepUpVerified }

def consume (record : ApprovalRecord Δ) (now : Instant) : ApprovalRecord Δ :=
  { record with status := .consumed, consumedAt := some now }

end ApprovalRecord

abbrev Approvals (Δ : Type) := Lib.Keyed (ApprovalRecord.approvalId (Δ := Δ))

/-! ### Outcomes -/

inductive OpenOutcome
  | created
  | existing
  | tooManyPending
  | coolingDown
  | taskNotActive
  | taskUnknown
  | taskSuperseded
  deriving DecidableEq, Repr

structure OpenResult (Δ : Type) where
  outcome : OpenOutcome
  record : Option (ApprovalRecord Δ) := none
  deriving DecidableEq

inductive DecideOutcome
  | decided
  | notFound
  | notPending
  | expired
  | notAuthorised
  | stepUpRequired
  deriving DecidableEq, Repr

structure DecideResult (Δ : Type) where
  outcome : DecideOutcome
  record : Option (ApprovalRecord Δ) := none
  deriving DecidableEq

inductive ConsumeOutcome
  | consumed
  | notFound
  | mismatch
  | expired
  | alreadyUsed
  | rejected
  | revoked
  | pending
  | superseded
  | taskNotActive
  | taskUnknown
  | taskSuperseded
  deriving DecidableEq, Repr

inductive RevokeOutcome
  | revoked
  | notFound
  | notOpen
  deriving DecidableEq, Repr

/-- `OPEN_TASK_REFUSAL`; an active task is not refused. -/
def openTaskRefusal : TaskActivity → Option OpenOutcome
  | .active => none
  | .ended => some .taskNotActive
  | .superseded => some .taskSuperseded
  | .unknown => some .taskUnknown

/-- `CONSUME_TASK_REFUSAL`; an active task is not refused. -/
def consumeTaskRefusal : TaskActivity → Option ConsumeOutcome
  | .active => none
  | .ended => some .taskNotActive
  | .superseded => some .taskSuperseded
  | .unknown => some .taskUnknown

/-! ### The shared rules -/

/-- What `decide` does with the record in its current state. -/
def diagnoseDecide (record : Option (ApprovalRecord Δ)) (approver : Uuid) (now : Instant)
    (approve stepUpVerified : Bool) : DecideOutcome :=
  match record with
  | none => .notFound
  | some record =>
    if approver ≠ record.requesterUserId ∨ approver = record.agentId then .notAuthorised
    else if record.status ≠ .pending then .notPending
    else if record.isExpired now then .expired
    else if approve ∧ record.level = .strongApproval ∧ ¬ stepUpVerified then .stepUpRequired
    else .decided

/-- What `consume` does with the record in its current state. -/
def diagnoseConsume (record : Option (ApprovalRecord Δ)) (binding : ApprovalBinding) (now : Instant) :
    ConsumeOutcome :=
  match record with
  | none => .notFound
  | some record =>
    if { record.binding with taskRun := binding.taskRun } ≠ binding then .mismatch
    else if record.status = .consumed then .alreadyUsed
    else if record.status = .rejected then .rejected
    else if record.status = .revoked then .revoked
    else if record.status = .expired ∨ record.isExpired now then .expired
    else if record.taskRun ≠ binding.taskRun then .superseded
    else if record.status = .pending then .pending
    else .consumed

def diagnoseRevoke (record : Option (ApprovalRecord Δ)) (now : Instant) : RevokeOutcome :=
  match record with
  | none => .notFound
  | some record => if record.status.isOpen ∧ ¬ record.isExpired now then .revoked else .notOpen

/-! ### The calls of a store -/

inductive StoreError
  | full
  | expiresBeforeCreation
  | duplicateId
  | couldNotOpen
  deriving DecidableEq, Repr

/-- A call of a store. `waited` is the time PostgreSQL waited for its locks, and `activity` what is said
about the task. -/
inductive Call (Δ : Type)
  | openRequest (new : NewApproval Δ) (now : Instant) (waited : ℕ) (limits : OpenLimits)
      (requireActiveTask : Bool) (activity : TaskActivity)
  | decide (id approver : Uuid) (approve : Bool) (now : Instant) (stepUpVerified : Bool)
  | consume (id : Uuid) (binding : ApprovalBinding) (now : Instant) (waited : ℕ)
      (requireActiveTask : Bool) (activity : TaskActivity)
  | revoke (id : Uuid) (actor : Option Uuid) (now : Instant)
  | revokeTask (taskId : Uuid) (now : Instant)

def Call.now : Call Δ → Instant
  | .openRequest _ now _ _ _ _ => now
  | .decide _ _ _ now _ => now
  | .consume _ _ now _ _ _ => now
  | .revoke _ _ now => now
  | .revokeTask _ now => now

/-- How long PostgreSQL waited for its locks. -/
def Call.waited : Call Δ → ℕ
  | .openRequest _ _ waited _ _ _ => waited
  | .consume _ _ _ waited _ _ => waited
  | _ => 0

inductive Answer (Δ : Type)
  | opened (result : Except StoreError (OpenResult Δ))
  | decided (result : DecideResult Δ)
  | consumed (outcome : ConsumeOutcome)
  | revoked (outcome : RevokeOutcome)
  | revokedTask (ids : List Uuid)

end PawBackend.Tools
