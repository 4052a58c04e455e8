/-
**Approvals kept in memory** (`tools/approval_memory.py`): `InMemoryApprovalStore`.

A call of the store runs under its lock from its first line to its last, so it is one function from a store to a store
and an answer. What the task activity provider answers is an argument of the call.
-/

import PawBackend.Tools.ApprovalTypes

namespace PawBackend.Tools

open Lib

structure ApprovalHistoryEntry (Δ : Type) where
  seq : ℕ
  approvalId : Uuid
  kind : ApprovalEventKind
  actorUserId : Option Uuid := none
  agentId : Option Uuid := none
  occurredAt : Instant
  summary : Option Δ := none

/-- How a store in memory is set up: its limit, and whether it can ask about tasks. -/
structure MemoryConfig where
  maxRecords : ℕ := 10000
  taskActivity : Bool := true

structure InMemoryApprovalStore (Δ : Type) where
  records : Approvals Δ
  history : List (ApprovalHistoryEntry Δ)

namespace InMemoryApprovalStore

variable {Δ : Type} (cfg : MemoryConfig) (s : InMemoryApprovalStore Δ)

def empty : InMemoryApprovalStore Δ := ⟨.empty, []⟩

def get (id : Uuid) : Option (ApprovalRecord Δ) := s.records.get id

/-- `self._records[record.approval_id] = record`. -/
def assign (record : ApprovalRecord Δ) : InMemoryApprovalStore Δ :=
  { s with records := s.records.put record }

def log (id : Uuid) (kind : ApprovalEventKind) (now : Instant) (actor agent : Option Uuid)
    (summary : Option Δ) : InMemoryApprovalStore Δ :=
  { s with history := s.history ++ [⟨s.history.length + 1, id, kind, actor, agent, now, summary⟩] }

/-- `_expire`: mark an open, timed-out approval expired. -/
def expire (record : ApprovalRecord Δ) (now : Instant) :
    InMemoryApprovalStore Δ × ApprovalRecord Δ :=
  if record.status.isOpen ∧ record.isExpired now then
    ((s.assign record.expire).log record.approvalId .expired now none none none, record.expire)
  else (s, record)

def revokeWhere (selected : ApprovalRecord Δ → Bool) (now : Instant) : InMemoryApprovalStore Δ :=
  s.records.rows.foldl
    (fun s record =>
      if selected record then
        (s.assign (record.revoke none now)).log record.approvalId .revoked now none none none
      else s)
    s

def ofEarlierRun (new : NewApproval Δ) (now : Instant) (record : ApprovalRecord Δ) : Bool :=
  decide (record.taskId = new.taskId) && decide (record.taskRun ≠ new.taskRun) &&
    record.status.isOpen && !record.isExpired now

/-- The loop over the records of the same call: timed-out ones are marked, an open one is found. -/
def findOpen (callHash : CallHash) (now : Instant) :
    InMemoryApprovalStore Δ → List (ApprovalRecord Δ) →
      InMemoryApprovalStore Δ × Option (ApprovalRecord Δ)
  | s, [] => (s, none)
  | s, record :: rest =>
    if record.callHash ≠ callHash then findOpen callHash now s rest
    else
      let (s, record) := s.expire record now
      if record.status.isOpen then (s, some record) else findOpen callHash now s rest

def coolsDown (callHash : CallHash) (now : Instant) (limits : OpenLimits)
    (record : ApprovalRecord Δ) : Bool :=
  decide (record.callHash = callHash) && decide (record.status = .rejected) &&
    record.decidedAt.any fun decidedAt => decide (now - limits.rejectionCooldown < decidedAt)

def counts (taskId userId : Uuid) (now : Instant) (record : ApprovalRecord Δ) : Bool :=
  decide (record.taskId = taskId) && decide (record.requesterUserId = userId) &&
    record.status.isOpen && !record.isExpired now

/-- `open_request` once no open approval of the call was found. -/
def create (new : NewApproval Δ) (now : Instant) (limits : OpenLimits) :
    InMemoryApprovalStore Δ × Except StoreError (OpenResult Δ) :=
  if s.records.rows.any (coolsDown new.callHash now limits) then (s, .ok ⟨.coolingDown, none⟩)
  else if limits.maxPending ≤ s.records.rows.countP (counts new.taskId new.requesterUserId now) then
    (s, .ok ⟨.tooManyPending, none⟩)
  else if cfg.maxRecords ≤ s.records.rows.length then (s, .error .full)
  else if new.expiresAt ≤ now then (s, .error .expiresBeforeCreation)
  else
    ((s.assign (new.record now)).log new.approvalId .requested now none (some new.agentId)
      (some new.details), .ok ⟨.created, some (new.record now)⟩)

def openRequest (new : NewApproval Δ) (now : Instant) (limits : OpenLimits)
    (requireActiveTask : Bool) (activity : TaskActivity) :
    InMemoryApprovalStore Δ × Except StoreError (OpenResult Δ) :=
  let asks := requireActiveTask && cfg.taskActivity
  match (if asks then openTaskRefusal activity else none) with
  | some refusal => (s, .ok ⟨refusal, none⟩)
  | none =>
    let swept := if asks then s.revokeWhere (ofEarlierRun new now) now else s
    match findOpen new.callHash now swept swept.records.rows with
    | (found, some record) => (found, .ok ⟨.existing, some record⟩)
    | (found, none) => found.create cfg new now limits

def decide (id approver : Uuid) (approve : Bool) (now : Instant) (stepUpVerified : Bool) :
    InMemoryApprovalStore Δ × DecideResult Δ :=
  let outcome := diagnoseDecide (s.get id) approver now approve stepUpVerified
  match s.get id with
  | none => (s, ⟨outcome, none⟩)
  | some record =>
    if outcome = .expired then ((s.expire record now).1, ⟨outcome, none⟩)
    else if outcome ≠ .decided then (s, ⟨outcome, none⟩)
    else
      let decided := record.decide approver approve now stepUpVerified
      ((s.assign decided).log id (if approve then .approved else .rejected) now (some approver) none
        none, ⟨.decided, some decided⟩)

def consume (id : Uuid) (binding : ApprovalBinding) (now : Instant) (requireActiveTask : Bool)
    (activity : TaskActivity) : InMemoryApprovalStore Δ × ConsumeOutcome :=
  let outcome := diagnoseConsume (s.get id) binding now
  match s.get id with
  | none => (s, outcome)
  | some record =>
    if outcome = .expired then ((s.expire record now).1, outcome)
    else if outcome ≠ .consumed ∧ outcome ≠ .superseded then (s, outcome)
    else
      match (if requireActiveTask && cfg.taskActivity then consumeTaskRefusal activity else none) with
      | some refusal => (s, refusal)
      | none =>
        if outcome ≠ .consumed then (s, outcome)
        else
          ((s.assign (record.consume now)).log id .consumed now none (some binding.agentId) none,
            .consumed)

def revoke (id : Uuid) (actor : Option Uuid) (now : Instant) :
    InMemoryApprovalStore Δ × RevokeOutcome :=
  let outcome := diagnoseRevoke (s.get id) now
  match s.get id with
  | none => (s, outcome)
  | some record =>
    if outcome ≠ .revoked then (s, outcome)
    else ((s.assign (record.revoke actor now)).log id .revoked now actor none none, .revoked)

/-- What `revoke_task` revokes. -/
def ofTask (taskId : Uuid) (now : Instant) (record : ApprovalRecord Δ) : Bool :=
  Decidable.decide (record.taskId = taskId) &&
    Decidable.decide (diagnoseRevoke (some record) now = .revoked)

def revokeTask (taskId : Uuid) (now : Instant) : InMemoryApprovalStore Δ × List Uuid :=
  (s.revokeWhere (ofTask taskId now) now,
    (s.records.rows.filter (ofTask taskId now)).map ApprovalRecord.approvalId)

end InMemoryApprovalStore

end PawBackend.Tools
