/-
**The broker's answers, and what it asks** (`tools/decisions.py`, `tools/budget.py`, `tools/lease.py`,
`tools/task_grants.py`, `tools/audit.py`; `tools/calls.py`: `ToolInvocation`).

Every collaborator of the broker is behind a question.
-/

import PawBackend.Lib.Program
import PawBackend.Tools.GrantPattern

namespace PawBackend.Tools

open Lib Lib.Text
open Authz (AgentGrant Capability Decision Reason RepoAcl Resource)
open Tasks (QueueLease)

variable (py : Platform)

/-! ### Decisions -/

inductive Verdict
  | allow
  | needsApproval
  | deny
  deriving DecidableEq, Repr

/-- What an executor is told to run. -/
structure ToolInvocation where
  tool : String
  arguments : List (Text × Value)
  context : TaskContext py
  callHash : CallHash
  level : ApprovalLevel
  capabilities : List ToolCapability
  correlationId : Uuid

structure BrokerDecision where
  verdict : Verdict
  reason : BrokerReason
  correlationId : Uuid
  tool : Option String := none
  level : Option ApprovalLevel := none
  callHash : Option CallHash := none
  approvalId : Option Uuid := none
  grantId : Option Uuid := none
  authzReason : Option Reason := none
  invocation : Option (ToolInvocation py) := none
  reservationId : Option Uuid := none

variable {py} in
def BrokerDecision.allowed (decision : BrokerDecision py) : Bool := decide (decision.verdict = .allow)

/-! ### What the collaborators say -/

inductive BudgetStatus
  | withinBudget
  | exceeded
  | unknown
  deriving DecidableEq, Repr

inductive LeaseStatus
  | held
  | lost
  | unknown
  deriving DecidableEq, Repr

/-- An active grant, as far as the broker reads it. -/
structure TaskGrantRecord where
  grantId : Uuid
  taskId : Uuid
  taskRun : TaskRun
  agentId : Uuid
  requesterUserId : Uuid
  tool : String
  pattern : GrantPattern

inductive GrantUseOutcome
  | used
  | notFound
  | mismatch
  | revoked
  | superseded
  | taskNotActive
  | taskUnknown
  | taskSuperseded
  deriving DecidableEq, Repr

structure GrantUse where
  taskId : Uuid
  taskRun : TaskRun
  agentId : Uuid
  requesterUserId : Uuid
  tool : String
  callHash : CallHash
  correlationId : Uuid
  deriving DecidableEq, Repr

structure GrantListing where
  items : List (Option TaskGrantRecord)
  fails : Bool

structure AuditEvent where
  eventId : Uuid
  correlationId : Uuid
  occurredAt : Instant
  actorId : Option Uuid
  agentId : Option Uuid
  action : String
  resourceKind : String
  resourceId : Option Uuid
  projectId : Option Uuid
  allowed : Bool
  reason : BrokerReason
  deriving DecidableEq, Repr

structure ApprovalEvent where
  kind : ApprovalEventKind
  approvalId : Uuid
  taskId : Uuid
  tool : String
  level : ApprovalLevel
  occurredAt : Instant
  deriving DecidableEq, Repr

/-! ### Requests for a human -/

/-- What a request holds for the human who is asked. -/
structure RequestDetails where
  projectId : Uuid
  targets : List Target
  summary : List (SummaryItem py)
  grantPattern : Option GrantPattern

def maxSummaryItems : ℕ := 16
def maxSummaryTotalChars : ℕ := 6144

variable {py} in
/-- `NewApproval.__post_init__`, of what is not checked by its structure. -/
def RequestDetails.accepted (details : RequestDetails py) (level : ApprovalLevel) : Bool :=
  decide (1 ≤ details.summary.length) && decide (details.summary.length ≤ maxSummaryItems) &&
    decide ((details.summary.map fun item => item.value.length).sum ≤ maxSummaryTotalChars) &&
    (details.grantPattern.isNone || decide (level = .approval))

/-! ### Questions -/

/-- What is raised: the errors the broker tells apart, and any other. -/
inductive Failure
  | repositoryRoleUnresolved
  | repositoryRoleInsufficient
  | staleRun
  | taskNotFound
  | taskNotActive
  | pathResolution
  | other
  deriving DecidableEq, Repr

inductive Question
  | clock
  | newId
  | resolve (path : Text)
  | authorizeAgentAction (delegatorId : Uuid) (grant : AgentGrant) (capability : Capability) (resource : Resource)
      (correlationId : Uuid)
  | workingSetAcl (repoId : Uuid)
  | checkBudget (taskId : Uuid) (tool : String)
  | checkLease (taskId : Uuid) (lease : QueueLease)
  | checkTask (taskId : Uuid) (run : TaskRun)
  | admitRepositoryUse (taskId : Uuid) (run : TaskRun) (repositories : List Uuid) (capability : Capability)
      (executes : Bool)
  | releaseRepositoryUse (taskId reservationId : Uuid)
  | openRequest (new : NewApproval (RequestDetails py)) (now : Instant) (limits : OpenLimits)
  | consume (approvalId : Uuid) (binding : ApprovalBinding) (now : Instant)
  | activeGrants (taskId : Uuid) (run : TaskRun) (agentId requesterUserId : Uuid) (tool : String)
  | useGrant (grantId : Uuid) (use : GrantUse) (now : Instant)
  | record (event : AuditEvent)
  | notify (listener : ℕ) (event : ApprovalEvent)

abbrev Question.Reply : Question py → Type
  | .clock => Instant
  | .newId => Uuid
  | .resolve _ => Option Text
  | .authorizeAgentAction .. => Option Decision
  | .workingSetAcl _ => Option RepoAcl
  | .checkBudget .. => Option BudgetStatus
  | .checkLease .. => Option LeaseStatus
  | .checkTask .. => Option TaskActivity
  | .admitRepositoryUse .. => Option Uuid
  | .releaseRepositoryUse .. => Unit
  | .openRequest .. => Option (OpenResult (RequestDetails py))
  | .consume .. => Option ConsumeOutcome
  | .activeGrants .. => GrantListing
  | .useGrant .. => Option GrantUseOutcome
  | .record _ => Unit
  | .notify .. => Unit

/-- A part of a request; its state is the list of reservations that the request was given. -/
abbrev Asks := Action (Question py) (Question.Reply py) Failure (List Uuid)

variable {py} in
abbrev wait (question : Question py) : Asks py question.Reply := Action.ask question

abbrev Exchanges := List (Exchange (Question py) (Question.Reply py) Failure)

end PawBackend.Tools
