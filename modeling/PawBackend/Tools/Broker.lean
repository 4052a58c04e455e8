/-
**The Tool Broker** (`tools/broker.py`).

`request` decides whether a tool call may run. It asks its collaborators one after another, and each check can only
narrow what the previous one allowed; a check that cannot be made refuses.
-/

import PawBackend.Tools.Decisions

namespace PawBackend.Tools

open Lib Lib.Text Lib.Action
open Authz (AgentGrant Capability Decision Reason RepoAcl RepoPermission Resource)
open Tasks (RepoRole WorkingSetOperation acceptsRole marksChanged requiredPermission roleAllows)

variable {py : Platform}

def minApprovalTtl : ℤ := 60 * 10 ^ 6
def maxApprovalTtl : ℤ := 24 * 3600 * 10 ^ 6

/-- What a broker is built with, its collaborators apart. -/
structure ToolBroker where
  registry : ToolRegistry
  policy : ToolPolicy := defaultToolPolicy
  /-- Whether there is a store of task-scoped grants. -/
  grants : Bool := false
  approvalTtl : ℤ := 3600 * 10 ^ 6
  limits : OpenLimits := {}
  listeners : ℕ := 0
  approvalTtl_bound : minApprovalTtl ≤ approvalTtl ∧ approvalTtl ≤ maxApprovalTtl := by decide

/-- A call whose arguments were accepted, as the later checks see it. -/
structure Asked (py : Platform) where
  spec : ToolSpec
  parsed : ParsedArguments py
  context : TaskContext py
  callHash : CallHash
  correlationId : Uuid

def refuse (reason : BrokerReason) (correlationId : Uuid) (tool : Option String := none)
    (level : Option ApprovalLevel := none) (callHash : Option CallHash := none) (approvalId : Option Uuid := none)
    (authzReason : Option Reason := none) : BrokerDecision py :=
  { verdict := .deny, reason := reason, correlationId := correlationId, tool := tool, level := level
    callHash := callHash, approvalId := approvalId, authzReason := authzReason }

namespace Asked

variable (asked : Asked py)

/-- `_refuse`, of a call whose level is known. -/
def refuse (reason : BrokerReason) (level : ApprovalLevel) (approvalId : Option Uuid := none)
    (authzReason : Option Reason := none) : BrokerDecision py :=
  Tools.refuse reason asked.correlationId asked.spec.name level asked.callHash approvalId authzReason

def allow (level : ApprovalLevel) (reason : BrokerReason) (approvalId reservationId : Option Uuid) :
    BrokerDecision py :=
  { verdict := .allow, reason := reason, correlationId := asked.correlationId, tool := some asked.spec.name
    level := some level, callHash := some asked.callHash, approvalId := approvalId, reservationId := reservationId
    invocation := some
      { tool := asked.spec.name, arguments := asked.parsed.values, context := asked.context
        callHash := asked.callHash, level := level, capabilities := asked.spec.capabilities
        correlationId := asked.correlationId } }

def needsApproval (level : ApprovalLevel) (reason : BrokerReason) (approvalId : Uuid) : BrokerDecision py :=
  { verdict := .needsApproval, reason := reason, correlationId := asked.correlationId, tool := some asked.spec.name
    level := some level, callHash := some asked.callHash, approvalId := some approvalId }

def binding (level : ApprovalLevel) : ApprovalBinding :=
  ⟨asked.context.taskId, asked.context.run, asked.context.grant.agentId, asked.context.delegatorId,
    asked.spec.name, level, asked.callHash⟩

def grantUse : GrantUse :=
  ⟨asked.context.taskId, asked.context.run, asked.context.grant.agentId, asked.context.delegatorId,
    asked.spec.name, asked.callHash, asked.correlationId⟩

def executes : Bool := asked.spec.has .execute

end Asked

/-! ### Audit -/

def toolAction (tool : Option String) : String := (tool.map ("tool." ++ ·)).getD "tool.unknown"

def decisionEvent (decision : BrokerDecision py) (context : TaskContext py) (eventId : Uuid) (now : Instant) :
    AuditEvent where
  eventId := eventId
  correlationId := decision.correlationId
  occurredAt := now
  actorId := some context.delegatorId
  agentId := some context.grant.agentId
  action := toolAction decision.tool
  resourceKind := "task"
  resourceId := some context.taskId
  projectId := some context.primaryProjectId
  allowed := decision.allowed
  reason := decision.reason

def grantUseEvent (asked : Asked py) (grantId eventId : Uuid) (now : Instant) : AuditEvent where
  eventId := eventId
  correlationId := asked.correlationId
  occurredAt := now
  actorId := some asked.context.delegatorId
  agentId := some asked.context.grant.agentId
  action := "tool.approval.grant.use"
  resourceKind := "tool_task_grant"
  resourceId := some grantId
  projectId := some asked.context.primaryProjectId
  allowed := true
  reason := .taskGrantApplied

/-- `record_event`: whether the event was stored. -/
def recordEvent (event : AuditEvent) : Asks py Bool := do
  match ← attempt (wait (.record event)) with
  | .ok _ => return true
  | .error _ => return false

/-- `_audited`: an allowed call whose decision cannot be recorded does not run. -/
def audited (decision : BrokerDecision py) (context : TaskContext py) : Asks py (BrokerDecision py) := do
  let now : Instant ← wait .clock
  let eventId : Uuid ← wait .newId
  let recorded ← recordEvent (decisionEvent decision context eventId now)
  if recorded || !decision.allowed then return decision
  return { decision with verdict := .deny, reason := .auditUnavailable, invocation := none }

/-! ### Authorization -/

def repositoryResource (repository : ScopedRepository py.toStdlib) (state : Authz.ProjectState) : Resource :=
  match repository.acl with
  | some acl => Resource.repository repository.projectId state acl
  | none =>
    { kind := .repository, id := some repository.repoId, projectId := some repository.projectId
      repoId := some repository.repoId, projectState := some state }

def scopedResource (scope : TaskScope py.toStdlib) (repoId : Uuid) : Option Resource := do
  let repository ← scope.repository repoId
  let state ← scope.project repository.projectId
  return repositoryResource repository state

def projectResource (scope : TaskScope py.toStdlib) (projectId : Uuid) : Option Resource :=
  (scope.project projectId).map (Resource.project projectId)

def namedProjects (targets : List Target) : Option (List Uuid) :=
  ((targets.filter fun target => decide (target.kind = .project)).mapM fun target => toUuid target.value).map firsts

/-- `_resources`: what the call is about, or why it cannot be decided; `none` where the source raises. -/
def resources (asked : Asked py) (classification : Classification) :
    Option (Except BrokerReason (List Resource)) :=
  let capability := asked.spec.authzCapability
  match capability.scope with
  | .self => some (.ok [Resource.ownedBy asked.context.delegatorId .toolTarget])
  | .system => some (.ok [Resource.system])
  | .project => do
    let touched ← (if capability.repoPermission.isSome then classification.repositories else []).mapM
      (scopedResource asked.context.scope)
    if touched = [] ∧ capability.repoPermission = some .write then return .error .repositoryNotIdentified
    let named ← namedProjects asked.parsed.targets
    let projects := if named = [] ∧ touched = [] then [asked.context.primaryProjectId] else named
    let others ← projects.mapM (projectResource asked.context.scope)
    return .ok (touched ++ others)

/-- `_decide_all`: the first denial wins. -/
def decideAll (context : TaskContext py) (correlationId : Uuid) :
    List (Capability × Resource) → Asks py (Option (BrokerReason × Option Reason))
  | [] => return none
  | (capability, resource) :: rest => do
    let answer : Except Failure (Option Decision) ← attempt
      (wait (.authorizeAgentAction context.delegatorId context.grant capability resource correlationId))
    match answer with
    | .error _ => return some (.authzUnavailable, none)
    | .ok none => return some (.authzUnavailable, none)
    | .ok (some decision) =>
      if decision.allowed then decideAll context correlationId rest
      else return some (.authzDenied, some decision.reason)

def authorize (asked : Asked py) (classification : Classification) :
    Asks py (Option (BrokerReason × Option Reason)) := do
  match ← orRaise (resources asked classification) .other with
  | .error reason => return some (reason, none)
  | .ok resources =>
    decideAll asked.context asked.correlationId (resources.map fun resource => (asked.spec.authzCapability, resource))

/-- `_role_denial`, of one repository. -/
def roleDenialOf (asked : Asked py) (repoId : Uuid) : Option BrokerReason :=
  match (asked.context.scope.repository repoId).bind ScopedRepository.role with
  | none => some .repositoryRoleUnresolved
  | some role =>
    if roleAllows role asked.spec.authzCapability asked.executes then none else some .repositoryRoleInsufficient

def roleDenial (asked : Asked py) (classification : Classification) : Option BrokerReason :=
  if classification.repositories = [] then none
  else if (asked.spec.has .write || asked.spec.has .destructive) &&
      decide (asked.spec.authzCapability.repoPermission ≠ some .write) then
    some .repositoryWriteCapabilityMismatch
  else classification.repositories.findSome? (roleDenialOf asked)

def proxyCapability : RepoPermission → Option Capability
  | .read => some .projectRead
  | .write => some .projectRepoWrite
  | .agent => none

def namedRepository (targets : List Target) : Option Uuid :=
  match targets.filter fun target => decide (target.kind = .workingSetRepository) with
  | [target] => toUuid target.value
  | _ => none

def authorizeWorkingSet (asked : Asked py) (operation : WorkingSetOperation) :
    Asks py (Option (BrokerReason × Option Reason)) := do
  let repoId ← orRaise (namedRepository asked.parsed.targets) .other
  let entry := asked.context.scope.repository repoId
  let current := entry.bind ScopedRepository.role
  if entry.isSome && current.isNone && !acceptsRole operation none then return some (.repositoryRoleUnresolved, none)
  if !acceptsRole operation current then return some (.workingSetChangeInvalid, none)
  let found : Except Failure (Option RepoAcl) ← attempt (wait (.workingSetAcl repoId))
  match found.toOption.join.filter fun acl => decide (acl.repoId = repoId) with
  | none => return some (.workingSetRepositoryUnresolved, none)
  | some acl =>
    match asked.context.scope.project acl.projectId with
    | none => return some (.repositoryOutOfScope, none)
    | some state =>
      if entry.any fun entry => decide (entry.projectId ≠ acl.projectId) then return some (.repositoryOutOfScope, none)
      let proxy ← orRaise (proxyCapability (requiredPermission operation current)) .other
      let primary ← orRaise (projectResource asked.context.scope asked.context.primaryProjectId) .other
      decideAll asked.context asked.correlationId
        [(asked.spec.authzCapability, primary), (proxy, Resource.repository acl.projectId state acl)]

/-- The decision of the authorization layer, with the role ceiling before it. -/
def authorizationDenial (asked : Asked py) (classification : Classification) :
    Asks py (Option (BrokerReason × Option Reason)) :=
  match asked.spec.workingSetOperation with
  | some operation => authorizeWorkingSet asked operation
  | none =>
    match roleDenial asked classification with
    | some reason => return some (reason, none)
    | none => authorize asked classification

/-! ### Budget, lease and task -/

def budgetDenial (context : TaskContext py) (tool : String) : Asks py (Option BrokerReason) := do
  let answer : Except Failure (Option BudgetStatus) ← attempt (wait (.checkBudget context.taskId tool))
  match answer with
  | .ok (some .withinBudget) => return none
  | .ok (some .exceeded) => return some .budgetExceeded
  | .ok (some .unknown) => return some .budgetUnknown
  | _ => return some .budgetUnavailable

def leaseDenial (context : TaskContext py) : Asks py (Option BrokerReason) := do
  let answer : Except Failure (Option LeaseStatus) ← attempt (wait (.checkLease context.taskId context.lease))
  match answer with
  | .ok (some .held) => return none
  | .ok (some .lost) => return some .leaseLost
  | _ => return some .leaseUnavailable

def taskDenial (context : TaskContext py) : Asks py (Option BrokerReason) := do
  let answer : Except Failure (Option TaskActivity) ← attempt (wait (.checkTask context.taskId context.run))
  match answer with
  | .ok (some .active) => return none
  | .ok (some .ended) => return some .taskNotActive
  | .ok (some .superseded) => return some .taskSuperseded
  | .ok (some .unknown) => return some .taskUnknown
  | _ => return some .taskStateUnavailable

/-! ### The use of repositories -/

def useRefusal (changes : Bool) : Failure → BrokerReason
  | .repositoryRoleUnresolved => .repositoryRoleUnresolved
  | .repositoryRoleInsufficient => .repositoryRoleInsufficient
  | .staleRun => .taskSuperseded
  | .taskNotFound => .taskUnknown
  | .taskNotActive => .taskNotActive
  | _ => if changes then .repositoryWriteUnrecorded else .repositoryRoleUnresolved

/-- `_admit_use`: the refusal, and the reservation. -/
def admitUse (asked : Asked py) (classification : Classification) : Asks py (Option BrokerReason × Option Uuid) := do
  if classification.repositories = [] then return (none, none)
  let capability := asked.spec.authzCapability
  let changes := marksChanged capability asked.executes
  let answer : Except Failure (Option Uuid) ← attempt (wait (.admitRepositoryUse asked.context.taskId
    asked.context.run classification.repositories capability asked.executes))
  match answer with
  | .error failure => return (some (useRefusal changes failure), none)
  | .ok none => return (if changes then some .repositoryWriteUnrecorded else none, none)
  | .ok (some reservation) =>
    modify (· ++ [reservation])
    return (none, some reservation)

/-- `_release`: a release that fails is not raised. -/
def release (context : TaskContext py) (reservationId : Uuid) : Asks py Unit := do
  let _ ← attempt (wait (.releaseRepositoryUse context.taskId reservationId))
  return ()

def releaseAny (context : TaskContext py) (reservationId : Option Uuid) : Asks py Unit :=
  match reservationId with
  | some reservationId => release context reservationId
  | none => return ()

/-- `_release_through_cancellation`: the release is waited for, whatever happens to the request meanwhile. -/
def releaseThroughCancellation (context : TaskContext py) (reservationId : Uuid) :
    Program (Question py) (Question.Reply py) Failure Unit :=
  .ask (.releaseRepositoryUse context.taskId reservationId) fun _ => .done ()

/-! ### Approvals -/

/-- `ApprovalListeners.emit`; the listeners are told in their order, from the given one on. -/
def emitFrom (event : ApprovalEvent) (first : ℕ) : ℕ → Asks py Unit
  | 0 => return ()
  | left + 1 => do
    let _ ← attempt (wait (.notify first event))
    emitFrom event (first + 1) left

namespace ToolBroker

variable (broker : ToolBroker)

def emit (event : ApprovalEvent) : Asks py Unit := emitFrom event 0 broker.listeners

def openRefusalReason : OpenOutcome → Option BrokerReason
  | .tooManyPending => some .approvalLimitReached
  | .coolingDown => some .approvalCooldown
  | .taskNotActive => some .taskNotActive
  | .taskUnknown => some .taskUnknown
  | .taskSuperseded => some .taskSuperseded
  | _ => none

/-- `NewApproval(...)`; `none` where it raises a `ValueError`. -/
def newApproval (asked : Asked py) (level : ApprovalLevel) (approvalId : Uuid) (expiresAt : Instant)
    (pattern : Option GrantPattern) : Option (NewApproval (RequestDetails py)) :=
  let details : RequestDetails py :=
    ⟨asked.context.primaryProjectId, asked.parsed.targets, asked.parsed.summary, pattern⟩
  if tool_bound : 1 ≤ asked.spec.name.length ∧ asked.spec.name.length ≤ 64 then
    if level_human : level = .approval ∨ level = .strongApproval then
      if details.accepted level then
        some
          { approvalId := approvalId, taskId := asked.context.taskId, taskRun := asked.context.run
            agentId := asked.context.grant.agentId, requesterUserId := asked.context.delegatorId
            tool := asked.spec.name, level := level, callHash := asked.callHash, expiresAt := expiresAt
            details := details, agent_not_user := asked.context.agent_not_user, tool_bound := tool_bound
            level_human := level_human }
      else none
    else none
  else none

def opened (asked : Asked py) (level : ApprovalLevel) (now : Instant) (result : OpenResult (RequestDetails py)) :
    Asks py (BrokerDecision py) :=
  match openRefusalReason result.outcome with
  | some reason => return asked.refuse reason level
  | none =>
    match result.record.filter fun record => decide (record.callHash = asked.callHash) with
    | none => return asked.refuse .approvalUnavailable level
    | some record => do
      if result.outcome = .created then
        broker.emit ⟨.requested, record.approvalId, asked.context.taskId, asked.spec.name, level, now⟩
        return asked.needsApproval level
          (if level = .strongApproval then .strongApprovalRequired else .approvalRequired) record.approvalId
      else return asked.needsApproval level .approvalPending record.approvalId

def openApproval (asked : Asked py) (level : ApprovalLevel) (pattern : Option GrantPattern) :
    Asks py (BrokerDecision py) := do
  let now : Instant ← wait .clock
  if asked.parsed.summary.isEmpty then return asked.refuse .approvalNotDisplayable level
  let approvalId : Uuid ← wait .newId
  match newApproval asked level approvalId (now + broker.approvalTtl) pattern with
  | none => return asked.refuse .approvalNotDisplayable level
  | some new =>
    let answer : Except Failure (Option (OpenResult (RequestDetails py))) ←
      attempt (wait (.openRequest new now broker.limits))
    match answer with
    | .ok (some result) => broker.opened asked level now result
    | _ => return asked.refuse .approvalUnavailable level

def grantTaskReason : GrantUseOutcome → Option BrokerReason
  | .taskNotActive => some .taskNotActive
  | .taskUnknown => some .taskUnknown
  | .taskSuperseded => some .taskSuperseded
  | _ => none

def appliesTo (asked : Asked py) (pattern : GrantPattern) (grant : TaskGrantRecord) : Bool :=
  decide (grant.tool = asked.spec.name) && decide (grant.taskId = asked.context.taskId) &&
    decide (grant.taskRun = asked.context.run) && decide (grant.agentId = asked.context.grant.agentId) &&
    decide (grant.requesterUserId = asked.context.delegatorId) && grant.pattern.covers pattern

def firstGrant (asked : Asked py) (pattern : GrantPattern) (listing : GrantListing) :
    Asks py (Option TaskGrantRecord) :=
  match listing.items.find? fun item => item.any (appliesTo asked pattern) with
  | some grant => return grant
  | none => if listing.fails then raise .other else return none

/-- `_apply_grant`, once a grant was found and the use admitted. -/
def useGrant (asked : Asked py) (level : ApprovalLevel) (grant : TaskGrantRecord) (reservation : Option Uuid) :
    Asks py (Option (BrokerDecision py)) := do
  let now : Instant ← wait .clock
  let outcome : Except Failure (Option GrantUseOutcome) ← attempt (wait (.useGrant grant.grantId asked.grantUse now))
  if outcome.toOption.join = some .used then
    let eventId : Uuid ← wait .newId
    let recorded ← recordEvent (grantUseEvent asked grant.grantId eventId now)
    if recorded then
      return some { asked.allow level .taskGrantApplied none reservation with grantId := some grant.grantId }
    releaseAny asked.context reservation
    return some (asked.refuse .auditUnavailable level)
  else
    releaseAny asked.context reservation
    return (outcome.toOption.join.bind grantTaskReason).map fun reason => asked.refuse reason level

/-- `_apply_grant`: `none` where no grant applies and a human is asked. -/
def applyGrant (asked : Asked py) (classification : Classification) (level : ApprovalLevel) (pattern : GrantPattern) :
    Asks py (Option (BrokerDecision py)) := do
  let answer : Except Failure GrantListing ← attempt (wait (.activeGrants asked.context.taskId asked.context.run
    asked.context.grant.agentId asked.context.delegatorId asked.spec.name))
  match answer with
  | .error _ => return none
  | .ok listing =>
    match ← firstGrant asked pattern listing with
    | none => return none
    | some grant =>
      match ← admitUse asked classification with
      | (some reason, _) => return some (asked.refuse reason level)
      | (none, reservation) => useGrant asked level grant reservation

/-- `_CONSUME_REASON`, and the decision of an approval that is still pending. -/
def notConsumed (asked : Asked py) (level : ApprovalLevel) (approvalId : Uuid) :
    Option ConsumeOutcome → BrokerDecision py
  | some .pending => asked.needsApproval level .approvalPending approvalId
  | some .notFound => asked.refuse .approvalNotFound level approvalId
  | some .mismatch => asked.refuse .approvalMismatch level approvalId
  | some .expired => asked.refuse .approvalExpired level approvalId
  | some .alreadyUsed => asked.refuse .approvalAlreadyUsed level approvalId
  | some .rejected => asked.refuse .approvalRejected level approvalId
  | some .revoked => asked.refuse .approvalRevoked level approvalId
  | some .superseded => asked.refuse .approvalSuperseded level approvalId
  | some .taskNotActive => asked.refuse .taskNotActive level approvalId
  | some .taskUnknown => asked.refuse .taskUnknown level approvalId
  | some .taskSuperseded => asked.refuse .taskSuperseded level approvalId
  | some .consumed | none => asked.refuse .approvalUnavailable level approvalId

def consumeApproval (asked : Asked py) (level : ApprovalLevel) (approvalId : Uuid) (reservation : Option Uuid) :
    Asks py (BrokerDecision py) := do
  let now : Instant ← wait .clock
  let outcome : Except Failure (Option ConsumeOutcome) ←
    attempt (wait (.consume approvalId (asked.binding level) now))
  if outcome.toOption.join = some .consumed then
    broker.emit ⟨.consumed, approvalId, asked.context.taskId, asked.spec.name, level, now⟩
    return asked.allow level .approvalConsumed approvalId reservation
  else return notConsumed asked level approvalId outcome.toOption.join

/-! ### The decision -/

def outOfScopeReason : TargetKind → Option BrokerReason
  | .path => some .pathOutOfScope
  | .host => some .hostOutOfScope
  | .project => some .projectOutOfScope
  | .credential => some .credentialOutOfScope
  | .repository => some .repositoryOutOfScope
  | .url => some .remoteNotInRepository
  | .workingSetRepository => none

def levelOf (spec : ToolSpec) (status : ScopeStatus) : ApprovalLevel :=
  .mostRestrictive [broker.policy.levelFor spec.capabilities spec.environment status, spec.minLevel]

/-- A change of the Working Set touches no repository of the scope, so no gate asks about its task. -/
def workingSetTaskDenial (asked : Asked py) : Asks py (Option BrokerReason) :=
  if asked.spec.workingSetOperation.isSome then taskDenial asked.context else pure none

/-- The calls that need no human. -/
def decideAuto (asked : Asked py) (classification : Classification) (level : ApprovalLevel) :
    Asks py (BrokerDecision py) := do
  match ← workingSetTaskDenial asked with
  | some reason => return asked.refuse reason level
  | none =>
    match ← admitUse asked classification with
    | (some reason, _) => return asked.refuse reason level
    | (none, reservation) =>
      return asked.allow level (if level = .auto then .auto else .scopedAuto) none reservation

def patternOf (asked : Asked py) (classification : Classification) (level : ApprovalLevel) :
    Asks py (Option GrantPattern) :=
  if broker.grants then
    orRaise (grantPatternOf py asked.spec asked.parsed.values classification.status level).toOption .other
  else pure none

/-- No approval is given: a grant that covers the call, or a human. -/
def decideAsking (asked : Asked py) (classification : Classification) (level : ApprovalLevel) :
    Asks py (BrokerDecision py) := do
  match ← broker.patternOf asked classification level with
  | none => broker.openApproval asked level none
  | some pattern =>
    match ← applyGrant asked classification level pattern with
    | some decision => return decision
    | none => broker.openApproval asked level (some pattern)

def decideApproved (asked : Asked py) (classification : Classification) (level : ApprovalLevel)
    (approvalId : Uuid) : Asks py (BrokerDecision py) := do
  match ← admitUse asked classification with
  | (some reason, _) => return asked.refuse reason level approvalId
  | (none, reservation) =>
    let decision ← broker.consumeApproval asked level approvalId reservation
    if !decision.allowed then releaseAny asked.context reservation
    return decision

/-- The last part of `_evaluate`: nothing but the level and the approval is open. -/
def decideLevel (asked : Asked py) (classification : Classification) (level : ApprovalLevel)
    (approvalId : Option Uuid) : Asks py (BrokerDecision py) := do
  if level = .auto ∨ level = .scopedAuto then decideAuto asked classification level
  else
    match ← taskDenial asked.context with
    | some reason => return asked.refuse reason level approvalId
    | none =>
      match approvalId with
      | none => broker.decideAsking asked classification level
      | some approvalId => broker.decideApproved asked classification level approvalId

def requiredBudgetDenial (asked : Asked py) : Asks py (Option BrokerReason) :=
  if asked.spec.requiresBudget then budgetDenial asked.context asked.spec.name else pure none

/-- The part of `_evaluate` from the level on. -/
def evaluateClassified (asked : Asked py) (classification : Classification) (approvalId : Option Uuid) :
    Asks py (BrokerDecision py) := do
  let level := broker.levelOf asked.spec classification.status
  if level = .deny then
    match classification.offending with
    | none => return asked.refuse .policyDenied level
    | some kind => return asked.refuse (← orRaise (outOfScopeReason kind) .other) level
  else
    match ← authorizationDenial asked classification with
    | some (reason, authzReason) => return asked.refuse reason level none authzReason
    | none =>
      match ← requiredBudgetDenial asked with
      | some reason => return asked.refuse reason level
      | none =>
        match ← leaseDenial asked.context with
        | some reason => return asked.refuse reason level approvalId
        | none => broker.decideLevel asked classification level approvalId

/-- `_resolve`. -/
def resolvePathAsking (path : Text) : Asks py Text := do
  let answer : Except Failure (Option Text) ← attempt (wait (.resolve path))
  orRaise (resolvePath py.toStdlib answer.toOption.join) .pathResolution

/-- `classify_targets`. -/
def classifyAsking (asked : Asked py) : Asks py Classification := do
  let resolved ← asked.context.scope.resolve resolvePathAsking asked.parsed.targets
  orRaise (asked.context.scope.classifyResolved asked.parsed.targets asked.parsed.urls resolved).toOption .other

/-- The part of `_evaluate` from the classification on. -/
def evaluateParsed (asked : Asked py) (approvalId : Option Uuid) : Asks py (BrokerDecision py) := do
  match ← attempt (classifyAsking asked) with
  | .ok classification => broker.evaluateClassified asked classification approvalId
  | .error .pathResolution =>
    return refuse .pathResolutionUnavailable asked.correlationId asked.spec.name none asked.callHash
  | .error failure => raise failure

/-- `_evaluate`; an approval id that is not an id is `some none`. -/
def evaluate (call : ToolCall py) (correlationId : Uuid) (approvalId : Option (Option Uuid)) :
    Asks py (BrokerDecision py) :=
  if approvalId = some none then return refuse .invalidCall correlationId
  else
    match broker.registry.get call.tool with
    | none => return refuse .unknownTool correlationId
    | some spec =>
      if spec.returnsCredentialPlaintext then
        return refuse .credentialPlaintextDenied correlationId spec.name ApprovalLevel.deny
      else
        match parseArguments py spec call.arguments call.context.scope with
        | .error (.argument reason) => return refuse reason correlationId spec.name
        | .error (.value _) => raise .other
        | .ok parsed =>
          let callHash := computeCallHash py spec.name parsed.values call.context
          broker.evaluateParsed ⟨spec, parsed, call.context, callHash, correlationId⟩ approvalId.join

/-- What a request decides before its reservation is looked at. -/
def decided (call : ToolCall py) (correlationId : Uuid) (approvalId : Option (Option Uuid)) :
    Asks py (BrokerDecision py) := do
  let decision ← broker.evaluate call correlationId approvalId
  audited decision call.context

/-- A request that ends without a decision releases all it was given. -/
def releaseAll (context : TaskContext py) : List Uuid → Program (Question py) (Question.Reply py) Failure Unit
  | [] => .done ()
  | reservation :: rest => (releaseThroughCancellation context reservation).bind fun _ => releaseAll context rest

/-- The end of `request`: a reservation of a decision that does not run is released. -/
def settle (context : TaskContext py) (decision : BrokerDecision py) : Asks py (BrokerDecision py) := do
  if !decision.allowed && decision.reservationId.isSome then
    releaseAny context decision.reservationId
    return { decision with reservationId := none }
  return decision

/-- `request`, of a call with its correlation id. -/
def requestWith (call : ToolCall py) (correlationId : Uuid) (approvalId : Option (Option Uuid)) :
    Program (Question py) (Question.Reply py) Failure (Outcome Failure (BrokerDecision py)) :=
  (broker.decided call correlationId approvalId []).bind fun
    | (.returned decision, admitted) => (settle call.context decision admitted).bind fun result => .done result.1
    | (outcome, admitted) => (releaseAll call.context admitted).bind fun _ => .done outcome

/-- `request`; what is not a call of a task is `none`. -/
def request (call : Option (ToolCall py)) (approvalId : Option (Option Uuid)) :
    Program (Question py) (Question.Reply py) Failure (Outcome Failure (BrokerDecision py)) :=
  match call with
  | none =>
    .ask .newId fun
      | .returned id => .done (.returned (refuse .invalidCall id))
      | .raised failure => .done (.raised failure)
      | .interrupted => .done .interrupted
  | some call =>
    match call.correlationId with
    | some correlationId => broker.requestWith call correlationId approvalId
    | none =>
      .ask .newId fun
        | .returned id => broker.requestWith call id approvalId
        | .raised failure => .done (.raised failure)
        | .interrupted => .done .interrupted

end ToolBroker

end PawBackend.Tools
