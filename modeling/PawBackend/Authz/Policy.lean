/-
**Who may do what** (`authz/roles.py`, `authz/policy.py`, `authz/authorizer.py`: `authorize`).

`decide` is the policy for a person: a capability of the person's own things needs the system role and the ownership,
one of a project the state of the project and a role in it.
-/

import PawBackend.Authz.Subjects

namespace PawBackend.Authz

open Tools (Uuid)

inductive SystemRole
  | owner
  | admin
  | user
  | system
  deriving DecidableEq, Repr

inductive ProjectRole
  | manager
  | contributor
  | viewer
  deriving DecidableEq, Repr

structure Principal where
  userId : Uuid
  systemRole : SystemRole
  projectRoles : Uuid → Option ProjectRole := fun _ => none

/-- `_USER`. -/
def userGrants : List Capability :=
  [.chatUse, .agentUse, .workspaceUse, .githubUse, .memoryUse, .memoryRead, .prCreate, .sharedMemoryRead, .projectCreate,
   .projectInvitationRespond, .projectLeave, .accountRead, .accountManage, .systemHealthSummaryRead, .tasksList,
   .notificationRead, .notificationManage]

def adminOnly : List Capability :=
  [.sharedMemoryManage, .sharedMemoryCreate, .sharedMemoryEdit, .sharedMemoryDelete, .sharedMemoryRestore,
   .sharedMemoryCandidateApprove, .sharedMemoryCandidateReject, .adminUsersManage, .adminUsageView, .adminQuotaManage,
   .adminAuditView, .adminSystemPromptManage, .adminModelsManage, .adminRoutingManage, .adminPermissionsManage,
   .adminConfigManage, .adminProjectsManage, .adminAuthPolicyView, .projectLifecycleManage,
   .projectTaskWriteReservationRelease, .adminComputeFullGpu, .adminSystemHealthView]

def ownerOnly : List Capability :=
  [.ownerAdminsManage, .ownerOwnershipTransfer, .ownerRecoveryManage, .ownerUserRestore, .ownerBackupManage,
   .ownerAuthPolicyManage]

/-- `_VIEWER`. -/
def viewerGrants : List Capability := [.projectRead]

def contributorOnly : List Capability :=
  [.projectChat, .projectTaskRun, .projectRepoWrite, .projectAgentUse, .projectPrCreate, .projectMemoryUse,
   .projectTaskWorkingSetManage]

def managerOnly : List Capability :=
  [.projectMembersManage, .projectRepoAdd, .projectSettingsManage, .projectAgentPolicyManage, .projectMemoryManage,
   .projectLifecycleManage, .projectTaskWriteReservationRelease]

def systemRoleAllows : SystemRole → Capability → Bool
  | .owner, capability => decide (capability ∈ userGrants ++ adminOnly ++ ownerOnly)
  | .admin, capability => decide (capability ∈ userGrants ++ adminOnly)
  | .user, capability => decide (capability ∈ userGrants)
  | .system, _ => false

def projectRoleAllows : ProjectRole → Capability → Bool
  | .manager, capability => decide (capability ∈ viewerGrants ++ contributorOnly ++ managerOnly)
  | .contributor, capability => decide (capability ∈ viewerGrants ++ contributorOnly)
  | .viewer, capability => decide (capability ∈ viewerGrants)

/-- `_STATE_ALLOWS`: what a project may still be used for. -/
def ProjectState.allows : ProjectState → Capability → Bool
  | .active, _ => true
  | .archived, capability => decide (capability ∈ [Capability.projectRead, .projectLifecycleManage])
  | .pendingDeletion, capability => decide (capability ∈ [Capability.projectLifecycleManage])

namespace Decision

def allow (reason : Reason) (capability : Capability) : Decision := ⟨true, reason, some capability⟩

def deny (reason : Reason) (capability : Capability) : Decision := ⟨false, reason, some capability⟩

end Decision

def projectRoleDecision (principal : Principal) (capability : Capability) (projectId : Uuid) : Decision :=
  if systemRoleAllows principal.systemRole capability then .allow .grantedBySystemRole capability
  else
    match principal.projectRoles projectId with
    | none => .deny .notProjectMember capability
    | some role =>
      if projectRoleAllows role capability then .allow .grantedByProjectRole capability
      else .deny .capabilityNotGranted capability

/-- What the ACL of a repository leaves of what the project role gives. -/
def withinAcl (granted : Decision) (capability : Capability) (acl : Option RepoAcl) : Decision :=
  match acl.bind RepoAcl.allowed with
  | none => granted
  | some allowed =>
    if granted.allowed = true ∧ ∀ permission, capability.repoPermission = some permission → permission ∉ allowed then
      .deny .repoAclForbids capability
    else granted

/-- `decide`, for a principal and a resource that are such. -/
def decidePolicy (principal : Principal) (capability : Capability) (resource : Resource) : Decision :=
  if resource.repoId ≠ none ∧ (capability.scope ≠ .project ∨ capability.repoPermission = none) then
    .deny .invalidResource capability
  else
    match capability.scope with
    | .system =>
      if systemRoleAllows principal.systemRole capability then .allow .grantedBySystemRole capability
      else .deny .capabilityNotGranted capability
    | .self =>
      match resource.ownerId with
      | none => .deny .invalidResource capability
      | some owner =>
        if systemRoleAllows principal.systemRole capability = false then .deny .capabilityNotGranted capability
        else if owner ≠ principal.userId then .deny .notResourceOwner capability
        else .allow .grantedToResourceOwner capability
    | .project =>
      match resource.projectId, resource.projectState with
      | some projectId, some state =>
        if state.allows capability = false then .deny .projectStateForbids capability
        else if resource.repoId ≠ none ∧ resource.repoAcl = none then .deny .repoAclUnresolved capability
        else if resource.repoId ≠ none ∧ resource.repoAcl.any (fun acl =>
            some acl.repoId ≠ resource.repoId ∨ acl.projectId ≠ projectId) then .deny .repoAclMismatch capability
        else withinAcl (projectRoleDecision principal capability projectId) capability resource.repoAcl
      | _, _ => .deny .invalidResource capability

/-- `CAPABILITIES[capability].audit` is `DENIED_ONLY`: an allowed use is not recorded. -/
def Capability.readOnly : Capability → Bool
  | .memoryRead | .accountRead | .systemHealthSummaryRead | .tasksList | .notificationRead | .sharedMemoryRead
  | .adminSystemHealthView | .projectRead => true
  | _ => false

abbrev AuditSink := Capability → Resource → Bool

def authorize (sink : AuditSink) (principal : Principal) (capability : Capability) (resource : Resource) : Decision :=
  let decision := decidePolicy principal capability resource
  if decision.allowed = true ∧ capability.readOnly = false ∧ sink capability resource = false then
    { decision with allowed := false, reason := .auditUnavailable }
  else decision

variable {principal : Principal} {capability : Capability}

theorem decidePolicy_of_authorize {sink : AuditSink} {resource : Resource}
    (allowed : (authorize sink principal capability resource).allowed = true) :
    (decidePolicy principal capability resource).allowed = true := by
  unfold authorize at allowed
  by_cases failed : (decidePolicy principal capability resource).allowed = true ∧ capability.readOnly = false ∧
      sink capability resource = false
  · rw [if_pos failed] at allowed
    cases allowed
  · rwa [if_neg failed] at allowed

end PawBackend.Authz
