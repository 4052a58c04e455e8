/-
**What a decision is about** (`authz/subjects.py`, `authz/policy.py`: `Reason`, `Decision`;
`authz/capabilities.py`: `CAPABILITIES`).

Resources, repository ACLs and agent grants, with the ids the backend resolved. The policy itself is
in `Authz/Policy` and `Authz/Delegation`.
-/

import PawBackend.Authz.Capabilities
import PawBackend.Tools.ApprovalTypes

namespace PawBackend.Authz

open Tools (Uuid)

inductive ProjectState
  | active
  | archived
  | pendingDeletion
  deriving DecidableEq, Repr

/-- The stored ACL of one repository; without a set of permissions it inherits the project role. -/
structure RepoAcl where
  repoId : Uuid
  projectId : Uuid
  allowed : Option (Finset RepoPermission)
  deriving DecidableEq

inductive ResourceKind
  | system
  | project
  | repository
  | toolTarget
  | memory
  | projectInvitation
  | projectMembership
  deriving DecidableEq, Repr

structure Resource where
  kind : ResourceKind
  id : Option Uuid := none
  projectId : Option Uuid := none
  ownerId : Option Uuid := none
  repoId : Option Uuid := none
  projectState : Option ProjectState := none
  repoAcl : Option RepoAcl := none
  deriving DecidableEq

namespace Resource

def system : Resource := { kind := .system }

def project (projectId : Uuid) (state : ProjectState) : Resource :=
  { kind := .project, id := some projectId, projectId := some projectId, projectState := some state }

def repository (projectId : Uuid) (state : ProjectState) (acl : RepoAcl) : Resource :=
  { kind := .repository, id := some acl.repoId, projectId := some projectId, repoId := some acl.repoId
    projectState := some state, repoAcl := some acl }

def ownedBy (ownerId : Uuid) (kind : ResourceKind) : Resource := { kind := kind, ownerId := some ownerId }

end Resource

/-- What the delegating user allowed one agent to do; without project ids, in all their projects. -/
structure AgentGrant where
  agentId : Uuid
  capabilities : List Capability
  projectIds : Option (List Uuid)
  deriving DecidableEq, Repr

inductive Reason
  | grantedBySystemRole
  | grantedByProjectRole
  | grantedToResourceOwner
  | unauthenticated
  | unknownCapability
  | invalidResource
  | capabilityNotGranted
  | notProjectMember
  | notResourceOwner
  | agentCapabilityForbidden
  | agentCapabilityNotGranted
  | agentProjectNotGranted
  | delegatorNotActive
  | repoAclUnresolved
  | repoAclMismatch
  | repoAclForbids
  | projectStateForbids
  | roleChangeNotAllowed
  | selfRoleChange
  | auditUnavailable
  deriving DecidableEq, Repr

structure Decision where
  allowed : Bool
  reason : Reason
  capability : Option Capability
  deriving DecidableEq, Repr

inductive Scope
  | system
  | project
  | self
  deriving DecidableEq, Repr

/-- `CAPABILITIES[capability].scope`. -/
def Capability.scope : Capability → Scope
  | .chatUse | .agentUse | .workspaceUse | .githubUse | .memoryUse | .memoryRead | .prCreate
  | .projectInvitationRespond | .projectLeave => .self
  | .projectRead | .projectChat | .projectTaskRun | .projectRepoWrite | .projectAgentUse | .projectPrCreate
  | .projectMemoryUse | .projectMemoryManage | .projectSettingsManage | .projectRepoAdd
  | .projectMembersManage | .projectAgentPolicyManage | .projectLifecycleManage
  | .projectTaskWorkingSetManage | .projectTaskWriteReservationRelease => .project
  | _ => .system

theorem Capability.scope_of_repoPermission {capability : Capability} {permission : RepoPermission}
    (isOf : capability.repoPermission = some permission) : capability.scope = .project := by
  cases capability <;> first | rfl | cases isOf

end PawBackend.Authz
