/-
**The capabilities** (`authz/capabilities.py`), and which of them are about a single repository.
-/

import PawBackend.Lib.Text

namespace PawBackend.Authz

open Lib
open Lib.Text (lit)

inductive Capability
  | chatUse
  | agentUse
  | workspaceUse
  | githubUse
  | memoryUse
  | memoryRead
  | prCreate
  | projectInvitationRespond
  | projectLeave
  | projectCreate
  | sharedMemoryRead
  | sharedMemoryManage
  | sharedMemoryCreate
  | sharedMemoryEdit
  | sharedMemoryDelete
  | sharedMemoryRestore
  | sharedMemoryCandidateApprove
  | sharedMemoryCandidateReject
  | accountRead
  | accountManage
  | systemHealthSummaryRead
  | tasksList
  | notificationRead
  | notificationManage
  | adminUsersManage
  | adminUsageView
  | adminQuotaManage
  | adminAuditView
  | adminSystemPromptManage
  | adminModelsManage
  | adminRoutingManage
  | adminPermissionsManage
  | adminConfigManage
  | adminProjectsManage
  | adminAuthPolicyView
  | adminComputeFullGpu
  | adminSystemHealthView
  | ownerAdminsManage
  | ownerOwnershipTransfer
  | ownerRecoveryManage
  | ownerUserRestore
  | ownerBackupManage
  | ownerAuthPolicyManage
  | projectRead
  | projectChat
  | projectTaskRun
  | projectRepoWrite
  | projectAgentUse
  | projectPrCreate
  | projectMemoryUse
  | projectMemoryManage
  | projectSettingsManage
  | projectRepoAdd
  | projectMembersManage
  | projectAgentPolicyManage
  | projectLifecycleManage
  | projectTaskWorkingSetManage
  | projectTaskWriteReservationRelease
  deriving DecidableEq, Repr

def Capability.value : Capability → Text
  | .chatUse => lit "chat.use"
  | .agentUse => lit "agent.use"
  | .workspaceUse => lit "workspace.use"
  | .githubUse => lit "github.use"
  | .memoryUse => lit "memory.use"
  | .memoryRead => lit "memory.read"
  | .prCreate => lit "pr.create"
  | .projectInvitationRespond => lit "project.invitation.respond"
  | .projectLeave => lit "project.leave"
  | .projectCreate => lit "project.create"
  | .sharedMemoryRead => lit "shared_memory.read"
  | .sharedMemoryManage => lit "shared_memory.manage"
  | .sharedMemoryCreate => lit "shared_memory.create"
  | .sharedMemoryEdit => lit "shared_memory.edit"
  | .sharedMemoryDelete => lit "shared_memory.delete"
  | .sharedMemoryRestore => lit "shared_memory.restore"
  | .sharedMemoryCandidateApprove => lit "shared_memory.candidate.approve"
  | .sharedMemoryCandidateReject => lit "shared_memory.candidate.reject"
  | .accountRead => lit "account.read"
  | .accountManage => lit "account.manage"
  | .systemHealthSummaryRead => lit "system_health.summary.read"
  | .tasksList => lit "tasks.list"
  | .notificationRead => lit "notification.read"
  | .notificationManage => lit "notification.manage"
  | .adminUsersManage => lit "admin.users.manage"
  | .adminUsageView => lit "admin.usage.view"
  | .adminQuotaManage => lit "admin.quota.manage"
  | .adminAuditView => lit "admin.audit.view"
  | .adminSystemPromptManage => lit "admin.system_prompt.manage"
  | .adminModelsManage => lit "admin.models.manage"
  | .adminRoutingManage => lit "admin.routing.manage"
  | .adminPermissionsManage => lit "admin.permissions.manage"
  | .adminConfigManage => lit "admin.config.manage"
  | .adminProjectsManage => lit "admin.projects.manage"
  | .adminAuthPolicyView => lit "admin.auth_policy.view"
  | .adminComputeFullGpu => lit "admin.compute.full_gpu"
  | .adminSystemHealthView => lit "admin.system_health.view"
  | .ownerAdminsManage => lit "owner.admins.manage"
  | .ownerOwnershipTransfer => lit "owner.ownership.transfer"
  | .ownerRecoveryManage => lit "owner.recovery.manage"
  | .ownerUserRestore => lit "owner.user_restore"
  | .ownerBackupManage => lit "owner.backup.manage"
  | .ownerAuthPolicyManage => lit "owner.auth_policy.manage"
  | .projectRead => lit "project.read"
  | .projectChat => lit "project.chat"
  | .projectTaskRun => lit "project.task.run"
  | .projectRepoWrite => lit "project.repo.write"
  | .projectAgentUse => lit "project.agent.use"
  | .projectPrCreate => lit "project.pr.create"
  | .projectMemoryUse => lit "project.memory.use"
  | .projectMemoryManage => lit "project.memory.manage"
  | .projectSettingsManage => lit "project.settings.manage"
  | .projectRepoAdd => lit "project.repo.add"
  | .projectMembersManage => lit "project.members.manage"
  | .projectAgentPolicyManage => lit "project.agent_policy.manage"
  | .projectLifecycleManage => lit "project.lifecycle.manage"
  | .projectTaskWorkingSetManage => lit "project.task.working_set.manage"
  | .projectTaskWriteReservationRelease => lit "project.task.write_reservation.release"

/-- The permissions a repository's ACL override can grant. -/
inductive RepoPermission
  | read
  | write
  | agent
  deriving DecidableEq, Repr

/-- `REPO_PERMISSION_OF`: a capability that has none is not about a single repository. -/
def Capability.repoPermission : Capability → Option RepoPermission
  | .projectRead => some .read
  | .projectMemoryUse => some .read
  | .projectRepoWrite => some .write
  | .projectPrCreate => some .write
  | .projectTaskRun => some .agent
  | .projectAgentUse => some .agent
  | _ => none

end PawBackend.Authz
