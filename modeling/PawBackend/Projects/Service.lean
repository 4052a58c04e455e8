/-
**The operations on projects and their members** (`projects/service.py`; `auth/onboarding/lifecycle.py`:
`delete_user`, `restore_user`).

Every operation is one transaction: what it locks, what each of its statements reads, and what it commits.
-/

import PawBackend.Lib.Transactions
import PawBackend.Projects.Store

namespace PawBackend.Projects

open Lib
open Tools (Uuid Instant)
open Authz

/-- The rows the transactions lock: a user's `FOR SHARE` or `FOR NO KEY UPDATE`, a project's `FOR UPDATE`. -/
inductive RowLock
  | userShare (userId : Uuid)
  | userUpdate (userId : Uuid)
  | project (projectId : Uuid)
  deriving DecidableEq, Repr

def RowLock.conflict : RowLock → RowLock → Bool
  | .userShare a, .userUpdate b => decide (a = b)
  | .userUpdate a, .userShare b => decide (a = b)
  | .userUpdate a, .userUpdate b => decide (a = b)
  | .project a, .project b => decide (a = b)
  | _, _ => false

theorem RowLock.conflict_comm (l l' : RowLock) : l.conflict l' = l'.conflict l := by
  cases l <;> cases l' <;> simp only [conflict, eq_comm]

/-- What an operation returns. -/
inductive Reply
  | project (project : Project)
  | member (member : Member)
  | account (status : UserStatus)
  | done
  deriving DecidableEq

abbrev ServiceTxn := Txn ProjectDb RowLock Failure Reply

def maxMembersPerProject : ℕ := 200

def ProjectStatus.authzState : ProjectStatus → Option ProjectState
  | .active => some .active
  | .archived => some .archived
  | .pendingDeletion => some .pendingDeletion
  | .deleted => none

def ownRow (kind : ResourceKind) (projectId userId : Uuid) : Resource :=
  { kind := kind, projectId := some projectId, ownerId := some userId }

def lockProject (projectId : Uuid) (next : ProjectDb → Option Project → ServiceTxn) : ServiceTxn :=
  .lock (.project projectId) (fun db => (db.projects.get projectId).isSome) fun db => next db (db.projects.get projectId)

def lockUserStatus (userId : Uuid) (next : Option UserStatus → ServiceTxn) : ServiceTxn :=
  .lock (.userShare userId) (fun db => (db.users.get userId).isSome) fun db =>
    next ((db.users.get userId).map UserRow.status)

/-- Leave without a change. -/
def unchanged (reply : Reply) : ServiceTxn := .commit fun db => .ok (db, reply)

section

variable (sink : AuditSink) (actor : Principal)

def authorizeOwn (capability : Capability) (resource : Resource) (next : ServiceTxn) : ServiceTxn :=
  let decision := authorize sink ⟨actor.userId, actor.systemRole, fun _ => none⟩ capability resource
  if decision.allowed then next else .raise (.project (.permissionDenied decision.reason))

/-- `_load`, with the lock. -/
def load (projectId : Uuid) (next : Project → ServiceTxn) : ServiceTxn :=
  lockProject projectId fun _ found =>
    match found with
    | none => .raise (.project .projectNotFound)
    | some project =>
      if project.status = .deleted then .raise (.project .projectNotFound) else next project

/-- The principal the Authorizer is asked about: the role is the one of the row just read. -/
def storedPrincipal (projectId : Uuid) (member : Option Member) : Principal where
  userId := actor.userId
  systemRole := actor.systemRole
  projectRoles id :=
    if id = projectId then (member.filter fun m => m.status.isActive).map Member.role else none

/-- `_guarded`, with the lock. -/
def guarded (capability : Capability) (projectId : Uuid) (next : Project → ServiceTxn) : ServiceTxn :=
  load projectId fun project =>
    .read fun db =>
      let member := db.members.get (projectId, actor.userId)
      match project.status.authzState with
      | none => .raise (.project .projectNotFound)
      | some state =>
        let decision := authorize sink (storedPrincipal actor project.id member) capability (.project project.id state)
        if decision.allowed then next project
        else if decision.reason = .auditUnavailable then .raise (.project (.permissionDenied decision.reason))
        else if member.any (fun m => m.status.isActive) = false then .raise (.project .projectNotFound)
        else if decision.reason = .projectStateForbids then .raise (.project (.projectState project.status))
        else .raise (.project (.permissionDenied decision.reason))

def requireActiveAccount (userId : Uuid) (next : ServiceTxn) : ServiceTxn :=
  lockUserStatus userId fun status =>
    if status ≠ none ∧ status ≠ some .active then .raise (.project .accountNotActive) else next

def requireManagerLeft (target : Member) (projectId : Uuid) (newRole : Option ProjectRole) (next : ServiceTxn) :
    ServiceTxn :=
  if target.status.isActive = false then next
  else if target.role ≠ .manager ∨ newRole = some .manager then next
  else
    .read fun db =>
      if managerWouldRemain (db.listLiveMembers projectId) target.userId newRole then next
      else .raise (.project .lastManager)

/-! ### Members and invitations -/

def createProject (newId : Uuid) (name : Text) (now : Instant) : ServiceTxn :=
  authorizeOwn sink actor .projectCreate .system <|
    requireActiveAccount actor.userId <|
      .commit fun db => do
        let project : Project := { id := newId, name, status := .active, createdBy := some actor.userId }
        let created ← db.insertProject project
        let manager : Member :=
          { projectId := newId, userId := actor.userId, role := .manager, status := .active now, invitedAt := now
            expiresLater := fun _ never => nomatch never }
        let db ← created.insertMember manager
        return (db, .project project)

/-- The new invitation of `invite_member`. -/
def invitation (projectId userId : Uuid) (role : ProjectRole) (now : Instant) : Member where
  projectId := projectId
  userId := userId
  role := role
  status := .invited (inviteExpiry now)
  invitedAt := now
  expiresLater expiry same := by
    cases same
    exact lt_inviteExpiry now

def withdrawExpired (state : InviteState) (projectId userId : Uuid) (db : ProjectDb) : ProjectDb :=
  if state = .expired then db.deleteMember projectId userId else db

def inviteMember (projectId userId : Uuid) (role : ProjectRole) (now : Instant) : ServiceTxn :=
  guarded sink actor .projectMembersManage projectId fun _ =>
    .read fun db =>
      if db.accountActive userId = false then .raise (.project .inviteeUnavailable)
      else
        .read fun db =>
          let state := inviteState (db.members.get (projectId, userId)) now
          if state = .member then .raise (.project .alreadyMember)
          else if state = .isOpen then .raise (.project .alreadyInvited)
          else
            .read fun db =>
              if maxMembersPerProject ≤ (withdrawExpired state projectId userId db).countMembers projectId now then
                .raise (.project .memberLimit)
              else
                .commit fun db => do
                  let member := invitation projectId userId role now
                  let db ← (withdrawExpired state projectId userId db).insertMember member
                  return (db, .member member)

/-- A project whose invitations can be answered (`_JOINABLE`). -/
def joinable (found : Option Project) : Bool := found.any fun project => project.status.isLive

def acceptInvite (projectId : Uuid) (now : Instant) : ServiceTxn :=
  authorizeOwn sink actor .projectInvitationRespond (ownRow .projectInvitation projectId actor.userId) <|
    lockUserStatus actor.userId fun status =>
      lockProject projectId fun _ found =>
        if joinable found = false then .raise (.project .inviteNotFound)
        else
          .read fun db =>
            let existing := db.members.get (projectId, actor.userId)
            match inviteState existing now, existing with
            | .none, _ => .raise (.project .inviteNotFound)
            | .expired, _ => .raise (.project .inviteExpired)
            | .member, some m => unchanged (.member m)
            | _, _ =>
              if status ≠ some .active then .raise (.project .accountNotActive)
              else
                .commit fun db => do
                  let (db, member) ← db.activateInvite projectId actor.userId now
                  return (db, .member member)

def declineInvite (projectId : Uuid) (now : Instant) : ServiceTxn :=
  authorizeOwn sink actor .projectInvitationRespond (ownRow .projectInvitation projectId actor.userId) <|
    lockProject projectId fun _ found =>
      if joinable found = false then .raise (.project .inviteNotFound)
      else
        .read fun db =>
          let state := inviteState (db.members.get (projectId, actor.userId)) now
          if state = .isOpen ∨ state = .expired then .commit fun db => .ok (db.deleteMember projectId actor.userId, .done)
          else .raise (.project .inviteNotFound)

def removeMember (projectId userId : Uuid) : ServiceTxn :=
  guarded sink actor .projectMembersManage projectId fun _ =>
    .read fun db =>
      match db.members.get (projectId, userId) with
      | none => .raise (.project .memberNotFound)
      | some target =>
        requireManagerLeft target projectId none <|
          .commit fun db => .ok (db.deleteMember projectId userId, .done)

def leaveProject (projectId : Uuid) : ServiceTxn :=
  authorizeOwn sink actor .projectLeave (ownRow .projectMembership projectId actor.userId) <|
    load projectId fun project =>
      .read fun db =>
        match db.members.get (projectId, actor.userId) with
        | none => .raise (.project .projectNotFound)
        | some member =>
          let leave : ServiceTxn := .commit fun db => .ok (db.deleteMember projectId actor.userId, .done)
          if member.status.isActive = false then .raise (.project .projectNotFound)
          else if project.status ≠ .pendingDeletion then requireManagerLeft member projectId none leave
          else leave

def changeRole (projectId userId : Uuid) (role : ProjectRole) : ServiceTxn :=
  guarded sink actor .projectMembersManage projectId fun _ =>
    .read fun db =>
      match db.members.get (projectId, userId) with
      | none => .raise (.project .memberNotFound)
      | some target =>
        let change : ServiceTxn :=
          requireManagerLeft target projectId (some role) <|
            .commit fun db => do
              let (db, member) ← db.setMemberRole projectId userId role
              return (db, .member member)
        if target.status.isActive = false then .raise (.project .memberNotFound)
        else if target.role = role then unchanged (.member target)
        else if role = .manager then requireActiveAccount userId change
        else change

/-! ### The lifecycle -/

/-- What `_lifecycle` commits, with the deletion timestamps of a project whose deletion begins. -/
def commitLifecycle (projectId : Uuid) (action : LifecycleAction) (status : ProjectStatus) (now : Instant) :
    ServiceTxn :=
  .commit fun db => do
    let times := if action = .beginDeletion then some now else none
    let (db, project) ← db.setLifecycle projectId status times (times.map deletionSchedule)
    return (if action = .beginDeletion then db.requestTaskStop projectId now else db, .project project)

def lifecycle (projectId : Uuid) (action : LifecycleAction) (confirmName : Option Text) (now : Instant) : ServiceTxn :=
  guarded sink actor .projectLifecycleManage projectId fun project =>
    if confirmName ≠ none ∧ confirmName ≠ some project.name then .raise (.project .confirmationMismatch)
    else
      match planTransition project.status action with
      | none => .raise (.project (.illegalTransition project.status action))
      | some plan =>
        if plan.changed = false then unchanged (.project project)
        else if action = .restore then
          if project.deletionScheduledAt.any (fun deadline => restoreWindowOpen deadline now) = false then
            .raise (.project .deletionWindowClosed)
          else
            .read fun db =>
              if (db.listLiveMembers projectId).any (fun m => decide (m.role = .manager)) = false then
                .raise (.project .noManager)
              else commitLifecycle projectId action plan.newStatus now
        else commitLifecycle projectId action plan.newStatus now

def archive (projectId : Uuid) (now : Instant) : ServiceTxn := lifecycle sink actor projectId .archive none now

def unarchive (projectId : Uuid) (now : Instant) : ServiceTxn := lifecycle sink actor projectId .unarchive none now

def beginDeletion (projectId : Uuid) (confirmName : Text) (now : Instant) : ServiceTxn :=
  lifecycle sink actor projectId .beginDeletion (some confirmName) now

def restore (projectId : Uuid) (now : Instant) : ServiceTxn := lifecycle sink actor projectId .restore none now

end

/-! ### Accounts -/

section

variable (actor : Principal)

def mayAdminister (target : SystemRole) : Bool :=
  match actor.systemRole with
  | .owner => decide (target = .user ∨ target = .admin)
  | .admin => decide (target = .user)
  | _ => false

/-- The locks of `_is_last_manager_in`, one project after the other. -/
def lockProjects (next : ServiceTxn) : List Uuid → ServiceTxn
  | [] => next
  | projectId :: rest => lockProject projectId fun _ _ => lockProjects next rest

/-- `_set_status_in` and the end of the transaction. -/
def commitStatus (userId : Uuid) (old new : UserStatus) (now : Instant) : ServiceTxn :=
  .commit fun db => do
    let db ← db.setStatus userId old new now
    return (db, .account new)

/-- `_administer`: the Step-up first, then the user's row. -/
def administer (userId : Uuid) (steppedUp ownerOnly : Bool) (change : UserRow → ServiceTxn) : ServiceTxn :=
  if steppedUp = false then .raise (.account .stepUpRequired)
  else
    .lock (.userUpdate userId) (fun db => (db.users.get userId).isSome) fun db =>
      match db.users.get userId with
      | none => .raise (.account .accountNotFound)
      | some row =>
        if row.systemRole = .owner then .raise (.account .accountNotFound)
        else if ownerOnly = false ∧ mayAdminister actor row.systemRole = false then .raise (.account .authPermission)
        else change row

def deleteUser (userId : Uuid) (steppedUp : Bool) (now : Instant) : ServiceTxn :=
  if (actor.systemRole ≠ .owner ∧ actor.systemRole ≠ .admin) ∨ userId = actor.userId then
    .raise (.account .authPermission)
  else
    administer actor userId steppedUp false fun row =>
      if row.status = .invited then commitStatus userId .invited .deleted now
      else if row.status ≠ .active then .raise (.account .accountState)
      else
        .read fun db =>
          lockProjects
            (.read fun db =>
              if db.isLastManager userId then .raise (.account .ownershipTransferRequired)
              else commitStatus userId .active .pendingDeletion now)
            (db.managedProjectIds userId)

/-- How long a deleted user is kept. -/
def retention : Instant := 30 * day

/-- `restore_user`; `clock` is the later of the two clocks it looks at. -/
def restoreUser (userId : Uuid) (steppedUp : Bool) (now clock : Instant) : ServiceTxn :=
  if actor.systemRole ≠ .owner then .raise (.account .authPermission)
  else
    administer actor userId steppedUp true fun row =>
      if row.status ≠ .pendingDeletion then .raise (.account .accountState)
      else
        .read fun db =>
          if (db.lastDeletion userId).any (fun changedAt => decide (clock < changedAt + retention)) = false then
            .raise (.account .retentionExpired)
          else commitStatus userId .pendingDeletion .active now

end

/-! ### The system -/

inductive Operation
  | createProject (sink : AuditSink) (actor : Principal) (newId : Uuid) (name : Text) (now : Instant)
  | inviteMember (sink : AuditSink) (actor : Principal) (projectId userId : Uuid) (role : ProjectRole) (now : Instant)
  | acceptInvite (sink : AuditSink) (actor : Principal) (projectId : Uuid) (now : Instant)
  | declineInvite (sink : AuditSink) (actor : Principal) (projectId : Uuid) (now : Instant)
  | removeMember (sink : AuditSink) (actor : Principal) (projectId userId : Uuid)
  | leaveProject (sink : AuditSink) (actor : Principal) (projectId : Uuid)
  | changeRole (sink : AuditSink) (actor : Principal) (projectId userId : Uuid) (role : ProjectRole)
  | archive (sink : AuditSink) (actor : Principal) (projectId : Uuid) (now : Instant)
  | unarchive (sink : AuditSink) (actor : Principal) (projectId : Uuid) (now : Instant)
  | beginDeletion (sink : AuditSink) (actor : Principal) (projectId : Uuid) (confirmName : Text) (now : Instant)
  | restore (sink : AuditSink) (actor : Principal) (projectId : Uuid) (now : Instant)
  | deleteUser (actor : Principal) (userId : Uuid) (steppedUp : Bool) (now : Instant)
  | restoreUser (actor : Principal) (userId : Uuid) (steppedUp : Bool) (now clock : Instant)

def Operation.txn : Operation → ServiceTxn
  | .createProject sink actor newId name now => Projects.createProject sink actor newId name now
  | .inviteMember sink actor projectId userId role now => Projects.inviteMember sink actor projectId userId role now
  | .acceptInvite sink actor projectId now => Projects.acceptInvite sink actor projectId now
  | .declineInvite sink actor projectId now => Projects.declineInvite sink actor projectId now
  | .removeMember sink actor projectId userId => Projects.removeMember sink actor projectId userId
  | .leaveProject sink actor projectId => Projects.leaveProject sink actor projectId
  | .changeRole sink actor projectId userId role => Projects.changeRole sink actor projectId userId role
  | .archive sink actor projectId now => Projects.archive sink actor projectId now
  | .unarchive sink actor projectId now => Projects.unarchive sink actor projectId now
  | .beginDeletion sink actor projectId confirmName now => Projects.beginDeletion sink actor projectId confirmName now
  | .restore sink actor projectId now => Projects.restore sink actor projectId now
  | .deleteUser actor userId steppedUp now => Projects.deleteUser actor userId steppedUp now
  | .restoreUser actor userId steppedUp now clock => Projects.restoreUser actor userId steppedUp now clock

def redeem (userId : Uuid) (db : ProjectDb) : ProjectDb :=
  let users := db.users.update (fun row => decide (row.id = userId ∧ row.status = .invited))
    (fun row => { row with status := .active }) fun _ _ => rfl
  { db with users }

def service : Transactional ProjectDb RowLock Failure Reply Operation Uuid where
  conflict := RowLock.conflict
  symmetric := RowLock.conflict_comm
  program := Operation.txn
  ambient := redeem

/-- Users of any kind, and no project yet. -/
def noProjects (db : ProjectDb) : Prop := db.projects = .empty ∧ db.members = .empty

end PawBackend.Projects
