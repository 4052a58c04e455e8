/-
**The rows behind the projects** (`projects/store.py`, `projects/models.py`; `auth/onboarding/lifecycle.py`:
`TRANSITIONS`, `_set_status_in`).

One definition for each statement that the service sends.
-/

import Mathlib.Data.List.MinMax
import PawBackend.Projects.Domain

namespace PawBackend.Projects

open Lib
open Tools (Uuid Instant)
open Authz (ProjectRole Reason SystemRole)

/-! ### Errors -/

inductive ProjectError
  | projectNotFound
  | permissionDenied (reason : Reason)
  | projectState (status : ProjectStatus)
  | illegalTransition (status : ProjectStatus) (action : LifecycleAction)
  | deletionWindowClosed
  | confirmationMismatch
  | noManager
  | lastManager
  | memberNotFound
  | inviteNotFound
  | inviteExpired
  | alreadyMember
  | alreadyInvited
  | inviteeUnavailable
  | accountNotActive
  | memberLimit
  deriving DecidableEq, Repr

inductive AccountError
  | accountNotFound
  | accountState
  | authPermission
  | ownershipTransferRequired
  | retentionExpired
  | stepUpRequired
  deriving DecidableEq, Repr

/-- Why an operation ends without its change; the last two are errors of the database. -/
inductive Failure
  | project (error : ProjectError)
  | account (error : AccountError)
  | integrity
  | noResultFound
  deriving DecidableEq, Repr

/-! ### Tables -/

inductive UserStatus
  | invited
  | active
  | pendingDeletion
  | deleted
  deriving DecidableEq, Repr

structure UserRow where
  id : Uuid
  systemRole : SystemRole
  status : UserStatus
  deriving DecidableEq, Repr

/-- A row of `user_status_changes`. -/
structure UserStatusChange where
  userId : Uuid
  newStatus : UserStatus
  changedAt : Instant
  deriving DecidableEq, Repr

/-- A row of `project_task_stops`. -/
structure ProjectTaskStop where
  projectId : Uuid
  requestedAt : Instant
  processedAt : Option Instant := none
  deriving DecidableEq, Repr

def Member.key (m : Member) : Uuid × Uuid := (m.projectId, m.userId)

structure ProjectDb where
  users : Keyed UserRow.id
  userStatusChanges : List UserStatusChange
  projects : Keyed Project.id
  members : Keyed Member.key
  taskStops : Keyed ProjectTaskStop.projectId

namespace ProjectDb

variable (db : ProjectDb)

def manages (projectId userId : Uuid) : Bool := (db.members.get (projectId, userId)).any Member.isManager

/-- `user_is_active`. -/
def accountActive (userId : Uuid) : Bool := (db.users.get userId).any fun row => decide (row.status = .active)

/-! ### Statements that read -/

/-- `list_live_members`, but for the order. -/
def listLiveMembers (projectId : Uuid) : List Member :=
  db.members.rows.filter fun m =>
    decide (m.projectId = projectId) && m.status.isActive && db.accountActive m.userId

def countMembers (projectId : Uuid) (now : Instant) : ℕ :=
  db.members.rows.countP fun m =>
    decide (m.projectId = projectId) &&
      match m.status with
      | .active _ => true
      | .invited expiry => decide (now < expiry)

def managedProjectIds (userId : Uuid) : List Uuid :=
  ((db.projects.rows.filter fun row => db.manages row.id userId).map Project.id).mergeSort fun a b => decide (a ≤ b)

/-- The second statement of `_is_last_manager_in`. -/
def isLastManager (userId : Uuid) : Bool :=
  db.members.rows.any fun m =>
    decide (m.userId = userId) && m.isManager &&
      (db.projects.get m.projectId).any (fun row => row.status.isLive) &&
      !db.members.rows.any fun o =>
        decide (o.projectId = m.projectId) && decide (o.userId ≠ userId) && o.isManager && db.accountActive o.userId

def lastDeletion (userId : Uuid) : Option Instant :=
  ((db.userStatusChanges.filter fun change =>
    decide (change.userId = userId ∧ change.newStatus = .pendingDeletion)).map UserStatusChange.changedAt).max?

/-! ### Statements that write -/

/-- `insert_project`, with the id the database gave it. -/
def insertProject (project : Project) : Except Failure ProjectDb :=
  match db.projects.tryInsert project with
  | some projects => .ok { db with projects }
  | none => .error .integrity

/-- `insert_member`: the project and the user exist, and the user has no row there. -/
def insertMember (member : Member) : Except Failure ProjectDb :=
  if (db.users.get member.userId).isNone ∨ (db.projects.get member.projectId).isNone then .error .integrity
  else
    match db.members.tryInsert member with
    | some members => .ok { db with members }
    | none => .error .integrity

def activateInvite (projectId userId : Uuid) (joinedAt : Instant) : Except Failure (ProjectDb × Member) :=
  match db.members.get (projectId, userId) with
  | none => .error .noResultFound
  | some m =>
    if m.status.isActive then .error .noResultFound
    else
      let member : Member := { m with status := .active joinedAt, expiresLater := fun _ never => nomatch never }
      .ok ({ db with members := db.members.put member }, member)

def setMemberRole (projectId userId : Uuid) (role : ProjectRole) : Except Failure (ProjectDb × Member) :=
  match db.members.get (projectId, userId) with
  | none => .error .noResultFound
  | some m =>
    if m.status.isActive then .ok ({ db with members := db.members.put { m with role } }, { m with role })
    else .error .noResultFound

def deleteMember (projectId userId : Uuid) : ProjectDb :=
  { db with members := db.members.remove fun m => decide (m.key = (projectId, userId)) }

def setLifecycle (projectId : Uuid) (status : ProjectStatus) (deletionStartedAt deletionScheduledAt : Option Instant) :
    Except Failure (ProjectDb × Project) :=
  match db.projects.get projectId with
  | none => .error .noResultFound
  | some row =>
    let project := { row with status, deletionStartedAt, deletionScheduledAt }
    .ok ({ db with projects := db.projects.put project }, project)

def requestTaskStop (projectId : Uuid) (now : Instant) : ProjectDb :=
  { db with taskStops := db.taskStops.put { projectId, requestedAt := now } }

end ProjectDb

def transitionAllowed : UserStatus → UserStatus → Bool
  | .invited, .active | .invited, .deleted | .active, .pendingDeletion | .pendingDeletion, .active => true
  | _, _ => false

/-- `_set_status_in`, with the function `paw_change_user_status` of the database. -/
def ProjectDb.setStatus (db : ProjectDb) (userId : Uuid) (old new : UserStatus) (now : Instant) :
    Except Failure ProjectDb :=
  if transitionAllowed old new = false then .error (.account .accountState)
  else
    match db.users.get userId with
    | none => .error (.account .accountState)
    | some row =>
      if row.status = old ∧ row.systemRole ≠ .owner then
        .ok { db with
          users := db.users.put { row with status := new }
          userStatusChanges := db.userStatusChanges ++ [⟨userId, new, now⟩] }
      else .error (.account .accountState)

namespace ProjectDb

variable {db db' : ProjectDb} {projectId userId : Uuid}

/-! ### What a write changes -/

theorem manages_iff :
    db.manages projectId userId = true ↔
      ∃ m ∈ db.members.rows, m.projectId = projectId ∧ m.userId = userId ∧ m.isManager = true := by
  unfold manages
  rw [Option.any_eq_true]
  constructor
  · rintro ⟨m, found, manager⟩
    have same := Keyed.key_of_get found
    exact ⟨m, Keyed.mem_of_get found, congrArg Prod.fst same, congrArg Prod.snd same, manager⟩
  · rintro ⟨m, member, rfl, rfl, manager⟩
    exact ⟨m, Keyed.get_self member, manager⟩

theorem accountActive_iff :
    db.accountActive userId = true ↔ ∃ row, db.users.get userId = some row ∧ row.status = .active := by
  unfold accountActive
  rw [Option.any_eq_true]
  simp only [decide_eq_true_eq]

structure MembershipChange (db db' : ProjectDb) (projectId userId : Uuid) : Prop where
  users : db'.users = db.users
  projects : db'.projects = db.projects
  others : ∀ k, k ≠ (projectId, userId) → db'.members.get k = db.members.get k

theorem MembershipChange.trans {a b c : ProjectDb} (first : MembershipChange a b projectId userId)
    (second : MembershipChange b c projectId userId) : MembershipChange a c projectId userId where
  users := second.users.trans first.users
  projects := second.projects.trans first.projects
  others k other := (second.others k other).trans (first.others k other)

theorem insertMember_ok {member : Member} (inserted : db.insertMember member = .ok db') :
    MembershipChange db db' member.projectId member.userId ∧
      db'.members.get (member.projectId, member.userId) = some member ∧
      db.members.get (member.projectId, member.userId) = none ∧
      db.users.get member.userId ≠ none ∧ db.projects.get member.projectId ≠ none := by
  unfold insertMember at inserted
  split_ifs at inserted with foreign
  rw [not_or, Option.isNone_iff_eq_none, Option.isNone_iff_eq_none] at foreign
  cases added : db.members.tryInsert member with
  | none =>
    rw [added] at inserted
    cases inserted
  | some members =>
    rw [added] at inserted
    cases inserted
    have found := fun k => Keyed.get_of_tryInsert added k
    refine ⟨⟨rfl, rfl, fun k other => ?_⟩, ?_, Keyed.fresh_of_tryInsert added, foreign.1, foreign.2⟩
    · exact (found k).trans (if_neg other)
    · exact (found _).trans (if_pos rfl)

theorem activateInvite_ok {joinedAt : Instant} {member : Member}
    (activated : db.activateInvite projectId userId joinedAt = .ok (db', member)) :
    MembershipChange db db' projectId userId ∧ db'.members.get (projectId, userId) = some member ∧
      ∃ m, db.members.get (projectId, userId) = some m ∧ m.status.isActive = false := by
  unfold activateInvite at activated
  cases found : db.members.get (projectId, userId) with
  | none =>
    rw [found] at activated
    cases activated
  | some m =>
    rw [found] at activated
    dsimp only at activated
    split_ifs at activated with active
    cases activated
    have same : m.key = (projectId, userId) := Keyed.key_of_get found
    refine ⟨⟨rfl, rfl, fun k other => ?_⟩, ?_, m, rfl, Bool.eq_false_of_not_eq_true active⟩
    · exact (Keyed.get_put _ _ _).trans (if_neg (same ▸ other))
    · exact (Keyed.get_put _ _ _).trans (if_pos same.symm)

theorem setMemberRole_ok {role : ProjectRole} {member : Member}
    (changed : db.setMemberRole projectId userId role = .ok (db', member)) :
    MembershipChange db db' projectId userId ∧ db'.members.get (projectId, userId) = some member ∧
      member.role = role ∧ member.status.isActive = true ∧ ∃ m, db.members.get (projectId, userId) = some m := by
  unfold setMemberRole at changed
  cases found : db.members.get (projectId, userId) with
  | none =>
    rw [found] at changed
    cases changed
  | some m =>
    rw [found] at changed
    dsimp only at changed
    split_ifs at changed with active
    cases changed
    have same : m.key = (projectId, userId) := Keyed.key_of_get found
    refine ⟨⟨rfl, rfl, fun k other => ?_⟩, ?_, rfl, active, m, rfl⟩
    · exact (Keyed.get_put _ _ _).trans (if_neg (same ▸ other))
    · exact (Keyed.get_put _ _ _).trans (if_pos same.symm)

theorem deleteMember_change (db : ProjectDb) (projectId userId : Uuid) :
    MembershipChange db (db.deleteMember projectId userId) projectId userId := by
  refine ⟨rfl, rfl, fun k other => (Keyed.get_remove _ _ _).trans ?_⟩
  cases found : db.members.get k with
  | none => rfl
  | some m =>
    have same : m.key ≠ (projectId, userId) := fun same => other ((Keyed.key_of_get found).symm.trans same)
    exact Option.filter_some_pos (by simpa using same)

theorem get_deleteMember (db : ProjectDb) (projectId userId : Uuid) :
    (db.deleteMember projectId userId).members.get (projectId, userId) = none := by
  refine (Keyed.get_remove _ _ _).trans ?_
  cases found : db.members.get (projectId, userId) with
  | none => rfl
  | some m => exact Option.filter_some_neg (by simp [Keyed.key_of_get found])

structure ProjectChange (db db' : ProjectDb) (projectId : Uuid) (project : Project) : Prop where
  users : db'.users = db.users
  members : db'.members = db.members
  others : ∀ id, id ≠ projectId → db'.projects.get id = db.projects.get id
  found : db'.projects.get projectId = some project

theorem setLifecycle_ok {status : ProjectStatus} {started scheduled : Option Instant} {project : Project}
    (changed : db.setLifecycle projectId status started scheduled = .ok (db', project)) :
    ProjectChange db db' projectId project ∧ project.status = status ∧ db.projects.get projectId ≠ none := by
  unfold setLifecycle at changed
  cases found : db.projects.get projectId with
  | none =>
    rw [found] at changed
    cases changed
  | some row =>
    rw [found] at changed
    cases changed
    have same : row.id = projectId := Keyed.key_of_get found
    refine ⟨⟨rfl, rfl, fun id other => ?_, ?_⟩, rfl, Option.some_ne_none row⟩
    · exact (Keyed.get_put _ _ _).trans (if_neg (same ▸ other))
    · exact (Keyed.get_put _ _ _).trans (if_pos same.symm)

theorem setStatus_ok {old new : UserStatus} {now : Instant} (changed : db.setStatus userId old new now = .ok db') :
    transitionAllowed old new = true ∧ db'.projects = db.projects ∧ db'.members = db.members ∧
      (∀ id, id ≠ userId → db'.users.get id = db.users.get id) ∧
      ∃ row, db.users.get userId = some row ∧ row.status = old ∧
        db'.users.get userId = some { row with status := new } := by
  unfold setStatus at changed
  split_ifs at changed with allowed
  cases found : db.users.get userId with
  | none =>
    rw [found] at changed
    cases changed
  | some row =>
    rw [found] at changed
    dsimp only at changed
    split_ifs at changed with fits
    cases changed
    have same : row.id = userId := Keyed.key_of_get found
    refine ⟨Bool.eq_true_of_not_eq_false allowed, rfl, rfl, fun id other => ?_, row, rfl, fits.1, ?_⟩
    · exact (Keyed.get_put _ _ _).trans (if_neg (same ▸ other))
    · exact (Keyed.get_put _ _ _).trans (if_pos same.symm)

end ProjectDb

end PawBackend.Projects
