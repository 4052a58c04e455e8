/-
**The rules of a project's life and of its membership** (`projects/records.py`, `projects/domain.py`).

A membership row is an invitation, which has an expiry, or an accepted member, who has a time of joining. A datetime
is an instant: the checks that refuse a naive one are about values the types here exclude.
-/

import PawBackend.Authz.Policy

namespace PawBackend.Projects

open Lib
open Tools (Uuid Instant)
open Authz (ProjectRole ProjectState)

inductive ProjectStatus
  | active
  | archived
  | pendingDeletion
  | deleted
  deriving DecidableEq, Repr

inductive LifecycleAction
  | archive
  | unarchive
  | beginDeletion
  | restore
  | purge
  deriving DecidableEq, Repr

inductive InviteState
  | none
  | isOpen
  | expired
  | member
  deriving DecidableEq, Repr

inductive MemberStatus
  | invited (inviteExpiresAt : Instant)
  | active (joinedAt : Instant)
  deriving DecidableEq, Repr

/-- A membership row; an invitation expires after it was made. -/
structure Member where
  projectId : Uuid
  userId : Uuid
  role : ProjectRole
  status : MemberStatus
  invitedAt : Instant
  expiresLater : ∀ expiry, status = .invited expiry → invitedAt < expiry
  deriving DecidableEq

structure Project where
  id : Uuid
  name : Text
  status : ProjectStatus
  createdBy : Option Uuid
  deletionStartedAt : Option Instant := none
  deletionScheduledAt : Option Instant := none
  deriving DecidableEq, Repr

structure TransitionPlan where
  newStatus : ProjectStatus
  changed : Bool
  deriving DecidableEq, Repr

/-! ### The lifecycle -/

/-- `plan_transition`; without a plan the transition is illegal. -/
def planTransition : ProjectStatus → LifecycleAction → Option TransitionPlan
  | .active, .archive => some ⟨.archived, true⟩
  | .active, .unarchive => some ⟨.active, false⟩
  | .active, .beginDeletion => some ⟨.pendingDeletion, true⟩
  | .archived, .archive => some ⟨.archived, false⟩
  | .archived, .unarchive => some ⟨.active, true⟩
  | .archived, .beginDeletion => some ⟨.pendingDeletion, true⟩
  | .archived, .restore => some ⟨.archived, false⟩
  | .pendingDeletion, .beginDeletion => some ⟨.pendingDeletion, false⟩
  | .pendingDeletion, .restore => some ⟨.archived, true⟩
  | .pendingDeletion, .purge => some ⟨.deleted, true⟩
  | _, _ => none

def day : Instant := 24 * 60 * 60 * 10 ^ 6

def deletionSchedule (startedAt : Instant) : Instant := startedAt + 30 * day

def restoreWindowOpen (scheduledAt now : Instant) : Bool := decide (now < scheduledAt)

def inviteExpiry (invitedAt : Instant) : Instant := invitedAt + 14 * day

theorem lt_inviteExpiry (invitedAt : Instant) : invitedAt < inviteExpiry invitedAt :=
  lt_add_of_pos_right invitedAt (by decide)

/-- A project that is used, or could be at once. -/
def ProjectStatus.isLive (status : ProjectStatus) : Bool := decide (status = .active ∨ status = .archived)

theorem planTransition_live {status : ProjectStatus} {action : LifecycleAction} {plan : TransitionPlan}
    (planned : planTransition status action = some plan) (live : plan.newStatus.isLive = true) :
    status.isLive = true ∨ action = .restore := by
  cases status <;> cases action <;> simp_all [planTransition, ProjectStatus.isLive]
  all_goals
    subst planned
    simp at live

/-! ### Members -/

/-- `member.status is MemberStatus.ACTIVE`. -/
def MemberStatus.isActive : MemberStatus → Bool
  | .invited _ => false
  | .active _ => true

def Member.isManager (m : Member) : Bool := m.status.isActive && decide (m.role = .manager)

def inviteState (existing : Option Member) (now : Instant) : InviteState :=
  match existing with
  | none => .none
  | some member =>
    match member.status with
    | .active _ => .member
    | .invited expiry => if now < expiry then .isOpen else .expired

def managerWouldRemain (members : List Member) (userId : Uuid) (newRole : Option ProjectRole) : Bool :=
  members.any fun m =>
    m.status.isActive &&
      if m.userId = userId then decide (newRole = some .manager) else decide (m.role = .manager)

theorem managerWouldRemain_iff {members : List Member} {userId : Uuid} {newRole : Option ProjectRole}
    (lowered : newRole ≠ some .manager) :
    managerWouldRemain members userId newRole = true ↔ ∃ m ∈ members, m.isManager = true ∧ m.userId ≠ userId := by
  unfold managerWouldRemain
  rw [List.any_eq_true]
  refine exists_congr fun m => and_congr_right fun _ => ?_
  unfold Member.isManager
  by_cases same : m.userId = userId
  · simp [same, lowered]
  · simp [same]

theorem isActive_of_inviteState {existing : Option Member} (now : Instant) {m : Member} (found : existing = some m)
    (isMember : inviteState existing now ≠ .member) : m.status.isActive = false := by
  subst found
  cases status : m.status with
  | invited expiry => rfl
  | active joined => exact absurd (by simp [inviteState, status]) isMember

end PawBackend.Projects
