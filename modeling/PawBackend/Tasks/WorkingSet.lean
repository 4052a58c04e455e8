/-
**The rules of a Working Set that need no database** (`tasks/working_set.py`, `tasks/records.py`).

What a role lets a call do on a repository, when a change counts as discarded, and what a repository of an attempt
owes before the task completes.
-/

import PawBackend.Authz.Capabilities
import PawBackend.Tasks.Domain

namespace PawBackend.Tasks

open Lib
open Authz (Capability RepoPermission)
open Tools (Uuid Instant TaskRun)

/-! ### Records -/

inductive StepStatus
  | running
  | succeeded
  | failed
  | interrupted
  deriving DecidableEq, Repr

inductive ToolInvocationStatus
  | started
  | succeeded
  | failed
  | interrupted
  deriving DecidableEq, Repr

inductive ReviewStatus
  | notStarted
  | inReview
  | approved
  | changesRequested
  deriving DecidableEq, Repr

inductive EvaluationResult
  | notRun
  | passed
  | failed
  deriving DecidableEq, Repr

inductive PullRequestState
  | draft
  | opened
  | merged
  | closed
  deriving DecidableEq, Repr

structure PullRequestInfo where
  number : ℤ
  url : Text
  state : PullRequestState
  deriving DecidableEq, Repr

structure WorktreeState where
  branch : Option Text := none
  path : Option Text := none
  headCommit : Option Text := none
  deriving DecidableEq, Repr

structure ReviewState where
  reviewStatus : ReviewStatus := .notStarted
  evaluationResult : EvaluationResult := .notRun
  deriving DecidableEq, Repr

structure RepositoryChangeState where
  clean : Bool
  headCommit : Option Text
  branchPushed : Bool
  openPullRequest : Bool
  deriving DecidableEq, Repr

/-! ### What a role allows -/

/-- `ROLE_GATED_CAPABILITIES`. -/
def isRoleGated (capability : Capability) : Bool :=
  decide (capability = .projectRepoWrite ∨ capability = .projectPrCreate)

/-- `ROLE_WRITE_CEILING`. -/
def RepoRole.ceiling : RepoRole → List Capability
  | .referenced => []
  | .working => [.projectRepoWrite]
  | .target => [.projectRepoWrite, .projectPrCreate]

/-- `EXECUTING_ROLES`. -/
def RepoRole.mayExecute (role : RepoRole) : Bool := decide (role = .working ∨ role = .target)

def roleAllows (role : RepoRole) (capability : Capability) (executes : Bool) : Bool :=
  if isRoleGated capability && !decide (capability ∈ role.ceiling) then false
  else !executes || role.mayExecute

def marksChanged (capability : Capability) (executes : Bool) : Bool := executes || isRoleGated capability

/-- `required_permission`: what a change of the Working Set needs on the repository. -/
def requiredPermission (operation : WorkingSetOperation) (current : Option RepoRole) : RepoPermission :=
  if operation = .addReferenced then .read
  else if operation = .setWorking ∨ operation = .setTarget then .write
  else if current = none ∨ current = some .referenced then .read
  else .write

/-- `WRITE_RESERVATION_SECONDS`, in microseconds. -/
def writeReservation : ℤ := (86400 + 900) * 10 ^ 6

variable {weak strong : RepoRole} {capability : Capability}

theorem RepoRole.ceiling_mono (stronger : weak.strength ≤ strong.strength)
    (mem : capability ∈ weak.ceiling) : capability ∈ strong.ceiling := by
  cases weak <;> cases strong <;> simp_all [RepoRole.strength, RepoRole.ceiling]

theorem RepoRole.mayExecute_mono (stronger : weak.strength ≤ strong.strength)
    (may : weak.mayExecute = true) : strong.mayExecute = true := by
  cases weak <;> cases strong <;> simp_all [RepoRole.strength, RepoRole.mayExecute]

theorem roleAllows_iff {role : RepoRole} {executes : Bool} :
    roleAllows role capability executes = true ↔
      (isRoleGated capability = true → capability ∈ role.ceiling) ∧
        (executes = true → role.mayExecute = true) := by
  unfold roleAllows
  cases isRoleGated capability <;> by_cases mem : capability ∈ role.ceiling <;> cases executes <;>
    simp [mem]

theorem roleAllows_mono {executes : Bool}
    (stronger : weak.strength ≤ strong.strength) (allowed : roleAllows weak capability executes = true) :
    roleAllows strong capability executes = true := by
  rw [roleAllows_iff] at allowed ⊢
  exact ⟨fun gated => RepoRole.ceiling_mono stronger (allowed.1 gated),
    fun runs => RepoRole.mayExecute_mono stronger (allowed.2 runs)⟩

/-! ### Discarded changes -/

/-- `verify_discarded`: what the inspector found, when the change is verifiably discarded. -/
def verifyDiscarded (found : Option RepositoryChangeState) (startingCommit : Option Text)
    (openPullRequest : Bool) : Option RepositoryChangeState :=
  if openPullRequest ∨ startingCommit = none then none
  else found.filter fun found =>
    found.clean && decide (found.headCommit = startingCommit) && !found.branchPushed && !found.openPullRequest

/-! ### Completion -/

structure AttemptRepositoryFacts where
  repositoryId : Uuid
  role : Option RepoRole
  startingCommit : Option Text
  strongestRole : RepoRole
  modified : Bool
  headCommit : Option Text
  evaluation : EvaluationResult
  review : ReviewStatus
  pullRequest : Option PullRequestState
  deriving DecidableEq, Repr

/-- `DELIVERED_PULL_REQUEST_STATES`. -/
def isDelivered (pullRequest : Option PullRequestState) : Bool :=
  decide (pullRequest = some .opened ∨ pullRequest = some .merged)

def wasChanged (facts : AttemptRepositoryFacts) : Bool :=
  if facts.modified ∨ facts.pullRequest ≠ none then true
  else if facts.headCommit = none then false
  else decide (facts.startingCommit = none ∨ facts.headCommit ≠ facts.startingCommit)

def RepoRole.stronger (role strongest : RepoRole) : RepoRole :=
  if strongest.strength < role.strength then role else strongest

def obligation (facts : AttemptRepositoryFacts) : Option RepoRole :=
  if facts.role = some .target then some .target
  else if !wasChanged facts then none
  else
    let strongest := facts.role.elim facts.strongestRole fun role => role.stronger facts.strongestRole
    if strongest = .target then some .target else some .working

def meets (facts : AttemptRepositoryFacts) (role : RepoRole) : Bool :=
  if facts.evaluation ≠ .passed then false
  else if role ≠ .target then true
  else isDelivered facts.pullRequest && decide (facts.review = .approved)

def unmetRepositories (facts : List AttemptRepositoryFacts) : List Uuid :=
  (facts.filter fun item => (obligation item).any fun needed => !meets item needed).map
    AttemptRepositoryFacts.repositoryId

theorem meets_of_unmet_nil {facts : List AttemptRepositoryFacts} (unmet : unmetRepositories facts = [])
    {item : AttemptRepositoryFacts} (mem : item ∈ facts) {needed : RepoRole}
    (owed : obligation item = some needed) : meets item needed = true := by
  rw [unmetRepositories, List.map_eq_nil_iff, List.filter_eq_nil_iff] at unmet
  simpa [owed] using unmet item mem

end PawBackend.Tasks
